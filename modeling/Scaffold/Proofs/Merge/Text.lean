import Scaffold.Merge.Text
import Scaffold.Proofs.Region.Block

/-!
# Where blocks go

A merge puts a block in place of the region of its unit, behind the text, or in place of the text
(`Outcome`). In each case the new text is the block between surroundings in which no region comes
from the unit (`exists_place`), and a merge of the same content leaves such a text as it is
(`text_eq_self`).
-/

namespace Scaffold.Merge

open Region

variable {render : Template.Renderer}

/-! ### What a merge can do -/

/-- What a merge of a block does, by the regions of the file. -/
inductive Outcome (input : MergeInput) (fresh : String) : Option String → Prop where
  /-- There is no file. -/
  | missing (h : input.destination? = none) :
    Outcome input fresh (append input.options.appendStrategy none fresh)
  /-- No region of the file comes from the unit. -/
  | unmatched {s : String} {rs : List Region} (h : input.destination? = some s)
      (hs : scan input.delimiters s = .ok rs)
      (hf : rs.filter (·.matchesUnit input.identity.unit) = []) :
    Outcome input fresh (append input.options.appendStrategy (some s) fresh)
  /-- One region of the file does. -/
  | matched {s : String} {rs : List Region} {r : Region} (h : input.destination? = some s)
      (hs : scan input.delimiters s = .ok rs)
      (hf : rs.filter (·.matchesUnit input.identity.unit) = [r]) :
    Outcome input fresh (some (if input.options.annotate then swapRegion s r fresh
      else swapContent s r input.content))

/-- A merge does what its outcome says, and fails where there is none. -/
theorem text_eq_ok {input : MergeInput} {fresh : String} (hb : block input render = .ok fresh)
    {out : Option String} : text input render = .ok out ↔ Outcome input fresh out := by
  constructor
  · intro h
    rw [text, hb] at h
    cases hd : input.destination? with
    | none =>
      simp only [hd] at h
      cases h
      exact .missing hd
    | some s =>
      cases hs : scan input.delimiters s with
      | error e => simp [hd, regions, hs, Except.mapError, bind, Except.bind] at h
      | ok rs =>
        simp only [hd, regions, hs, Except.mapError, bind, Except.bind] at h
        split at h
        · rename_i hf
          cases h
          exact .unmatched hd hs hf
        · rename_i hf
          cases h
          exact .matched hd hs hf
        · cases h
  · intro h
    rw [text, hb]
    cases h with
    | missing hd => simp [hd, bind, Except.bind, pure, Except.pure]
    | unmatched hd hs hf =>
      simp [hd, regions, hs, hf, Except.mapError, bind, Except.bind, pure, Except.pure]
    | matched hd hs hf =>
      simp [hd, regions, hs, hf, Except.mapError, bind, Except.bind, pure, Except.pure]

/-- An input whose content is annotated in the usual shape, between safe markers. -/
structure Annotates (input : MergeInput) : Prop where
  annotate : input.options.annotate = true
  template : input.options.annotationTemplate = none
  delimiters : input.delimiters.Safe
  identity : input.identity.HeaderSafe

theorem Annotates.block_eq {input : MergeInput} (h : Annotates input)
    (render : Template.Renderer) :
    block input render = .ok (Block.usual input.delimiters input.identity input.content) := by
  simp [block, h.annotate, h.template, Block.make, Except.mapError]

/-! ### Changing the text of a region -/

theorem toList_splice {s : String} {a m b : List Char} (hs : s.toList = a ++ m ++ b)
    (replacement : String) :
    (splice s (Text.width a) (Text.width a + Text.width m) replacement).toList =
      a ++ replacement.toList ++ b := by
  have htake : Text.takeBytes (Text.width a) s.toList = a := by
    rw [hs, List.append_assoc, Text.takeBytes_width]
  have hdrop : Text.dropBytes (Text.width a + Text.width m) s.toList = b := by
    rw [hs, ← Text.width_append, Text.dropBytes_width]
  rw [splice, String.toList_ofList, htake, hdrop]

/-- The end line that a block takes over from the text in whose place it is put. -/
def closerLike (d : Delimiters) (m : List Char) : List Char :=
  if m.getLast? = some '\n' then Text.row d.endLine else d.endLine.toList

theorem isCloser_closerLike (d : Delimiters) (m : List Char) :
    Block.IsCloser d (closerLike d m) := by
  rw [closerLike]
  split
  · exact .row
  · exact .bare

theorem closed_closerLike (d : Delimiters) {m : List Char} (hm : m ≠ []) (h : Text.Closed m) :
    Text.Closed (closerLike d m) := by
  have hlast := List.getLast?_eq_some_getLast hm
  rw [closerLike, if_pos (by rw [hlast, h _ hlast])]
  exact Text.closed_append_lineFeed _

theorem getLast?_text {d : Delimiters} {closer : List Char} (h : Block.IsCloser d closer)
    (i : Identity) (content : String) :
    (Block.text d i content closer).getLast? = closer.getLast? := by
  have hne : closer ≠ [] := by
    cases h with
    | row => simp [Text.row]
    | bare => exact Block.endLine_ne_nil d
  rw [Block.text, List.getLast?_append_of_ne_nil _ hne]

theorem closerLike_text {d : Delimiters} (hd : d.Safe) {closer : List Char}
    (h : Block.IsCloser d closer) (i : Identity) (content : String) :
    closerLike d (Block.text d i content closer) = closer := by
  rw [closerLike, getLast?_text h]
  cases h with
  | row => rw [if_pos (by simp [Text.row])]
  | bare =>
    refine if_neg fun hl => ?_
    exact Block.lineFeed_not_mem_endLine hd (List.mem_of_getLast? hl)

/-- A block in the usual shape stands in the text where the region stood. -/
theorem toList_swapRegion {d : Delimiters} (hd : d.Safe) {z : Surroundings} {x : Stretch}
    (h : z.Encloses d x) {s : String} (hs : s.toList = z.fill x.regionLines.flatten) (i : Identity)
    (content : String) :
    (swapRegion s (z.region d x) (Block.usual d i content)).toList =
      z.fill (Block.text d i content (closerLike d x.regionLines.flatten)) := by
  have hne := flatten_regionLines_ne_nil hd h.stretch
  have hs' : s.toList = z.above.flatten ++ x.regionLines.flatten ++ z.below.flatten := hs
  have htake : Text.takeBytes (z.region d x).stop s.toList =
      z.above.flatten ++ x.regionLines.flatten := by
    rw [Surroundings.stop_region d h.before, hs', ← Text.width_append, Text.takeBytes_width]
  rw [swapRegion, htake, List.getLast?_append_of_ne_nil _ hne, Surroundings.start_region d h.before,
    Surroundings.stop_region d h.before, Surroundings.fill]
  by_cases hl : x.regionLines.flatten.getLast? = some '\n'
  · simp only [hl, beq_self_eq_true, if_true]
    rw [toList_splice hs', Block.toList_usual, closerLike, if_pos hl]
  · rw [if_neg (by simpa using hl), toList_splice hs', withoutLineFeeds, String.toList_ofList,
      Block.toList_withoutLineFeeds_usual hd, closerLike, if_neg hl]

/-! ### Ending the last line -/

/-- A line feed behind the last line leaves the regions what they say and the gaps between them,
but for the line feed. -/
theorem exists_layout_concat {d : Delimiters} {y : Layout} (hy : y.Fits d)
    {ls : List (List Char)} {l : List Char} (h : y.lines = ls ++ [l]) :
    ∃ y' : Layout, y'.Fits d ∧ y'.lines = ls ++ [l ++ ['\n']] ∧
      y'.stretches.map (Stretch.entry d) = y.stretches.map (Stretch.entry d) ∧
      ∀ g ∈ y'.gaps, ∃ g₀ ∈ y.gaps, g = g₀ ∨ g = g₀ ++ ['\n'] := by
  have hkind := lineKind_append_right d l Text.blank_lineFeed
  obtain ⟨xs, rest⟩ := y
  rcases List.eq_nil_or_concat rest with rfl | ⟨rest, k, rfl⟩
  · rcases List.eq_nil_or_concat xs with rfl | ⟨xs, x, rfl⟩
    · simp [Layout.lines] at h
    -- the last line is the end line of the last region
    rw [List.concat_eq_append] at h hy ⊢
    have hx : Layout.lines ⟨xs ++ [x], []⟩ =
        stretchLines xs ++ x.before ++ x.opener :: x.inner ++ [x.closer] := by
      simp [Layout.lines, Stretch.lines, Stretch.regionLines]
    obtain ⟨rfl, hl⟩ := List.append_inj' (hx.symm.trans h) rfl
    obtain rfl := List.singleton_inj.1 hl
    obtain ⟨hxs, hx⟩ := List.forall_mem_append.1 hy.stretches
    have hx := hx x List.mem_cons_self
    refine ⟨⟨xs ++ [⟨x.before, x.opener, x.inner, x.closer ++ ['\n']⟩], []⟩, ⟨?_, by simp⟩, ?_, ?_,
      fun g hg => ⟨g, ?_, .inl rfl⟩⟩
    · refine List.forall_mem_append.2 ⟨hxs, List.forall_mem_singleton.2 ?_⟩
      exact ⟨hx.before, hx.opener, hx.inner, hkind.trans hx.closer⟩
    · simp [Layout.lines, Stretch.lines, Stretch.regionLines]
    · simp only [List.map_append, List.map_cons, List.map_nil]
      rfl
    · simpa [Layout.gaps] using hg
  · rw [List.concat_eq_append] at h hy ⊢
    have hx : Layout.lines ⟨xs, rest ++ [k]⟩ = stretchLines xs ++ rest ++ [k] := by
      simp [Layout.lines]
    obtain ⟨rfl, hl⟩ := List.append_inj' (hx.symm.trans h) rfl
    obtain rfl := List.singleton_inj.1 hl
    obtain ⟨hrest, hk⟩ := List.forall_mem_append.1 hy.rest
    refine ⟨⟨xs, rest ++ [k ++ ['\n']]⟩, ⟨hy.stretches, ?_⟩, by simp [Layout.lines], rfl, ?_⟩
    · refine List.forall_mem_append.2 ⟨hrest, List.forall_mem_singleton.2 ?_⟩
      rw [hkind]
      exact hk k List.mem_cons_self
    · refine List.forall_mem_append.2 ⟨fun g hg => ⟨g, List.mem_append_left _ hg, .inl rfl⟩, ?_⟩
      exact List.forall_mem_singleton.2
        ⟨_, List.mem_append_right _ List.mem_cons_self, .inr (by simp)⟩

/-- The line feed that a text lacks. An empty text lacks none. -/
def missingLineFeed (s : List Char) : List Char :=
  if s = [] ∨ s.getLast? = some '\n' then [] else ['\n']

theorem missingLineFeed_of_closed {s : List Char} (h : Text.Closed s) : missingLineFeed s = [] :=
  if_pos (Text.closed_iff.1 h)

theorem missingLineFeed_of_open {t line : List Char} (hn : '\n' ∉ line) (hl : line ≠ []) :
    missingLineFeed (t ++ line) = ['\n'] := by
  refine if_neg fun h => ?_
  rcases h with h | h
  · exact hl (List.append_eq_nil_iff.1 h).2
  · rw [List.getLast?_append_of_ne_nil _ hl] at h
    exact hn (List.mem_of_getLast? h)

/-- A block goes behind a text and the line feed that the text lacks. -/
theorem toList_behind (s fresh : String) :
    (behind s fresh).toList = s.toList ++ missingLineFeed s.toList ++ fresh.toList := by
  rw [behind, missingLineFeed]
  by_cases hs : s = ""
  · simp [hs]
  · by_cases hend : s.toList.getLast? = some '\n'
    · simp [hs, hend, Text.closeLine, Text.endsLine]
    · simp [hs, hend, Text.closeLine, Text.endsLine]

/-- A block behind a text stands behind full lines with regions that say the same, and with the
same gaps, but for a line feed. -/
theorem exists_behind {d : Delimiters} {s : String} {y : Layout} (hy : y.Fits d)
    (hs : Text.lines s.toList = y.lines) :
    ∃ y' : Layout, y'.Fits d ∧ (∀ l ∈ y'.lines, Text.IsFullLine l) ∧
      y'.stretches.map (Stretch.entry d) = y.stretches.map (Stretch.entry d) ∧
      (∀ g ∈ y'.gaps, ∃ g₀ ∈ y.gaps, g = g₀ ∨ g = g₀ ++ ['\n']) ∧
      ∀ fresh, (behind s fresh).toList = y'.lines.flatten ++ fresh.toList := by
  obtain ⟨t, line, ht, hclosed, hn⟩ := Text.exists_closed_append s.toList
  by_cases hline : line = []
  · have hclosed : Text.Closed s.toList := by rwa [ht, hline, List.append_nil]
    refine ⟨y, hy, ?_, rfl, fun g hg => ⟨g, hg, .inl rfl⟩, fun fresh => ?_⟩
    · rw [← hs]
      exact Text.isFullLine_of_mem_lines hclosed
    · rw [toList_behind, missingLineFeed_of_closed hclosed, List.append_nil, ← hs,
        Text.flatten_lines]
  · have hlines : y.lines = Text.lines t ++ [line] := by
      rw [← hs, ht, Text.lines_append hclosed, Text.lines_eq_singleton hn hline]
    obtain ⟨y', hy', hl', hentries, hgaps⟩ := exists_layout_concat hy hlines
    refine ⟨y', hy', ?_, hentries, hgaps, fun fresh => ?_⟩
    · rw [hl']
      refine List.forall_mem_append.2 ⟨Text.isFullLine_of_mem_lines hclosed, ?_⟩
      exact List.forall_mem_singleton.2 ⟨line, hn, rfl⟩
    · rw [toList_behind, ht, missingLineFeed_of_open hn hline, hl', List.flatten_append,
        Text.flatten_lines, List.flatten_singleton, List.append_assoc t]

/-! ### Places -/

/-- A place for the block of a unit, with the end line that the block has there. No region around
it comes from the unit, and the end line lacks its line feed only at the end of the text. -/
structure Place (d : Delimiters) (u : UnitName) where
  around : Surroundings
  closer : List Char
  fits : around.Fits d
  foreign : around.Foreign d u
  isCloser : Block.IsCloser d closer
  closed : Text.Closed closer ∨ around.below = []

namespace Place

variable {d : Delimiters} {u : UnitName} {i : Identity} {content : String}

/-- The region of a block in the place. -/
def stretch (p : Place d u) (i : Identity) (content : String) : Stretch :=
  ⟨p.around.before, Text.row d.startLine, Block.inner d i content, p.closer⟩

/-- The text with a block in the place. -/
def fill (p : Place d u) (i : Identity) (content : String) : List Char :=
  p.around.fill (Block.text d i content p.closer)

theorem flatten_regionLines (p : Place d u) (i : Identity) (content : String) :
    (p.stretch i content).regionLines.flatten = Block.text d i content p.closer := by
  simp [Block.text, stretch, Stretch.regionLines]

theorem closed_text (p : Place d u) (i : Identity) (content : String) :
    Text.Closed (Block.text d i content p.closer) ∨ p.around.below = [] := by
  rcases p.closed with h | h
  · exact Or.inl fun c hc => h c (getLast?_text p.isCloser i content ▸ hc)
  · exact Or.inr h

/-- The lines of the text with a block in the place, whatever its content is. -/
theorem lines_fill (p : Place d u) (hd : d.Safe) (hi : i.HeaderSafe) (content : String) :
    Text.lines (p.fill i content) = p.around.above ++
      (Text.row d.startLine :: (Block.inner d i content ++ p.closer :: p.around.below)) := by
  rw [fill, Surroundings.lines_fill p.fits (p.closed_text i content),
    Block.lines_text hd hi content p.isCloser]
  simp

/-- A block without marker lines in its content is a region in its place. -/
theorem encloses (p : Place d u) (hd : d.Safe) (hi : i.HeaderSafe)
    (hc : NoMarkers d content.toList) : p.around.Encloses d (p.stretch i content) where
  around := p.fits
  stretch := ⟨p.fits.before, lineKind_startLine hd, Block.lineKind_of_mem_inner hd hi hc,
    p.isCloser.lineKind hd⟩
  before := rfl
  lines := by
    rw [p.flatten_regionLines, Block.lines_text hd hi content p.isCloser]
    rfl
  closed := by
    rw [p.flatten_regionLines]
    exact p.closed_text i content

theorem entry_stretch (p : Place d u) (hd : d.Safe) (hi : i.HeaderSafe) (content : String) :
    (p.stretch i content).entry d = Block.entryOf i content := Block.entry_of_inner hd hi rfl

theorem toList_eq (p : Place d u) {t : String} (ht : t.toList = p.fill i content) :
    t.toList = p.around.fill (p.stretch i content).regionLines.flatten := by
  rw [ht, p.flatten_regionLines, fill]

/-- The regions of the text with a block in the place are those around it and the one of the
block. -/
theorem shows (p : Place d u) (hd : d.Safe) (hi : i.HeaderSafe) (hc : NoMarkers d content.toList)
    {t : String} (ht : t.toList = p.fill i content) :
    Shows d t (p.around.entries d (Block.entryOf i content)) := by
  rw [← p.entry_stretch hd hi]
  exact (p.encloses hd hi hc).shows (p.toList_eq ht)

/-- The text scans, and the region of the block is the only one that comes from the unit. -/
theorem exists_scan (p : Place d i.unit) (hd : d.Safe) (hi : i.HeaderSafe)
    (hc : NoMarkers d content.toList) {t : String} (ht : t.toList = p.fill i content) :
    ∃ rs, scan d t = .ok rs ∧ rs.filter (·.matchesUnit i.unit) =
      [p.around.region d (p.stretch i content)] :=
  (p.encloses hd hi hc).exists_scan p.foreign
    (matchesUnit_of_entry_eq (p.entry_stretch hd hi content)) (p.toList_eq ht)

/-- The block in its place is swapped for itself. -/
theorem swapRegion_eq (p : Place d u) (hd : d.Safe) (hi : i.HeaderSafe)
    (hc : NoMarkers d content.toList) {t : String} (ht : t.toList = p.fill i content) :
    swapRegion t (p.around.region d (p.stretch i content)) (Block.usual d i content) = t := by
  refine String.toList_inj.1 ?_
  rw [toList_swapRegion hd (p.encloses hd hi hc) (p.toList_eq ht), p.flatten_regionLines,
    closerLike_text hd p.isCloser, ht, fill]

end Place

/-- A merge leaves a text as it is in which its block has its place. -/
theorem text_eq_self {input : MergeInput} (h : Annotates input)
    (hc : NoMarkers input.delimiters input.content.toList)
    (p : Place input.delimiters input.identity.unit) {t : String}
    (hdest : input.destination? = some t) (ht : t.toList = p.fill input.identity input.content) :
    text input render = .ok (some t) := by
  obtain ⟨rs, hs, hf⟩ := p.exists_scan h.delimiters h.identity hc ht
  have hout := (text_eq_ok (h.block_eq render)).2 (.matched hdest hs hf)
  rwa [if_pos h.annotate, p.swapRegion_eq h.delimiters h.identity hc ht] at hout

/-! ### Where a merge puts its block -/

section
variable {u : UnitName} {e : Region.Entry} {es before : List Region.Entry}

/-- Entries with one more put among them: in place of the entry of its unit, or behind all. -/
def put (u : UnitName) (e : Region.Entry) : List Region.Entry → List Region.Entry
  | [] => [e]
  | old :: rest => if old.matchesUnit u then e :: rest else old :: put u e rest

theorem put_append (h : ∀ b ∈ before, b.matchesUnit u = false) (e : Region.Entry)
    (rest : List Region.Entry) : put u e (before ++ rest) = before ++ put u e rest := by
  induction before with
  | nil => rfl
  | cons b before ih =>
    obtain ⟨hb, hbefore⟩ := List.forall_mem_cons.1 h
    simp [put, hb, ih hbefore]

theorem put_of_forall (h : ∀ b ∈ es, b.matchesUnit u = false) (e : Region.Entry) :
    put u e es = es ++ [e] := by
  have := put_append h e []
  rwa [List.append_nil] at this

end

/-- The regions of a file say these things. Where there is no file, there are none. -/
def Holds (d : Delimiters) : Option String → List Region.Entry → Prop
  | none, es => es = []
  | some s, es => Shows d s es

variable {d : Delimiters} {u : UnitName}

/-- A place in an empty text. -/
def Place.alone (d : Delimiters) (u : UnitName) : Place d u where
  around := ⟨[], [], [], []⟩
  closer := Text.row d.endLine
  fits := ⟨by simp, by simp, by simp, by simp, by simp [Surroundings.above], rfl⟩
  foreign := by simp [Surroundings.Foreign]
  isCloser := .row
  closed := .inr rfl

theorem Place.fill_alone (d : Delimiters) (u : UnitName) (i : Identity) (content : String) :
    (Block.usual d i content).toList = (Place.alone d u).fill i content := by
  simp [fill, alone, Surroundings.fill, Surroundings.above, Surroundings.below, Block.toList_usual]

/-- A place behind the lines of a layout. -/
def Place.last {y : Layout} (hy : y.Fits d) (hfull : ∀ l ∈ y.lines, Text.IsFullLine l)
    (hf : ∀ x ∈ y.stretches, x.matchesUnit d u = false) : Place d u where
  around := ⟨y.stretches, y.rest, [], []⟩
  closer := Text.row d.endLine
  fits := ⟨hy.stretches, hy.rest, by simp, by simp, hfull, rfl⟩
  foreign := by simpa [Surroundings.Foreign] using hf
  isCloser := .row
  closed := .inr rfl

/-- The place of a region that is there already. -/
def Place.instead {z : Surroundings} {x : Stretch} (hd : d.Safe) (h : z.Encloses d x)
    (hf : z.Foreign d u) : Place d u where
  around := z
  closer := closerLike d x.regionLines.flatten
  fits := h.around
  foreign := hf
  isCloser := isCloser_closerLike d _
  closed := h.closed.imp_left (closed_closerLike d (flatten_regionLines_ne_nil hd h.stretch))

/-- A gap between the regions of a text, perhaps with a line feed more, or an empty one. -/
inductive OldGap (d : Delimiters) (destination? : Option String) : List Char → Prop where
  | empty : OldGap d destination? []
  | gap {s : String} {y : Layout} {g : List Char} (h : destination? = some s) (hy : y.Fits d)
      (hs : Text.lines s.toList = y.lines) (hg : g ∈ y.gaps) : OldGap d destination? g
  | closed {s : String} {y : Layout} {g : List Char} (h : destination? = some s) (hy : y.Fits d)
      (hs : Text.lines s.toList = y.lines) (hg : g ∈ y.gaps) : OldGap d destination? (g ++ ['\n'])

/-- Behind a text without regions of the unit there is a place for its block. -/
theorem exists_place_behind {s : String} {rs : List Region} (hs : scan d s = .ok rs)
    (hf : rs.filter (·.matchesUnit u) = []) :
    ∃ p : Place d u,
      (∀ i content, (behind s (Block.usual d i content)).toList = p.fill i content) ∧
      (∀ es e, Shows d s es → put u e es = p.around.entries d e) ∧
      ∀ g ∈ p.around.gaps, OldGap d (some s) g := by
  obtain ⟨y, hy, hlines, rfl⟩ := scan_eq_ok.1 hs
  have hforeign := filter_matchesUnit_eq_nil.1 hf
  obtain ⟨y', hy', hfull, hentries, hgaps, hbehind⟩ := exists_behind hy hlines
  rw [← forall_entry_matchesUnit, ← hentries, forall_entry_matchesUnit] at hforeign
  refine ⟨.last hy' hfull hforeign, fun i content => ?_, fun es e hes => ?_, ?_⟩
  · rw [hbehind, Block.toList_usual]
    simp [Place.fill, Place.last, Surroundings.fill, Surroundings.above, Surroundings.below,
      Layout.lines]
  · rw [hes.unique (shows_iff.2 ⟨y, hy, hlines, rfl⟩), ← hentries,
      put_of_forall (forall_entry_matchesUnit.2 hforeign)]
    rfl
  · have hall : (Place.last hy' hfull hforeign).around.gaps = y'.gaps ++ [[]] := by
      simp [Place.last, Surroundings.gaps, Layout.gaps]
    rw [hall]
    refine List.forall_mem_append.2 ⟨fun g hg => ?_, List.forall_mem_singleton.2 .empty⟩
    obtain ⟨g₀, hg₀, rfl | rfl⟩ := hgaps g hg
    · exact .gap rfl hy hlines hg₀
    · exact .closed rfl hy hlines hg₀

/-- Where the only region of the unit stands there is a place for its block. -/
theorem exists_place_instead (hd : d.Safe) {s : String} {rs : List Region}
    (hs : scan d s = .ok rs) {r : Region} (hf : rs.filter (·.matchesUnit u) = [r]) :
    ∃ p : Place d u,
      (∀ i content, (swapRegion s r (Block.usual d i content)).toList = p.fill i content) ∧
      (∀ es e, Shows d s es → put u e es = p.around.entries d e) ∧
      ∀ g ∈ p.around.gaps, OldGap d (some s) g := by
  obtain ⟨z, x, hencloses, hforeign, hmatch, hfill, rfl⟩ := Surroundings.exists_encloses hs hf
  refine ⟨.instead hd hencloses hforeign, toList_swapRegion hd hencloses hfill, fun es e hes => ?_,
    fun g hg => ?_⟩
  · have hbefore := forall_entry_matchesUnit.2 (List.forall_mem_append.1 hforeign).1
    rw [hes.unique (hencloses.shows hfill), Surroundings.entries, put_append hbefore, put,
      matchesUnit_entry, if_pos hmatch]
    rfl
  · refine .gap rfl hencloses.fits_layout (hencloses.lines_layout hfill) ?_
    rwa [Surroundings.gaps_layout hencloses.before]

/-- What a strategy leaves of a text and a block. -/
theorem append_eq_some {strategy : AppendStrategy} {s fresh t : String}
    (h : append strategy (some s) fresh = some t) :
    strategy = .replace ∧ t = fresh ∨ t = behind s fresh := by
  cases strategy with
  | replace => exact .inl ⟨rfl, (Option.some.inj h).symm⟩
  | append => exact .inr (Option.some.inj h).symm
  | appendIfExists => exact .inr (Option.some.inj h).symm
  | ignore =>
    rw [append] at h
    split at h
    · exact .inr (Option.some.inj h).symm
    · cases h

theorem append_none_eq_some {strategy : AppendStrategy} {fresh t : String}
    (h : append strategy none fresh = some t) : t = fresh := by
  cases strategy with
  | appendIfExists => cases h
  | replace => exact (Option.some.inj h).symm
  | append => exact (Option.some.inj h).symm
  | ignore => exact (Option.some.inj h).symm

/-- **A merge of annotated content puts its block into a place** between old gaps, and unless it
replaces the text, the regions of the text keep saying what they said. -/
theorem exists_place {input : MergeInput} (h : Annotates input) {t : String}
    (ht : text input render = .ok (some t)) :
    ∃ p : Place input.delimiters input.identity.unit,
      t.toList = p.fill input.identity input.content ∧
      (input.options.appendStrategy ≠ .replace → ∀ es e,
        Holds input.delimiters input.destination? es →
          put input.identity.unit e es = p.around.entries input.delimiters e) ∧
      ∀ g ∈ p.around.gaps, OldGap input.delimiters input.destination? g := by
  have hout := (text_eq_ok (h.block_eq render)).1 ht
  have halone : ∀ g ∈ (Place.alone input.delimiters input.identity.unit).around.gaps,
      OldGap input.delimiters input.destination? g := by
    simp [Place.alone, Surroundings.gaps, OldGap.empty]
  generalize ho : some t = out at hout
  cases hout with
  | missing hdest =>
    obtain rfl := append_none_eq_some ho.symm
    refine ⟨.alone _ _, Place.fill_alone _ _ _ _, fun _ es e hes => ?_, halone⟩
    rw [hdest] at hes
    obtain rfl : es = [] := hes
    rfl
  | unmatched hdest hs hf =>
    rcases append_eq_some ho.symm with ⟨hreplace, rfl⟩ | rfl
    · exact ⟨.alone _ _, Place.fill_alone _ _ _ _, fun hne => absurd hreplace hne, halone⟩
    · obtain ⟨p, hfill, hput, hgaps⟩ := exists_place_behind hs hf
      rw [hdest]
      exact ⟨p, hfill _ _, fun _ => hput, hgaps⟩
  | matched hdest hs hf =>
    rw [if_pos h.annotate] at ho
    obtain rfl := Option.some.inj ho
    obtain ⟨p, hfill, hput, hgaps⟩ := exists_place_instead h.delimiters hs hf
    rw [hdest]
    exact ⟨p, hfill _ _, fun _ => hput, hgaps⟩

end Scaffold.Merge
