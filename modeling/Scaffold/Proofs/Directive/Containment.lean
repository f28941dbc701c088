import Scaffold.FileOptions
import Scaffold.Proofs.Directive.Gap
import Scaffold.Proofs.Region.Surroundings
import Scaffold.Proofs.Text.Cut

/-!
# Generated text sets no options

The options of a file come from the gaps between its regions. What stands in a region can be
replaced by any other region, and the file has the same options (`read_replaceRegions`). That holds
of the regions that the options of the folder know. A directive that changes the markers makes
regions of text that has been read already, and there a directive is obeyed: what the final
options make a region is contained exactly if freezing it as well changes nothing
(`contained_iff`).
-/

namespace Scaffold

namespace Text

/-- Lines without width are no lines. -/
theorem eq_nil_of_flatten {s : List Char} {ls : List (List Char)} (h : ∀ l ∈ ls, l ∈ lines s)
    (hw : width ls.flatten = 0) : ls = [] := by
  refine List.eq_nil_iff_forall_not_mem.2 fun l hl => ne_nil_of_mem_lines (h l hl) ?_
  have hnil : ls.flatten = [] := width_eq_zero.1 hw
  exact List.flatten_eq_nil_iff.1 hnil l hl

end Text

namespace Region

variable {d : Delimiters}

/-- A text that is one region from its first byte to its last. -/
def IsRegion (d : Delimiters) (m : List Char) : Prop :=
  ∃ r, scan d (String.ofList m) = .ok [r] ∧ r.start = 0 ∧ r.stop = Text.width m

/-- A text that can stand in the place of a region of another text: it is a region, and it ends its
last line unless the region ends the text. -/
structure StandsFor (d : Delimiters) (s : List Char) (r : Region) (m : List Char) : Prop where
  region : IsRegion d m
  closed : Text.Closed m ∨ r.stop = Text.width s

/-- The text from a place on, with other text in the place of regions. -/
def replaceRegions (s : List Char) : (cursor : Nat) → List (Region × List Char) → List Char
  | cursor, [] => Text.dropBytes cursor s
  | cursor, (r, m) :: changes =>
    Text.slice cursor r.start s ++ m ++ replaceRegions s r.stop changes

/-- A text that is one region has the lines of a stretch with nothing before its region. -/
theorem exists_stretch {m : List Char} (h : IsRegion d m) :
    ∃ x : Stretch, x.Fits d ∧ m = x.regionLines.flatten ∧ Text.lines m = x.regionLines := by
  obtain ⟨r, hs, hstart, hstop⟩ := h
  obtain ⟨⟨xs, rest⟩, hy, hlines, hrs⟩ := scan_eq_ok.1 hs
  rw [String.toList_ofList] at hlines
  obtain ⟨x, rfl, rfl⟩ : ∃ x, xs = [x] ∧ r = x.region d 0 := by
    cases xs with
    | nil => cases hrs
    | cons x xs =>
      obtain ⟨rfl, hxs⟩ := List.cons.inj hrs
      cases xs with
      | nil => exact ⟨x, rfl, rfl⟩
      | cons => cases hxs
  have hwidth : Text.width m = Text.width x.before.flatten +
      Text.width x.regionLines.flatten + Text.width rest.flatten := by
    rw [← Text.flatten_lines m, hlines]
    simp [Layout.lines, Stretch.lines, Nat.add_assoc]
  have hbefore : x.before = [] := by
    refine Text.eq_nil_of_flatten (s := m) (fun l hl => ?_) (by simpa [Stretch.region] using hstart)
    simp [hlines, Layout.lines, Stretch.lines, hl]
  have hrest : rest = [] := by
    refine Text.eq_nil_of_flatten (s := m) (fun l hl => ?_) ?_
    · simp [hlines, Layout.lines, hl]
    · rw [Stretch.stop_region] at hstop
      omega
  have hm : Text.lines m = x.regionLines := by
    rw [hlines]
    simp [Layout.lines, Stretch.lines, hbefore, hrest]
  exact ⟨x, hy.stretches x (by simp), by rw [← hm, Text.flatten_lines], hm⟩

theorem stretchLines_eq_nil {xs : List Stretch} : stretchLines xs = [] ↔ xs = [] := by
  cases xs with
  | nil => simp
  | cons x xs => simp [Stretch.lines, Stretch.regionLines]

/-- What stands for a region ends its last line, or nothing stands behind the region. -/
theorem StandsFor.closed_or_nil {above s m : List Char} {x : Stretch} {xs : List Stretch}
    {rest : List (List Char)} (h : StandsFor d s (x.region d (Text.width above)) m)
    (hs : s = above ++ (stretchLines (x :: xs) ++ rest).flatten)
    (hlines : Text.lines (stretchLines xs ++ rest).flatten = stretchLines xs ++ rest) :
    Text.Closed m ∨ xs = [] ∧ rest = [] := by
  refine h.closed.imp_right fun hend => ?_
  rw [Stretch.stop_region, hs] at hend
  have hwidth : Text.width (stretchLines xs ++ rest).flatten = 0 := by
    simp only [stretchLines_cons, Stretch.lines, List.flatten_append, Text.width_append] at hend ⊢
    omega
  have hnil : stretchLines xs ++ rest = [] := by
    rw [← hlines, Text.width_eq_zero.1 hwidth]
    rfl
  exact (List.append_eq_nil_iff.1 hnil).imp_left stretchLines_eq_nil.1

/-- The lines of a text that begins with full lines and a region. -/
theorem lines_region_append {before : List (List Char)} {z : Stretch} {m : List Char}
    {ls : List (List Char)} (hbefore : ∀ l ∈ before, Text.IsFullLine l)
    (hm : m = z.regionLines.flatten) (hz : Text.lines m = z.regionLines)
    (hls : Text.lines ls.flatten = ls) (hclosed : Text.Closed m ∨ ls = []) :
    Text.lines (before ++ z.regionLines ++ ls).flatten = before ++ z.regionLines ++ ls := by
  have hregion : Text.lines (m ++ ls.flatten) = z.regionLines ++ ls := by
    rcases hclosed with hclosed | rfl
    · rw [Text.lines_append hclosed, hz, hls]
    · rw [List.flatten_nil, List.append_nil, hz, List.append_nil]
  have hwhole := Text.lines_flatten_append hbefore (m ++ ls.flatten)
  rw [hregion, hm] at hwhole
  simpa using hwhole

/-- What replacing does to the stretches behind a text: other stretches with the same lines between
them stand there. -/
theorem exists_stretches_replaceRegions {xs : List Stretch} {rest : List (List Char)}
    (above : List Char) {s : List Char} (hs : s = above ++ (stretchLines xs ++ rest).flatten)
    (hlines : Text.lines (stretchLines xs ++ rest).flatten = stretchLines xs ++ rest)
    {changes : List (Region × List Char)}
    (hrs : regionsFrom d (Text.width above) xs = changes.map Prod.fst)
    (hx : ∀ x ∈ xs, x.Fits d) (hc : ∀ c ∈ changes, StandsFor d s c.1 c.2) :
    ∃ xs' : List Stretch, (∀ x ∈ xs', x.Fits d) ∧
      xs'.map (·.before) = xs.map (·.before) ∧
      replaceRegions s (Text.width above) changes = (stretchLines xs' ++ rest).flatten ∧
      Text.lines (stretchLines xs' ++ rest).flatten = stretchLines xs' ++ rest := by
  induction xs generalizing above changes with
  | nil =>
    obtain rfl : changes = [] := by simpa [regionsFrom] using hrs.symm
    refine ⟨[], by simp, rfl, ?_, hlines⟩
    rw [replaceRegions, hs, Text.dropBytes_width]
  | cons x xs ih =>
    cases changes with
    | nil => cases hrs
    | cons c changes =>
      obtain ⟨r, m⟩ := c
      obtain ⟨hr, hmore⟩ := List.cons.inj hrs
      obtain rfl : x.region d (Text.width above) = r := hr
      obtain ⟨hfit, hx⟩ := List.forall_mem_cons.1 hx
      obtain ⟨hstands, hc⟩ := List.forall_mem_cons.1 hc
      obtain ⟨z, hz, hm, hzlines⟩ := exists_stretch hstands.region
      dsimp only at hstands hm hzlines
      rw [stretchLines_cons, List.append_assoc] at hlines
      obtain ⟨hfull, -, htail⟩ := full_of_lines_stretch hlines
      have hslice : Text.slice (Text.width above) (x.region d (Text.width above)).start s =
          x.before.flatten := by
        have hparts : s = above ++ x.before.flatten ++
            (x.regionLines.flatten ++ (stretchLines xs ++ rest).flatten) := by
          simp [hs, Stretch.lines]
        rw [hparts]
        exact slice_append above x.before.flatten _
      have hstop : (x.region d (Text.width above)).stop =
          Text.width (above ++ x.lines.flatten) := by
        rw [Stretch.stop_region]
        simp [Stretch.lines, Nat.add_assoc]
      -- what the other stretches become
      obtain ⟨xs', hx', hbefore, htext, hlines'⟩ :=
        ih (above ++ x.lines.flatten) (by simp [hs]) htail (by simpa using hmore) hx hc
      have hclosed : Text.Closed m ∨ stretchLines xs' ++ rest = [] := by
        refine (hstands.closed_or_nil hs htail).imp_right ?_
        rintro ⟨rfl, rfl⟩
        obtain rfl := List.map_eq_nil_iff.1 hbefore
        rfl
      refine ⟨⟨x.before, z.opener, z.inner, z.closer⟩ :: xs', ?_, ?_, ?_, ?_⟩
      · exact List.forall_mem_cons.2 ⟨⟨hfit.before, hz.opener, hz.inner, hz.closer⟩, hx'⟩
      · rw [List.map_cons, List.map_cons, hbefore]
      · rw [replaceRegions, hslice, hstop, htext, hm]
        simp [Stretch.lines, Stretch.regionLines]
      · have hwhole := lines_region_append hfull hm hzlines hlines' hclosed
        rwa [stretchLines_cons, List.append_assoc]

/-- A text whose regions are replaced scans, and the same lines stand between its regions. -/
theorem exists_layout_replaceRegions {s : String} {changes : List (Region × List Char)}
    (hs : scan d s = .ok (changes.map Prod.fst))
    (hc : ∀ c ∈ changes, StandsFor d s.toList c.1 c.2) :
    ∃ y y' : Layout, y.Fits d ∧ Text.lines s.toList = y.lines ∧ y'.Fits d ∧
      Text.lines (replaceRegions s.toList 0 changes) = y'.lines ∧ y'.gaps = y.gaps := by
  obtain ⟨y, hy, hlines, hrs⟩ := scan_eq_ok.1 hs
  have htext : s.toList = [] ++ (stretchLines y.stretches ++ y.rest).flatten := by
    rw [List.nil_append, ← Layout.lines, ← hlines, Text.flatten_lines]
  have hlines' := hlines
  rw [htext, List.nil_append] at hlines'
  obtain ⟨xs', hx', hbefore, hreplace, hxlines⟩ :=
    exists_stretches_replaceRegions [] htext hlines' hrs.symm hy.stretches hc
  rw [Text.width_nil] at hreplace
  refine ⟨y, ⟨xs', y.rest⟩, hy, hlines, ⟨hx', hy.rest⟩, hreplace ▸ hxlines, ?_⟩
  have hgaps := congrArg (List.map List.flatten) hbefore
  rw [List.map_map, List.map_map] at hgaps
  exact congrArg (· ++ [y.rest.flatten]) hgaps

end Region

namespace FileOptions

open Directive Region

variable {base : Options} {path : Path}

/-- What a file sets: the payloads of its directives, and its options. -/
def outcome? (r : Except Failure FileOptions) : Option (List Json.Members × Options) :=
  r.toOption.map fun fo => (fo.directives.map Directive.payload, fo.options)

/-- The options of a file come from the gaps between its regions, each read alone. -/
theorem outcome?_read (hcomment : base.commentSyntax = none) (hm : base.optionMarker.toList ≠ [])
    (hn : '\n' ∉ base.optionMarker.toList) {text : String} {y : Layout}
    (hy : y.Fits (.ofOptions base path)) (hlines : Text.lines text.toList = y.lines) :
    outcome? (read base path text) =
      (apart base.optionMarker y.gaps).bind fun payloads =>
        (payloads.foldlM (fun (o : Options) members => o.layerFrom path.text members)
          base).toOption.map (payloads, ·) := by
  have hscan : Region.scan (.ofOptions base path) text =
      .ok (regionsFrom (.ofOptions base path) 0 y.stretches) := scan_eq_ok.2 ⟨y, hy, hlines, rfl⟩
  have hcomment' : (Delimiters.ofOptions base path).comment = .forPath path := by
    simp [Delimiters.ofOptions, Options.commentFor, hcomment]
  have hbars : Bars (Delimiters.ofOptions base path).comment.opener.toList :=
    hcomment' ▸ bars_forPath path
  rw [read, outsideRegions, hscan, ← payloads?_layout hm hn hbars hy hlines]
  simp only [Except.mapError, bind, Except.bind]
  cases Directive.scan base.optionMarker
      (spans (regionsFrom (.ofOptions base path) 0 y.stretches)) text with
  | error e => rfl
  | ok ds =>
    simp only [payloads?, Except.toOption, Option.map, Option.bind, List.foldlM_map]
    cases ds.foldlM (fun o d => o.layerFrom path.text d.payload) base <;> rfl

/-- **What regions say sets no options.** Where the regions of a text are replaced by other regions,
the directives say the same and the options are the same, or both texts are refused. -/
theorem read_replaceRegions (hcomment : base.commentSyntax = none) (hm : base.optionMarker ≠ "")
    (hn : '\n' ∉ base.optionMarker.toList) {text : String}
    {changes : List (Region × List Char)}
    (hscan : Region.scan (.ofOptions base path) text = .ok (changes.map Prod.fst))
    (hc : ∀ c ∈ changes, StandsFor (.ofOptions base path) text.toList c.1 c.2) :
    outcome? (read base path (String.ofList (replaceRegions text.toList 0 changes))) =
      outcome? (read base path text) := by
  obtain ⟨y, y', hy, hlines, hy', hlines', hgaps⟩ := exists_layout_replaceRegions hscan hc
  have hm' : base.optionMarker.toList ≠ [] := by simpa using hm
  rw [outcome?_read hcomment hm' hn hy hlines,
    outcome?_read hcomment hm' hn hy' (by rw [String.toList_ofList, hlines']), hgaps]

/-- A directive in the new region sets nothing. -/
theorem read_replaceRegions_of_directive :
    outcome? (read .default ⟨"a.ts"⟩ (String.ofList
        (replaceRegions "// @scf-option \x7b\x7d\n// @scf-region\nx\n// @scf-endregion\n".toList 0
          [(⟨18, 53, 33, 35, none⟩,
            ("// @scf-region\n// @scf-option\x7b\"annotate\":false\x7d\n" ++
              "// @scf-endregion").toList)]))) =
        outcome? (read .default ⟨"a.ts"⟩
          "// @scf-option \x7b\x7d\n// @scf-region\nx\n// @scf-endregion\n") ∧
      (outcome? (read .default ⟨"a.ts"⟩
        "// @scf-option \x7b\x7d\n// @scf-region\nx\n// @scf-endregion\n")).isSome = true := by
  have hscan : Region.scan (.ofOptions .default ⟨"a.ts"⟩)
      "// @scf-option \x7b\x7d\n// @scf-region\nx\n// @scf-endregion\n" =
        .ok [⟨18, 53, 33, 35, none⟩] := by rfl
  have hregion : IsRegion (.ofOptions .default ⟨"a.ts"⟩)
      ("// @scf-region\n// @scf-option\x7b\"annotate\":false\x7d\n" ++
        "// @scf-endregion").toList :=
    ⟨⟨0, 65, 15, 48, none⟩, by rfl, rfl, by decide +kernel⟩
  exact ⟨read_replaceRegions rfl (by decide) (by decide) hscan
    (List.forall_mem_singleton.2 ⟨hregion, .inr (by decide +kernel)⟩), by decide +kernel⟩

/-! ### Regions that the options of the file find -/

/-- Where the options of a file come from. -/
theorem exists_scan_of_read {text : String} {fo : FileOptions} (h : read base path text = .ok fo) :
    ∃ known, Region.scan (.ofOptions base path) text = .ok known ∧
      Directive.scan base.optionMarker (spans known) text = .ok fo.directives := by
  obtain ⟨ds, hds, h⟩ := Outcome.bind_eq_ok.1 h
  obtain ⟨o, -, h⟩ := Outcome.bind_eq_ok.1 h
  obtain rfl := Except.ok.inj h
  obtain ⟨known, hknown, hscan⟩ := Outcome.bind_eq_ok.1 hds
  exact ⟨known, Outcome.mapError_eq_ok.1 hknown, Outcome.mapError_eq_ok.1 hscan⟩

theorem forall_isFrozen_spans {ds : List Directive} {rs : List Region} :
    (∀ d ∈ ds, isFrozen (spans rs) d.offset = false) ↔
      ∀ d ∈ ds, ∀ r ∈ rs, r.contains d.offset = false := by
  simp [isFrozen_spans]

/-- **No directive that is obeyed stands in a region that the options of the file find, exactly if
freezing these regions as well changes nothing.** Only the regions that the options of the folder
find are frozen when the directives are read. Where the directives leave comments and markers as
they are, these are the same regions. -/
theorem contained_iff {text : String} {fo : FileOptions} (h : read base path text = .ok fo)
    {rs : List Region} (hrs : Region.scan (.ofOptions fo.options path) text = .ok rs) :
    ((∀ d ∈ fo.directives, ∀ r ∈ rs, r.contains d.offset = false) ↔
        ∃ known, Region.scan (.ofOptions base path) text = .ok known ∧
          Directive.scan base.optionMarker (spans known ++ spans rs) text = .ok fo.directives) ∧
      (Delimiters.ofOptions fo.options path = .ofOptions base path →
        ∀ d ∈ fo.directives, ∀ r ∈ rs, r.contains d.offset = false) := by
  obtain ⟨known, hknown, hscan⟩ := exists_scan_of_read h
  refine ⟨?_, fun hd => ?_⟩
  · rw [← forall_isFrozen_spans, ← scan_append_iff hscan]
    constructor
    · exact fun hmore => ⟨known, hknown, hmore⟩
    · rintro ⟨known', hknown', hmore⟩
      obtain rfl := Except.ok.inj (hknown.symm.trans hknown')
      exact hmore
  · rw [hd, hknown] at hrs
    obtain rfl := Except.ok.inj hrs
    exact forall_isFrozen_spans.1 (forall_isFrozen_of_scan hscan)

/-- A directive that declares markers is followed by a block between these markers, and a directive
in the block is obeyed. -/
theorem contained_iff_of_declared_markers :
    let text :=
      "// @scf-option \x7b\"startRegionMarker\":\"@gen\",\"endRegionMarker\":\"@end\"\x7d\n" ++
        "// @gen\n// @scf-option \x7b\"annotate\":false\x7d\n// @end\n"
    ∃ (fo : FileOptions) (rs : List Region), read .default ⟨"a.ts"⟩ text = .ok fo ∧
      fo.options.annotate = false ∧
      Region.scan (.ofOptions fo.options ⟨"a.ts"⟩) text = .ok rs ∧
      ¬ ∃ known, Region.scan (.ofOptions .default ⟨"a.ts"⟩) text = .ok known ∧
        Directive.scan Options.default.optionMarker (spans known ++ spans rs) text =
          .ok fo.directives := by
  intro text
  have hread : (read .default ⟨"a.ts"⟩ text).toOption.map
      (fun fo => (fo.options, fo.directives.map (·.offset))) =
        some (
          { Options.default with annotate := false, startMarker := "@gen", endMarker := "@end" },
          [3, 80]) := by
    decide +kernel
  have hscan : (Region.scan (.ofOptions
      { Options.default with annotate := false, startMarker := "@gen", endMarker := "@end" }
        ⟨"a.ts"⟩) text).toOption.map spans = some [(69, 119)] := by
    decide +kernel
  obtain ⟨fo, hfo, heq⟩ := Option.map_eq_some_iff.1 hread
  obtain ⟨hoptions, hoffsets⟩ := Prod.mk.inj heq
  have hfo := Outcome.toOption_eq_some.1 hfo
  rw [← hoptions] at hscan
  obtain ⟨rs, hrs, hspans⟩ := Option.map_eq_some_iff.1 hscan
  have hrs := Outcome.toOption_eq_some.1 hrs
  refine ⟨fo, rs, hfo, by rw [hoptions], hrs, fun hknown => ?_⟩
  have hfree := forall_isFrozen_spans.2 ((contained_iff hfo hrs).1.2 hknown)
  have hmem : 80 ∈ fo.directives.map (·.offset) := hoffsets ▸ by decide
  obtain ⟨d, hd, hoffset⟩ := List.mem_map.1 hmem
  have := hfree d hd
  rw [hspans, hoffset] at this
  exact absurd this (by decide)

end FileOptions

end Scaffold
