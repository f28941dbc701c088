import Scaffold.Proofs.Merge.Text

/-!
# Files that later merges can read

Content goes into a block as it is. If a line of it is a marker line, the block is cut short at
that line or the text no longer scans; if there is none, the text scans and the region of the
block holds the content (`keeps_iff`).
-/

namespace Scaffold

namespace Region

/-- A second start line in an open region fails the scan. -/
theorem exists_scanLines_eq_error {d : Delimiters} {xs : List Stretch} (hxs : ∀ x ∈ xs, x.Fits d)
    {before inner : List (List Char)} {opener line : List Char}
    (hb : ∀ l ∈ before, lineKind d l ≠ .start) (ho : lineKind d opener = .start)
    (hi : ∀ l ∈ inner, lineKind d l = .other) (hl : lineKind d line = .start)
    (n offset : Nat) (more : List (List Char)) :
    ∃ e, scanLines d none n offset
      (stretchLines xs ++ (before ++ opener :: (inner ++ line :: more))) = .error e := by
  rw [scanLines_stretches hxs, scanLines_plain hb, scanLines_start ho, scanLines_inner hi,
    scanLines_some_start hl]
  exact ⟨_, rfl⟩

/-- Scanned lines that begin with stretches have the regions of these first. -/
theorem exists_regions_append {d : Delimiters} {xs : List Stretch} (hxs : ∀ x ∈ xs, x.Fits d)
    {n offset : Nat} {more : List (List Char)} {rs : List Region}
    (h : scanLines d none n offset (stretchLines xs ++ more) = .ok rs) :
    ∃ rs', rs = regionsFrom d offset xs ++ rs' := by
  rw [scanLines_stretches hxs] at h
  generalize scanLines d none _ _ more = result at h
  cases result with
  | error e => cases h
  | ok rs' => exact ⟨rs', (Except.ok.inj h).symm⟩

end Region

namespace Merge

open Region

/-- The text scans, one region of it comes from the unit, and that region holds the content
without the line ends behind it and with one line feed. -/
def Keeps (d : Delimiters) (u : UnitName) (content t : String) : Prop :=
  ∃ rs r, scan d t = .ok rs ∧ rs.filter (·.matchesUnit u) = [r] ∧
    r.content t.toList = (Block.body content).toList ++ ['\n']

variable {d : Delimiters} {i : Identity} {content : String}

theorem Place.keeps (p : Place d i.unit) (hd : d.Safe) (hi : i.HeaderSafe)
    (hc : NoMarkers d content.toList) {t : String} (ht : t.toList = p.fill i content) :
    Keeps d i.unit content t := by
  obtain ⟨rs, hs, hf⟩ := p.exists_scan hd hi hc ht
  refine ⟨rs, _, hs, hf, ?_⟩
  have hlines : Text.lines t.toList = stretchLines p.around.earlier ++
      ((p.stretch i content).lines ++ (stretchLines p.around.later ++ p.around.rest)) := by
    rw [(p.encloses hd hi hc).lines_layout (p.toList_eq ht)]
    simp [Surroundings.layout, Layout.lines]
  have hentry := entry_of_lines_eq d hlines
  rw [p.entry_stretch hd hi] at hentry
  exact congrArg Region.Entry.content hentry

/-- Lines that are not all free of markers have a first marker line. -/
theorem exists_first_marker {ls : List (List Char)} (h : ¬ ∀ l ∈ ls, lineKind d l = .other) :
    ∃ before line after, ls = before ++ line :: after ∧ (∀ l ∈ before, lineKind d l = .other) ∧
      lineKind d line ≠ .other := by
  induction ls with
  | nil => exact absurd (by simp) h
  | cons l ls ih =>
    by_cases hl : lineKind d l = .other
    · have hls : ¬ ∀ l ∈ ls, lineKind d l = .other := fun hls =>
        h (List.forall_mem_cons.2 ⟨hl, hls⟩)
      obtain ⟨before, line, after, rfl, hbefore, hline⟩ := ih hls
      exact ⟨l :: before, line, after, rfl, List.forall_mem_cons.2 ⟨hl, hbefore⟩, hline⟩
    · exact ⟨[], l, ls, rfl, by simp, hl⟩

/-- An end line in the content of a block ends its region there. -/
theorem Place.content_of_end_line (p : Place d i.unit) (hd : d.Safe) (hi : i.HeaderSafe)
    {before after : List (List Char)} {line : List Char}
    (hlines : Block.contentLines content = before ++ line :: after)
    (hbefore : ∀ l ∈ before, lineKind d l = .other) (hline : lineKind d line = .stop)
    {t : String} (ht : t.toList = p.fill i content) {rs : List Region} (hs : scan d t = .ok rs)
    {r : Region} (hf : rs.filter (·.matchesUnit i.unit) = [r]) :
    r.content t.toList = before.flatten := by
  obtain ⟨x, hx⟩ : ∃ x : Stretch, x = ⟨p.around.before, Text.row d.startLine,
    i.headerRows d.comment ++ ['\n'] :: before, line⟩ := ⟨_, rfl⟩
  have hinner := Block.lineKind_of_mem_append hd hi hbefore
  have hfits : x.Fits d := hx ▸ ⟨p.fits.before, lineKind_startLine hd, hinner, hline⟩
  have hentry : x.entry d = ⟨some i, before.flatten⟩ :=
    Block.entry_of_headerRows hd hi (by rw [hx])
  have htext : Text.lines t.toList =
      stretchLines p.around.earlier ++ (x.lines ++ (after ++ p.closer :: p.around.below)) := by
    rw [ht, p.lines_fill hd hi, Block.inner, hlines, hx]
    simp [Surroundings.above, Stretch.lines, Stretch.regionLines]
  -- its region is the first one that comes from the unit
  have hxs : ∀ z ∈ p.around.earlier ++ [x], z.Fits d :=
    List.forall_mem_append.2 ⟨p.fits.earlier, List.forall_mem_singleton.2 hfits⟩
  have hxlines : stretchLines (p.around.earlier ++ [x]) =
      stretchLines p.around.earlier ++ x.lines := by simp
  rw [scan, htext, ← List.append_assoc, ← hxlines] at hs
  obtain ⟨rs', rfl⟩ := exists_regions_append hxs hs
  have hmatch := matchesUnit_of_entry_eq hentry
  rw [regionsFrom_append, List.filter_append, List.filter_append,
    filter_matchesUnit_eq_nil.2 (List.forall_mem_append.1 p.foreign).1, regionsFrom,
    List.filter_cons, matchesUnit_region, hmatch, if_pos rfl] at hf
  obtain ⟨rfl, -⟩ := List.cons.inj hf
  have hregion := entry_of_lines_eq d htext
  rw [hentry] at hregion
  rw [Nat.zero_add]
  exact congrArg Region.Entry.content hregion

/-- **Content with a marker line is not kept**: a start line in it fails the scan, and an end line
cuts its region short. -/
theorem Place.noMarkers_of_keeps (p : Place d i.unit) (hd : d.Safe) (hi : i.HeaderSafe)
    {t : String} (ht : t.toList = p.fill i content) (h : Keeps d i.unit content t) :
    NoMarkers d content.toList := by
  obtain ⟨rs, r, hs, hf, hcontent⟩ := h
  by_contra hc
  rw [← Block.forall_contentLines hd] at hc
  obtain ⟨before, line, after, hlines, hbefore, hline⟩ := exists_first_marker hc
  cases hk : lineKind d line with
  | other => exact hline hk
  | start =>
    obtain ⟨e, he⟩ := exists_scanLines_eq_error p.fits.earlier p.fits.before
      (lineKind_startLine hd) (Block.lineKind_of_mem_append hd hi hbefore) hk 1 0
      (after ++ p.closer :: p.around.below)
    have htext : scan d t = .error e := by
      rw [scan, ht, p.lines_fill hd hi, Block.inner, hlines, ← he]
      simp [Surroundings.above]
    rw [htext] at hs
    cases hs
  | stop =>
    rw [p.content_of_end_line hd hi hlines hbefore hk ht hs hf, ← Block.flatten_contentLines,
      hlines, List.flatten_append, List.self_eq_append_right] at hcontent
    have : line = [] := (List.append_eq_nil_iff.1 hcontent).1
    exact ne_nil_of_lineKind hd hline this

/-- **A merge keeps its content if and only if no line of it is a marker line**, be there a file or
not, whatever stands in it, and under every strategy. -/
theorem keeps_iff {input : MergeInput} (h : Annotates input) {render : Template.Renderer}
    {t : String} (ht : text input render = .ok (some t)) :
    Keeps input.delimiters input.identity.unit input.content t ↔
      NoMarkers input.delimiters input.content.toList := by
  obtain ⟨p, hfill, -⟩ := exists_place h ht
  constructor
  · exact p.noMarkers_of_keeps h.delimiters h.identity hfill
  · intro hc
    exact p.keeps h.delimiters h.identity hc hfill

/-- A start line in the content decides it. -/
theorem keeps_content_without_start_line :
    (∃ t, text ⟨none, "a\nb\n", ⟨⟨"t", "1", "p"⟩, []⟩, .ofOptions .default ⟨"a.ts"⟩, .default⟩ =
        .ok (some t) ∧ Keeps (.ofOptions .default ⟨"a.ts"⟩) ⟨"t", "1", "p"⟩ "a\nb\n" t) ∧
      ∃ t, text ⟨none, "a\n// @scf-region\nb\n", ⟨⟨"t", "1", "p"⟩, []⟩,
          .ofOptions .default ⟨"a.ts"⟩, .default⟩ = .ok (some t) ∧
        ¬ Keeps (.ofOptions .default ⟨"a.ts"⟩) ⟨"t", "1", "p"⟩ "a\n// @scf-region\nb\n" t := by
  have hd := Delimiters.safe_ofOptions (o := .default) rfl rfl rfl ⟨"a.ts"⟩
  have hu : (⟨"t", "1", "p"⟩ : UnitName).HeaderSafe := by decide
  have hann : ∀ content, Annotates ⟨none, content, ⟨⟨"t", "1", "p"⟩, []⟩,
      .ofOptions .default ⟨"a.ts"⟩, .default⟩ := fun _ => ⟨rfl, rfl, hd, hu.identity⟩
  constructor
  · exact ⟨_, rfl, (@keeps_iff _ (hann "a\nb\n") Template.render _ rfl).2 (by decide +kernel)⟩
  · refine ⟨_, rfl, fun h => ?_⟩
    have hc := (@keeps_iff _ (hann "a\n// @scf-region\nb\n") Template.render _ rfl).1 h
    exact absurd hc (by decide +kernel)

end Merge

end Scaffold
