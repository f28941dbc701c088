import Scaffold.Proofs.Merge.Text

/-!
# Merging twice

A merge of content without marker lines into its own outcome changes nothing
(`text_idempotent`). Annotated content finds its block in its place. Bare content goes into a
region that is there already: the region with other content (`Stretch.withBody`) has the header
that it had, and so it is found again.
-/

namespace Scaffold

namespace Region

/-! ### Other content in a region -/

/-- The stretch with other lines as the content of its region. -/
def Stretch.withBody (x : Stretch) (body : List (List Char)) : Stretch :=
  ⟨x.before, x.opener, x.head ++ body, x.closer⟩

/-- A region with other content keeps its header. -/
theorem Stretch.parts_withBody {d : Delimiters} {x : Stretch} {i : Identity}
    (h : x.identity? d = some i) (body : List (List Char)) :
    (x.withBody body).head = x.head ∧ (x.withBody body).body = body ∧
      (x.withBody body).identity? d = some i := by
  obtain ⟨header, blank, hinner, hheader, hblank, hi⟩ := exists_header h
  obtain ⟨hhead, -, -⟩ := parts_of_inner hinner hheader hblank
  have hbody : (x.withBody body).inner = header ++ blank :: body := by
    simp [withBody, hhead]
  obtain ⟨hhead', hbody', hidentity⟩ := parts_of_inner hbody hheader hblank
  exact ⟨hhead'.trans hhead.symm, hbody', (hidentity d).trans hi⟩

/-- A region with other full lines as its content can stand where it stood. -/
theorem Surroundings.Encloses.withBody {d : Delimiters} (hd : d.Safe) {z : Surroundings}
    {x : Stretch} (h : z.Encloses d x) {body : List (List Char)}
    (hfull : ∀ l ∈ body, Text.IsFullLine l) (hother : ∀ l ∈ body, lineKind d l = .other) :
    z.Encloses d (x.withBody body) := by
  have hhead : ∀ l ∈ x.head, l ∈ x.inner := fun l hl => by
    rw [← x.head_append_body]
    exact List.mem_append_left _ hl
  have hfits : (x.withBody body).Fits d := ⟨h.stretch.before, h.stretch.opener,
    List.forall_mem_append.2 ⟨fun l hl => h.stretch.inner l (hhead l hl), hother⟩,
    h.stretch.closer⟩
  refine ⟨h.around, hfits, h.before, ?_, ?_⟩
  · have hsplit : x.regionLines = (x.opener :: x.inner) ++ [x.closer] := rfl
    obtain ⟨hcloser, hlines⟩ := Text.lines_eq_append (h.lines.trans hsplit)
    obtain ⟨hopener, hinner⟩ := List.forall_mem_cons.1 (hlines (by simp))
    have hlines : ∀ l ∈ x.opener :: (x.head ++ body), Text.IsFullLine l :=
      List.forall_mem_cons.2 ⟨hopener,
        List.forall_mem_append.2 ⟨fun l hl => hinner l (hhead l hl), hfull⟩⟩
    have := Text.lines_flatten_append hlines [x.closer].flatten
    rw [hcloser, ← List.flatten_append] at this
    exact this
  · refine h.closed.imp_left fun hclosed c hc => hclosed c ?_
    rw [getLast?_flatten_regionLines hd h.stretch]
    rwa [getLast?_flatten_regionLines hd hfits] at hc

end Region

namespace Merge

open Region

variable {render : Template.Renderer}

/-- The lines that bare content becomes. -/
def bareLines (content : String) : List (List Char) := Text.lines (Text.closeLine content).toList

theorem isFullLine_of_mem_bareLines (content : String) :
    ∀ l ∈ bareLines content, Text.IsFullLine l := by
  have hclosed : Text.Closed (Text.closeLine content).toList :=
    Text.closed_iff.2 (.inr (Text.getLast?_closeLine content))
  exact Text.isFullLine_of_mem_lines hclosed

theorem lineKind_of_mem_bareLines {d : Delimiters} (hd : d.Safe) {content : String}
    (hc : NoMarkers d content.toList) : ∀ l ∈ bareLines content, lineKind d l = .other := by
  show NoMarkers d (Text.closeLine content).toList
  rw [Text.closeLine]
  split
  · exact hc
  · rw [String.toList_append]
    exact (noMarkers_append_lineEnds hd Text.lineEnd_lineFeed _).2 hc

/-- Content that is swapped stands in the text where the content stood. -/
theorem toList_swapContent {d : Delimiters} {z : Surroundings} {x : Stretch}
    (hx : x.before = z.before) {s : String} (hs : s.toList = z.fill x.regionLines.flatten)
    (content : String) :
    (swapContent s (z.region d x) content).toList =
      z.fill (x.withBody (bareLines content)).regionLines.flatten := by
  have hinner : x.inner.flatten = x.head.flatten ++ x.body.flatten := by
    rw [← List.flatten_append, x.head_append_body]
  have hs' : s.toList = (z.above.flatten ++ x.opener ++ x.head.flatten) ++ x.body.flatten ++
      (x.closer ++ z.below.flatten) := by
    rw [hs]
    simp [Surroundings.fill, Stretch.regionLines, hinner]
  have hstart : (z.region d x).contentStart =
      Text.width (z.above.flatten ++ x.opener ++ x.head.flatten) := by
    simp [Surroundings.region, Stretch.region, Surroundings.above, hx, Nat.add_assoc]
  have hstop : (z.region d x).contentStop =
      Text.width (z.above.flatten ++ x.opener ++ x.head.flatten) + Text.width x.body.flatten := by
    simp [Surroundings.region, Stretch.region, Surroundings.above, hx, hinner]
    omega
  rw [swapContent, hstart, hstop, toList_splice hs']
  simp [Surroundings.fill, Stretch.regionLines, Stretch.withBody, bareLines]

/-- A merge of bare content into the only region of the unit leaves the text as it is that such a
merge gave. -/
theorem text_eq_self_of_bare {input : MergeInput} (ha : input.options.annotate = false)
    (hd : input.delimiters.Safe) (hc : NoMarkers input.delimiters input.content.toList)
    {s : String} {rs : List Region} {r : Region} (hs : scan input.delimiters s = .ok rs)
    (hf : rs.filter (·.matchesUnit input.identity.unit) = [r]) :
    text { input with destination? := some (swapContent s r input.content) } render =
      .ok (some (swapContent s r input.content)) := by
  obtain ⟨z, x, hencloses, hforeign, hmatch, hfill, rfl⟩ := Surroundings.exists_encloses hs hf
  obtain ⟨i, hi, hunit⟩ := (Option.any_eq_true _ _).1 hmatch
  obtain ⟨hhead, -, hidentity⟩ := Stretch.parts_withBody hi (bareLines input.content)
  -- the text behind the first merge has the same region with other content
  have hswap := toList_swapContent (d := input.delimiters) hencloses.before hfill input.content
  generalize swapContent s _ input.content = t at hswap ⊢
  have hencloses' := hencloses.withBody hd (isFullLine_of_mem_bareLines input.content)
    (lineKind_of_mem_bareLines hd hc)
  have hmatch' : (x.withBody (bareLines input.content)).matchesUnit input.delimiters
      input.identity.unit = true := (Option.any_eq_true _ _).2 ⟨i, hidentity, hunit⟩
  obtain ⟨rs', hs', hf'⟩ := hencloses'.exists_scan hforeign hmatch' hswap
  -- the second merge puts the same content there
  have hagain : (x.withBody (bareLines input.content)).withBody (bareLines input.content) =
      x.withBody (bareLines input.content) := by
    rw [Stretch.withBody, hhead]
    rfl
  have hswap' := toList_swapContent (d := input.delimiters) hencloses'.before hswap input.content
  rw [hagain, ← hswap] at hswap'
  have hout : Outcome { input with destination? := some t } input.content
      (some (if input.options.annotate then _ else _)) := .matched rfl hs' hf'
  rw [ha, if_neg Bool.false_ne_true, String.toList_inj.1 hswap'] at hout
  refine (text_eq_ok ?_).2 hout
  simp [block, ha]

/-- **A merge into its own outcome changes nothing**, be the content annotated or put into the
region that the unit has already. -/
theorem text_idempotent {input : MergeInput} (hd : input.delimiters.Safe)
    (hi : input.identity.HeaderSafe) (ht : input.options.annotationTemplate = none)
    (hc : NoMarkers input.delimiters input.content.toList)
    (hm : input.options.annotate = true ∨
      ∃ s rs r, input.destination? = some s ∧ scan input.delimiters s = .ok rs ∧
        rs.filter (·.matchesUnit input.identity.unit) = [r])
    {t : String} (h : text input render = .ok (some t)) :
    text { input with destination? := some t } render = .ok (some t) := by
  cases ha : input.options.annotate with
  | true =>
    obtain ⟨p, hfill, -⟩ := exists_place ⟨ha, ht, hd, hi⟩ h
    have hann : Annotates { input with destination? := some t } := ⟨ha, ht, hd, hi⟩
    exact text_eq_self hann hc p rfl hfill
  | false =>
    rcases hm with hm | ⟨s, rs, r, hdest, hs, hf⟩
    · rw [ha] at hm
      cases hm
    · have hb : block input render = .ok input.content := by simp [block, ha]
      have hfirst := (text_eq_ok hb).2 (.matched hdest hs hf)
      rw [h, ha, if_neg Bool.false_ne_true] at hfirst
      obtain rfl := Option.some.inj (Except.ok.inj hfirst)
      exact text_eq_self_of_bare ha hd hc hs hf

/-- Bare content in a region that ends the text without a line feed. -/
theorem text_idempotent_of_bare_content :
    text ⟨some "a\r\n// @scf-region\n// template: t@1\n// partial: p\n\nnew\n// @scf-endregion",
        "new", ⟨⟨"t", "1", "p"⟩, []⟩, .ofOptions .default ⟨"a.ts"⟩,
        { Options.default with annotate := false }⟩ =
      .ok (some
        "a\r\n// @scf-region\n// template: t@1\n// partial: p\n\nnew\n// @scf-endregion") := by
  have hd := Delimiters.safe_ofOptions (o := .default) rfl rfl rfl ⟨"a.ts"⟩
  have hu : (⟨"t", "1", "p"⟩ : UnitName).HeaderSafe := by decide
  have h : text
      ⟨some "a\r\n// @scf-region\n// template: t@1\n// partial: p\n\nold\n// @scf-endregion",
        "new", ⟨⟨"t", "1", "p"⟩, []⟩, .ofOptions .default ⟨"a.ts"⟩,
        { Options.default with annotate := false }⟩ =
      .ok (some
        "a\r\n// @scf-region\n// template: t@1\n// partial: p\n\nnew\n// @scf-endregion") := by
    rfl
  exact text_idempotent hd hu.identity rfl (by decide +kernel) (.inr ⟨_, _, _, rfl, rfl, rfl⟩) h

end Merge

end Scaffold
