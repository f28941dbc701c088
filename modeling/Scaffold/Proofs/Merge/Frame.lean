import Scaffold.Proofs.Merge.Text
import Scaffold.Proofs.Outcome
import Scaffold.Proofs.Region.Spans

/-!
# What a merge leaves alone

Whatever the content is and however its block looks, a merge changes a text in one of three ways
(`Edit`): it puts a new text where the region of the unit or the content of that region stood, it
puts the block behind the text, or it puts the block in place of the text because the options ask
for that. All other bytes of the text stay. Where two regions come from the unit, and where the text
does not scan, no text is written (`text_frame`).
-/

namespace Scaffold.Merge

open Region

/-! ### What can happen to a text -/

/-- The part of a text that a merge replaces, where a region comes from the unit: the region, or
only its content if the content is not annotated. -/
def seat (o : Options) (r : Region) : Nat × Nat :=
  if o.annotate then (r.start, r.stop) else (r.contentStart, r.contentStop)

/-- What a merge puts there. -/
inductive Fills (input : MergeInput) (s fresh : String) (r : Region) : List Char → Prop where
  /-- The block or the content, with a line feed behind it. -/
  | closed {x : List Char} (hend : x.getLast? = some '\n')
      (hx : x = (if input.options.annotate then fresh else Text.closeLine input.content).toList) :
    Fills input s fresh r x
  /-- The block without a line feed behind it, where the region ends the text without one. -/
  | bare (hannotate : input.options.annotate = true) (hlast : r.stop = Text.width s.toList)
      (hopen : s.toList.getLast? ≠ some '\n') :
    Fills input s fresh r (withoutLineFeeds fresh).toList

/-- What a merge can make of a text. -/
inductive Edit (input : MergeInput) (s fresh : String) (t : String) : Prop where
  /-- Exactly one region comes from the unit, and what stands around its seat stays. -/
  | swapped {rs : List Region} {r : Region} {before old new after : List Char}
      (hs : scan input.delimiters s = .ok rs)
      (hf : rs.filter (·.matchesUnit input.identity.unit) = [r])
      (hsplit : s.toList = before ++ old ++ after)
      (hstart : Text.width before = (seat input.options r).1)
      (hstop : Text.width before + Text.width old = (seat input.options r).2)
      (hnew : Fills input s fresh r new) (ht : t.toList = before ++ new ++ after)
  /-- No region comes from the unit, and the text stays. -/
  | behind {rs : List Region} (hs : scan input.delimiters s = .ok rs)
      (hf : rs.filter (·.matchesUnit input.identity.unit) = [])
      (ht : t.toList = s.toList ++ missingLineFeed s.toList ++ fresh.toList)
  /-- No region comes from the unit, and the options ask for a new text. -/
  | replaced {rs : List Region} (hs : scan input.delimiters s = .ok rs)
      (hf : rs.filter (·.matchesUnit input.identity.unit) = [])
      (hstrategy : input.options.appendStrategy = .replace) (ht : t = fresh)

variable {input : MergeInput} {s fresh : String} {render : Template.Renderer}

/-! ### Line feeds behind texts -/

/-- A block ends its last line, whatever template it comes from. -/
theorem getLast?_of_block (hb : block input render = .ok fresh) (ha : input.options.annotate = true) :
    fresh.toList.getLast? = some '\n' := by
  rw [block, if_pos ha] at hb
  have hmake := Outcome.mapError_eq_ok.1 hb
  cases htemplate : input.options.annotationTemplate with
  | none =>
    rw [htemplate] at hmake
    obtain rfl := Except.ok.inj hmake
    rw [Block.toList_usual, getLast?_text .row, Text.row]
    exact List.getLast?_concat
  | some template =>
    rw [htemplate] at hmake
    obtain ⟨rendered, -, rfl⟩ := Outcome.map_eq_ok.1 hmake
    exact Text.getLast?_closeLine rendered

/-- A region is followed by the next line, or ends a text that lacks a line feed. -/
theorem getLast?_upto_stop {r : Region} (h : WellPlaced s.toList r) :
    (Text.takeBytes r.stop s.toList).getLast? = some '\n' ∨
      r.stop = Text.width s.toList ∧ s.toList.getLast? ≠ some '\n' := by
  obtain ⟨upto, after, hs, hstop, hline⟩ := h.beginsLine r.stop (by simp [places])
  have htake : Text.takeBytes r.stop s.toList = upto := by
    rw [hs, ← hstop, Text.takeBytes_width]
  rw [htake]
  by_cases hlast : upto.getLast? = some '\n'
  · exact .inl hlast
  · rcases hline with hclosed | rfl
    · -- a region is not empty
      rcases Text.closed_iff.1 hclosed with rfl | hend
      · have := h.contentStop_lt
        rw [Text.width_nil] at hstop
        omega
      · exact absurd hend hlast
    · rw [List.append_nil] at hs
      exact .inr ⟨hs ▸ hstop.symm, hs ▸ hlast⟩

/-! ### Regions that are replaced -/

theorem canSlice_seat {r : Region} (h : WellPlaced s.toList r) (o : Options) :
    Text.CanSlice s.toList (seat o r).1 (seat o r).2 := by
  have hplace : ∀ n ∈ r.places, Text.IsPlace s.toList n := fun n hn => (h.beginsLine n hn).isPlace
  have hstart := hplace r.start (by simp [places])
  have hcontentStart := hplace r.contentStart (by simp [places])
  have hcontentStop := hplace r.contentStop (by simp [places])
  have hstop := hplace r.stop (by simp [places])
  have hlt := h.start_lt
  have hle := h.contentStart_le
  have hlt' := h.contentStop_lt
  rw [seat]
  split
  · exact hstart.canSlice hstop (by omega)
  · exact hcontentStart.canSlice hcontentStop hle

/-- Where one region comes from the unit, the text around its seat stays. -/
theorem edit_of_matched (hb : block input render = .ok fresh) {rs : List Region} {r : Region}
    (hs : scan input.delimiters s = .ok rs)
    (hf : rs.filter (·.matchesUnit input.identity.unit) = [r]) :
    Edit input s fresh (if input.options.annotate then swapRegion s r fresh
      else swapContent s r input.content) := by
  have hr : r ∈ rs := by
    refine List.mem_of_mem_filter (p := (·.matchesUnit input.identity.unit)) ?_
    rw [hf]
    exact List.mem_singleton_self r
  have hplaced := wellPlaced_of_scan hs hr
  obtain ⟨before, old, after, hsplit, hstart, hstop⟩ := canSlice_seat hplaced input.options
  have hsplice := toList_splice hsplit
  rw [hstop, hstart] at hsplice
  by_cases ha : input.options.annotate = true
  · simp only [seat, if_pos ha] at hsplice
    rw [if_pos ha, swapRegion]
    rcases getLast?_upto_stop hplaced with hclosed | ⟨hlast, hopen⟩
    · rw [hclosed]
      have hend := getLast?_of_block hb ha
      refine .swapped hs hf hsplit hstart hstop (.closed hend ?_) (hsplice fresh)
      rw [if_pos ha]
    · have hupto : Text.takeBytes r.stop s.toList = s.toList := by
        have := Text.takeBytes_width s.toList []
        rwa [List.append_nil, ← hlast] at this
      rw [hupto]
      simp only [beq_iff_eq, if_neg hopen]
      exact .swapped hs hf hsplit hstart hstop (.bare ha hlast hopen) (hsplice _)
  · simp only [seat, if_neg ha] at hsplice
    rw [if_neg ha, swapContent]
    refine .swapped hs hf hsplit hstart hstop (.closed (Text.getLast?_closeLine _) ?_) (hsplice _)
    rw [if_neg ha]

/-! ### Merging -/

theorem edit_of_text (h : input.destination? = some s) {t : String}
    (ht : text input render = .ok (some t)) : ∃ fresh, block input render = .ok fresh ∧ Edit input s fresh t := by
  obtain ⟨fresh, hb, -⟩ := Outcome.bind_eq_ok.1 ht
  have hout := (text_eq_ok hb).1 ht
  refine ⟨fresh, hb, ?_⟩
  generalize ho : some t = out at hout
  cases hout with
  | missing hd => rw [h] at hd; cases hd
  | unmatched hd hs hf =>
    obtain rfl := Option.some.inj (h.symm.trans hd)
    rcases append_eq_some ho.symm with ⟨hstrategy, rfl⟩ | rfl
    · exact .replaced hs hf hstrategy rfl
    · exact .behind hs hf (toList_behind _ _)
  | matched hd hs hf =>
    obtain rfl := Option.some.inj (h.symm.trans hd)
    obtain rfl := Option.some.inj ho
    exact edit_of_matched hb hs hf

/-- A merge that fails on every block fails. That there is no block is found first. -/
theorem exists_error {e : Failure} (h : ∀ fresh, block input render = .ok fresh → text input render = .error e) :
    ∃ e', text input render = .error e' ∧ ∀ fresh, block input render = .ok fresh → e' = e := by
  cases hb : block input render with
  | error e' =>
    refine ⟨e', ?_, nofun⟩
    rw [text, hb]
    rfl
  | ok fresh => exact ⟨e, h fresh hb, fun _ _ => rfl⟩

/-- **A merge leaves the rest of a text alone.** If it writes a text, then that is the old one with
only the region of the unit replaced, or its content, or the old one with the block behind it, or
the block, if no region comes from the unit and the options ask for that. Where several regions
come from the unit, or the text does not scan, it writes no text. -/
theorem text_frame (h : input.destination? = some s) :
    (∀ t, text input render = .ok (some t) → ∃ fresh, block input render = .ok fresh ∧ Edit input s fresh t) ∧
    (∀ rs, scan input.delimiters s = .ok rs →
      2 ≤ (rs.filter (·.matchesUnit input.identity.unit)).length →
        ∃ e, text input render = .error e ∧ ∀ fresh, block input render = .ok fresh →
          e = .duplicateRegions input.identity.unit
            (rs.filter (·.matchesUnit input.identity.unit)).length) ∧
    ∀ f, scan input.delimiters s = .error f →
      ∃ e, text input render = .error e ∧ ∀ fresh, block input render = .ok fresh → e = .region f := by
  refine ⟨fun t ht => edit_of_text h ht, fun rs hs hmany => ?_, fun f hs => ?_⟩
  · refine exists_error fun fresh hb => ?_
    simp only [text, hb, h, regions, hs, Except.mapError, bind, Except.bind]
    split
    · rename_i hnone
      simp [hnone] at hmany
    · rename_i r hone
      simp [hone] at hmany
    · rfl
  · refine exists_error fun fresh hb => ?_
    simp [text, hb, h, regions, hs, Except.mapError, bind, Except.bind]

/-- A template that makes no region of the content, in place of a region that ends its text without
a line feed; two regions of the unit; and a region without an end line. -/
theorem text_frame_of_custom_template :
    let input (s : String) : MergeInput :=
      ⟨some s, "y", ⟨⟨"t", "1", "p"⟩, []⟩, .ofOptions .default ⟨"a.ts"⟩,
        { Options.default with annotationTemplate := some "<\x7b\x7b content \x7d\x7d>" }⟩
    let region := "// @scf-region\n// template: t@1\n// partial: p\n\nx\n// @scf-endregion"
    (∃ fresh, block (input ("é\n" ++ region)) = .ok fresh ∧
      Edit (input ("é\n" ++ region)) ("é\n" ++ region) fresh "é\n<y>") ∧
    (∃ e, text (input (region ++ "\n" ++ region)) = .error e) ∧
    ∃ e, text (input "// @scf-region\n") = .error e := by
  intro input region
  have htext : text (input ("é\n" ++ region)) = .ok (some "é\n<y>") :=
    Outcome.toOption_eq_some.1 (by decide +kernel)
  refine ⟨(text_frame rfl).1 _ htext, ?_, ?_⟩
  · have htwo : ((scan (.ofOptions .default ⟨"a.ts"⟩) (region ++ "\n" ++ region)).toOption.any
        fun rs => 2 ≤ (rs.filter (·.matchesUnit ⟨"t", "1", "p"⟩)).length) = true := by
      decide +kernel
    obtain ⟨rs, hs, htwo⟩ := Outcome.any_toOption.1 htwo
    have hframe := @text_frame (input (region ++ "\n" ++ region)) _ Template.render rfl
    obtain ⟨e, he, -⟩ := hframe.2.1 rs hs (of_decide_eq_true htwo)
    exact ⟨e, he⟩
  · have hs : scan (.ofOptions .default ⟨"a.ts"⟩) "// @scf-region\n" =
        .error ⟨1, .missing "@scf-endregion"⟩ := by rfl
    have hframe := @text_frame (input "// @scf-region\n") _ Template.render rfl
    obtain ⟨e, he, -⟩ := hframe.2.2 _ hs
    exact ⟨e, he⟩

end Scaffold.Merge
