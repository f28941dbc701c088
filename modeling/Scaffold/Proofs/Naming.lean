import Scaffold.Naming
import Scaffold.Proofs.Path

/-!
# Names in a convention

The words of a name are letters and digits, and no case map leads to a point or a slash. So a name is
a name again in every convention (`isName_apply`, `isName_applyToFile`), whatever its characters are.
-/

namespace Scaffold

namespace Text

/-! ### Case maps -/

/-- The character is neither a point nor a slash. -/
def IsInner (c : Char) : Prop := c ≠ '.' ∧ c ≠ '/'

instance (c : Char) : Decidable (IsInner c) := inferInstanceAs (Decidable (_ ∧ _))

theorem isInner_of_lt {c : Char} (h : 47 < c.toNat) : IsInner c := by
  constructor
  · rintro rfl
    exact absurd h (by decide)
  · rintro rfl
    exact absurd h (by decide)

/-- The character with a code point behind the slash, if there is one. -/
theorem isInner_ofNat {n : Nat} (h : 47 < n) : IsInner (Char.ofNat n) := by
  by_cases hvalid : n.isValidChar
  · rw [Char.ofNat, dif_pos hvalid]
    exact isInner_of_lt (show 47 < (Char.ofNatAux n hvalid).toNat from h)
  · rw [Char.ofNat, dif_neg hvalid]
    decide

/-- A case map whose images are neither empty nor a point or a slash. -/
structure IsTame (runs : List (Nat × Nat × Nat × Int)) (texts : List (Nat × List Nat)) : Prop where
  runs : ∀ run ∈ runs, 47 < (run.1 : Int) + run.2.2.2
  texts : ∀ text ∈ texts, text.2 ≠ [] ∧ ∀ n ∈ text.2, 47 < n

theorem isTame_lower : IsTame Letter.lowerRuns Letter.lowerTexts :=
  ⟨by decide +kernel, by decide +kernel⟩

theorem isTame_upper : IsTame Letter.upperRuns Letter.upperTexts :=
  ⟨by decide +kernel, by decide +kernel⟩

/-- The text is not empty, and has neither points nor slashes. -/
def IsSegment (s : List Char) : Prop := s ≠ [] ∧ ∀ c ∈ s, IsInner c

theorem IsTame.image {runs : List (Nat × Nat × Nat × Int)} {texts : List (Nat × List Nat)}
    (h : IsTame runs texts) {c : Char} (hc : IsInner c) : IsSegment (Letter.image runs texts c) := by
  rw [Letter.image]
  dsimp only
  split
  · rename_i text hfound
    obtain ⟨hne, hall⟩ := h.texts _ (List.mem_of_find?_eq_some hfound)
    refine ⟨by simpa using hne, fun d hd => ?_⟩
    obtain ⟨n, hn, rfl⟩ := List.mem_map.1 hd
    exact isInner_ofNat (hall n hn)
  · split
    · rename_i first last step distance hfound
      have hmem := h.runs _ (List.mem_of_find?_eq_some hfound)
      have hin := List.find?_some hfound
      refine ⟨by simp, List.forall_mem_singleton.2 (isInner_ofNat ?_)⟩
      simp only [Bool.and_eq_true, decide_eq_true_eq] at hin
      dsimp only at hmem
      omega
    · exact ⟨by simp, List.forall_mem_singleton.2 hc⟩

/-- What holds of the ASCII characters one by one holds of each. -/
theorem of_ascii {P : Char → Prop} (h : ∀ n < 128, P (Char.ofNat n)) {c : Char}
    (hc : c.toNat < 128) : P c := by
  rw [← Char.ofNat_toNat c]
  exact h _ hc

theorem isInner_toLower {c : Char} (hc : IsInner c) (h : c.toNat < 128) : IsInner c.toLower :=
  of_ascii (P := fun c => IsInner c → IsInner c.toLower) (by decide) h hc

theorem isInner_toUpper {c : Char} (hc : IsInner c) (h : c.toNat < 128) : IsInner c.toUpper :=
  of_ascii (P := fun c => IsInner c → IsInner c.toUpper) (by decide) h hc

theorem isSegment_singleton {c : Char} (h : IsInner c) : IsSegment [c] :=
  ⟨by simp, List.forall_mem_singleton.2 h⟩

theorem isSegment_lowerChar {c : Char} (h : IsInner c) : IsSegment (lowerChar c) := by
  rw [lowerChar]
  split
  · exact isSegment_singleton (isInner_toLower h ‹_›)
  · exact isTame_lower.image h

theorem isSegment_upperChar {c : Char} (h : IsInner c) : IsSegment (upperChar c) := by
  rw [upperChar]
  split
  · exact isSegment_singleton (isInner_toUpper h ‹_›)
  · exact isTame_upper.image h

/-! ### Words -/

theorem isSegment_append {a b : List Char} (ha : IsSegment a) (hb : ∀ c ∈ b, IsInner c) :
    IsSegment (a ++ b) :=
  ⟨by simp [ha.1], List.forall_mem_append.2 ⟨ha.2, hb⟩⟩

theorem isInner_flatMap {f : α → List Char} {l : List α} (h : ∀ a ∈ l, IsSegment (f a)) :
    ∀ c ∈ l.flatMap f, IsInner c := by
  intro c hc
  obtain ⟨a, ha, hc⟩ := List.mem_flatMap.1 hc
  exact (h a ha).2 c hc

theorem isInner_lowerFrom (before : List Char) {s : List Char} (h : ∀ c ∈ s, IsInner c) :
    ∀ c ∈ lowerFrom before s, IsInner c := by
  induction s generalizing before with
  | nil => simp [lowerFrom]
  | cons c s ih =>
    obtain ⟨hc, hs⟩ := List.forall_mem_cons.1 h
    rw [lowerFrom]
    refine List.forall_mem_append.2 ⟨?_, ih _ hs⟩
    split
    · split <;> exact List.forall_mem_singleton.2 (by decide)
    · exact (isSegment_lowerChar hc).2

theorem isSegment_lower {s : List Char} (h : IsSegment s) : IsSegment (lower s) := by
  refine ⟨?_, isInner_lowerFrom [] h.2⟩
  obtain ⟨c, s, rfl⟩ := List.exists_cons_of_ne_nil h.1
  rw [lower, lowerFrom]
  refine List.append_ne_nil_of_left_ne_nil ?_ _
  split
  · simp
  · exact (isSegment_lowerChar (h.2 c List.mem_cons_self)).1

theorem isSegment_capitalize {s : List Char} (h : IsSegment s) : IsSegment (capitalize s) := by
  obtain ⟨c, s, rfl⟩ := List.exists_cons_of_ne_nil h.1
  obtain ⟨hc, hs⟩ := List.forall_mem_cons.1 h.2
  exact isSegment_append (isSegment_upperChar hc)
    (isInner_flatMap fun d hd => isSegment_lowerChar (hs d hd))

end Text

namespace Convention

open Text (IsInner IsSegment)

theorem isInner_of_isAlphanumeric {c : Char} (h : Text.isAlphanumeric c = true) : IsInner c := by
  constructor
  · rintro rfl
    exact absurd h (by decide)
  · rintro rfl
    exact absurd h (by decide)

/-- Behind the word read so far, every word is one without points and slashes. -/
theorem isSegment_wordsFrom {word s : List Char} (hword : ∀ c ∈ word, IsInner c) :
    ∀ w ∈ wordsFrom word s, IsSegment w := by
  have hreverse : word ≠ [] → IsSegment word.reverse := fun hne =>
    ⟨by simpa using hne, fun c hc => hword c (List.mem_reverse.1 hc)⟩
  induction s generalizing word with
  | nil =>
    rw [wordsFrom]
    split
    · simp
    · rename_i hne
      exact List.forall_mem_singleton.2 (hreverse (by simpa using hne))
  | cons c s ih =>
    have hstart := @ih [] (by simp) (by simp)
    rw [wordsFrom.eq_def]
    dsimp only
    split
    · split
      · exact hstart
      · rename_i hne
        exact List.forall_mem_cons.2 ⟨hreverse (by simpa using hne), hstart⟩
    · rename_i halphanumeric
      have hc : IsInner c := isInner_of_isAlphanumeric (by simpa using halphanumeric)
      have hsingle : ∀ w ∈ wordsFrom [c] s, IsSegment w :=
        ih (List.forall_mem_singleton.2 hc) fun _ => Text.isSegment_singleton hc
      cases word with
      | nil => exact hsingle
      | cons before more =>
        dsimp only
        split
        · exact List.forall_mem_cons.2 ⟨hreverse (by simp), hsingle⟩
        · have hmore : ∀ d ∈ c :: before :: more, IsInner d := List.forall_mem_cons.2 ⟨hc, hword⟩
          exact ih hmore fun _ => ⟨by simp, fun d hd => hmore d (List.mem_reverse.1 hd)⟩

theorem joinLower_cons_cons (mark : Char) (w v : List Char) (ws : List (List Char)) :
    joinLower mark (w :: v :: ws) = Text.lower w ++ mark :: joinLower mark (v :: ws) := by
  simp [joinLower, List.intercalate]

theorem isSegment_joinLower {mark : Char} (hmark : IsInner mark) {ws : List (List Char)}
    (hne : ws ≠ []) (h : ∀ w ∈ ws, IsSegment w) : IsSegment (joinLower mark ws) := by
  induction ws with
  | nil => exact absurd rfl hne
  | cons w ws ih =>
    obtain ⟨hw, hws⟩ := List.forall_mem_cons.1 h
    cases ws with
    | nil => simpa [joinLower, List.intercalate] using Text.isSegment_lower hw
    | cons v ws =>
      rw [joinLower_cons_cons]
      exact Text.isSegment_append (Text.isSegment_lower hw)
        (List.forall_mem_cons.2 ⟨hmark, (ih (by simp) hws).2⟩)

/-- Words are joined to a text without points and slashes. -/
theorem isSegment_join {c : Convention} {ws : List (List Char)} (hne : ws ≠ [])
    (h : ∀ w ∈ ws, IsSegment w) : IsSegment (c.join ws) := by
  obtain ⟨w, ws, rfl⟩ := List.exists_cons_of_ne_nil hne
  obtain ⟨hw, hws⟩ := List.forall_mem_cons.1 h
  have hrest := Text.isInner_flatMap fun v hv => Text.isSegment_capitalize (hws v hv)
  cases c with
  | none =>
    refine Text.isSegment_append hw fun d hd => ?_
    obtain ⟨v, hv, hd⟩ := List.mem_flatten.1 hd
    exact (hws v hv).2 d hd
  | kebab => exact isSegment_joinLower (by decide) hne h
  | snake => exact isSegment_joinLower (by decide) hne h
  | camel => exact Text.isSegment_append (Text.isSegment_lower hw) hrest
  | pascal => exact Text.isSegment_append (Text.isSegment_capitalize hw) hrest

/-- A text stays as it is in a convention, or becomes one without points and slashes. -/
theorem applyTo_cases (c : Convention) (s : List Char) :
    c.applyTo s = s ∨ IsSegment (c.applyTo s) := by
  rw [applyTo]
  split
  · exact .inl rfl
  · dsimp only
    split
    · exact .inl rfl
    · rename_i hne
      exact .inr (isSegment_join (by simpa using hne) (isSegment_wordsFrom (by simp)))

theorem isName_of_isSegment {s : List Char} (h : IsSegment s) : IsName (String.ofList s) := by
  refine ⟨?_, ?_, ?_, ?_⟩ <;> rw [String.toList_ofList]
  · exact h.1
  · rintro rfl
    exact (h.2 '.' (by simp)).1 rfl
  · rintro rfl
    exact (h.2 '.' (by simp)).1 rfl
  · exact fun hslash => (h.2 '/' hslash).2 rfl

/-- **A name in a convention is a name.** -/
theorem isName_apply (c : Convention) {n : String} (h : IsName n) : IsName (c.apply n) := by
  rw [apply]
  rcases c.applyTo_cases n.toList with hsame | hword
  · rwa [hsame, String.ofList_toList]
  · exact isName_of_isSegment hword

/-- **The name of a file in a convention is a name.** -/
theorem isName_applyToFile (c : Convention) {n : String} (h : IsName n) :
    IsName (c.applyToFile n) := by
  rw [applyToFile]
  split
  · exact c.isName_apply h
  · exact h
  · rename_i stem rest hne hsplit
    obtain ⟨hn, hstem⟩ := Text.splitFirst?_eq_some hsplit
    rcases c.applyTo_cases stem with hsame | hword
    · rwa [hsame, ← hn, String.ofList_toList]
    · -- what stands before the point is neither empty nor a point
      obtain ⟨d, word, hd⟩ := List.exists_cons_of_ne_nil hword.1
      have hfirst := hword.2 d (hd ▸ List.mem_cons_self)
      have hslash : '/' ∉ rest := fun hmem => h.slash_not_mem (by rw [hn]; simp [hmem])
      refine ⟨?_, ?_, ?_, ?_⟩ <;> rw [String.toList_ofList]
      · simp [hd]
      · simp [hd]
      · rw [hd]
        exact fun heq => hfirst.1 (List.cons.inj heq).1
      · intro hmem
        rcases List.mem_append.1 hmem with hmem | hmem
        · exact (hword.2 '/' hmem).2 rfl
        · exact hslash (by simpa using hmem)

end Convention

end Scaffold
