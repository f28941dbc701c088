import Scaffold.Proofs.Directive.Scan
import Scaffold.Proofs.Text.Braces

/-!
# Objects of directives

The object of a directive is found by counting braces. What is found is a text in braces that
balance, and every such text is found, whatever follows it (`object?_eq_some`).
-/

namespace Scaffold.Directive

open Text (Quoted Balanced Braced Closes)

theorem Mode.step_outside {c : Char} (hquote : c ≠ '"') : Mode.step .outside c = .outside := by
  rw [Mode.step]
  exact hquote

theorem Mode.step_inString {c : Char} (hquote : c ≠ '"') (hslash : c ≠ '\\') :
    Mode.step .inString c = .inString := by
  rw [Mode.step]
  · exact hslash
  · exact hquote

/-! ### What a counter takes off a text -/

/-- What a counter that stands at a mode, with so many levels open, takes off a text. -/
inductive Mode.Takes (depth : Nat) : Mode → List Char → Prop where
  | outside {s : List Char} (h : Closes depth s) : Takes depth .outside s
  | inString {t s : List Char} (ht : Quoted t) (h : Closes depth s) :
      Takes depth .inString (t ++ '"' :: s)
  | escaped (c : Char) {s : List Char} (h : Takes depth .inString s) :
      Takes depth .escaped (c :: s)

/-- A character that is no brace outside of strings changes the mode only. -/
theorem Mode.Takes.cons {depth : Nat} {mode : Mode} {c : Char} {s : List Char}
    (hopen : mode = .outside → c ≠ '{') (hclose : mode = .outside → c ≠ '}')
    (h : (mode.step c).Takes (depth + 1) s) : mode.Takes (depth + 1) (c :: s) := by
  cases mode with
  | outside =>
    by_cases hquote : c = '"'
    · subst hquote
      cases h with
      | @inString t s ht h =>
        have hstring := h.append_left (.string ht .nil)
        exact .outside (by simpa using hstring)
    · rw [Mode.step_outside hquote] at h
      cases h with
      | outside h => exact .outside (h.append_left (.plain hquote (hopen rfl) (hclose rfl) .nil))
  | inString =>
    by_cases hslash : c = '\\'
    · subst hslash
      cases h with
      | escaped c h =>
        cases h with
        | inString ht h => exact .inString (.escaped c ht) h
    · by_cases hquote : c = '"'
      · subst hquote
        cases h with
        | outside h => exact .inString .nil h
      · rw [Mode.step_inString hquote hslash] at h
        cases h with
        | inString ht h => exact .inString (.plain hquote hslash ht) h
  | escaped => exact .escaped c h

/-- What is taken off a text closes the levels that are open. -/
theorem takes_of_untilClosed? {mode : Mode} {depth : Nat} {s object rest : List Char}
    (h : untilClosed? mode (depth + 1) s = some (object, rest)) :
    mode.Takes (depth + 1) object := by
  induction s generalizing mode depth object with
  | nil => cases h
  | cons c s ih =>
    simp only [untilClosed?] at h
    split_ifs at h with hopen hclose hlast
    · obtain ⟨⟨o, r⟩, ho, h⟩ := Option.map_eq_some_iff.1 h
      obtain ⟨rfl, rfl⟩ := Prod.mk.inj h
      obtain ⟨rfl, rfl⟩ : mode = .outside ∧ c = '{' := by simpa using hopen
      cases ih ho with
      | outside h => exact .outside h.opened
    · obtain ⟨rfl, rfl⟩ := Prod.mk.inj (Option.some.inj h)
      obtain ⟨rfl, rfl⟩ : mode = .outside ∧ c = '}' := by simpa using hclose
      obtain rfl : depth = 0 := by omega
      exact .outside (.level .nil .nil)
    · obtain ⟨⟨o, r⟩, ho, h⟩ := Option.map_eq_some_iff.1 h
      obtain ⟨rfl, rfl⟩ := Prod.mk.inj h
      obtain ⟨rfl, rfl⟩ : mode = .outside ∧ c = '}' := by simpa using hclose
      obtain ⟨k, rfl⟩ : ∃ k, depth = k + 1 := Nat.exists_eq_succ_of_ne_zero (by omega)
      cases ih ho with
      | outside h => exact .outside (.level .nil h)
    · obtain ⟨⟨o, r⟩, ho, h⟩ := Option.map_eq_some_iff.1 h
      obtain ⟨rfl, rfl⟩ := Prod.mk.inj h
      exact .cons (by simpa using hopen) (by simpa using hclose) (ih ho)

/-! ### Counting over balanced texts -/

theorem untilClosed?_pass {mode : Mode} {c : Char} (hopen : mode = .outside → c ≠ '{')
    (hclose : mode = .outside → c ≠ '}') (depth : Nat) (s : List Char) :
    untilClosed? mode depth (c :: s) =
      (untilClosed? (mode.step c) depth s).map fun r => (c :: r.1, r.2) := by
  rw [untilClosed?, if_neg (by simpa using hopen), if_neg (by simpa using hclose)]

/-- In a string no brace counts. -/
theorem untilClosed?_inside {mode : Mode} (h : mode ≠ .outside) (c : Char) (depth : Nat)
    (s : List Char) : untilClosed? mode depth (c :: s) =
      (untilClosed? (mode.step c) depth s).map fun r => (c :: r.1, r.2) :=
  untilClosed?_pass (fun hmode => absurd hmode h) (fun hmode => absurd hmode h) depth s

theorem untilClosed?_open (depth : Nat) (s : List Char) :
    untilClosed? .outside depth ('{' :: s) =
      (untilClosed? .outside (depth + 1) s).map fun r => ('{' :: r.1, r.2) := rfl

theorem untilClosed?_close (depth : Nat) (s : List Char) :
    untilClosed? .outside (depth + 2) ('}' :: s) =
      (untilClosed? .outside (depth + 1) s).map fun r => ('}' :: r.1, r.2) := rfl

theorem untilClosed?_append_quoted {t : List Char} (ht : Quoted t) (depth : Nat) (s : List Char) :
    untilClosed? .inString depth (t ++ '"' :: s) =
      (untilClosed? .outside depth s).map fun r => (t ++ '"' :: r.1, r.2) := by
  induction ht with
  | nil => exact untilClosed?_inside (by decide) '"' depth s
  | @plain c t hquote hslash _ ih =>
    rw [List.cons_append, untilClosed?_inside (by decide), Mode.step_inString hquote hslash, ih]
    simp [Function.comp_def]
  | @escaped c t _ ih =>
    rw [List.cons_append, List.cons_append, untilClosed?_inside (by decide), Mode.step,
      untilClosed?_inside (by decide), Mode.step, ih]
    simp [Function.comp_def]

/-- Balanced text is passed over. -/
theorem untilClosed?_append_balanced {t : List Char} (ht : Balanced t) (depth : Nat)
    (s : List Char) : untilClosed? .outside (depth + 1) (t ++ s) =
      (untilClosed? .outside (depth + 1) s).map fun r => (t ++ r.1, r.2) := by
  induction ht generalizing depth s with
  | nil => simp
  | @plain c t hquote hopen hclose _ ih =>
    rw [List.cons_append, untilClosed?_pass (fun _ => hopen) (fun _ => hclose),
      Mode.step_outside hquote, ih]
    simp [Function.comp_def]
  | @string q t hq _ ih =>
    rw [List.cons_append, List.append_assoc, List.cons_append,
      untilClosed?_pass (by decide) (by decide), Mode.step, untilClosed?_append_quoted hq, ih]
    simp [Function.comp_def]
  | @braces u t _ _ ihu iht =>
    rw [List.cons_append, List.append_assoc, List.cons_append, untilClosed?_open, ihu,
      untilClosed?_close, iht]
    simp [Function.comp_def]

/-- **What is found as an object is a text in braces that balance**, and every such text is found,
whatever follows it. -/
theorem object?_eq_some {s object rest : List Char} : object? ('{' :: s) = some (object, rest) ↔
    '{' :: s = object ++ rest ∧ Braced object := by
  rw [object?, untilClosed?_open]
  constructor
  · intro h
    obtain ⟨⟨o, r⟩, ho, h⟩ := Option.map_eq_some_iff.1 h
    obtain ⟨rfl, rfl⟩ := Prod.mk.inj h
    refine ⟨congrArg _ (untilClosed?_eq_some ho).1, ?_⟩
    cases takes_of_untilClosed? ho with
    | outside h => exact Text.braced_cons.2 h
  · rintro ⟨hs, t, ht, rfl⟩
    have hs : s = t ++ '}' :: rest := by simpa using hs
    rw [hs, untilClosed?_append_balanced ht]
    rfl

theorem readPayload_eq_ok {line : Nat} {object : List Char} {members : Json.Members} :
    readPayload line object = .ok members ↔
      Json.document Json.value object = .ok (.object members) := by
  rw [readPayload]
  cases Json.document Json.value object with
  | error e => simp
  | ok v => cases v <;> simp [membersOf, Except.mapError]

end Scaffold.Directive
