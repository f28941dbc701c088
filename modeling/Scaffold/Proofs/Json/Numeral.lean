import Scaffold.Proofs.Json.Stray

/-!
# Where numbers end

What is read as a number is decided by its characters as far as they go: it is the same number
whatever stands behind it, as long as that could not belong to it (`local_unsignedNumber`).
-/

namespace Scaffold.Json

/-- What may stand behind a number: nothing that could belong to it. -/
def Ends (rest : List Char) : Prop :=
  ∀ c, rest.head? = some c → c.isDigit = false ∧ c ≠ '.' ∧ c ≠ 'e' ∧ c ≠ 'E'

/-- What is read as a number does not depend on what stands behind it. -/
def Local (reader : Reader Number) : Prop :=
  ∀ ⦃s n rest⦄, reader s = .ok (n, rest) → ∀ after, Ends after →
    reader (s ++ after) = .ok (n, rest ++ after)

section
variable {after : List Char}

theorem takeWhile_isDigit (h : Ends after) : after.takeWhile Char.isDigit = [] := by
  cases after with
  | nil => rfl
  | cons c after => rw [List.takeWhile_cons_of_neg (by simp [(h c rfl).1])]

theorem dropWhile_isDigit (h : Ends after) : after.dropWhile Char.isDigit = after := by
  have hsplit := List.takeWhile_append_dropWhile (p := Char.isDigit) (l := after)
  rwa [takeWhile_isDigit h, List.nil_append] at hsplit

theorem takeWhile_isDigit_append (h : Ends after) (s : List Char) :
    (s ++ after).takeWhile Char.isDigit = s.takeWhile Char.isDigit := by
  rw [List.takeWhile_append, takeWhile_isDigit h, List.append_nil]
  split
  · rename_i hlength
    exact ((List.takeWhile_prefix _).eq_of_length hlength).symm
  · rfl

theorem dropWhile_isDigit_append (h : Ends after) (s : List Char) :
    (s ++ after).dropWhile Char.isDigit = s.dropWhile Char.isDigit ++ after := by
  rw [List.dropWhile_append, dropWhile_isDigit h]
  split
  · rename_i hnil
    rw [List.isEmpty_iff.1 hnil, List.nil_append]
  · rfl

theorem any_isDigit_append (h : Ends after) (s : List Char) :
    (s ++ after).head?.any Char.isDigit = s.head?.any Char.isDigit := by
  cases s with
  | cons c s => rfl
  | nil =>
    cases after with
    | nil => rfl
    | cons c after => simp [(h c rfl).1]

theorem takeDigits_append (h : Ends after) (acc : Nat) (s : List Char) :
    takeDigits acc (s ++ after) =
      ((takeDigits acc s).1, (takeDigits acc s).2.1, (takeDigits acc s).2.2 ++ after) := by
  induction s generalizing acc with
  | nil =>
    cases after with
    | nil => rfl
    | cons c after => simp [takeDigits, (h c rfl).1]
  | cons c s ih =>
    rw [List.cons_append, takeDigits, takeDigits]
    split
    · dsimp only
      split
      · rfl
      · rw [ih]
    · rfl

end

/-! ### Marks -/

/-- None of these characters stands first. -/
def Unmarked (marks s : List Char) : Prop := ∀ c, s.head? = some c → c ∉ marks

section
variable {marks s after : List Char} {negative : Bool} {significand : Nat} {start : Int}

theorem unmarked_or (marks s : List Char) : Unmarked marks s ∨ ∃ c ∈ marks, ∃ t, s = c :: t := by
  cases s with
  | nil => exact .inl (by rintro c ⟨⟩)
  | cons c t =>
    by_cases hc : c ∈ marks
    · exact .inr ⟨c, hc, t, rfl⟩
    · exact .inl (by rintro _ ⟨⟩; exact hc)

theorem Ends.unmarked (h : Ends after) (hmarks : marks ⊆ ['.', 'e', 'E']) :
    Unmarked marks after := by
  intro c hc hmem
  obtain ⟨-, hpoint, hlower, hupper⟩ := h c hc
  have := hmarks hmem
  simp [hpoint, hlower, hupper] at this

/-- What may stand behind a number brings none of its marks. -/
theorem Unmarked.append (h : Unmarked marks s) (hafter : Ends after)
    (hmarks : marks ⊆ ['.', 'e', 'E']) : Unmarked marks (s ++ after) := by
  cases s with
  | nil => exact hafter.unmarked hmarks
  | cons c s => exact h

/-! ### Exponents -/

/-- A number behind the sign of its exponent. -/
def exponentDigits (negative : Bool) (significand : Nat) (start : Int) (down : Bool) :
    Reader Number := fun s =>
  if !s.head?.any Char.isDigit then fail (if s = [] then .endInValue else .invalidNumber)
  else
    let e := exponentValue (s.takeWhile Char.isDigit)
    let rest := s.dropWhile Char.isDigit
    if maxExponent < e then
      if significand != 0 && !down then fail .numberOutOfRange
      else .ok (.double (.ofMagnitude negative 0), rest)
    else
      (scaled negative significand (if down then start - e else start + e)).map
        fun d => (.double d, rest)

theorem exponentPart_of_sign (negative : Bool) (significand : Nat) (start : Int) (s : List Char) :
    exponentPart negative significand start ('+' :: s) =
        exponentDigits negative significand start false s ∧
      exponentPart negative significand start ('-' :: s) =
        exponentDigits negative significand start true s := by
  cases s <;> exact ⟨rfl, rfl⟩

theorem exponentPart_of_unmarked (h : Unmarked ['+', '-'] s) :
    exponentPart negative significand start s =
      exponentDigits negative significand start false s := by
  cases s with
  | nil => rfl
  | cons c s =>
    rw [exponentPart]
    · rfl
    · rintro _ ⟨⟩
      exact h '+' rfl (by decide)
    · rintro _ ⟨⟩
      exact h '-' rfl (by decide)

theorem local_exponentDigits (negative : Bool) (significand : Nat) (start : Int) (down : Bool) :
    Local (exponentDigits negative significand start down) := by
  intro s n rest h after hafter
  rw [exponentDigits] at h ⊢
  rw [any_isDigit_append hafter, takeWhile_isDigit_append hafter, dropWhile_isDigit_append hafter]
  dsimp only at h ⊢
  split at h
  · cases h
  · rename_i hdigit
    rw [if_neg hdigit]
    split at h
    · rename_i hlarge
      rw [if_pos hlarge]
      split at h
      · cases h
      · rename_i hsmall
        cases h
        rw [if_neg hsmall]
    · rename_i hlarge
      obtain ⟨d, hd, heq⟩ := Outcome.map_eq_ok.1 h
      cases heq
      rw [if_neg hlarge, hd]
      rfl

theorem local_exponentPart (negative : Bool) (significand : Nat) (start : Int) :
    Local (exponentPart negative significand start) := by
  intro s n rest h after hafter
  rcases unmarked_or ['+', '-'] s with hs | ⟨c, hc, s, rfl⟩
  · rw [exponentPart_of_unmarked hs] at h
    have hs' : Unmarked ['+', '-'] (s ++ after) := by
      cases s with
      | nil => cases h
      | cons c s => exact hs
    rw [exponentPart_of_unmarked hs']
    exact local_exponentDigits _ _ _ _ h after hafter
  · obtain ⟨hplus, hminus⟩ := exponentPart_of_sign negative significand start s
    obtain ⟨hplus', hminus'⟩ := exponentPart_of_sign negative significand start (s ++ after)
    rw [List.cons_append]
    rcases List.mem_pair.1 hc with rfl | rfl
    · rw [hplus] at h
      rw [hplus']
      exact local_exponentDigits _ _ _ _ h after hafter
    · rw [hminus] at h
      rw [hminus']
      exact local_exponentDigits _ _ _ _ h after hafter

theorem afterDigits_of_unmarked (h : Unmarked ['e', 'E'] s) :
    afterDigits negative significand start s =
      (scaled negative significand start).map fun d => (.double d, s) := by
  rw [afterDigits]
  · rfl
  · rintro _ rfl
    exact h 'e' rfl (by decide)
  · rintro _ rfl
    exact h 'E' rfl (by decide)

theorem local_afterDigits (negative : Bool) (significand : Nat) (exponent : Int) :
    Local (afterDigits negative significand exponent) := by
  intro s n rest h after hafter
  rcases unmarked_or ['e', 'E'] s with hs | ⟨c, hc, s, rfl⟩
  · rw [afterDigits_of_unmarked hs] at h
    rw [afterDigits_of_unmarked (hs.append hafter (by simp))]
    obtain ⟨d, hd, heq⟩ := Outcome.map_eq_ok.1 h
    cases heq
    rw [hd]
    rfl
  · rcases List.mem_pair.1 hc with rfl | rfl
    · exact local_exponentPart _ _ _ h after hafter
    · exact local_exponentPart _ _ _ h after hafter

/-! ### Fractions and integers -/

theorem fractionPart_eq (negative : Bool) (significand : Nat) (start : Int) (s : List Char) :
    fractionPart negative significand start s =
      let (m, count, rest) := takeDigits significand s
      if count = 0 ∧ ¬ rest.head?.any Char.isDigit then
        fail (if rest = [] then .endInValue else .invalidNumber)
      else afterDigits negative m (start - count) (rest.dropWhile Char.isDigit) := by
  rw [fractionPart]
  generalize takeDigits significand s = read
  obtain ⟨m, count, rest⟩ := read
  cases rest with
  | nil => by_cases hc : count = 0 <;> simp [hc]
  | cons c rest =>
    by_cases hc : count = 0 <;> by_cases hd : c.isDigit = true <;> simp [hc, hd]

theorem local_fractionPart (negative : Bool) (significand : Nat) (start : Int) :
    Local (fractionPart negative significand start) := by
  intro s n rest h after hafter
  rw [fractionPart_eq] at h ⊢
  rw [takeDigits_append hafter]
  generalize takeDigits significand s = read at h ⊢
  obtain ⟨m, count, behind⟩ := read
  dsimp only at h ⊢
  rw [any_isDigit_append hafter, dropWhile_isDigit_append hafter]
  split at h
  · cases h
  · rename_i hdigits
    rw [if_neg hdigits]
    exact local_afterDigits _ _ _ h after hafter

/-- The number that an integer part is on its own. -/
def wholeNumber (negative : Bool) (significand : Nat) : Number :=
  if !negative then .integer significand
  else if significand = 0 || 9223372036854775808 < significand then
    .double (Double.ofInt significand).neg
  else .integer (-significand)

theorem afterInteger_of_unmarked (h : Unmarked ['.', 'e', 'E'] s) :
    afterInteger negative significand s = .ok (wholeNumber negative significand, s) := by
  rw [afterInteger]
  · rw [wholeNumber]
    split
    · rfl
    · split <;> rfl
  · rintro _ rfl
    exact h '.' rfl (by decide)
  · rintro _ rfl
    exact h 'e' rfl (by decide)
  · rintro _ rfl
    exact h 'E' rfl (by decide)

theorem local_afterInteger (negative : Bool) (significand : Nat) :
    Local (afterInteger negative significand) := by
  intro s n rest h after hafter
  rcases unmarked_or ['.', 'e', 'E'] s with hs | ⟨c, hc, s, rfl⟩
  · rw [afterInteger_of_unmarked hs] at h
    rw [afterInteger_of_unmarked (hs.append hafter fun _ => id)]
    cases h
    rfl
  · simp only [List.mem_cons, List.not_mem_nil, or_false] at hc
    rcases hc with rfl | rfl | rfl
    · exact local_fractionPart _ _ _ h after hafter
    · exact local_exponentPart _ _ _ h after hafter
    · exact local_exponentPart _ _ _ h after hafter

/-! ### Numbers -/

theorem unsignedNumber_zero (negative : Bool) (s : List Char) :
    unsignedNumber negative ('0' :: s) =
      if s.head?.any Char.isDigit then fail .invalidNumber else afterInteger negative 0 s := by
  cases s <;> rfl

theorem local_unsignedNumber (negative : Bool) : Local (unsignedNumber negative) := by
  intro s n rest h after hafter
  cases s with
  | nil => cases h
  | cons c s =>
    rw [List.cons_append]
    by_cases hzero : c = '0'
    · subst hzero
      rw [unsignedNumber_zero] at h ⊢
      rw [any_isDigit_append hafter]
      split at h
      · cases h
      · rename_i hdigit
        rw [if_neg hdigit]
        exact local_afterInteger _ _ h after hafter
    · rw [unsignedNumber] at h ⊢
      any_goals exact fun hc => hzero hc
      split at h
      · cases h
      · rename_i hc
        rw [if_neg hc, ← List.cons_append, takeDigits_append hafter]
        generalize takeDigits 0 (c :: s) = read at h ⊢
        obtain ⟨m, count, behind⟩ := read
        dsimp only at h ⊢
        rw [takeWhile_isDigit_append hafter, dropWhile_isDigit_append hafter]
        split at h
        · rename_i hdropped
          rw [if_pos hdropped]
          exact local_afterInteger _ _ h after hafter
        · -- digits are dropped, and behind them a point is the only mark that matters
          rename_i hdropped
          rw [if_neg hdropped]
          generalize behind.dropWhile Char.isDigit = behind at h ⊢
          rcases unmarked_or ['.'] behind with hb | ⟨d, hd, behind, rfl⟩
          · split at h
            · exact absurd (List.mem_singleton_self '.') (hb '.' rfl)
            · split
              · rename_i heq
                have hpoint := hb.append hafter (by simp) '.'
                exact absurd (List.mem_singleton_self '.') (hpoint (by rw [heq]; rfl))
              · exact local_afterDigits _ _ _ h after hafter
          · obtain rfl := List.mem_singleton.1 hd
            exact local_fractionPart _ _ _ h after hafter

end

end Scaffold.Json
