import Scaffold.Json.Reader
import Scaffold.Proofs.Outcome
import Scaffold.Proofs.Text
import Scaffold.Proofs.Text.Braces

/-!
# What lexemes are made of

What a reader takes off a text for a lexeme is made of few characters: a number of those that
numbers are written with (`takes_unsignedNumber`), a word of its own letters (`takes_word`), and a
string of what may stand between quotes, on one line (`quoted_of_stringBody`).
-/

namespace Scaffold.Json

open Text (Quoted)

/-! ### Characters of a kind -/

/-- What follows when characters of a kind are taken off a text. -/
def Takes (p : Char → Prop) (s rest : List Char) : Prop :=
  ∃ taken, (∀ c ∈ taken, p c) ∧ s = taken ++ rest

namespace Takes

variable {p q : Char → Prop} {c : Char} {s t u : List Char}

theorem refl (s : List Char) : Takes p s s := ⟨[], by simp, rfl⟩

theorem trans (hs : Takes p s t) (ht : Takes p t u) : Takes p s u := by
  obtain ⟨a, ha, rfl⟩ := hs
  obtain ⟨b, hb, rfl⟩ := ht
  exact ⟨a ++ b, List.forall_mem_append.2 ⟨ha, hb⟩, by simp⟩

theorem cons (hc : p c) (h : Takes p s t) : Takes p (c :: s) t := by
  obtain ⟨a, ha, rfl⟩ := h
  exact ⟨c :: a, List.forall_mem_cons.2 ⟨hc, ha⟩, rfl⟩

theorem tail (hc : p c) (s : List Char) : Takes p (c :: s) s := (refl s).cons hc

theorem mono (h : Takes p s t) (hpq : ∀ c, p c → q c) : Takes q s t := by
  obtain ⟨a, ha, hs⟩ := h
  exact ⟨a, fun c hc => hpq c (ha c hc), hs⟩

end Takes

theorem takes_dropWhile (p : Char → Bool) (s : List Char) : Takes (p ·) s (s.dropWhile p) :=
  ⟨s.takeWhile p, fun _ hc => List.mem_takeWhile_imp hc, List.takeWhile_append_dropWhile.symm⟩

theorem takes_word {expected s rest : List Char} (h : word expected s = .ok rest) :
    Takes (· ∈ expected) s rest := by
  induction expected generalizing s with
  | nil =>
    obtain rfl := Except.ok.inj h
    exact .refl s
  | cons c expected ih =>
    cases s with
    | nil => cases h
    | cons d s =>
      rw [word] at h
      split at h
      · rename_i hcd
        have htail := (ih h).mono fun _ => List.mem_cons_of_mem c
        exact htail.cons (hcd ▸ List.mem_cons_self)
      · cases h

/-! ### Numbers -/

/-- A character that numbers are written with. -/
def IsNumeral (c : Char) : Prop := c.isDigit = true ∨ c ∈ ['+', '-', '.', 'e', 'E']

theorem takes_dropDigits (s : List Char) : Takes IsNumeral s (s.dropWhile Char.isDigit) :=
  (takes_dropWhile Char.isDigit s).mono fun _ => .inl

theorem takes_exponentPart {negative : Bool} {significand : Nat} {start : Int}
    {s rest : List Char} {n : Number}
    (h : exponentPart negative significand start s = .ok (n, rest)) : Takes IsNumeral s rest := by
  unfold exponentPart at h
  split at h
  rename_i down t ht
  have hsign : Takes IsNumeral s t := by
    split at ht
    all_goals
      obtain ⟨-, rfl⟩ := Prod.mk.inj ht
      first | exact .tail (.inr (by decide)) _ | exact .refl _
  refine hsign.trans ?_
  split at h
  · cases h
  · split at h
    · cases h
    simp only at h
    split at h
    · split at h
      · cases h
      · obtain ⟨-, rfl⟩ := Prod.mk.inj (Except.ok.inj h)
        exact takes_dropDigits _
    · obtain ⟨d, -, h⟩ := Outcome.bind_eq_ok.1 h
      obtain ⟨-, rfl⟩ := Prod.mk.inj (Except.ok.inj h)
      exact takes_dropDigits _

theorem takes_afterDigits {negative : Bool} {significand : Nat} {exponent : Int}
    {s rest : List Char} {n : Number}
    (h : afterDigits negative significand exponent s = .ok (n, rest)) : Takes IsNumeral s rest := by
  unfold afterDigits at h
  split at h
  · exact (takes_exponentPart h).cons (.inr (by decide))
  · exact (takes_exponentPart h).cons (.inr (by decide))
  · obtain ⟨d, -, h⟩ := Outcome.bind_eq_ok.1 h
    obtain ⟨-, rfl⟩ := Prod.mk.inj (Except.ok.inj h)
    exact .refl _

theorem takes_takeDigits {acc m count : Nat} {s rest : List Char}
    (h : takeDigits acc s = (m, count, rest)) : Takes IsNumeral s rest := by
  induction s generalizing acc m count with
  | nil =>
    obtain ⟨-, -, rfl⟩ := by simpa [takeDigits] using h
    exact .refl _
  | cons c s ih =>
    simp only [takeDigits] at h
    split_ifs at h with hc hle
    · obtain ⟨-, -, rfl⟩ := by simpa using h
      exact .refl _
    · obtain ⟨-, -, rfl⟩ := by simpa using h
      exact (ih rfl).cons (.inl hc)
    · obtain ⟨-, -, rfl⟩ := by simpa using h
      exact .refl _

theorem takes_fractionPart {negative : Bool} {significand : Nat} {start : Int}
    {s rest : List Char} {n : Number}
    (h : fractionPart negative significand start s = .ok (n, rest)) : Takes IsNumeral s rest := by
  unfold fractionPart at h
  split at h
  rename_i m count t ht
  refine (takes_takeDigits ht).trans ?_
  split at h
  · split at h
    · exact (takes_dropDigits _).trans (takes_afterDigits h)
    · split at h
      · cases h
      · exact takes_afterDigits h
  · split at h
    · cases h
    · exact takes_afterDigits h

theorem takes_afterInteger {negative : Bool} {significand : Nat} {s rest : List Char} {n : Number}
    (h : afterInteger negative significand s = .ok (n, rest)) : Takes IsNumeral s rest := by
  unfold afterInteger at h
  split at h
  · exact (takes_fractionPart h).cons (.inr (by decide))
  · exact (takes_exponentPart h).cons (.inr (by decide))
  · exact (takes_exponentPart h).cons (.inr (by decide))
  · split_ifs at h <;> obtain ⟨-, rfl⟩ := Prod.mk.inj (Except.ok.inj h) <;> exact .refl _

/-- **A number is made of digits, signs, points and the letter of the exponent.** -/
theorem takes_unsignedNumber {negative : Bool} {s rest : List Char} {n : Number}
    (h : unsignedNumber negative s = .ok (n, rest)) : Takes IsNumeral s rest := by
  unfold unsignedNumber at h
  split at h
  · cases h
  · split at h
    · split at h
      · cases h
      · exact (takes_afterInteger h).cons (.inl (by decide))
    · exact (takes_afterInteger h).cons (.inl (by decide))
  · split at h
    · cases h
    split at h
    rename_i m count t ht
    refine (takes_takeDigits ht).trans ?_
    simp only at h
    split at h
    · exact takes_afterInteger h
    · refine (takes_dropDigits t).trans ?_
      split at h
      · rename_i heq
        rw [heq]
        exact (takes_fractionPart h).cons (.inr (by decide))
      · exact takes_afterDigits h

/-! ### Strings -/

/-- What follows when a string is taken off a text behind its opening quote. -/
def EndsQuote (s rest : List Char) : Prop :=
  ∃ taken, Quoted taken ∧ '\n' ∉ taken ∧ s = taken ++ '"' :: rest

theorem EndsQuote.plain {c : Char} {s rest : List Char} (hquote : c ≠ '"') (hslash : c ≠ '\\')
    (hn : c ≠ '\n') (h : EndsQuote s rest) : EndsQuote (c :: s) rest := by
  obtain ⟨taken, ht, htn, rfl⟩ := h
  exact ⟨c :: taken, .plain hquote hslash ht, by simp [hn.symm, htn], rfl⟩

theorem EndsQuote.escaped {c : Char} {s rest : List Char} (hn : c ≠ '\n') (h : EndsQuote s rest) :
    EndsQuote ('\\' :: c :: s) rest := by
  obtain ⟨taken, ht, htn, rfl⟩ := h
  exact ⟨'\\' :: c :: taken, .escaped c ht, by simp [hn.symm, htn], rfl⟩

theorem EndsQuote.hexDigit {c : Char} {s rest : List Char} (hc : (hexDigit? c).isSome)
    (h : EndsQuote s rest) : EndsQuote (c :: s) rest := by
  refine h.plain ?_ ?_ ?_ <;>
    · rintro rfl
      exact absurd hc (by decide)

theorem EndsQuote.hexFour {a b c d : Char} {s rest : List Char} (hfour : (hexFour? a b c d).isSome)
    (h : EndsQuote s rest) : EndsQuote ('\\' :: 'u' :: a :: b :: c :: d :: s) rest := by
  have hdigits : (hexDigit? a).isSome ∧ (hexDigit? b).isSome ∧ (hexDigit? c).isSome ∧
      (hexDigit? d).isSome := by
    cases ha : hexDigit? a <;> cases hb : hexDigit? b <;> cases hc : hexDigit? c <;>
      cases hd : hexDigit? d <;> simp [hexFour?, ha, hb, hc, hd] at hfour ⊢
  obtain ⟨ha, hb, hc, hd⟩ := hdigits
  exact ((((h.hexDigit hd).hexDigit hc).hexDigit hb).hexDigit ha).escaped (by decide)

/-- **A string ends at the first quote that no backslash takes along**, on the line where it
begins. -/
theorem quoted_of_stringBody {s text rest : List Char} (h : stringBody s = .ok (text, rest)) :
    EndsQuote s rest := by
  fun_induction stringBody s generalizing text rest with
  | case2 rest =>
    obtain ⟨-, rfl⟩ := Prod.mk.inj (Except.ok.inj h)
    exact ⟨[], .nil, by simp, rfl⟩
  | case6 a b c d n hn _ _ e f g k rest' low hl _ ih =>
    obtain ⟨⟨t, r⟩, hr, h⟩ := Outcome.bind_eq_ok.1 h
    obtain ⟨-, rfl⟩ := Prod.mk.inj (Except.ok.inj h)
    exact ((ih hr).hexFour (Option.isSome_of_mem hl)).hexFour (Option.isSome_of_mem hn)
  | case12 a b c d rest n hn _ _ ih =>
    obtain ⟨⟨t, r⟩, hr, h⟩ := Outcome.bind_eq_ok.1 h
    obtain ⟨-, rfl⟩ := Prod.mk.inj (Except.ok.inj h)
    exact (ih hr).hexFour (Option.isSome_of_mem hn)
  | case16 c rest _ _ d hd ih =>
    obtain ⟨⟨t, r⟩, hr, h⟩ := Outcome.bind_eq_ok.1 h
    obtain ⟨-, rfl⟩ := Prod.mk.inj (Except.ok.inj h)
    refine (ih hr).escaped ?_
    rintro rfl
    cases hd
  | case18 c rest hquote _ _ hsingle hescape hc ih =>
    obtain ⟨⟨t, r⟩, hr, h⟩ := Outcome.bind_eq_ok.1 h
    obtain ⟨-, rfl⟩ := Prod.mk.inj (Except.ok.inj h)
    have hplain : c ≠ '\\' := fun heq => by
      cases rest with
      | nil => exact hsingle heq rfl
      | cons d rest => exact hescape d rest heq rfl
    refine (ih hr).plain hquote hplain ?_
    rintro rfl
    exact hc (by decide)
  | _ => cases h

end Scaffold.Json
