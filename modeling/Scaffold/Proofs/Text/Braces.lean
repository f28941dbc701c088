/-!
# Braces that balance

Text in which every brace is closed and every string ends (`Balanced`), as a grammar: braces in
strings do not count, and in a string a backslash takes the next character along (`Quoted`). A text
in braces (`Braced`) is one balanced text between two braces; where several levels are open, it is
balanced texts, each with the brace that closes a level (`Closes`).
-/

namespace Scaffold.Text

/-- What may stand between the quotes of a string. -/
inductive Quoted : List Char → Prop where
  | nil : Quoted []
  | plain {c : Char} {s : List Char} (hquote : c ≠ '"') (hslash : c ≠ '\\') (h : Quoted s) :
      Quoted (c :: s)
  | escaped (c : Char) {s : List Char} (h : Quoted s) : Quoted ('\\' :: c :: s)

/-- A text in which every brace that is opened is closed, and no other one. -/
inductive Balanced : List Char → Prop where
  | nil : Balanced []
  | plain {c : Char} {s : List Char} (hquote : c ≠ '"') (hopen : c ≠ '{') (hclose : c ≠ '}')
      (h : Balanced s) : Balanced (c :: s)
  | string {t s : List Char} (ht : Quoted t) (h : Balanced s) : Balanced ('"' :: (t ++ '"' :: s))
  | braces {t s : List Char} (ht : Balanced t) (h : Balanced s) :
      Balanced ('{' :: (t ++ '}' :: s))

/-- A balanced text in braces. -/
def Braced (s : List Char) : Prop := ∃ t, Balanced t ∧ s = '{' :: (t ++ ['}'])

/-- A text that closes so many levels, and ends where it closes the last of them. -/
inductive Closes : Nat → List Char → Prop where
  | nil : Closes 0 []
  | level {n : Nat} {t s : List Char} (ht : Balanced t) (h : Closes n s) :
      Closes (n + 1) (t ++ '}' :: s)

theorem Balanced.append {s t : List Char} (hs : Balanced s) (ht : Balanced t) :
    Balanced (s ++ t) := by
  induction hs with
  | nil => exact ht
  | plain hquote hopen hclose _ ih => exact .plain hquote hopen hclose ih
  | @string u s hu _ ih =>
    rw [List.cons_append, List.append_assoc, List.cons_append]
    exact .string hu ih
  | @braces u s hu _ _ ih =>
    rw [List.cons_append, List.append_assoc, List.cons_append]
    exact .braces hu ih

theorem balanced_of_plain {s : List Char} (h : ∀ c ∈ s, c ≠ '"' ∧ c ≠ '{' ∧ c ≠ '}') :
    Balanced s := by
  induction s with
  | nil => exact .nil
  | cons c s ih =>
    obtain ⟨⟨hquote, hopen, hclose⟩, hs⟩ := List.forall_mem_cons.1 h
    exact .plain hquote hopen hclose (ih hs)

/-- A balanced text in front belongs to the first level. -/
theorem Closes.append_left {n : Nat} {s t : List Char} (h : Closes (n + 1) s) (ht : Balanced t) :
    Closes (n + 1) (t ++ s) := by
  cases h with
  | level hu hs =>
    rw [← List.append_assoc]
    exact .level (ht.append hu) hs

/-- A brace that is opened makes one level of the first two. -/
theorem Closes.opened {n : Nat} {s : List Char} (h : Closes (n + 2) s) : Closes (n + 1) ('{' :: s) := by
  cases h with
  | level ht h =>
    have hpair := h.append_left (.braces ht .nil)
    simpa using hpair

theorem closes_one {s : List Char} : Closes 1 s ↔ ∃ t, Balanced t ∧ s = t ++ ['}'] := by
  constructor
  · intro h
    cases h with
    | @level n t s ht h =>
      cases h
      exact ⟨t, ht, rfl⟩
  · rintro ⟨t, ht, rfl⟩
    exact .level ht .nil

theorem braced_cons {s : List Char} : Braced ('{' :: s) ↔ Closes 1 s := by
  rw [closes_one, Braced]
  simp

end Scaffold.Text
