/-!
# Byte offsets

A place in a text is given by the number of bytes before it in UTF-8. Here are
the length of a text in bytes and the cut at a byte offset. A cut inside a
character does not occur: every offset that is computed in this library is the
length of some start of the text (`takeBytes_width`, `dropBytes_width`).
-/

namespace Scaffold.Text

/-- The number of bytes of a text in UTF-8. -/
def width : List Char → Nat
  | [] => 0
  | c :: rest => c.utf8Size + width rest

@[simp] theorem width_nil : width [] = 0 := rfl

@[simp] theorem width_cons (c : Char) (s : List Char) : width (c :: s) = c.utf8Size + width s :=
  rfl

@[simp] theorem width_append (s t : List Char) : width (s ++ t) = width s + width t := by
  induction s with
  | nil => simp
  | cons c s ih => simp [ih, Nat.add_assoc]

/-- The characters before byte `n`. -/
def takeBytes (n : Nat) : List Char → List Char
  | [] => []
  | c :: rest => if c.utf8Size ≤ n then c :: takeBytes (n - c.utf8Size) rest else []

/-- The characters from byte `n` on. -/
def dropBytes (n : Nat) : List Char → List Char
  | [] => []
  | c :: rest => if c.utf8Size ≤ n then dropBytes (n - c.utf8Size) rest else c :: rest

@[simp] theorem takeBytes_width (s t : List Char) : takeBytes (width s) (s ++ t) = s := by
  induction s with
  | nil =>
    cases t with
    | nil => rfl
    | cons c t => simp [takeBytes, Nat.not_le.2 (Char.utf8Size_pos c)]
  | cons c s ih => simp [takeBytes, ih]

@[simp] theorem dropBytes_width (s t : List Char) : dropBytes (width s) (s ++ t) = t := by
  induction s with
  | nil =>
    cases t with
    | nil => rfl
    | cons c t => simp [dropBytes, Nat.not_le.2 (Char.utf8Size_pos c)]
  | cons c s ih => simp [dropBytes, ih]

/-- The characters from byte `start` up to byte `stop`. -/
def slice (start stop : Nat) (s : List Char) : List Char :=
  takeBytes (stop - start) (dropBytes start s)

end Scaffold.Text
