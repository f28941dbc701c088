import Scaffold.Proofs.Text

/-!
# Cutting a text at places

A place in a text is given by the bytes before it. There has to be one: no character lies on both
sides of a place (`IsPlace`), and some places begin a line (`BeginsLine`). A text can be sliced
from a place to a later one (`CanSlice`), and the pieces between places in order are the text when
they are joined (`flatten_pieces`).
-/

namespace Scaffold.Text

theorem width_eq_zero {s : List Char} : width s = 0 ↔ s = [] := by
  cases s with
  | nil => simp
  | cons c s =>
    have := c.utf8Size_pos
    simp only [width_cons, List.cons_ne_nil, iff_false]
    omega

/-- Of two cuts of a text, the one further on has the other one's part in front of it. -/
theorem exists_append_of_width_le {a b c d : List Char} (h : a ++ b = c ++ d)
    (hle : width a ≤ width c) : ∃ t, c = a ++ t ∧ b = t ++ d := by
  rcases List.append_eq_append_iff.1 h with hcut | ⟨t, rfl, rfl⟩
  · exact hcut
  · -- nothing stands between the cuts
    have hwidth : width t = 0 := by
      rw [width_append] at hle
      omega
    obtain rfl := width_eq_zero.1 hwidth
    exact ⟨[], by simp, rfl⟩

/-- Byte `n` begins a character, or is where the text ends. -/
def IsPlace (s : List Char) (n : Nat) : Prop :=
  ∃ before after, s = before ++ after ∧ width before = n

/-- Byte `n` begins a line, or is where the text ends. -/
def BeginsLine (s : List Char) (n : Nat) : Prop :=
  ∃ before after, s = before ++ after ∧ width before = n ∧ (Closed before ∨ after = [])

/-- The bytes from `a` to `b` are a part of the text, with whole characters. -/
def CanSlice (s : List Char) (a b : Nat) : Prop :=
  ∃ before piece after, s = before ++ piece ++ after ∧ width before = a ∧
    width before + width piece = b

variable {s : List Char} {a b n : Nat}

/-! ### Places -/

theorem isPlace_zero (s : List Char) : IsPlace s 0 := ⟨[], s, rfl, rfl⟩

theorem isPlace_width (s : List Char) : IsPlace s (width s) := ⟨s, [], by simp, rfl⟩

theorem IsPlace.le_width (h : IsPlace s n) : n ≤ width s := by
  obtain ⟨before, after, rfl, rfl⟩ := h
  simp

theorem BeginsLine.isPlace (h : BeginsLine s n) : IsPlace s n := by
  obtain ⟨before, after, hs, hn, -⟩ := h
  exact ⟨before, after, hs, hn⟩

/-- Behind some of the lines of a text the next line begins, or the text ends. -/
theorem beginsLine_of_lines_eq {above below : List (List Char)} (h : lines s = above ++ below) :
    BeginsLine s (width above.flatten) := by
  refine ⟨above.flatten, below.flatten, ?_, rfl, ?_⟩
  · rw [← List.flatten_append, ← h, flatten_lines]
  · by_cases hbelow : below = []
    · exact .inr (by simp [hbelow])
    · exact .inl (closed_flatten ((lines_eq_append h).2 hbelow))

theorem width_pos_of_mem_lines {line : List Char} (h : line ∈ lines s) : 0 < width line := by
  rw [Nat.pos_iff_ne_zero, Ne, width_eq_zero]
  exact ne_nil_of_mem_lines h

/-! ### Slices -/

/-- A text can be sliced from a place to a place that is not before it. -/
theorem IsPlace.canSlice (ha : IsPlace s a) (hb : IsPlace s b) (h : a ≤ b) : CanSlice s a b := by
  obtain ⟨u, v, rfl, rfl⟩ := ha
  obtain ⟨u', v', huv, rfl⟩ := hb
  obtain ⟨t, rfl, rfl⟩ := exists_append_of_width_le huv h
  exact ⟨u, t, v', by simp, rfl, by simp⟩

theorem pairwise_canSlice {places : List Nat} (hle : places.Pairwise (· ≤ ·))
    (h : ∀ n ∈ places, IsPlace s n) : places.Pairwise (CanSlice s) := by
  refine hle.imp_of_mem fun {a b} ha hb hab => ?_
  exact (h a ha).canSlice (h b hb) hab

theorem CanSlice.slice_append (h : CanSlice s a b) :
    slice a b s ++ dropBytes b s = dropBytes a s := by
  obtain ⟨before, piece, after, rfl, rfl, rfl⟩ := h
  have hafter : dropBytes (width before + width piece) (before ++ piece ++ after) = after := by
    rw [← width_append, dropBytes_width]
  have hpiece : dropBytes (width before) (before ++ piece ++ after) = piece ++ after := by
    rw [List.append_assoc, dropBytes_width]
  rw [slice, hafter, hpiece, Nat.add_sub_cancel_left, takeBytes_width]

/-! ### Pieces -/

/-- The pieces of the text from a place on, cut at the places behind it. -/
def pieces (s : List Char) : (cursor : Nat) → List Nat → List (List Char)
  | cursor, [] => [dropBytes cursor s]
  | cursor, next :: places => slice cursor next s :: pieces s next places

/-- The pieces are the text from the place on. -/
theorem flatten_pieces {places : List Nat} {cursor : Nat}
    (h : (cursor :: places).Pairwise (CanSlice s)) :
    (pieces s cursor places).flatten = dropBytes cursor s := by
  induction places generalizing cursor with
  | nil => simp [pieces]
  | cons next places ih =>
    obtain ⟨hcursor, hplaces⟩ := List.pairwise_cons.1 h
    have hslice := hcursor next List.mem_cons_self
    rw [pieces, List.flatten_cons, ih hplaces, hslice.slice_append]

end Scaffold.Text
