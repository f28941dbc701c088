/-!
# Lines

A text is cut into its lines, each of which keeps its line feed; the last one may
lack it. The lines joined are the text (`flatten_lines`), so the length of the
lines before a line is the offset of its start.
-/

namespace Scaffold.Text

/-- The lines of a text, each with the line feed that ends it. -/
def lines : List Char → List (List Char)
  | [] => []
  | c :: rest =>
    if c = '\n' then [c] :: lines rest
    else match lines rest with
      | [] => [[c]]
      | line :: more => (c :: line) :: more

@[simp] theorem flatten_lines (s : List Char) : (lines s).flatten = s := by
  induction s with
  | nil => rfl
  | cons c rest ih =>
    by_cases h : c = '\n'
    · simp [lines, h, ih]
    · rw [lines, if_neg h]
      split <;> simp_all

/-- A line is not empty. -/
theorem ne_nil_of_mem_lines {line s : List Char} (h : line ∈ lines s) : line ≠ [] := by
  induction s generalizing line with
  | nil => simp [lines] at h
  | cons c rest ih =>
    by_cases hc : c = '\n'
    · simp only [lines, hc, if_true, List.mem_cons] at h
      rcases h with rfl | h
      · simp
      · exact ih h
    · rw [lines, if_neg hc] at h
      split at h
      · simp_all
      · rename_i line' more heq
        rcases List.mem_cons.1 h with rfl | h
        · simp
        · exact ih (heq ▸ List.mem_cons_of_mem _ h)

end Scaffold.Text
