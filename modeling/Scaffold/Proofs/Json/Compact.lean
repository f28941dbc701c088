import Scaffold.Json.Printer
import Scaffold.Proofs.Text

/-!
# JSON on one line

The compact text of a value stands on one line (`Value.lineFeed_not_mem_compact`), since a
string escapes its line feeds, and neither begins nor ends with a blank (`Value.trim_compact`).
-/

namespace Scaffold

open Text

/-! ### Numbers -/

theorem isBlank_of_isDigit {c : Char} (h : c.isDigit) : isBlank c = false := by
  simp only [Char.isDigit, Bool.and_eq_true, decide_eq_true_eq, ge_iff_le,
    UInt32.le_iff_toNat_le] at h
  have h : 48 ≤ c.toNat ∧ c.toNat ≤ 57 := h
  simp only [isBlank, Bool.or_eq_false_iff, Bool.and_eq_false_imp, decide_eq_true_eq,
    decide_eq_false_iff_not, beq_eq_false_iff_ne]
  omega

theorem unbroken_natText (n : Nat) : Unbroken (toString n).toList := by
  intro c hc
  have hc : c ∈ Nat.toDigits 10 n := by simpa [Nat.toString_eq_repr] using hc
  exact isBlank_of_isDigit (Nat.isDigit_of_mem_toDigits (by decide) (by decide) hc)

theorem unbroken_intText (i : Int) : Unbroken (toString i).toList := by
  rw [Int.toString_eq_repr, Int.repr_eq_if]
  have h := fun n : Nat => unbroken_natText n
  simp only [Nat.toString_eq_repr] at h
  split
  · exact h _
  · rw [String.toList_append, unbroken_append]
    exact ⟨by decide, h _⟩

theorem unbroken_zeros (n : Nat) : Unbroken (List.replicate n '0') := fun c hc => by
  rw [(List.mem_replicate.1 hc).2]
  decide

theorem Double.unbroken_positional (d : Decimal) : Unbroken (positional d).toList := by
  have hd := unbroken_natText d.digits
  have h1 : Unbroken ".0".toList := by decide
  have h2 : Unbroken "0.".toList := by decide
  have h3 : Unbroken ".".toList := by decide
  rw [positional]
  split
  · simp only [String.toList_append, String.toList_ofList, unbroken_append]
    exact ⟨⟨hd, unbroken_zeros _⟩, h1⟩
  · simp only
    split
    · simp only [String.toList_append, String.toList_ofList, unbroken_append]
      exact ⟨⟨fun c hc => hd c (List.mem_of_mem_take hc), h3⟩,
        fun c hc => hd c (List.mem_of_mem_drop hc)⟩
    · simp only [String.toList_append, String.toList_ofList, unbroken_append]
      exact ⟨⟨h2, unbroken_zeros _⟩, hd⟩

theorem Double.unbroken_scientific (plus : Bool) (d : Decimal) :
    Unbroken (scientific plus d).toList := by
  have hd := unbroken_natText d.digits
  have h1 : Unbroken ".".toList := by decide
  have h2 : Unbroken "e".toList := by decide
  have h3 : ∀ b : Bool, Unbroken (if b then "+" else "").toList := by decide
  rw [scientific]
  split
  · simp [Unbroken]
  · rename_i lead more hl
    rw [hl] at hd
    obtain ⟨hlead, hmore⟩ := List.forall_mem_cons.1 hd
    simp only [String.toList_append, unbroken_append, String.toList_singleton]
    refine ⟨⟨⟨⟨fun c hc => ?_, ?_⟩, h2⟩, ?_⟩, unbroken_intText _⟩
    · rwa [List.mem_singleton.1 hc]
    · split
      · simp [Unbroken]
      · simpa only [String.toList_append, String.toList_ofList, unbroken_append] using ⟨h1, hmore⟩
    · exact_mod_cast h3 _

theorem Double.unbroken_text (layout : Layout) (d : Double) : Unbroken (d.text layout).toList := by
  have hs : ∀ b : Bool, Unbroken (if b then "-" else "").toList := by decide
  have hz : Unbroken "0.0".toList := by decide
  rw [text]
  simp only
  split
  · rw [String.toList_append, unbroken_append]
    exact ⟨hs _, hz⟩
  · split
    · rw [String.toList_append, unbroken_append]
      exact ⟨hs _, unbroken_positional _⟩
    · rw [String.toList_append, unbroken_append]
      exact ⟨hs _, unbroken_scientific _ _⟩

namespace Json

theorem Number.unbroken_text (n : Number) : Unbroken n.text.toList := by
  cases n with
  | integer i => exact unbroken_intText i
  | double d => exact d.unbroken_text doubleLayout

/-! ### Strings -/

theorem lineFeed_not_mem_escaped (c : Char) : '\n' ∉ escaped c := by
  intro hm
  unfold escaped at hm
  split at hm <;> try (revert hm; decide)
  rename_i h _ _
  split at hm
  · have hd : '\n' ∈ hexByte c.toNat := by simpa using hm
    have hx : ∀ n < 32, '\n' ∉ hexByte n := by decide
    exact hx _ (by assumption) hd
  · exact h (by simpa [eq_comm] using hm)

theorem lineFeed_not_mem_stringText (s : String) : '\n' ∉ (stringText s).toList := by
  have h : ∀ c ∈ s.toList, '\n' ∉ escaped c := fun c _ => lineFeed_not_mem_escaped c
  simpa [stringText] using h

/-! ### Values -/

theorem lineFeed_not_mem_commaSeparated {texts : List String} (h : ∀ s ∈ texts, '\n' ∉ s.toList) :
    '\n' ∉ (commaSeparated texts).toList := by
  induction texts with
  | nil => simp [commaSeparated]
  | cons s texts ih =>
    obtain ⟨hs, htexts⟩ := List.forall_mem_cons.1 h
    cases texts with
    | nil => simpa [commaSeparated] using hs
    | cons t texts =>
      have := ih htexts
      simp only [commaSeparated, String.intercalate_cons_cons, String.toList_append,
        List.mem_append, not_or] at this ⊢
      exact ⟨⟨hs, by decide⟩, this⟩

namespace Value

mutual
/-- The compact text of a value stands on one line. -/
theorem lineFeed_not_mem_compact : ∀ v : Value, '\n' ∉ v.compact.toList
  | .null => by decide
  | .bool b => by cases b <;> decide
  | .number n => fun h => absurd (n.unbroken_text _ h) (by decide)
  | .string s => lineFeed_not_mem_stringText s
  | .array items => by
    have := lineFeed_not_mem_commaSeparated (lineFeed_not_mem_compactItems items)
    simpa [compact] using this
  | .object members => by
    have := lineFeed_not_mem_commaSeparated (lineFeed_not_mem_compactMembers members)
    simpa [compact] using this

theorem lineFeed_not_mem_compactItems : ∀ vs : List Value, ∀ s ∈ compactItems vs, '\n' ∉ s.toList
  | [] => by simp [compactItems]
  | v :: vs => List.forall_mem_cons.2
    ⟨lineFeed_not_mem_compact v, lineFeed_not_mem_compactItems vs⟩

theorem lineFeed_not_mem_compactMembers :
    ∀ ms : List (String × Value), ∀ s ∈ compactMembers ms, '\n' ∉ s.toList
  | [] => by simp [compactMembers]
  | (name, v) :: ms => by
    refine List.forall_mem_cons.2 ⟨?_, lineFeed_not_mem_compactMembers ms⟩
    simpa using ⟨lineFeed_not_mem_stringText name, lineFeed_not_mem_compact v⟩
end

/-- The compact text of a value neither begins nor ends with a blank. -/
theorem trim_compact (v : Value) : trim v.compact.toList = v.compact.toList := by
  have bracket : ∀ (first last : Char) (s : List Char), isBlank first = false →
      isBlank last = false → trim (first :: (s ++ [last])) = first :: (s ++ [last]) := by
    intro first last s hf hl
    refine trim_eq_self (fun c hc => ?_) (fun c hc => ?_)
    · obtain rfl : first = c := by simpa using hc
      exact hf
    · rw [← List.cons_append, List.getLast?_concat] at hc
      obtain rfl : last = c := Option.some.inj hc
      exact hl
  cases v with
  | null => decide
  | bool b => cases b <;> decide
  | number n =>
    have h := n.unbroken_text
    exact trim_eq_self (fun c hc => h c (List.mem_of_head? hc))
      (fun c hc => h c (List.mem_of_getLast? hc))
  | string s => simpa [compact, stringText] using bracket '"' '"' _ (by decide) (by decide)
  | array items =>
    have := bracket '[' ']' (commaSeparated (compactItems items)).toList (by decide) (by decide)
    rwa [compact, String.toList_append, String.toList_append]
  | object members =>
    have := bracket '\x7b' '\x7d' (commaSeparated (compactMembers members)).toList (by decide)
      (by decide)
    rwa [compact, String.toList_append, String.toList_append]

end Value

end Json

end Scaffold
