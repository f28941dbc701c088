import Mathlib.Data.String.Basic
import Scaffold.Parameters

/-!
# The order of parameters

Setting a parameter keeps the names in increasing order, so the parameters of every list of
pairs are ordered (`Parameters.ordered_ofPairs`). A name behind all others is set at the end
(`Parameters.insert_of_forall_lt`), and so ordered parameters that are set one by one come out as
they were (`Parameters.foldl_insert`).
-/

namespace Scaffold.Parameters

/-- The names stand in increasing order. -/
def Ordered (ps : Parameters) : Prop := ps.Pairwise fun a b => a.1 < b.1

instance (ps : Parameters) : Decidable ps.Ordered :=
  inferInstanceAs (Decidable (List.Pairwise _ _))

theorem insert_of_forall_lt {name : String} (value : Json.Value) {ps : Parameters}
    (h : ∀ p ∈ ps, p.1 < name) : insert name value ps = ps ++ [(name, value)] := by
  induction ps with
  | nil => rfl
  | cons p ps ih =>
    obtain ⟨other, old⟩ := p
    obtain ⟨ho, hps⟩ := List.forall_mem_cons.1 h
    rw [insert, if_neg (ne_of_gt ho), if_neg (not_lt_of_gt ho), ih hps, List.cons_append]

/-- Ordered parameters that are set behind others come out as they are. -/
theorem foldl_insert {ps : Parameters} {before : Parameters} (h : Ordered (before ++ ps)) :
    ps.foldl (fun acc p => insert p.1 p.2 acc) before = before ++ ps := by
  induction ps generalizing before with
  | nil => simp
  | cons p ps ih =>
    have hlt : ∀ q ∈ before, q.1 < p.1 := fun q hq =>
      (List.pairwise_append.1 h).2.2 q hq p List.mem_cons_self
    rw [List.foldl_cons, insert_of_forall_lt p.2 hlt, ih (by simpa using h)]
    simp

theorem mem_insert {name : String} {value : Json.Value} {ps : Parameters} {q : String × Json.Value}
    (h : q ∈ insert name value ps) : q = (name, value) ∨ q ∈ ps := by
  induction ps with
  | nil => exact Or.inl (List.mem_singleton.1 h)
  | cons p ps ih =>
    obtain ⟨other, old⟩ := p
    rw [insert] at h
    split at h
    · rcases List.mem_cons.1 h with h | h
      · exact Or.inl h
      · exact Or.inr (List.mem_cons_of_mem _ h)
    split at h
    · exact List.mem_cons.1 h
    · rcases List.mem_cons.1 h with h | h
      · exact Or.inr (h ▸ List.mem_cons_self)
      · exact (ih h).imp_right (List.mem_cons_of_mem _)

theorem ordered_insert {ps : Parameters} (h : ps.Ordered) (name : String) (value : Json.Value) :
    Ordered (insert name value ps) := by
  induction ps with
  | nil => exact List.pairwise_singleton _ _
  | cons p ps ih =>
    obtain ⟨other, old⟩ := p
    obtain ⟨ho, hps⟩ := List.pairwise_cons.1 h
    rw [insert]
    split
    · rename_i heq
      exact List.pairwise_cons.2 ⟨heq ▸ ho, hps⟩
    split
    · rename_i hlt
      exact List.pairwise_cons.2
        ⟨List.forall_mem_cons.2 ⟨hlt, fun q hq => lt_trans hlt (ho q hq)⟩, h⟩
    · rename_i hne hnlt
      refine List.pairwise_cons.2 ⟨fun q hq => ?_, ih hps⟩
      rcases mem_insert hq with rfl | hq
      · exact lt_of_le_of_ne (not_lt.1 hnlt) (Ne.symm hne)
      · exact ho q hq

/-- The parameters of a list of pairs are ordered. -/
theorem ordered_ofPairs (pairs : List (String × Json.Value)) : (ofPairs pairs).Ordered := by
  suffices h : ∀ ps : Parameters, ps.Ordered →
      Ordered (pairs.foldl (fun acc p => insert p.1 p.2 acc) ps) from h [] List.Pairwise.nil
  induction pairs with
  | nil => exact fun ps hps => hps
  | cons p pairs ih => exact fun ps hps => ih _ (ordered_insert hps p.1 p.2)

/-- The parameters of a list of pairs are among the pairs. -/
theorem mem_ofPairs {pairs : List (String × Json.Value)} {q : String × Json.Value}
    (h : q ∈ ofPairs pairs) : q ∈ pairs := by
  suffices hfold : ∀ ps : Parameters, q ∈ pairs.foldl (fun acc p => insert p.1 p.2 acc) ps →
      q ∈ ps ∨ q ∈ pairs from (hfold [] h).resolve_left List.not_mem_nil
  clear h
  induction pairs with
  | nil => exact fun ps h => .inl h
  | cons p pairs ih =>
    intro ps h
    rcases ih _ h with h | h
    · rcases mem_insert h with rfl | h
      · exact .inr List.mem_cons_self
      · exact .inl h
    · exact .inr (List.mem_cons_of_mem _ h)

end Scaffold.Parameters
