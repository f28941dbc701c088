import Mathlib.Data.List.Pairwise
import Scaffold.Path

/-!
# The order of paths

Components are ordered by kind and by name, and lists of them component by component. Both orders
are total, and two paths that stand before each other have the same components. So a list in which
every path stands before those behind it (`Path.Before`) has no path twice.
-/

namespace Scaffold

namespace Component

variable {a b c : Component}

theorem le_total (a b : Component) : a.le b = true ∨ b.le a = true := by
  cases a <;> cases b <;> simp [le, String.le_total]

theorem le_trans (hab : a.le b = true) (hbc : b.le c = true) : a.le c = true := by
  cases a <;> cases b <;> cases c <;> simp [le] at hab hbc ⊢
  exact String.le_trans hab hbc

theorem le_antisymm (hab : a.le b = true) (hba : b.le a = true) : a = b := by
  cases a <;> cases b <;> simp [le] at hab hba ⊢
  exact String.le_antisymm hab hba

variable {as bs cs : List Component}

theorem leAll_total (as bs : List Component) : leAll as bs = true ∨ leAll bs as = true := by
  induction as generalizing bs with
  | nil => exact .inl rfl
  | cons a as ih =>
    cases bs with
    | nil => exact .inr rfl
    | cons b bs =>
      rw [leAll, leAll]
      by_cases hab : a = b
      · rw [if_pos hab, if_pos hab.symm]
        exact ih bs
      · rw [if_neg hab, if_neg (Ne.symm hab)]
        exact le_total a b

theorem leAll_refl (as : List Component) : leAll as as = true := (leAll_total as as).elim id id

theorem leAll_antisymm (hab : leAll as bs = true) (hba : leAll bs as = true) : as = bs := by
  induction as generalizing bs with
  | nil =>
    cases bs with
    | nil => rfl
    | cons b bs => cases hba
  | cons a as ih =>
    cases bs with
    | nil => cases hab
    | cons b bs =>
      rw [leAll] at hab hba
      by_cases heq : a = b
      · rw [if_pos heq] at hab
        rw [if_pos heq.symm] at hba
        rw [heq, ih hab hba]
      · rw [if_neg heq] at hab
        rw [if_neg (Ne.symm heq)] at hba
        exact absurd (le_antisymm hab hba) heq

theorem leAll_trans (hab : leAll as bs = true) (hbc : leAll bs cs = true) :
    leAll as cs = true := by
  induction as generalizing bs cs with
  | nil => rfl
  | cons a as ih =>
    cases bs with
    | nil => cases hab
    | cons b bs =>
      cases cs with
      | nil => cases hbc
      | cons c cs =>
        rw [leAll] at hab hbc ⊢
        -- the first place where two of the three lists differ decides
        by_cases heq : a = b
        · subst heq
          rw [if_pos rfl] at hab
          split at hbc
          · rw [if_pos ‹_›]
            exact ih hab hbc
          · rw [if_neg ‹_›]
            exact hbc
        · rw [if_neg heq] at hab
          split at hbc
          · rename_i hsame
            rw [← hsame, if_neg heq]
            exact hab
          · rw [if_neg]
            · exact le_trans hab hbc
            · rintro rfl
              exact heq (le_antisymm hab hbc)

end Component

namespace Path

variable {p q r : Path}

theorem same_iff : p.same q = true ↔ p.components = q.components := beq_iff_eq

theorem same_comm (p q : Path) : p.same q = q.same p := BEq.comm

theorem same_congr (h : p.same q = true) (r : Path) : p.same r = q.same r := by
  rw [same, same, same_iff.1 h]

/-- Paths that name what a third one names. -/
theorem same_of_same (hp : p.same r = true) (hq : q.same r = true) : p.same q = true :=
  same_iff.2 ((same_iff.1 hp).trans (same_iff.1 hq).symm)

/-- Of things with different paths one is known by its path. -/
theorem eq_of_same {α : Type} {path : α → Path} {l : List α}
    (h : l.Pairwise fun x y => (path x).same (path y) = false) {x y : α} (hx : x ∈ l) (hy : y ∈ l)
    (hsame : (path x).same (path y) = true) : x = y := by
  by_contra hne
  have : Std.Symm fun x y => (path x).same (path y) = false := ⟨fun x y h => (same_comm _ _).trans h⟩
  have hdifferent := h.forall hx hy hne
  rw [hsame] at hdifferent
  cases hdifferent

/-- And so is where it stands. -/
theorem index_eq_of_same {α : Type} {path : α → Path} {l : List α}
    (h : l.Pairwise fun x y => (path x).same (path y) = false) {i j : Nat} {x y : α}
    (hx : l[i]? = some x) (hy : l[j]? = some y) (hsame : (path x).same (path y) = true) : i = j := by
  obtain ⟨hi, rfl⟩ := List.getElem?_eq_some_iff.1 hx
  obtain ⟨hj, rfl⟩ := List.getElem?_eq_some_iff.1 hy
  have hall := List.pairwise_iff_getElem.1 h
  rcases Nat.lt_trichotomy i j with hlt | rfl | hgt
  · rw [hall i j hi hj hlt] at hsame
    cases hsame
  · rfl
  · rw [same_comm, hall j i hj hi hgt] at hsame
    cases hsame

/-- The path stands before the other one, and names another place. -/
def Before (p q : Path) : Prop := p.le q = true ∧ p.same q = false

theorem before_of_not_le (h : p.le q = false) : q.Before p := by
  rw [le] at h
  refine ⟨(Component.leAll_total p.components q.components).resolve_left (by simp [h]),
    Bool.eq_false_iff.2 fun hsame => ?_⟩
  rw [same_iff.1 hsame, Component.leAll_refl] at h
  cases h

theorem Before.trans_le (hp : p.le q = true) (h : q.Before r) : p.Before r := by
  refine ⟨Component.leAll_trans hp h.1, Bool.eq_false_iff.2 fun hsame => ?_⟩
  rw [le, same_iff.1 hsame] at hp
  have hqr := same_iff.2 (Component.leAll_antisymm h.1 hp)
  rw [h.2] at hqr
  cases hqr

end Path

end Scaffold
