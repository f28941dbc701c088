import Scaffold.Proofs.Apply.Course
import Scaffold.Proofs.Apply.Destination

/-!
# Merges that lie apart

Where destinations lie apart, the merges of the others change nothing that a merge looks at,
whatever is done between its acts. So each act of a merge that is done changes nothing but the way
to the goal of its destination (`Made.changed_acts`), and behind all of them every destination is
settled (`Made.settled`).
-/

namespace Scaffold.Course

open FileTree (Apart Changed Outside)

/-- The goals of the other destinations. -/
def others (c : Course) (t : FileTree) (n : Nat) : List Location :=
  (c.outcomes.eraseIdx n).map fun m => t.goal m.1.path

variable {c : Course} {g : Generator} {p : Plan} {t t' : FileTree} {log : List (Act FileTree)}
  {m : Destination × Attempt StageFailure TargetOutcome} {n : Nat}

theorem mem_others {z : Location} :
    z ∈ c.others t n ↔ ∃ j m, c.outcomes[j]? = some m ∧ j ≠ n ∧ t.goal m.1.path = z := by
  rw [others, List.mem_map]
  constructor
  · rintro ⟨m, hm, rfl⟩
    obtain ⟨j, hne, hj⟩ := List.mem_eraseIdx_iff_getElem?.1 hm
    exact ⟨j, m, hj, hne, rfl⟩
  · rintro ⟨j, m, hj, hne, rfl⟩
    exact ⟨m, List.mem_eraseIdx_iff_getElem?.2 ⟨j, hne, hj⟩, rfl⟩

/-- Whatever is done at the goals of the others is done apart. -/
theorem apart_of_mem_others (hs : Destination.Scattered t c.destinations)
    (hn : c.outcomes[n]? = some m) : ∀ z ∈ c.others t n, Apart (t.goal m.1.path) z := by
  intro z hz
  obtain ⟨j, m', hj, hne, rfl⟩ := mem_others.1 hz
  obtain ⟨hn, hgetn⟩ := List.getElem?_eq_some_iff.1 (List.getElem?_zip_eq_some.1 hn).1
  obtain ⟨hj, hgetj⟩ := List.getElem?_eq_some_iff.1 (List.getElem?_zip_eq_some.1 hj).1
  rw [← hgetn, ← hgetj]
  have hall := List.pairwise_iff_getElem.1 hs.apart
  rcases Nat.lt_or_gt_of_ne hne with hlt | hgt
  · exact (hall j n hj hn hlt).symm
  · exact hall n j hn hj hgt

namespace Made

variable (h : c.Made g p t log) (hs : Destination.Scattered t c.destinations) (ht : t.WellFormed)
  (hdone : ∀ a ∈ c.merged, a.isDone = true)

include h hs ht hdone

/-- The acts of a destination that is done change nothing but the way to its goal. -/
theorem changed_acts (hm : c.outcomes[n]? = some m) :
    ∀ act ∈ actsOf n log, Changed [t.goal m.1.path] act.before act.behind := by
  have haround : Around (Outside (c.others t n)) t (actsOf n log) c.tree :=
    h.around_outside fun j m' hm' hother _ => mem_others.2 ⟨j, m', hm', hother, rfl⟩
  have hgoals : ∀ act ∈ actsOf n log, act.before.goal m.1.path = t.goal m.1.path :=
    fun act hact => h.goal_before (mem_actsOf.1 hact).1 _
  have hformed : ∀ act ∈ actsOf n log, act.before.WellFormed :=
    fun act hact => (h.wellFormed_before ht).1 act (mem_actsOf.1 hact).1
  have hapart := apart_of_mem_others hs hm
  have hfirm := hs.firm m.1 (List.of_mem_zip (List.mem_of_getElem? hm)).1
  have hmdone := hdone m.2 (List.of_mem_zip (List.mem_of_getElem? hm)).2
  have hmerges := h.merges hm
  obtain ⟨d, a⟩ := m
  dsimp only at *
  generalize actsOf n log = acts at *
  cases hmerges with
  | skipped => cases hmdone
  | empty => simp
  | fails => cases hmdone
  | stays hlook => exact List.forall_mem_singleton.2 (hlook ▸ .refl _ _)
  | blocked => cases hmdone
  | refused => cases hmdone
  | @written look make put next hlook hfresh hmake hput =>
    obtain ⟨hfirst, hsecond, hthird, -⟩ := haround
    rw [hlook] at hsecond
    have hmakeGoal := hgoals make (by simp)
    have hputGoal := hgoals put (by simp)
    have hmade : Outside [] make.before make.behind := by
      have houtside : Outside [] make.before (make.before.makeWay d.path).1 :=
        FileTree.outside_makeWay _
      rwa [hmake] at houtside
    -- where the file was put in its place the folders around it could be made
    have hopen : make.before.Open d.path := by
      have hplaced := FileTree.open_of_putInPlace (hformed put (by simp)) hput
      refine (hplaced.of_outside hthird ?_).of_outside hmade (by simp)
      rwa [hmade.goal, hmakeGoal]
    obtain ⟨t', hmake', hchanged, -⟩ := FileTree.exists_makeWay (hformed make (by simp))
      (hfirm.of_outside (hfirst.trans hsecond)) hopen
    rw [hmake] at hmake'
    obtain rfl := (Prod.mk.inj hmake').1
    have hset := (FileTree.changed_putInPlace hput).1
    rw [hmakeGoal] at hchanged
    rw [hputGoal] at hset
    exact List.forall_mem_cons.2 ⟨hlook ▸ .refl _ _,
      List.forall_mem_cons.2 ⟨hchanged, List.forall_mem_singleton.2 hset⟩⟩

/-- The merges change nothing but the ways to the goals of the destinations. -/
theorem changed : Changed (c.destinations.map fun d => t.goal d.path) t c.tree := by
  refine h.merged.history.relates (.refl _) .trans fun act hact => ?_
  obtain ⟨m, hm⟩ := h.exists_outcome_of_act hact
  refine (h.changed_acts hs ht hdone hm act (mem_actsOf.2 ⟨hact, rfl⟩)).mono fun z hz => ?_
  rw [List.mem_singleton.1 hz]
  exact List.mem_map_of_mem (List.of_mem_zip (List.mem_of_getElem? hm)).1

end Made

end Scaffold.Course
