import Scaffold.Proofs.Apply.Frame
import Scaffold.Proofs.Apply.Target
import Scaffold.Proofs.Path.Within

/-!
# What stays inside the target tree

A pattern stands for files below the target root only. Any other target path is joined to the root
as it is rendered, and `..` and a slash at the front count there: so it stays inside the tree
whatever the root is if and only if it never leads above where it starts
(`Target.resolve_within_iff`). An application all of whose files stay inside writes nothing outside
but a manifest, whatever the schedule (`written_inside`).
-/

namespace Scaffold

namespace Target

variable {t : FileTree} {root target q : Path} {o : Options} {paths : List Path}

/-- The target path is a pattern, or never leads above where it starts. -/
def StaysInside (target : Path) : Prop := IsPattern target ∨ target.Within ⟨""⟩

instance (target : Path) : Decidable (StaysInside target) :=
  inferInstanceAs (Decidable (_ ∨ _))

/-- The path is inside the folder, and so is where it leads to in the tree. -/
def Inside (t : FileTree) (root q : Path) : Prop := q.Within root ∧ t.goal root <+: t.goal q

theorem Matches.inside (ht : t.WellFormed) (h : Matches t root target q) : Inside t root q := by
  obtain ⟨tokens, ps, name, -, hlist, hname, -, -, rfl⟩ := h.listed
  obtain ⟨hplain, hrelative⟩ := ht.plain_of_mem_list hlist hname
  obtain ⟨hwithin, hgoal⟩ := Path.within_join hrelative (Path.descends_of_plain hplain)
  exact ⟨hwithin, hgoal t⟩

theorem inside_rename (h : target.Within ⟨""⟩) (folder file : Convention) :
    Inside t root (root.join (target.rename folder file)) := by
  obtain ⟨hrelative, hdescends⟩ :=
    Path.within_empty_iff.1 ((Path.within_rename_iff folder file).2 h)
  obtain ⟨hwithin, hgoal⟩ := Path.within_join hrelative hdescends
  exact ⟨hwithin, hgoal t⟩

theorem inside_of_resolve (ht : t.WellFormed) (htarget : StaysInside target)
    (h : resolve t root target o = .ok paths) : ∀ q ∈ paths, Inside t root q := by
  rcases resolve_cases h with ⟨-, hmatches⟩ | ⟨hliteral, rfl⟩
  · exact fun q hq => (hmatches q hq).inside ht
  · exact List.forall_mem_singleton.2 (inside_rename (htarget.resolve_left hliteral) _ _)

/-- **The target paths that stay inside the target tree, wherever it is**, are the patterns and the
paths that never lead above where they start. -/
theorem resolve_within_iff (target : Path) :
    (∀ (t : FileTree) (root : Path) (o : Options) (paths : List Path), t.WellFormed →
      resolve t root target o = .ok paths → ∀ q ∈ paths, q.Within root) ↔ StaysInside target := by
  constructor
  · intro h
    by_cases hpattern : IsPattern target
    · exact .inl hpattern
    · -- the current folder of an empty tree is a root that shows it
      have hresolve : resolve .empty ⟨""⟩ target default =
          .ok [Path.join ⟨""⟩ (target.rename .none .none)] := by
        rw [resolve]
        exact if_neg hpattern
      have hwithin := h .empty ⟨""⟩ default _ (by simp [FileTree.WellFormed, FileTree.empty])
        hresolve _ List.mem_cons_self
      have hjoin : Path.join ⟨""⟩ (target.rename .none .none) = target.rename .none .none := by
        rw [Path.join]
        split <;> simp
      rw [hjoin, Path.within_rename_iff] at hwithin
      exact .inr hwithin
  · exact fun htarget t root o paths ht h q hq => (inside_of_resolve ht htarget h q hq).1

end Target

namespace Generator

variable {σ : Type} {g : Generator} {w : Workers} {source : Source σ} {request : Request}
  {t : FileTree} {s : σ}

/-- **What stays inside the target tree**, whatever the schedule: of the target paths those that are
patterns or never lead above where they start. If the target paths of all files that are ready do,
then so do all targets, and an application changes no file outside the target tree but a
manifest. -/
theorem written_inside (ht : t.WellFormed) (a : g.Application w source request t s)
    (hfiles : ∀ f ∈ a.course.ready, Target.StaysInside f.context.target) :
    (∀ target, (∀ (t : FileTree) (root : Path) (o : Options) (paths : List Path), t.WellFormed →
      Target.resolve t root target o = .ok paths → ∀ q ∈ paths, q.Within root) ↔
        Target.StaysInside target) ∧
    (∀ f ∈ a.course.ready, ∀ q ∈ f.targets, q.Within request.targetRoot) ∧
    ∀ z, a.applied.tree.contentAt? z ≠ t.contentAt? z →
      (∃ name ∈ Manifest.fileNames, z = t.goal (request.targetRoot.join name)) ∨
        ∃ d ∈ a.course.destinations, d.path.Within request.targetRoot ∧ z = t.goal d.path ∧
          t.goal request.targetRoot <+: z := by
  have hinside : ∀ f ∈ a.course.ready, ∀ q ∈ f.targets, Target.Inside t request.targetRoot q := by
    intro f hf q hq
    obtain ⟨source, -, hprepare⟩ := a.made.exists_source hf
    have hcases := Job.targets_cases hprepare
    rw [request_of_plan a.planned] at hcases
    rcases hcases with ⟨-, hmatches⟩ | ⟨hliteral, o, htargets⟩
    · exact (hmatches q hq).inside ht
    · rw [htargets] at hq
      rw [List.mem_singleton.1 hq]
      exact Target.inside_rename ((hfiles f hf).resolve_left hliteral) _ _
  refine ⟨Target.resolve_within_iff, fun f hf q hq => (hinside f hf q hq).1, fun z hchanged => ?_⟩
  obtain ⟨name, hname, hfinal⟩ := a.outside_manifest
  by_cases hmanifest : z = t.goal (request.targetRoot.join name)
  · exact .inl ⟨name, hname, hmanifest⟩
  · rw [hfinal.content z (by simpa using hmanifest)] at hchanged
    have hmem : z ∈ writtenPlaces t a.course.outcomes :=
      by_contra fun hnot => hchanged (a.made.outside.content z hnot)
    obtain ⟨m, hm, -, rfl⟩ := mem_writtenPlaces.1 hmem
    have hd := (List.of_mem_zip hm).1
    obtain ⟨f, hf, htarget⟩ := Course.exists_target hd
    obtain ⟨hwithin, hgoal⟩ := hinside f hf _ htarget
    exact .inr ⟨m.1, hd, hwithin, rfl, hgoal⟩

/-- Both files of a part stay inside, and a target path that a parameter leads up with does not. -/
theorem written_inside_of_shared_destination :
    (∃ a : builtin.Application ⟨false, 0, 2⟩ (Source.folder ⟨""⟩) partRequest sharedTree (),
      a.course.ready.map (·.targets) = [[⟨"project/a.ts"⟩], [⟨"project/a.ts"⟩]] ∧
      (∀ f ∈ a.course.ready, ∀ q ∈ f.targets, q.Within partRequest.targetRoot) ∧
      ∀ z, a.applied.tree.contentAt? z ≠ sharedTree.contentAt? z → ["project"] <+: z) ∧
    ¬ ∀ (t : FileTree) (root : Path) (o : Options) (paths : List Path), t.WellFormed →
      Target.resolve t root ⟨"../outside.txt"⟩ o = .ok paths → ∀ q ∈ paths, q.Within root := by
  obtain ⟨a, -, hcourse, -⟩ := exists_application ⟨false, 0, 2⟩ plan_shared
  have hready : (builtin.inOrder (partPlan [⟨"A.ts"⟩, ⟨"a.ts"⟩]) sharedTree).ready.map (·.targets) =
        [[⟨"project/a.ts"⟩], [⟨"project/a.ts"⟩]] ∧
      ∀ f ∈ (builtin.inOrder (partPlan [⟨"A.ts"⟩, ⟨"a.ts"⟩]) sharedTree).ready,
        Target.StaysInside f.context.target := by
    decide +kernel
  rw [← hcourse] at hready
  obtain ⟨hall, hwithin, hwritten⟩ := written_inside (by decide +kernel) a hready.2
  refine ⟨⟨a, hready.1, hwithin, fun z hchanged => ?_⟩, fun hinside => ?_⟩
  · rcases hwritten z hchanged with ⟨name, hname, rfl⟩ | ⟨d, -, -, -, hroot⟩
    · have hmanifests : ∀ name ∈ Manifest.fileNames,
          ["project"] <+: sharedTree.goal (partRequest.targetRoot.join name) := by decide +kernel
      exact hmanifests name hname
    · exact hroot
  · exact absurd ((hall _).1 hinside) (by decide +kernel)

end Generator

end Scaffold
