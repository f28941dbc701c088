import Scaffold.Proofs.Apply.Frame
import Scaffold.Proofs.Apply.Target

/-!
# What an application does to its own template

A pattern stands for files anywhere below the target root, and a template may lie there too: then
its own source files are among the files that its patterns match, as long as they are not manifests.
So the files of a part stay as they are exactly if no file that a pattern stands for is written
among them (`template_kept_iff`). It takes one source file with a pattern for its name to see one
written (`template_kept_iff_of_pattern`).
-/

namespace Scaffold.Generator

variable {σ : Type} {g : Generator} {w : Workers} {source : Source σ} {request : Request}
  {t : FileTree} {s : σ} {z : Location}

/-- Below a folder that no literal target leads to, every destination is a file that a pattern
stands for. -/
theorem Application.exists_pattern (a : g.Application w source request t s)
    (hliteral : ∀ f ∈ a.course.ready, ¬ Target.IsPattern f.context.target →
      ∀ q ∈ f.targets, ¬ z <+: t.goal q)
    {d : Destination} (hd : d ∈ a.course.destinations) (hbelow : z <+: t.goal d.path) :
    ∃ f ∈ a.course.ready, Target.IsPattern f.context.target ∧
      Target.Matches t request.targetRoot f.context.target d.path := by
  obtain ⟨f, hf, htarget⟩ := Course.exists_target hd
  obtain ⟨source, -, hprepare⟩ := a.made.exists_source hf
  have hcases := Job.targets_cases hprepare
  rw [request_of_plan a.planned] at hcases
  rcases hcases with ⟨hpattern, hmatches⟩ | ⟨hpattern, -⟩
  · exact ⟨f, hf, hpattern, hmatches _ htarget⟩
  · exact absurd hbelow (hliteral f hf hpattern _ htarget)

/-- **What becomes of the files of the part that is applied**, or of those below any other folder
that no literal target leads to, whatever the schedule: they stay as they are if and only if no file
that a pattern stands for is written among them. -/
theorem template_kept_iff (ht : t.WellFormed) (a : g.Application w source request t s)
    (hmanifest : ∀ name ∈ Manifest.fileNames, ¬ z <+: t.goal (request.targetRoot.join name))
    (hliteral : ∀ f ∈ a.course.ready, ¬ Target.IsPattern f.context.target →
      ∀ q ∈ f.targets, ¬ z <+: t.goal q) :
    ((∀ v, z <+: v → a.applied.tree.contentAt? v = t.contentAt? v) ↔
      ∀ m ∈ a.course.outcomes, z <+: t.goal m.1.path → m.2.isWritten = false) ∧
    ∀ m ∈ a.course.outcomes, z <+: t.goal m.1.path → ∃ f ∈ a.course.ready,
      Target.IsPattern f.context.target ∧
        Target.Matches t request.targetRoot f.context.target m.1.path := by
  have hmatches : ∀ d ∈ a.course.destinations, z <+: t.goal d.path → ∃ f ∈ a.course.ready,
      Target.IsPattern f.context.target ∧
        Target.Matches t request.targetRoot f.context.target d.path :=
    fun d hd hbelow => a.exists_pattern hliteral hd hbelow
  refine ⟨?_, fun m hm hbelow => hmatches m.1 (List.of_mem_zip hm).1 hbelow⟩
  have hmerged := a.made.outside
  obtain ⟨name, hname, hfinal⟩ := a.outside_manifest
  have hfinal : ∀ v, z <+: v → a.applied.tree.contentAt? v = a.course.tree.contentAt? v := by
    intro v hv
    refine hfinal.content v fun hmem => hmanifest name hname ?_
    rwa [← List.mem_singleton.1 hmem]
  constructor
  · intro hkept m hm hbelow
    obtain ⟨f, hf, -, hmatch⟩ := hmatches m.1 (List.of_mem_zip hm).1 hbelow
    obtain ⟨_, _, -, -, hlocate⟩ := hmatch.locate ht
    -- no other destination lies at the place of a file that a pattern stands for
    have hspelling : ∀ d ∈ a.course.destinations, t.goal d.path = t.goal m.1.path →
        d.path = m.1.path := by
      intro d hd hgoal
      obtain ⟨f', -, -, hmatch'⟩ := hmatches d hd (hgoal ▸ hbelow)
      exact hmatch'.eq_of_goal_eq ht hmatch hgoal
    refine (a.made.content?_eq_iff hspelling (FileTree.content?_of_locate hlocate)).1 ?_ m hm rfl
    rw [FileTree.content?_of_locate hlocate,
      FileTree.content?_of_locate (hmerged.locate_eq_ok hlocate), hmerged.goal,
      ← hfinal _ hbelow, hkept _ hbelow]
  · intro hunwritten v hv
    rw [hfinal v hv]
    refine hmerged.content v fun hmem => ?_
    obtain ⟨m, hm, hwritten, hgoal⟩ := mem_writtenPlaces.1 hmem
    rw [hunwritten m hm (hgoal ▸ hv)] at hwritten
    cases hwritten

/-- A template below the target root. Its part has one source file, for all files of a kind. -/
def nestedTree : FileTree :=
  ⟨[], [(["project"], .folder), (["project", "templates"], .folder),
    (["project", "templates", "t"], .folder), (["project", "templates", "t", "1"], .folder),
    (["project", "templates", "t", "1", "partials"], .folder),
    (["project", "templates", "t", "1", "partials", "p"], .folder),
    (["project", "templates", "t", "1", "partials", "p", "files"], .folder),
    (["project", "templates", "t", "1", "partials", "p", "files", "*.ts"], .file (.text "x"))]⟩

/-- The plan to apply its part. -/
def nestedPlan : Plan :=
  ⟨⟨partRequest, ⟨"project/templates/t/1/partials/p/files"⟩, Options.default, Processor.builtin⟩,
    [⟨"*.ts"⟩]⟩

theorem plan_nested : (Generator.builtin.plan (Source.folder ⟨"project/templates"⟩) partRequest
    nestedTree ()).1 = .ok nestedPlan := by
  have hload : Manifest.load nestedTree partRequest.targetRoot = .ok none := by rfl
  have hlist : nestedTree.list ⟨"project/templates/t/1/partials/p/files"⟩ = .ok [⟨"*.ts"⟩] :=
    FileTree.list_of_pairwise (z := ["project", "templates", "t", "1", "partials", "p", "files"])
      (by rfl) (by rfl) (by decide)
  refine plan_eq_ok.2 ⟨none, ⟨"t", "1", []⟩, ⟨⟨none, []⟩, nestedPlan.job.contentRoot⟩, hload,
    by rfl, by rfl, ?_⟩
  exact planWith_eq_ok.2 ⟨Options.default, Options.default, _, by rfl,
    (Resolver.folderOptions_eq_ok hload).2 (by rfl), hlist, rfl⟩

theorem prepared_nested : nestedPlan.prepared nestedTree =
    [.done ⟨⟨partRequest.identity, ⟨"*.ts"⟩, Options.default, []⟩, "x",
      [⟨"project/templates/t/1/partials/p/files/*.ts"⟩]⟩] := by
  have hlist : nestedTree.list ⟨"project"⟩ = .ok [⟨"templates/t/1/partials/p/files/*.ts"⟩] :=
    FileTree.list_of_pairwise (z := ["project"]) (by rfl) (by rfl) (by decide)
  have hresolve : Target.resolve nestedTree ⟨"project"⟩ ⟨"*.ts"⟩ Options.default =
      .ok [⟨"project/templates/t/1/partials/p/files/*.ts"⟩] := by
    have hparse : Glob.parse (Target.pattern ⟨"*.ts"⟩) =
        .ok [.many, .literal '.', .literal 't', .literal 's'] := by rfl
    rw [Target.resolve_of_list (by decide) hparse (by decide) hlist]
    exact congrArg Except.ok (by decide +kernel)
  have hprepare : nestedPlan.job.prepare nestedTree ⟨"*.ts"⟩ =
      .ok ⟨⟨partRequest.identity, ⟨"*.ts"⟩, Options.default, []⟩, "x",
        [⟨"project/templates/t/1/partials/p/files/*.ts"⟩]⟩ :=
    Job.prepare_eq_ok.2 ⟨"x", Options.default, "x", by rfl, by rfl, by rfl, hresolve⟩
  exact congrArg (fun x => Attempt.each (fun _ => x) [()]) hprepare

/-- The only source file of the part is what its own pattern stands for, and it is written. -/
theorem template_kept_iff_of_pattern :
    ∃ z, nestedTree.locate nestedPlan.job.contentRoot = .ok z ∧
      ∃ a : builtin.Application ⟨false, 0, 2⟩ (Source.folder ⟨"project/templates"⟩) partRequest
          nestedTree (),
        (∃ m ∈ a.course.outcomes, z <+: nestedTree.goal m.1.path ∧ m.2.isWritten = true) ∧
          ¬ ∀ v, z <+: v → a.applied.tree.contentAt? v = nestedTree.contentAt? v := by
  obtain ⟨a, -, hcourse, -⟩ := exists_application ⟨false, 0, 2⟩ plan_nested
  have hready : a.course.ready =
      [⟨⟨partRequest.identity, ⟨"*.ts"⟩, Options.default, []⟩, "x",
        [⟨"project/templates/t/1/partials/p/files/*.ts"⟩]⟩] := by
    rw [hcourse, inOrder_eq, prepared_nested]
    rfl
  have hwritten : ∃ m ∈ a.course.outcomes,
      ["project", "templates", "t", "1", "partials", "p", "files"] <+: nestedTree.goal m.1.path ∧
        m.2.isWritten = true := by
    have hany : a.course.outcomes.any (fun m =>
        ["project", "templates", "t", "1", "partials", "p", "files"].isPrefixOf
          (nestedTree.goal m.1.path) && m.2.isWritten) = true := by
      rw [hcourse, inOrder_eq, merged, Plan.destinations, prepared_nested]
      decide +kernel
    obtain ⟨m, hm, hboth⟩ := List.any_eq_true.1 hany
    obtain ⟨hbelow, hwritten⟩ := Bool.and_eq_true_iff.1 hboth
    exact ⟨m, hm, List.isPrefixOf_iff_prefix.1 hbelow, hwritten⟩
  refine ⟨_, by rfl, a, hwritten, fun hkept => ?_⟩
  obtain ⟨m, hm, hbelow, hwritten⟩ := hwritten
  have hunwritten := (template_kept_iff (by decide +kernel) a (by decide +kernel)
    (fun f hf hliteral => ?_)).1.1 hkept m hm hbelow
  · rw [hwritten] at hunwritten
    cases hunwritten
  · rw [hready] at hf
    rw [List.mem_singleton.1 hf] at hliteral
    exact absurd (by decide) hliteral

end Scaffold.Generator
