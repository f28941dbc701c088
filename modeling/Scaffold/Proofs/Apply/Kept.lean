import Scaffold.Proofs.Apply.Part

/-!
# What a failing file does to earlier output

Where a source file cannot be prepared, the destinations of the files that are ready are merged all
the same, and which files these are depends on the schedule. A destination that the file would have
gone into too takes in the files that are ready (`Course.mem_contributors`), so its region is
written anew without the content of the file that failed. An earlier output stays as it is if and
only if no such merge writes it (`kept_iff`).
-/

namespace Scaffold

namespace Generator

variable {σ : Type} {g : Generator} {w : Workers} {source : Source σ} {request : Request}
  {t : FileTree} {s : σ} {q : Path}

/-- Where a file is not ready, the application is reported, and nothing follows the merges. -/
theorem Application.reported_of_not_done (a : g.Application w source request t s)
    (hfailed : ∃ x ∈ a.course.prepared, x.isDone = false) :
    a.applied.tree = a.course.tree ∧ ∃ r, a.applied.report = .ok r ∧ r.isOk = false := by
  have hnot : (⟨request.identity.unit, a.course.files a.plan.sources, false, false⟩ :
      UnitReport).isOk = false := by
    obtain ⟨x, hx, hnot⟩ := hfailed
    refine Bool.eq_false_iff.2 fun hok => ?_
    rw [(a.made.done_of_files (List.all_eq_true.1 hok)).1 x hx] at hnot
    cases hnot
  have hfinish := a.applied_eq
  rw [finish, if_neg (by simp [hnot])] at hfinish
  obtain ⟨htree, hreport⟩ := Prod.mk.inj hfinish
  exact ⟨htree, _, hreport, hnot⟩

/-- **What becomes of earlier output where a source file cannot be prepared**, whatever the
schedule: it stays as it is if and only if no merge writes it, and so it does if no file with that
target is ready. A destination is merged with the files with that target that are ready, and so
without the one that is not. -/
theorem kept_iff (a : g.Application w source request t s)
    (hfailed : ∃ x ∈ a.course.prepared, x.isDone = false)
    (hspelling : ∀ d ∈ a.course.destinations, t.goal d.path = t.goal q → d.path = q)
    (hfound : t.content? q = t.contentAt? (t.goal q)) :
    (a.applied.tree.content? q = t.content? q ↔
        ∀ m ∈ a.course.outcomes, m.1.path = q → m.2.isWritten = false) ∧
      ((∀ f ∈ a.course.ready, q ∉ f.targets) → a.applied.tree.content? q = t.content? q) ∧
      ∀ d ∈ a.course.destinations, ∀ i f, (i, f) ∈ d.contributors ↔
        a.course.prepared[i]? = some (.done f) ∧
          ∃ target ∈ f.targets, d.path.same target = true := by
  have hkept := a.made.content?_eq_iff hspelling hfound
  rw [(a.reported_of_not_done hfailed).1]
  refine ⟨hkept, fun halone => hkept.2 fun m hm hpath => ?_,
    fun d hd i f => Course.mem_contributors hd⟩
  obtain ⟨f, hf, htarget⟩ := Course.exists_target (List.of_mem_zip hm).1
  exact absurd (hpath ▸ htarget) (halone f hf)

/-- Two source files that go into one destination, and the second one takes a parameter. -/
def parameterTree (outside : List (Location × Entry)) : FileTree :=
  partTree [(["A.ts"], .file (.text "x")), (["a.ts"], .file (.text "\x7b\x7b n \x7d\x7d"))] outside

/-- The parameter. -/
def givenParameter : Parameters := [("n", .number (.integer 1))]

/-- What an application with the parameter leaves outside the template. -/
def parameterOutside : List (Location × Entry) :=
  [(["project"], .folder),
    (["project", "a.ts"], .file (.text ("// @scf-region\n// template: t@1\n// partial: p\n" ++
      "// param n: 1\n\nx\n1\n// @scf-endregion\n"))),
    (["project", "scf.json"], .file (.text
      (Manifest.empty.add (partRequestWith givenParameter).identity).print))]

theorem plan_parameter : (builtin.plan (Source.folder ⟨""⟩) (partRequestWith givenParameter)
    (parameterTree []) ()).1 = .ok (partPlanWith givenParameter [⟨"A.ts"⟩, ⟨"a.ts"⟩]) :=
  plan_partFor rfl (by rfl) rfl (by rfl) (list_part (by decide))

theorem plan_parameterOutside :
    (builtin.plan (Source.folder ⟨""⟩) partRequest (parameterTree parameterOutside) ()).1 =
      .ok (partPlan [⟨"A.ts"⟩, ⟨"a.ts"⟩]) := by
  obtain ⟨m?, hload, hm⟩ : ∃ m?, Manifest.load (parameterTree parameterOutside)
      partRequest.targetRoot = .ok m? ∧ (m?.getD .empty).options.isEmpty = true :=
    Outcome.any_toOption.1 (by decide +kernel)
  exact plan_partFor rfl hload (List.isEmpty_iff.1 hm) (by rfl) (list_part (by decide))

/-- All files are done with the parameter. Without it the second file fails, and what it has
contributed is gone. -/
theorem kept_iff_of_shared_destination :
    (∃ r, (applyPartWith givenParameter (parameterTree [])).report = .ok r ∧ r.isOk = true) ∧
      (applyPartWith givenParameter (parameterTree [])).tree = parameterTree parameterOutside ∧
      ∃ a : builtin.Application ⟨false, 0, 2⟩ (Source.folder ⟨""⟩) partRequest
          (parameterTree parameterOutside) (),
        (∃ r, a.applied.report = .ok r ∧ r.isOk = false) ∧
          a.applied.tree.content? ⟨"project/a.ts"⟩ ≠
            (parameterTree parameterOutside).content? ⟨"project/a.ts"⟩ := by
  obtain ⟨htree, hfirst⟩ := applyPartFor_of_leaves plan_parameter
    (by decide +kernel : leaves (parameterTree parameterOutside) _ = true)
  obtain ⟨a, -, hcourse, -⟩ := exists_application ⟨false, 0, 2⟩ plan_parameterOutside
  have hfailed : ∃ x ∈ a.course.prepared, x.isDone = false := by
    have hany : (builtin.inOrder (partPlan [⟨"A.ts"⟩, ⟨"a.ts"⟩])
        (parameterTree parameterOutside)).prepared.any (fun x => !x.isDone) = true := by
      decide +kernel
    obtain ⟨x, hx, hnot⟩ := List.any_eq_true.1 hany
    exact hcourse ▸ ⟨x, hx, by simpa using hnot⟩
  refine ⟨hfirst, htree, a, (a.reported_of_not_done hfailed).2, fun hkept => ?_⟩
  have hdestinations : (a.course.destinations).map (·.path) = [⟨"project/a.ts"⟩] := by
    rw [hcourse]
    decide +kernel
  have hwritten : a.course.outcomes.any (fun m => m.1.path == ⟨"project/a.ts"⟩ && m.2.isWritten) =
      true := by
    rw [hcourse]
    decide +kernel
  obtain ⟨m, hm, hpath⟩ := List.any_eq_true.1 hwritten
  obtain ⟨hpath, hwritten⟩ := Bool.and_eq_true_iff.1 hpath
  have hunwritten := (kept_iff a hfailed (q := ⟨"project/a.ts"⟩)
    (fun d hd _ => List.mem_singleton.1 (hdestinations ▸ List.mem_map_of_mem hd))
    (by decide +kernel)).1.1 hkept m hm (beq_iff_eq.1 hpath)
  rw [hwritten] at hunwritten
  cases hunwritten

end Generator

end Scaffold
