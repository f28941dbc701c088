import Scaffold.Proofs.Apply.Part

/-!
# What an application leaves alone

A run changes no file but those of the destinations that it reports as written (`outside_merged`).
An application changes in addition the manifest, exactly if all files are done and the manifest has
no such record yet (`apply_frame`).
-/

namespace Scaffold

open FileTree (Outside)

namespace Generator

variable {σ : Type} {g : Generator} {w : Workers} {source : Source σ} {request : Request} {p : Plan}
  {t : FileTree} {s : σ} {r : UnitReport}

/-- An application changes no file but those of the destinations that it writes and a manifest. -/
theorem Application.outside_manifest (a : g.Application w source request t s) :
    ∃ name ∈ Manifest.fileNames,
      Outside [t.goal (request.targetRoot.join name)] a.course.tree a.applied.tree := by
  obtain ⟨name, hname, hpath⟩ := Manifest.exists_recordPath a.course.tree request.targetRoot
  refine ⟨name, hname, ?_⟩
  have htree : a.applied.tree =
      (finish request (a.course.files a.plan.sources) a.course.tree).1 := rfl
  rw [htree, finish]
  split
  · split
    all_goals
      rename_i hrecord
      rw [← a.made.outside.goal, ← hpath]
      exact Manifest.outside_record hrecord
  · exact .refl _ _

/-- What an application of a plan does to the files of a tree, from the tree before it to the one
behind it. -/
structure Frame (g : Generator) (p : Plan) (t t' : FileTree) (r : UnitReport) : Prop where
  /-- No file changes but those of the destinations that were written and the manifest. -/
  others : ∀ z, z ∉ writtenPlaces t (g.outcomes p t) →
    z ≠ t.goal (Manifest.recordPath (g.merged p t).1 p.job.request.targetRoot) →
      t'.contentAt? z = t.contentAt? z
  /-- A destination that failed, was skipped or had nothing to write does not change. -/
  unwritten : ∀ m ∈ g.outcomes p t, m.2.isWritten = false →
    t'.contentAt? (t.goal m.1.path) = t.contentAt? (t.goal m.1.path)
  /-- Behind the merges the manifest is what it was before them, wherever its names find what stands
  at their goals. -/
  before : Manifest.InPlace t p.job.request.targetRoot →
    Manifest.Agree p.job.request.targetRoot t (g.merged p t).1 ∧
      Manifest.load (g.merged p t).1 p.job.request.targetRoot =
        Manifest.load t p.job.request.targetRoot
  /-- The manifest changes exactly if all files are done and it has no such record. -/
  manifest :
    t'.content? (Manifest.recordPath (g.merged p t).1 p.job.request.targetRoot) ≠
        (g.merged p t).1.content?
          (Manifest.recordPath (g.merged p t).1 p.job.request.targetRoot) ↔
      r.isOk = true ∧ ∃ m?, Manifest.load (g.merged p t).1 p.job.request.targetRoot = .ok m? ∧
        (m?.getD .empty).contains p.job.request.identity = false
  /-- Then it has that record in addition, at the end, and the template if it had none. -/
  record : r.isOk = true → ∀ m?,
    Manifest.load (g.merged p t).1 p.job.request.targetRoot = .ok m? →
      (m?.getD .empty).contains p.job.request.identity = false →
        ∃ m, Manifest.load t' p.job.request.targetRoot = .ok (some m) ∧
          m.records = (m?.getD .empty).records ++ [p.job.request.identity] ∧
          m.template? = (m?.getD .empty).template?.or
            (some ⟨p.job.request.identity.unit.template, p.job.request.identity.unit.version, none⟩)

end Generator

end Scaffold
