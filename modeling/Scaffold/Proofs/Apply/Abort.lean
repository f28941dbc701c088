import Scaffold.Proofs.Apply.Run
import Scaffold.Proofs.Manifest

/-!
# Failures before anything is written

A source that fails and a manifest that is corrupt from the start stop an application before it
writes. The manifest is loaded again to record the application, and what is loaded then can be
what a destination was written with. So a failure of the manifest or of the source leaves the tree
as it was exactly if the files with the names of manifests are as they were, whatever the schedule
(`tree_eq_iff_agree`).
-/

namespace Scaffold

/-- A failure of the manifest or of the source. -/
inductive Failure.IsEarly : Failure → Prop where
  | manifest (path : Path) (error : Json.Error) : IsEarly (.manifest path error)
  | source (key : String) (fault : SourceFault) : IsEarly (.source key fault)

namespace Generator

variable {σ : Type} {g : Generator} {w : Workers} {source : Source σ} {request : Request}
  {t t' : FileTree} {s : σ} {b : Applied σ} {e : Failure}

/-- Where there is a plan the manifest has been loaded. -/
theorem exists_load_of_plan {p : Plan} (h : (g.plan source request t s).1 = .ok p) :
    ∃ m?, Manifest.load t request.targetRoot = .ok m? := by
  rw [plan] at h
  split at h
  · cases h
  · exact ⟨_, ‹_›⟩

/-- Behind the merges nothing fails but the record. -/
theorem finish_eq_error {files : List FileOutcome} (h : finish request files t = (t', .error e)) :
    Manifest.record t request.targetRoot request.identity = (t', .error e) := by
  unfold finish at h
  dsimp only at h
  split at h
  · split at h
    · cases h
    · rename_i e' hrecord
      obtain ⟨rfl, he⟩ := Prod.mk.inj h
      exact Except.error.inj he ▸ hrecord
  · cases h

/-- A failure of the manifest or of the source comes from the plan, and then the tree is as it was,
or from the manifest that is loaded behind the merges. -/
theorem tree_eq_or_load_eq_error (he : e.IsEarly) (hb : g.Applies w source request t s b)
    (h : b.report = .error e) :
    b.tree = t ∨ (∃ m?, Manifest.load t request.targetRoot = .ok m?) ∧
      Manifest.load b.tree request.targetRoot = .error e := by
  rcases hb with _ | a
  · exact .inl rfl
  · refine .inr ⟨exists_load_of_plan a.planned, ?_⟩
    have hrecord := finish_eq_error (a.applied_eq.symm.trans (congrArg _ h))
    rcases Manifest.record_eq_error hrecord with ⟨htree, hload⟩ | ⟨fault, rfl⟩
    · rwa [← htree] at hload
    · cases he

/-- **A failure of the manifest or of the source leaves the tree as it was exactly if the files with
the names of manifests are as they were**, whatever the schedule. -/
theorem tree_eq_iff_agree (he : e.IsEarly) (hb : g.Applies w source request t s b)
    (h : b.report = .error e) : b.tree = t ↔ Manifest.Agree request.targetRoot t b.tree := by
  constructor
  · intro htree name _
    rw [htree]
  · intro hagree
    refine (tree_eq_or_load_eq_error he hb h).resolve_right fun ⟨⟨m?, hload⟩, hagain⟩ => ?_
    rw [Manifest.load_congr hagree, hload] at hagain
    cases hagain

/-- A unit with a file that goes where the manifest goes: the manifest is corrupt and has been
written. -/
theorem tree_eq_iff_agree_of_generated_manifest :
    let t : FileTree := ⟨[], [(["t"], .folder), (["t", "1"], .folder),
      (["t", "1", "partials"], .folder), (["t", "1", "partials", "p"], .folder),
      (["t", "1", "partials", "p", "files"], .folder),
      (["t", "1", "partials", "p", "files", "scf.json"], .file (.text "\x7b\"partials\":1\x7d"))]⟩
    let applied := Generator.builtin.apply (Source.folder ⟨""⟩)
      ⟨⟨⟨"t", "1", "p"⟩, []⟩, ⟨"project"⟩, []⟩ t ()
    (∃ path error, applied.report = .error (.manifest path error)) ∧ applied.tree ≠ t := by
  intro t applied
  have hreport : ∃ path error, applied.report = .error (.manifest path error) := by
    have hmanifest : (match applied.report with
        | .error (.manifest _ _) => true
        | _ => false) = true := by decide +kernel
    split at hmanifest
    · exact ⟨_, _, ‹_›⟩
    · cases hmanifest
  obtain ⟨path, error, hmanifest⟩ := hreport
  refine ⟨⟨path, error, hmanifest⟩, fun htree => ?_⟩
  have hagree := (tree_eq_iff_agree (.manifest path error) (applies_apply ⟨false, 0, 2⟩)
    hmanifest).1 htree ⟨"scf.json"⟩ (by decide)
  have hdiffer : applied.tree.content? ⟨"project/scf.json"⟩ ≠ t.content? ⟨"project/scf.json"⟩ := by
    decide +kernel
  exact hdiffer hagree

end Generator

end Scaffold
