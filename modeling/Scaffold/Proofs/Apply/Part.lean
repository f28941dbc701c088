import Scaffold.Proofs.Apply.Plan
import Scaffold.Proofs.Apply.Run

/-!
# Applications of one part

A template with one part, which is asked for with parameters or without: the plan of its application
(`plan_partFor`), what the application comes to (`applyPartFor_eq`), and its record, which is read
back (`parse_part`).
-/

namespace Scaffold.Generator

/-- A tree with a template that has one part, with options for its names and its appenders: these
source files, and what stands outside the template. -/
def partTree (files outside : List (Location × Entry)) : FileTree :=
  ⟨[], [(["t"], .folder), (["t", "1"], .folder), (["t", "1", "partials"], .folder),
    (["t", "1", "partials", "p"], .folder), (["t", "1", "partials", "p", "files"], .folder),
    (["t", "1", "partials", "p", "partial.json"], .file (.text
      "\x7b\"options\":\x7b\"fileNaming\":\"kebab\",\"appenders\":[\"text\"]\x7d\x7d"))] ++
    files.map (fun (names, e) => (["t", "1", "partials", "p", "files"] ++ names, e)) ++ outside⟩

/-- The part is asked for. -/
def partRequest : Request := ⟨⟨⟨"t", "1", "p"⟩, []⟩, ⟨"project"⟩, []⟩

/-- The part is asked for with parameters. -/
def partRequestWith (parameters : Parameters) : Request :=
  ⟨⟨partRequest.identity.unit, parameters⟩, partRequest.targetRoot, partRequest.runtime⟩

/-- The options of the part. -/
def partOptions : Options := { Options.default with fileNaming := .kebab, appenders := ["text"] }

/-- The plan to apply the part as it is asked for, with these source files. -/
def partPlanFor (request : Request) (sources : List Path) : Plan :=
  ⟨⟨request, ⟨"t/1/partials/p/files"⟩, partOptions, Processor.builtin⟩, sources⟩

/-- The plan to apply the part with these source files. -/
def partPlan (sources : List Path) : Plan := partPlanFor partRequest sources

/-- The plan to apply the part with these parameters and source files. -/
def partPlanWith (parameters : Parameters) (sources : List Path) : Plan :=
  partPlanFor (partRequestWith parameters) sources

/-- The part is applied as it is asked for. -/
def applyPartFor (request : Request) (t : FileTree) : Applied Unit :=
  Generator.builtin.apply (Source.folder ⟨""⟩) request t ()

/-- The part is applied with parameters. -/
def applyPartWith (parameters : Parameters) (t : FileTree) : Applied Unit :=
  applyPartFor (partRequestWith parameters) t

/-- The plan for what is asked for is run, and the application is recorded. -/
def runPartFor (request : Request) (sources : List Path) (t : FileTree) :
    FileTree × Except Failure UnitReport :=
  finish request (builtin.run (partPlanFor request sources) t).2
    (builtin.run (partPlanFor request sources) t).1

/-- What a tree and a report show: this tree, and files that are all done. -/
def leaves (left : FileTree) : FileTree × Except Failure UnitReport → Bool
  | (t, report) => t.here == left.here && t.entries == left.entries &&
    report.toOption.any UnitReport.isOk

theorem exists_report_of_leaves {left : FileTree} {run : FileTree × Except Failure UnitReport}
    (h : leaves left run = true) : run.1 = left ∧ ∃ r, run.2 = .ok r ∧ r.isOk = true := by
  obtain ⟨t, report⟩ := run
  rw [leaves, Bool.and_eq_true, Bool.and_eq_true] at h
  exact ⟨FileTree.eq_of_entries (beq_iff_eq.1 h.1.1) (beq_iff_eq.1 h.1.2),
    Outcome.any_toOption.1 h.2⟩

section
variable {files outside : List (Location × Entry)} {sources : List Path}

theorem plan_partFor {request : Request} (hunit : request.identity.unit = partRequest.identity.unit)
    {m? : Option Manifest}
    (hload : Manifest.load (partTree files outside) request.targetRoot = .ok m?)
    (hm : (m?.getD .empty).options = [])
    (htemplate : Source.folderTemplate ⟨""⟩ "t" "1" (partTree files outside) = .ok ⟨"t", "1", []⟩)
    (hlist : (partTree files outside).list ⟨"t/1/partials/p/files"⟩ = .ok sources) :
    (Generator.builtin.plan (Source.folder ⟨""⟩) request (partTree files outside) ()).1 =
      .ok (partPlanFor request sources) := by
  have hpart : Source.folderPart ⟨""⟩ ⟨"t", "1", "p"⟩ (partTree files outside) =
      .ok ⟨⟨none, [("fileNaming", .string "kebab"), ("appenders", .array [.string "text"])]⟩,
        ⟨"t/1/partials/p/files"⟩⟩ := by rfl
  refine plan_eq_ok.2 ⟨m?, _, _, hload, by rw [hunit]; exact htemplate, by rw [hunit]; exact hpart,
    ?_⟩
  refine planWith_eq_ok.2 ⟨partOptions, partOptions, sources, by rfl, ?_, hlist, rfl⟩
  refine (Resolver.folderOptions_eq_ok hload).2 ?_
  rw [hm]
  rfl

theorem list_part (hsorted : ((((partTree files outside).below ["t", "1", "partials", "p", "files"]
      ).filter FileTree.isListed).map FileTree.pathOf).Pairwise fun a b => Path.le a b = true) :
    (partTree files outside).list ⟨"t/1/partials/p/files"⟩ =
      .ok ((((partTree files outside).below ["t", "1", "partials", "p", "files"]
        ).filter FileTree.isListed).map FileTree.pathOf) :=
  FileTree.list_of_pairwise (by rfl) (by rfl) hsorted

theorem applyPartFor_eq {request : Request} {t : FileTree}
    (hplan : (Generator.builtin.plan (Source.folder ⟨""⟩) request t ()).1 =
      .ok (partPlanFor request sources)) :
    (applyPartFor request t).tree = (runPartFor request sources t).1 ∧
      (applyPartFor request t).report = (runPartFor request sources t).2 :=
  Prod.mk.inj (apply_eq_finish hplan)

/-- What an application of the part comes to that leaves a tree with all files done. -/
theorem applyPartFor_of_leaves {request : Request} {t left : FileTree}
    (hplan : (Generator.builtin.plan (Source.folder ⟨""⟩) request t ()).1 =
      .ok (partPlanFor request sources))
    (hleaves : leaves left (runPartFor request sources t) = true) :
    (applyPartFor request t).tree = left ∧
      ∃ r, (applyPartFor request t).report = .ok r ∧ r.isOk = true := by
  obtain ⟨htree, hreport⟩ := applyPartFor_eq hplan
  rw [htree, hreport]
  exact exists_report_of_leaves hleaves

end

/-- Two source files that go into one destination. -/
def sharedTree : FileTree :=
  partTree [(["A.ts"], .file (.text "x")), (["a.ts"], .file (.text "y"))] []

theorem plan_shared : (Generator.builtin.plan (Source.folder ⟨""⟩) partRequest sharedTree ()).1 =
    .ok (partPlan [⟨"A.ts"⟩, ⟨"a.ts"⟩]) :=
  plan_partFor rfl (by rfl) rfl (by rfl) (list_part (by decide))

end Scaffold.Generator
