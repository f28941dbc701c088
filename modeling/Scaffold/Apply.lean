import Scaffold.Apply.Report
import Scaffold.Resolver
import Scaffold.Source

/-!
# Applying units

A unit is applied to a tree: all of its source files are prepared, then every destination
is merged and written, and at last the application is recorded in the manifest of the
tree. The manifest and the template are looked at before anything is written. If a file
fails, nothing is recorded, and the files that have been written stay.

Workers share the files of each phase, so what becomes of them depends on the schedule where
files fail (`Application`). One worker works on the files in order (`apply`).
-/

namespace Scaffold

/-- What applications are made with. -/
structure Generator where
  processors : Registry Processor
  appenders : Registry Appender
  /-- Options on top of the defaults. -/
  overrides : Json.Members

/-- The generator with the stages and the appenders that are always there. -/
def Generator.builtin (render : Template.Renderer := Template.render) : Generator :=
  ⟨Processor.builtin render, Appender.builtin render, []⟩

/-- How many workers an application has. -/
structure Workers where
  /-- One file is worked on at a time. -/
  debug : Bool
  /-- The most workers there may be, where none stands for as many as the machine can run. -/
  limit : Nat
  /-- The number of workers that the machine can run. -/
  cores : Nat
deriving Inhabited

/-- The number of workers for a number of items. -/
def Workers.count (w : Workers) (items : Nat) : Nat :=
  if w.debug then 1 else min (if w.limit = 0 then w.cores else w.limit) items

/-- What is known of an application before its files are worked on. -/
structure Plan where
  job : Job
  sources : List Path

/-- What has become of the source files of a plan and of the destinations of those that are ready,
and the tree that this has left. -/
structure Course where
  prepared : List (Attempt StageFailure PreparedFile)
  merged : List (Attempt StageFailure TargetOutcome)
  tree : FileTree

namespace Course

/-- The destinations of the source files that are ready. -/
def destinations (c : Course) : List Destination :=
  Destination.group (c.prepared.map Attempt.result?)

/-- What has become of the source files in the end. -/
def files (c : Course) (sources : List Path) : List FileOutcome :=
  FileOutcome.settle ((c.destinations.map (·.path)).zip c.merged) (sources.zip c.prepared)

end Course

/-- An application that has been made: its report, the tree it leaves, and the state of the
source. -/
structure Applied (σ : Type) where
  report : Except Failure UnitReport
  tree : FileTree
  source : σ

namespace Generator

/-! ### Plans -/

/-- The folder of a part as its files are listed. -/
def listSources (t : FileTree) (unit : UnitName) (contentRoot : Path) :
    Except Failure (List Path) :=
  (t.list contentRoot).mapError fun fault => .source unit.text (.unlistable contentRoot fault)

/-- The plan of an application whose template and part are known. -/
def planWith (g : Generator) (request : Request) (t : FileTree) (template : TemplateConfig)
    (part : PartDefinition) : Except Failure Plan := do
  let overrides := (g.overrides.insertAll template.options).insertAll part.config.options
  let base ← Resolver.base overrides
  let folderOptions ← Resolver.folderOptions base t request.targetRoot
  let sources ← listSources t request.identity.unit part.contentRoot
  return ⟨⟨request, part.contentRoot, folderOptions, g.processors⟩, sources⟩

/-- The plan of an application. -/
def plan {σ : Type} (g : Generator) (source : Source σ) (request : Request) (t : FileTree)
    (s : σ) : Except Failure Plan × σ :=
  let unit := request.identity.unit
  match Manifest.load t request.targetRoot with
  | .error e => (.error e, s)
  | .ok _ =>
    match source.template unit.template unit.version t s with
    | (.error e, s) => (.error e, s)
    | (.ok template, s) =>
      match source.part unit t s with
      | (.error e, s) => (.error e, s)
      | (.ok part, s) => (g.planWith request t template part, s)

/-! ### Runs -/

/-- The files of a plan are worked on in order. -/
def inOrder (g : Generator) (p : Plan) (t : FileTree) : Course :=
  let prepared := Attempt.each (p.job.prepare t) p.sources
  let destinations := Destination.group (prepared.map Attempt.result?)
  let (t, merged) :=
    Attempt.eachWith (Destination.mergeAll g.appenders p.job.request) destinations t
  ⟨prepared, merged, t⟩

/-- The files of a plan are worked on in order: the tree they leave, and what became of them. -/
def run (g : Generator) (p : Plan) (t : FileTree) : FileTree × List FileOutcome :=
  let c := g.inOrder p t
  (c.tree, c.files p.sources)

/-- The files of a plan are worked on by workers: the source files are prepared, which takes one
look at the tree for each, and then the destinations of those that are ready are merged. -/
structure Run (g : Generator) (w : Workers) (p : Plan) (t : FileTree) where
  preparation : Pool.Run (max 1 (w.count p.sources.length))
    (p.sources.map fun source => .looking fun t => p.job.prepare t source) t
  merging : Pool.Run
    (max 1 (w.count (Destination.group (preparation.attempts.map Attempt.result?)).length))
    ((Destination.group (preparation.attempts.map Attempt.result?)).map
      (Destination.merging g.appenders p.job.request)) preparation.pool.state

/-- What a run has come to. -/
def Run.course {g : Generator} {w : Workers} {p : Plan} {t : FileTree} (r : g.Run w p t) : Course :=
  ⟨r.preparation.attempts, r.merging.attempts, r.merging.pool.state⟩

/-! ### Applications -/

/-- The application is recorded if every file is done. -/
def finish (request : Request) (files : List FileOutcome) (t : FileTree) :
    FileTree × Except Failure UnitReport :=
  let unit := request.identity.unit
  let report : UnitReport := ⟨unit, files, false, false⟩
  if report.isOk then
    match Manifest.record t request.targetRoot request.identity with
    | (t, .ok recorded) => (t, .ok ⟨unit, files, recorded, !recorded⟩)
    | (t, .error e) => (t, .error e)
  else (t, .ok report)

/-- A unit is applied to a tree by one worker. -/
def apply {σ : Type} (g : Generator) (source : Source σ) (request : Request) (t : FileTree)
    (s : σ) : Applied σ :=
  match g.plan source request t s with
  | (.error e, s) => ⟨.error e, t, s⟩
  | (.ok plan, s) =>
    let (t, files) := g.run plan t
    let (t, report) := finish request files t
    ⟨report, t, s⟩

/-- An application by workers that has a plan, with what the workers do. -/
structure Application {σ : Type} (g : Generator) (w : Workers) (source : Source σ)
    (request : Request) (t : FileTree) (s : σ) where
  plan : Plan
  planned : (g.plan source request t s).1 = .ok plan
  run : g.Run w plan t

namespace Application

variable {σ : Type} {g : Generator} {w : Workers} {source : Source σ} {request : Request}
  {t : FileTree} {s : σ}

/-- What has become of the files. -/
def course (a : g.Application w source request t s) : Course := a.run.course

/-- What the application has come to. -/
def applied (a : g.Application w source request t s) : Applied σ :=
  let (left, report) := finish request (a.course.files a.plan.sources) a.course.tree
  ⟨report, left, (g.plan source request t s).2⟩

end Application

/-- What an application by workers may come to. It comes to the failure where there is no plan. -/
inductive Applies {σ : Type} (g : Generator) (w : Workers) (source : Source σ) (request : Request)
    (t : FileTree) (s : σ) : Applied σ → Prop where
  | unplanned {e : Failure} {s' : σ} (h : g.plan source request t s = (.error e, s')) :
    Applies g w source request t s ⟨.error e, t, s'⟩
  | planned (a : g.Application w source request t s) : Applies g w source request t s a.applied

end Generator
end Scaffold
