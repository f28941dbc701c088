import Scaffold.Apply.Destination

/-!
# Reports

What became of every source file of an application. A file is done when all of its targets
are. Of the files with a target that could not be merged the first one reports the failure
itself, and the others say that it happened.
-/

namespace Scaffold

/-- What became of a source file. -/
abbrev FileState := Attempt StageFailure (List TargetOutcome)

/-- A source file and what became of it. -/
structure FileOutcome where
  source : Path
  state : FileState
deriving Inhabited

/-- What became of the destinations, by their paths. -/
abbrev MergedTargets := List (Path × Attempt StageFailure TargetOutcome)

/-- What the targets of a file have shown so far. -/
structure Tally where
  outcomes : List TargetOutcome
  failure? : Option StageFailure
  isSkipped : Bool
  merged : MergedTargets
deriving Inhabited

namespace Tally

/-- Nothing has been shown yet. -/
def start (merged : MergedTargets) : Tally := ⟨[], none, false, merged⟩

/-- The failure of a destination has been told; from now on it is only mentioned. -/
def mention (target : Path) (stage : Stage) : MergedTargets → MergedTargets
  | [] => []
  | (path, attempt) :: rest =>
    if path.same target then (path, .failed ⟨stage, .sharedTarget target⟩) :: rest
    else (path, attempt) :: mention target stage rest

/-- One more target counts. -/
def add (t : Tally) (target : Path) : Tally :=
  match (t.merged.find? (·.1.same target)).map Prod.snd with
  | none => t
  | some (.done outcome) => ⟨t.outcomes ++ [outcome], t.failure?, t.isSkipped, t.merged⟩
  | some (.failed f) =>
    match t.failure? with
    | some _ => t
    | none => ⟨t.outcomes, some f, t.isSkipped, mention target f.stage t.merged⟩
  | some .skipped => ⟨t.outcomes, t.failure?, true, t.merged⟩

/-- What became of the file with these targets. -/
def state (t : Tally) : FileState :=
  match t.failure? with
  | some f => .failed f
  | none => if t.isSkipped then .skipped else .done t.outcomes

end Tally

namespace FileOutcome

/-- What became of the source files, given how far their preparation came and what became of
their destinations. -/
def settle : MergedTargets → List (Path × Attempt StageFailure PreparedFile) → List FileOutcome
  | _, [] => []
  | merged, (source, .skipped) :: rest => ⟨source, .skipped⟩ :: settle merged rest
  | merged, (source, .failed f) :: rest => ⟨source, .failed f⟩ :: settle merged rest
  | merged, (source, .done file) :: rest =>
    let tally := file.targets.foldl Tally.add (.start merged)
    ⟨source, tally.state⟩ :: settle tally.merged rest

/-- The targets of a file that is done. -/
def targets (o : FileOutcome) : List TargetOutcome := o.state.result?.getD []

end FileOutcome

/-- The report of an application. -/
structure UnitReport where
  unit : UnitName
  /-- The source files, in the order of their paths. -/
  files : List FileOutcome
  /-- The application is new in the manifest. -/
  recorded : Bool
  /-- The application was in the manifest before. -/
  reapplied : Bool
deriving Inhabited

namespace UnitReport

/-- Every file is done. -/
def isOk (r : UnitReport) : Bool := r.files.all (·.state.isDone)

/-- The files that failed, with their failures. -/
def failures (r : UnitReport) : List (Path × StageFailure) :=
  r.files.filterMap fun f => f.state.error?.map fun e => (f.source, e)

/-- A path is put among others in their order, unless it is there. -/
def insertPath (p : Path) : List Path → List Path
  | [] => [p]
  | q :: rest =>
    if p.same q then q :: rest
    else if p.le q then p :: q :: rest
    else q :: insertPath p rest

/-- The files that were written, once each and in order. -/
def written (r : UnitReport) : List Path :=
  ((r.files.flatMap FileOutcome.targets).filter (·.written)).foldl
    (fun acc o => insertPath o.path acc) []

end UnitReport
end Scaffold
