import Scaffold.Appender
import Scaffold.Apply.Pool
import Scaffold.Apply.Prepare

/-!
# Destinations

Source files with the same target contribute to one destination. It is merged once, with the
contents of all of them, under the options of the first.
-/

namespace Scaffold

/-- A file of the target tree with the source files that go into it, by their numbers. -/
structure Destination where
  path : Path
  contributors : List (Nat × PreparedFile)
deriving Inhabited

namespace Destination

/-- One more source file goes into a destination, unless it was the last one to. -/
def contribute (d : Destination) (index : Nat) (file : PreparedFile) : Destination :=
  if d.contributors.getLast?.any (·.1 == index) then d
  else ⟨d.path, d.contributors ++ [(index, file)]⟩

/-- A source file goes into the destination with a path, which may be new. -/
def add (index : Nat) (file : PreparedFile) (target : Path) :
    List Destination → List Destination
  | [] => [⟨target, [(index, file)]⟩]
  | d :: rest =>
    if d.path.same target then d.contribute index file :: rest
    else d :: add index file target rest

/-- A source file goes into all of its targets. -/
def addAll (ds : List Destination) (index : Nat) (file : PreparedFile) : List Destination :=
  file.targets.foldl (fun ds target => add index file target ds) ds

/-- The destinations of source files, in order of first appearance. The first file has the
given number. -/
def groupFrom (ds : List Destination) : (index : Nat) → List (Option PreparedFile) →
    List Destination
  | _, [] => ds
  | index, none :: rest => groupFrom ds (index + 1) rest
  | index, some file :: rest => groupFrom (addAll ds index file) (index + 1) rest

/-- The destinations of source files, in order of first appearance. -/
def group (files : List (Option PreparedFile)) : List Destination := groupFrom [] 0 files

end Destination

/-- What became of a destination. -/
structure TargetOutcome where
  path : Path
  /-- The file was written, because its text changed. -/
  written : Bool
deriving DecidableEq, Inhabited

namespace Destination

/-- The options under which a destination is merged: those of the source, with the directives
of the destination on top. -/
def optionsFor (request : Request) (c : Context) (target : Path) (text? : Option String) :
    Except Failure Options :=
  match text? with
  | none => .ok c.options
  | some text => do
    let file ← FileOptions.read c.options target text
    file.options.withRuntime request.runtime

/-- The new text of a destination, or nothing if it is not to be written. -/
def merge (appenders : Registry Appender) (request : Request) (c : Context)
    (contents : List String) (target : Path) (text? : Option String) :
    Except Failure (Option String) := do
  let o ← optionsFor request c target text?
  let format := o.formatFor target
  let content ← Merge.combine format contents o.arrayStrategy
  let appender ← Appender.select (← Appender.named appenders o.appenders) format
  appender.append ⟨text?, content, c.identity, .ofOptions o target, o⟩

/-- What a merge makes of a destination: the text that it had, and the new text. -/
def plan (appenders : Registry Appender) (request : Request) (c : Context)
    (contents : List String) (target : Path) (t : FileTree) :
    Except Failure (Option String × Option String) := do
  let text? ← (t.readOptional target).mapError Failure.file
  return (text?, ← merge appenders request c contents target text?)

/-- Contents are merged into a destination, which is written if its text changes. -/
def mergeInto (appenders : Registry Appender) (request : Request) (c : Context)
    (contents : List String) (target : Path) (t : FileTree) :
    FileTree × Except StageFailure TargetOutcome :=
  match plan appenders request c contents target t with
  | .error e => (t, .error ⟨.merge, e⟩)
  | .ok (_, none) => (t, .ok ⟨target, false⟩)
  | .ok (text?, some next) =>
    if text? = some next then (t, .ok ⟨target, false⟩)
    else
      match t.write target next with
      | (t, .ok ()) => (t, .ok ⟨target, true⟩)
      | (t, .error e) => (t, .error ⟨.persist, .file e⟩)

/-- The contents of all contributors are merged into a destination. -/
def mergeAll (appenders : Registry Appender) (request : Request) (d : Destination)
    (t : FileTree) : FileTree × Except StageFailure TargetOutcome :=
  match d.contributors with
  | [] => (t, .ok ⟨d.path, false⟩)
  | (_, first) :: _ =>
    mergeInto appenders request first.context (d.contributors.map (·.2.content)) d.path t

/-! ### In acts -/

/-- A text is written in two acts: the folders around the file are made, and the file is put in its
place. -/
def writing (target : Path) (next : String) :
    Task FileTree (Except StageFailure TargetOutcome) :=
  .doing (·.makeWay target) fun
    | .error e => .ended (.error ⟨.persist, .file e⟩)
    | .ok () => .doing (·.putInPlace target (.text next)) fun
      | .error e => .ended (.error ⟨.persist, .file e⟩)
      | .ok () => .ended (.ok ⟨target, true⟩)

/-- A destination is merged in acts: its text is read, and the new text is written if it differs. -/
def merging (appenders : Registry Appender) (request : Request) (d : Destination) :
    Task FileTree (Except StageFailure TargetOutcome) :=
  match d.contributors with
  | [] => .ended (.ok ⟨d.path, false⟩)
  | (_, first) :: _ =>
    let contents := d.contributors.map (·.2.content)
    .doing (fun t => (t, plan appenders request first.context contents d.path t)) fun
      | .error e => .ended (.error ⟨.merge, e⟩)
      | .ok (_, none) => .ended (.ok ⟨d.path, false⟩)
      | .ok (text?, some next) =>
        if text? = some next then .ended (.ok ⟨d.path, false⟩) else writing d.path next

end Destination
end Scaffold
