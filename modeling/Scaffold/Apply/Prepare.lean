import Scaffold.Apply.Target
import Scaffold.FileOptions
import Scaffold.Pipeline

/-!
# Preparing source files

A source file of a part is read, its options are resolved, its content passes through the
pipeline, and its targets are found. Nothing is written meanwhile.
-/

namespace Scaffold

/-- An application that is asked for. -/
structure Request where
  identity : Identity
  /-- The root of the tree that the files go into. -/
  targetRoot : Path
  /-- Options that override all others. -/
  runtime : Json.Members
deriving Inhabited

/-- How far a file got. -/
inductive Stage where
  | load
  | resolveOptions
  | process
  | merge
  | persist
deriving DecidableEq, Inhabited

/-- The name of a stage. -/
def Stage.name : Stage → String
  | .load => "load"
  | .resolveOptions => "resolve options"
  | .process => "process"
  | .merge => "merge"
  | .persist => "persist"

/-- A failure and the stage where it came. -/
structure StageFailure where
  stage : Stage
  failure : Failure
deriving Inhabited

/-- The outcome of a step in a stage. -/
def Stage.attempt {α : Type} (stage : Stage) (x : Except Failure α) : Except StageFailure α :=
  x.mapError fun f => ⟨stage, f⟩

/-- A source file that is ready to be merged. -/
structure PreparedFile where
  context : Context
  content : String
  targets : List Path
deriving Inhabited

/-- What the source files of an application have in common. -/
structure Job where
  request : Request
  contentRoot : Path
  folderOptions : Options
  processors : Registry Processor

namespace Job

/-- The options of a source file and its text without directives. -/
def optionsOf (j : Job) (source : Path) (text : String) : Except Failure (Options × String) := do
  let file ← FileOptions.read j.folderOptions source text
  return (← file.options.withRuntime j.request.runtime, Directive.strip text file.directives)

/-- A target path that is a template passes through the pipeline too. -/
def renderTarget (stages : List Processor) (c : Context) : Except Failure Context := do
  if Template.hasMarks c.target.text then
    let (c, rendered) ← Pipeline.run stages c c.target.text
    return c.retarget ⟨rendered⟩
  else return c

/-- The content of a source file after the pipeline. -/
def process (j : Job) (source : Path) (o : Options) (body : String) :
    Except Failure (Context × String) := do
  let stages ← Processor.named j.processors o.processors
  let c ← renderTarget stages ⟨j.request.identity, source, o, []⟩
  Pipeline.run stages c body

/-- A source file is prepared. -/
def prepare (j : Job) (t : FileTree) (source : Path) : Except StageFailure PreparedFile := do
  let text ← Stage.load.attempt ((t.read (j.contentRoot.join source)).mapError .file)
  let (o, body) ← Stage.resolveOptions.attempt (j.optionsOf source text)
  let (c, content) ← Stage.process.attempt (j.process source o body)
  let targets ← Stage.process.attempt (Target.resolve t j.request.targetRoot c.target o)
  return ⟨c, content, targets⟩

end Job
end Scaffold
