import Scaffold.Failure
import Scaffold.Options
import Scaffold.Registry
import Scaffold.Region.Header
import Scaffold.Template.Render

/-!
# Pipelines

The content of a source file passes through stages. Each stage gets the context of the file
and the text that came out of the stage before, without blanks around it, and returns both,
perhaps changed. The last text loses the blanks around it too.
-/

namespace Scaffold

/-- What is known of a file on its way through the stages. -/
structure Context where
  identity : Identity
  /-- Where the file goes, from the root of the target tree. -/
  target : Path
  options : Options
  /-- Values that stages leave for later ones. -/
  scratch : Json.Members
deriving Inhabited

namespace Context

/-- The object that tells a template about the unit. -/
def unitMembers (c : Context) : Json.Members :=
  [("template", .string c.identity.unit.template), ("version", .string c.identity.unit.version),
    ("partial", .string c.identity.unit.part), ("target", .string c.target.text),
    ("parameters", .object c.identity.parameters)]

/-- The variables of a template: the parameters, then the values left by stages, and an object
about the unit. -/
def given (c : Context) : Json.Members :=
  (Json.Members.insertAll c.identity.parameters c.scratch).insert "scf" (.object c.unitMembers)

/-- The context with another target. -/
def retarget (c : Context) (target : Path) : Context := ⟨c.identity, target, c.options, c.scratch⟩

/-- The context with a value left under a name. -/
def leave (c : Context) (name : String) (value : Json.Value) : Context :=
  ⟨c.identity, c.target, c.options, c.scratch.insert name value⟩

end Context

/-- A stage of a pipeline. -/
structure Processor where
  name : String
  process : Context → String → Except Failure (Context × String)

namespace Processor

/-- Renders the text as a template. -/
def template (render : Template.Renderer := Template.render) : Processor :=
  ⟨"template", fun c input => do
    return (c, ← (render input c.given).mapError .template)⟩

/-- Leaves the text as it is. -/
def raw : Processor := ⟨"raw", fun c input => .ok (c, input)⟩

/-- The stages that are always there. -/
def builtin (render : Template.Renderer := Template.render) : Registry Processor :=
  .ofPairs [("template", template render), ("raw", raw)]

/-- The stages of these names. -/
def named (r : Registry Processor) (names : List String) : Except Failure (List Processor) :=
  (r.findAll names).mapError .unknownProcessor

end Processor

namespace Pipeline

/-- A text without blanks around it passes through the stages. -/
def runTrimmed : List Processor → Context → String → Except Failure (Context × String)
  | [], c, s => .ok (c, s)
  | p :: rest, c, s => do
    let (c, out) ← p.process c s
    runTrimmed rest c (Text.trimmed out)

/-- A text passes through the stages. -/
def run (stages : List Processor) (c : Context) (input : String) :
    Except Failure (Context × String) :=
  runTrimmed stages c (Text.trimmed input)

end Pipeline
end Scaffold
