import Scaffold.Region
import Scaffold.Template.Render

/-!
# Blocks

The text of a region for fresh content: the start line, the header, a blank line, the
content and the end line. A template can be given that shapes the block in another way;
it is rendered with the pieces of the block as its variables.
-/

namespace Scaffold.Block

/-- The content without line ends behind it. -/
def body (content : String) : String :=
  String.ofList (Text.dropEndWhile Text.isLineEnd content.toList)

/-- The block in its usual shape. -/
def usual (d : Delimiters) (i : Identity) (content : String) : String :=
  let lines := d.startLine :: i.headerLines d.comment ++ ["", body content, d.endLine]
  String.join (lines.map (· ++ "\n"))

/-- A parameter as a template sees it. -/
def parameterValue (name : String) (value : Json.Value) : Json.Value :=
  .object [("name", .string name), ("value", .string value.compact)]

/-- The pieces of a block by the names under which a template finds them. -/
def pieces (d : Delimiters) (i : Identity) (content : String) : Json.Members :=
  [("start", .string d.startLine), ("end", .string d.endLine),
    ("open", .string d.comment.opening), ("close", .string d.comment.closing),
    ("template", .string i.unit.template), ("version", .string i.unit.version),
    ("partial", .string i.unit.part),
    ("parameters", .array (i.parameters.map fun (name, value) => parameterValue name value)),
    ("content", .string (body content))]

/-- The block for content, which always ends its last line. -/
def make (d : Delimiters) (i : Identity) (template? : Option String) (content : String)
    (render : Template.Renderer := Template.render) : Except Template.Fault String :=
  match template? with
  | none => .ok (usual d i content)
  | some template => (render template (pieces d i content)).map Text.closeLine

end Scaffold.Block
