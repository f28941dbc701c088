import Scaffold.Comment
import Scaffold.Json.Error
import Scaffold.Naming
import Scaffold.Strategy

/-!
# Options

The options under which one file is generated. Options are layered: the members of
an object of overrides replace the options of the same names, and the result is
read back option by option (`Options.layer`). An override is taken whole, so a list is
replaced and never extended, and unknown names are passed over.
-/

namespace Scaffold

/-- The options for one file. -/
structure Options where
  /-- The marks of comments; without them the file's extension decides. -/
  commentSyntax : Option String
  startMarker : String
  endMarker : String
  /-- What introduces options inside a file. -/
  optionMarker : String
  /-- Generated content stands in a region with a header. -/
  annotate : Bool
  /-- The template of a region; without it the region has its usual shape. -/
  annotationTemplate : Option String
  appendStrategy : AppendStrategy
  arrayStrategy : ArrayStrategy
  /-- The stages that content passes through, in order. -/
  processors : List String
  /-- The appenders that may take the file, in order of preference. -/
  appenders : List String
  /-- The format of the file; without it the file's extension decides. -/
  format : Option String
  folderNaming : Convention
  fileNaming : Convention
deriving DecidableEq, Inhabited

namespace Options

/-- The options that hold when nothing else is said. -/
def default : Options where
  commentSyntax := none
  startMarker := "@scf-region"
  endMarker := "@scf-endregion"
  optionMarker := "@scf-option"
  annotate := true
  annotationTemplate := none
  appendStrategy := .append
  arrayStrategy := .combine
  processors := ["template"]
  appenders := ["json", "yaml", "toml", "text"]
  format := none
  folderNaming := .none
  fileNaming := .none

/-! ### Writing -/

/-- A text that may be missing. -/
def optional : Option String → Json.Value
  | none => .null
  | some s => .string s

/-- A list of texts. -/
def strings (ss : List String) : Json.Value := .array (ss.map .string)

/-- The options by their names. -/
def toMembers (o : Options) : Json.Members :=
  [("commentSyntax", optional o.commentSyntax),
    ("startRegionMarker", .string o.startMarker),
    ("endRegionMarker", .string o.endMarker),
    ("optionMarker", .string o.optionMarker),
    ("annotate", .bool o.annotate),
    ("annotationTemplate", optional o.annotationTemplate),
    ("appendStrategy", .string o.appendStrategy.name),
    ("arrayAppendStrategy", .string o.arrayStrategy.text),
    ("processors", strings o.processors),
    ("appenders", strings o.appenders),
    ("format", optional o.format),
    ("folderNaming", .string o.folderNaming.name),
    ("fileNaming", .string o.fileNaming.name)]

/-! ### Reading -/

/-- The outcome of reading a value as something else. -/
abbrev Decoded (α : Type) := Except Json.TypeError α

/-- The value is not what was wanted. -/
def mismatch {α : Type} (v : Json.Value) (wanted : String) : Decoded α :=
  .error (.invalidType v.found wanted)

/-- A text. -/
def decodeString : Json.Value → Decoded String
  | .string s => .ok s
  | v => mismatch v "a string"

/-- A text or nothing. -/
def decodeOptional : Json.Value → Decoded (Option String)
  | .null => .ok none
  | v => (decodeString v).map some

/-- A truth value. -/
def decodeBool : Json.Value → Decoded Bool
  | .bool b => .ok b
  | v => mismatch v "a boolean"

/-- A list of texts. -/
def decodeStrings : Json.Value → Decoded (List String)
  | .array items => items.mapM decodeString
  | v => mismatch v "a sequence"

/-- One of a list of named choices: its name, or an object whose only member has that
name and the value `null`. -/
def decodeChoice {α : Type} (choices : List α) (name : α → String) (v : Json.Value) : Decoded α :=
  let named (s : String) : Decoded α :=
    match choices.find? (name · == s) with
    | some a => .ok a
    | none => .error (.unknownVariant s (choices.map name))
  match v with
  | .string s => named s
  | .object [(s, inner)] => do
    let a ← named s
    if inner.isNull then return a else mismatch inner "unit"
  | .object _ => .error .notSingleKey
  | v => mismatch v "string or map"

/-- How content is combined with a file. -/
def decodeAppend (v : Json.Value) : Decoded AppendStrategy :=
  decodeChoice AppendStrategy.all AppendStrategy.name v

/-- How arrays are merged. -/
def decodeArrays (v : Json.Value) : Decoded ArrayStrategy := do
  let s ← decodeString v
  match ArrayStrategy.parse s with
  | .ok a => return a
  | .error text => throw (.custom text)

/-- How names are written. -/
def decodeConvention (v : Json.Value) : Decoded Convention :=
  decodeChoice Convention.all Convention.name v

/-- The member `name` read by `decode`, or `fallback` if there is none. -/
def field {α : Type} (members : Json.Members) (name : String) (decode : Json.Value → Decoded α)
    (fallback : α) : Decoded α :=
  match members.get? name with
  | some v => decode v
  | none => .ok fallback

/-- The options that an object gives by name; what it leaves out is as by default. Of
several options that cannot be read the first one in order is reported. -/
def ofMembers (ms : Json.Members) : Decoded Options := do
  let d := default
  let commentSyntax ← field ms "commentSyntax" decodeOptional d.commentSyntax
  let startMarker ← field ms "startRegionMarker" decodeString d.startMarker
  let endMarker ← field ms "endRegionMarker" decodeString d.endMarker
  let optionMarker ← field ms "optionMarker" decodeString d.optionMarker
  let annotate ← field ms "annotate" decodeBool d.annotate
  let annotationTemplate ← field ms "annotationTemplate" decodeOptional d.annotationTemplate
  let appendStrategy ← field ms "appendStrategy" decodeAppend d.appendStrategy
  let arrayStrategy ← field ms "arrayAppendStrategy" decodeArrays d.arrayStrategy
  let processors ← field ms "processors" decodeStrings d.processors
  let appenders ← field ms "appenders" decodeStrings d.appenders
  let format ← field ms "format" decodeOptional d.format
  let folderNaming ← field ms "folderNaming" decodeConvention d.folderNaming
  let fileNaming ← field ms "fileNaming" decodeConvention d.fileNaming
  return ⟨commentSyntax, startMarker, endMarker, optionMarker, annotate, annotationTemplate,
    appendStrategy, arrayStrategy, processors, appenders, format, folderNaming, fileNaming⟩

/-- The options with overrides on top. Without overrides nothing is read back. -/
def layer (o : Options) (overrides : Json.Members) : Decoded Options :=
  if overrides.isEmpty then .ok o else ofMembers (o.toMembers.insertAll overrides)

/-! ### What the options say of a file -/

/-- The comments of the file at a path. -/
def commentFor (o : Options) (path : Path) : Comment :=
  match o.commentSyntax with
  | some s => .parse s
  | none => .forPath path

/-- The format of the file at a path: the declared one, or else the extension, or else
`text`. -/
def formatFor (o : Options) (path : Path) : String :=
  match o.format with
  | some format => Text.lowerAscii (Text.trimmed format)
  | none =>
    match path.extension? with
    | some extension => Text.lowerAscii extension
    | none => "text"

end Options
end Scaffold
