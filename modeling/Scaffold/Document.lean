import Scaffold.Json.Printer
import Scaffold.Json.Reader
import Scaffold.Text.Blank
import Scaffold.Toml.Printer
import Scaffold.Toml.Reader
import Scaffold.Yaml.Document
import Scaffold.Yaml.Printer

/-!
# Structured documents

A document in one of three formats is read as a JSON value and written back from one. A
blank text is no document. What is written always ends its last line.
-/

namespace Scaffold

/-- A format of structured documents. -/
inductive DataFormat where
  | json
  | yaml
  | toml
deriving DecidableEq, Inhabited

/-- Why a text is no document, or a value has none. -/
inductive DocumentFault where
  | json (error : Json.Error)
  | yaml
  | toml
  | nullInToml
  | rootNotTable
deriving DecidableEq, Inhabited

namespace DocumentFault

/-- The format in question. -/
def format : DocumentFault → DataFormat
  | .json _ => .json
  | .yaml => .yaml
  | .toml | .nullInToml | .rootNotTable => .toml

/-- What more there is to say of the fault. -/
def reason? : DocumentFault → Option String
  | .json e => some e.message
  | .yaml | .toml => none
  | .nullInToml => some "TOML has no representation for null"
  | .rootNotTable => some "the top level of a TOML document must be a table"

end DocumentFault

namespace DataFormat

/-- The format's name. -/
def name : DataFormat → String
  | .json => "json"
  | .yaml => "yaml"
  | .toml => "toml"

/-- The format that goes by a name or a file extension. -/
def ofName? (s : String) : Option DataFormat :=
  match Text.lowerAscii s with
  | "json" => some .json
  | "yaml" | "yml" => some .yaml
  | "toml" => some .toml
  | _ => none

/-- The value of a document that is not blank. -/
def read (f : DataFormat) (text : String) : Except DocumentFault Json.Value :=
  match f with
  | .json => (Json.parse text).mapError .json
  | .yaml =>
    match Yaml.Document.parse? text with
    | some v => .ok v
    | none => .error .yaml
  | .toml =>
    match Toml.Reader.parse? text with
    | some t => .ok (Toml.Value.table t).toJson
    | none => .error .toml

/-- The value of a text, which a blank text does not have. -/
def parse (f : DataFormat) (text : String) : Except DocumentFault (Option Json.Value) :=
  if Text.isBlankText text then .ok none else (f.read text).map some

/-- The text of a TOML document. -/
def printToml (v : Json.Value) : Except DocumentFault String :=
  match Toml.Value.ofJson v with
  | .ok (.table t) => .ok (Toml.Printer.print t)
  | .ok _ => .error .rootNotTable
  | .error .null => .error .nullInToml

/-- The document of a value. -/
def print (f : DataFormat) (v : Json.Value) : Except DocumentFault String :=
  match f with
  | .json => .ok (Text.closeLine v.pretty)
  | .yaml => .ok (Text.closeLine (Yaml.Printer.print v))
  | .toml => (printToml v).map Text.closeLine

end DataFormat
end Scaffold
