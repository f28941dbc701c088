import Scaffold.Merge.Structured
import Scaffold.Registry

/-!
# Appenders

An appender merges fresh content into files of the formats that it accepts. Of the appenders
of a file the first one that accepts its format is taken. The text appender accepts every
format.
-/

namespace Scaffold

/-- A way of merging content into files. -/
structure Appender where
  name : String
  accepts : (format : String) → Bool
  append : MergeInput → Except Failure (Option String)

namespace Appender

/-- Merges text of any format. -/
def text (render : Template.Renderer := Template.render) : Appender :=
  ⟨"text", fun _ => true, fun input => Merge.text input render⟩

/-- Merges documents of one format. -/
def structured (f : DataFormat) : Appender :=
  ⟨f.name, fun format => DataFormat.ofName? format == some f, Merge.structured f⟩

/-- The appenders that are always there. -/
def builtin (render : Template.Renderer := Template.render) : Registry Appender :=
  .ofPairs [("json", structured .json), ("yaml", structured .yaml), ("toml", structured .toml),
    ("text", text render)]

/-- The appenders of these names. -/
def named (r : Registry Appender) (names : List String) : Except Failure (List Appender) :=
  (r.findAll names).mapError .unknownAppender

/-- The first appender that accepts a format. -/
def select (appenders : List Appender) (format : String) : Except Failure Appender :=
  match appenders.find? (·.accepts format) with
  | some a => .ok a
  | none => .error (.unsupportedFormat format)

end Appender
end Scaffold
