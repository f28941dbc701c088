import Scaffold.Text.Blank
import Scaffold.Text.Split

/-!
# Strategies

How fresh content is combined with a file that holds nothing of the unit yet
(`AppendStrategy`), and how the arrays of structured documents are merged
(`ArrayStrategy`).
-/

namespace Scaffold

/-- How fresh content is combined with a file that holds no block of the unit. -/
inductive AppendStrategy where
  /-- Behind the content of the file, which is created if it is missing. -/
  | append
  /-- Behind the content of the file; nothing is done if it is missing. -/
  | appendIfExists
  /-- In place of the content of the file. -/
  | replace
  /-- Only into a file that is missing or blank. -/
  | ignore
deriving DecidableEq, Inhabited

namespace AppendStrategy

/-- The strategy's name. -/
def name : AppendStrategy → String
  | .append => "append"
  | .appendIfExists => "appendIfExists"
  | .replace => "replace"
  | .ignore => "ignore"

/-- Every strategy. -/
def all : List AppendStrategy := [.append, .appendIfExists, .replace, .ignore]

end AppendStrategy

/-- How two arrays are merged. -/
inductive ArrayStrategy where
  /-- Item by item, by position. -/
  | combine
  /-- The target's items and then the source's. -/
  | concat
  /-- The source's items only. -/
  | replace
  /-- The target's items, if there are any. -/
  | ignore
  /-- Item by item, by the value of a field. -/
  | key (field : String)
deriving DecidableEq, Inhabited

namespace ArrayStrategy

/-- The written form of a strategy. -/
def text : ArrayStrategy → String
  | .combine => "combine"
  | .concat => "concat"
  | .replace => "replace"
  | .ignore => "ignore"
  | .key field => "key<" ++ field ++ ">"

/-- What is said of a text that is no strategy. -/
def refusal (s : String) : String :=
  "unknown array append strategy `" ++ s ++
    "` (expected combine, concat, replace, ignore or key<name>)"

/-- The field of `key<field>`. -/
def field? (s : List Char) : Option (List Char) := do
  let rest ← Text.stripStart? ['k', 'e', 'y', '<'] s
  let field ← Text.stripEnd? ['>'] rest
  let field := Text.trim field
  if field.isEmpty then none else some field

/-- The strategy that a text is the written form of, blanks around it and around the name
of a field aside. -/
def parse (s : String) : Except String ArrayStrategy :=
  match Text.trimmed s with
  | "combine" => .ok .combine
  | "concat" => .ok .concat
  | "replace" => .ok .replace
  | "ignore" => .ok .ignore
  | other =>
    match field? other.toList with
    | some field => .ok (.key (String.ofList field))
    | none => .error (refusal other)

end ArrayStrategy
end Scaffold
