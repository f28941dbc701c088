import Scaffold.Json.Reader
import Scaffold.Text.Blank
import Scaffold.Text.Split

/-!
# Named values on the command line

A value is given as `name=value`. It is read as JSON if it is JSON, and stands for itself as
a text otherwise.
-/

namespace Scaffold.CommandLine

/-- The value that a text gives. -/
def valueOf (s : String) : Json.Value :=
  match Json.parse s with
  | .ok v => v
  | .error _ => .string s

/-- The name and the value that an argument gives, or what is wrong with it. -/
def parseKeyValue (s : String) : Except String (String × Json.Value) :=
  match Text.splitFirst? '=' s.toList with
  | none => .error ("expected `name=value`, got `" ++ s ++ "`")
  | some (name, value) =>
    let name := Text.trim name
    if name.isEmpty then .error ("missing name in `" ++ s ++ "`")
    else .ok (String.ofList name, valueOf (String.ofList value))

end Scaffold.CommandLine
