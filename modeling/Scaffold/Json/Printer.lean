import Scaffold.Json.Error
import Scaffold.Text.Quoted

/-!
# Writing JSON

A value is written on one line without blanks (`Value.compact`) or over several lines
with two blanks for each level (`Value.pretty`). A string escapes the quote, the
backslash and the controls and writes every other character as it is.
-/

namespace Scaffold.Json

/-- Doubles are written positionally from `10⁻⁵` to below `10¹⁶`, and with a signed
exponent outside. -/
def doubleLayout : Double.Layout := ⟨-5, 15, true⟩

/-- The text of a number. -/
def Number.text : Number → String
  | .integer i => toString i
  | .double d => d.text doubleLayout

/-- A hexadecimal number of at least two digits. -/
def hexByte (n : Nat) : List Char :=
  match Nat.toDigits 16 n with
  | [c] => ['0', c]
  | cs => cs

/-- A character of a string. -/
def escaped (c : Char) : List Char :=
  match c with
  | '"' => ['\\', '"']
  | '\\' => ['\\', '\\']
  | '\x08' => ['\\', 'b']
  | '\x0c' => ['\\', 'f']
  | '\n' => ['\\', 'n']
  | '\r' => ['\\', 'r']
  | '\t' => ['\\', 't']
  | c => if c.toNat < 0x20 then ['\\', 'u', '0', '0'] ++ hexByte c.toNat else [c]

/-- A string in its quotes. -/
def stringText (s : String) : String :=
  String.ofList ('"' :: s.toList.flatMap escaped ++ ['"'])

/-- The texts one after the other with commas between them. -/
def commaSeparated (texts : List String) : String := String.intercalate "," texts

mutual
/-- A value on one line. -/
def Value.compact : Value → String
  | .null => "null"
  | .bool b => if b then "true" else "false"
  | .number n => n.text
  | .string s => stringText s
  | .array items => "[" ++ commaSeparated (compactItems items) ++ "]"
  | .object members => "\x7b" ++ commaSeparated (compactMembers members) ++ "\x7d"

/-- The items of an array on one line. -/
def compactItems : List Value → List String
  | [] => []
  | item :: rest => item.compact :: compactItems rest

/-- The members of an object on one line. -/
def compactMembers : List (String × Value) → List String
  | [] => []
  | (name, value) :: rest =>
    (stringText name ++ ":" ++ value.compact) :: compactMembers rest
end

/-- The blanks before a line at a level. -/
def indent (level : Nat) : String := String.ofList (List.replicate (2 * level) ' ')

/-- Texts on lines of their own one level deeper, between two brackets. -/
def block (level : Nat) (opener closer : String) (texts : List String) : String :=
  if texts.isEmpty then opener ++ closer
  else
    let lines := texts.map (indent (level + 1) ++ ·)
    opener ++ "\n" ++ String.intercalate ",\n" lines ++ "\n" ++ indent level ++ closer

mutual
/-- A value over several lines, of which the first is already indented. -/
def prettyAt (level : Nat) : Value → String
  | .array items => block level "[" "]" (prettyItems (level + 1) items)
  | .object members => block level "\x7b" "\x7d" (prettyMembers (level + 1) members)
  | .null => "null"
  | .bool b => if b then "true" else "false"
  | .number n => n.text
  | .string s => stringText s

/-- The items of an array over several lines. -/
def prettyItems (level : Nat) : List Value → List String
  | [] => []
  | item :: rest => prettyAt level item :: prettyItems level rest

/-- The members of an object over several lines. -/
def prettyMembers (level : Nat) : List (String × Value) → List String
  | [] => []
  | (name, value) :: rest =>
    (stringText name ++ ": " ++ prettyAt level value) :: prettyMembers level rest
end

/-- A value over several lines. -/
def Value.pretty (v : Value) : String := prettyAt 0 v

/-! ### Errors -/

/-- What a value is, in words. -/
def Found.text : Found → String
  | .null => "null"
  | .bool b => "boolean `" ++ (if b then "true" else "false") ++ "`"
  | .number (.integer i) => "integer `" ++ toString i ++ "`"
  | .number (.double d) => "floating point `" ++ d.text doubleLayout ++ "`"
  | .string s => "string " ++ Text.quoted s
  | .sequence => "sequence"
  | .map => "map"

/-- The names that would have been accepted. -/
def expectedNames (names : List String) : String :=
  match names.map fun n => "`" ++ n ++ "`" with
  | [] => "there are no variants"
  | [a] => "expected " ++ a
  | [a, b] => "expected " ++ a ++ " or " ++ b
  | names => "expected one of " ++ String.intercalate ", " names

/-- The wording of a mismatch of kinds. -/
def TypeError.message : TypeError → String
  | .invalidType found wanted => "invalid type: " ++ found.text ++ ", expected " ++ wanted
  | .notSingleKey => "invalid value: map, expected map with a single key"
  | .unknownVariant name expected =>
    "unknown variant `" ++ name ++ "`, " ++ expectedNames expected
  | .missingField name => "missing field `" ++ name ++ "`"
  | .duplicateField name => "duplicate field `" ++ name ++ "`"
  | .invalidLength length wanted => "invalid length " ++ toString length ++ ", expected " ++ wanted
  | .custom text => text

/-- The wording of a refusal. -/
def Error.message : Error → String
  | .grammar e => e.message
  | .type e => e.message

end Scaffold.Json
