import Scaffold.Json.Value

/-!
# Why a JSON text or value is refused

A text may break the grammar, and a value may be of another kind than the one asked
for. Each cause is a constructor, and `message` words it.
-/

namespace Scaffold.Json

/-- The text breaks the grammar. -/
inductive SyntaxError where
  | endInValue
  | endInArray
  | endInObject
  | endInString
  | expectedValue
  | expectedIdent
  | expectedColon
  | expectedCommaOrBracket
  | expectedCommaOrBrace
  | keyNotString
  | trailingComma
  | trailingCharacters
  | invalidNumber
  | numberOutOfRange
  | invalidEscape
  | controlCharacter
  | unexpectedEndOfHexEscape
  | loneSurrogate
  | recursionLimit
deriving DecidableEq, Inhabited

/-- The wording of a break of the grammar. -/
def SyntaxError.message : SyntaxError → String
  | .endInValue => "EOF while parsing a value"
  | .endInArray => "EOF while parsing a list"
  | .endInObject => "EOF while parsing an object"
  | .endInString => "EOF while parsing a string"
  | .expectedValue => "expected value"
  | .expectedIdent => "expected ident"
  | .expectedColon => "expected `:`"
  | .expectedCommaOrBracket => "expected `,` or `]`"
  | .expectedCommaOrBrace => "expected `,` or `\x7d`"
  | .keyNotString => "key must be a string"
  | .trailingComma => "trailing comma"
  | .trailingCharacters => "trailing characters"
  | .invalidNumber => "invalid number"
  | .numberOutOfRange => "number out of range"
  | .invalidEscape => "invalid escape"
  | .controlCharacter => "control character (\\u0000-\\u001F) found while parsing a string"
  | .unexpectedEndOfHexEscape => "unexpected end of hex escape"
  | .loneSurrogate => "lone leading surrogate in hex escape"
  | .recursionLimit => "recursion limit exceeded"

/-- What stands where something else is asked for. -/
inductive Found where
  | null
  | bool (value : Bool)
  | number (value : Number)
  | string (value : String)
  | sequence
  | map
deriving DecidableEq, Inhabited

/-- What a value is, in an error. -/
def Value.found : Value → Found
  | .null => .null
  | .bool b => .bool b
  | .number n => .number n
  | .string s => .string s
  | .array _ => .sequence
  | .object _ => .map

/-- A value is not the one asked for. -/
inductive TypeError where
  | invalidType (found : Found) (wanted : String)
  | notSingleKey
  | unknownVariant (name : String) (expected : List String)
  | missingField (name : String)
  | duplicateField (name : String)
  | invalidLength (length : Nat) (wanted : String)
  | custom (text : String)
deriving DecidableEq, Inhabited

/-- A text or value is refused. -/
inductive Error where
  | grammar (error : SyntaxError)
  | type (error : TypeError)
deriving DecidableEq, Inhabited

end Scaffold.Json
