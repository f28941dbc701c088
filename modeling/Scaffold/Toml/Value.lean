import Scaffold.Json.Value
import Scaffold.Toml.Datetime

/-!
# TOML values

A TOML value, and the passage to and from JSON. JSON has no date-times, so one is held
as an object with a single member of a reserved name. A float that is not finite becomes
null, which has no TOML form.
-/

namespace Scaffold.Toml

/-- A TOML value. The members of a table stand in order of first appearance. -/
inductive Value where
  | string (value : String)
  | integer (value : Int)
  | float (value : Double)
  | boolean (value : Bool)
  | datetime (value : Datetime)
  | array (items : List Value)
  | table (members : List (String × Value))
deriving Inhabited

/-- The members of a table. -/
abbrev Table := List (String × Value)

/-- Why a JSON value has no TOML form. -/
inductive BridgeError where
  | null
deriving DecidableEq, Inhabited

namespace Value

/-- The name of the member that holds a date-time in JSON. -/
def datetimeKey : String := "$__scf_toml_datetime"

mutual
/-- The JSON form of a value. -/
def toJson : Value → Json.Value
  | .string s => .string s
  | .integer i => .number (.integer i)
  | .float d => if d.isFinite then .number (.double d) else .null
  | .boolean b => .bool b
  | .datetime d => .object [(datetimeKey, .string d.text)]
  | .array items => .array (toJsonItems items)
  | .table members => .object (toJsonMembers members)

/-- The JSON forms of items. -/
def toJsonItems : List Value → List Json.Value
  | [] => []
  | item :: rest => toJson item :: toJsonItems rest

/-- The JSON forms of members. -/
def toJsonMembers : List (String × Value) → List (String × Json.Value)
  | [] => []
  | (name, value) :: rest => (name, toJson value) :: toJsonMembers rest
end

/-- The date-time that an object holds. -/
def heldDatetime? : Json.Members → Option Datetime
  | [(name, .string text)] => if name = datetimeKey then Datetime.parse? text.toList else none
  | _ => none

/-- The least and greatest integers of 64 bits with a sign. -/
def isSigned64 (i : Int) : Bool := -9223372036854775808 ≤ i && i ≤ 9223372036854775807

/-- The TOML form of a number. An integer beyond 64 bits with a sign becomes a float. -/
def ofNumber : Json.Number → Value
  | .integer i => if isSigned64 i then .integer i else .float (Double.ofInt i)
  | .double d => .float d

mutual
/-- The TOML form of a JSON value. -/
def ofJson : Json.Value → Except BridgeError Value
  | .null => .error .null
  | .bool b => .ok (.boolean b)
  | .number n => .ok (ofNumber n)
  | .string s => .ok (.string s)
  | .array items => do return .array (← ofJsonItems items)
  | .object members =>
    match heldDatetime? members with
    | some d => .ok (.datetime d)
    | none => do return .table (← ofJsonMembers members)

/-- The TOML forms of items. -/
def ofJsonItems : List Json.Value → Except BridgeError (List Value)
  | [] => .ok []
  | item :: rest => do return (← ofJson item) :: (← ofJsonItems rest)

/-- The TOML forms of members. -/
def ofJsonMembers : List (String × Json.Value) → Except BridgeError (List (String × Value))
  | [] => .ok []
  | (name, value) :: rest => do return (name, ← ofJson value) :: (← ofJsonMembers rest)
end

/-- The value is a table. -/
def isTable : Value → Bool
  | .table _ => true
  | _ => false

end Value
end Scaffold.Toml
