import Scaffold.Json.Reader

/-!
# Reading records

A record is read from an object whose members are its fields, or from an array that gives
the fields in order. Every field is read as the kind of value it is asked for. A field may
not be given twice, a required field may not be left out, and members of other names are
passed over without a look at what they hold.
-/

namespace Scaffold.Json

/-! ### Values of one kind -/

/-- The value is of another kind. -/
def wrongType {α : Type} (found : Found) (wanted : String) : Except Error α :=
  .error (.type (.invalidType found wanted))

/-- The text does not begin with the value asked for: it begins with another one, or with
none. Of an array or an object only the bracket is looked at. -/
def mismatch {α : Type} (wanted : String) : Reader α := fun s =>
  match skipSpace s with
  | [] => fail .endInValue
  | 'n' :: rest => do
    let _ ← word ['u', 'l', 'l'] rest
    wrongType .null wanted
  | 't' :: rest => do
    let _ ← word ['r', 'u', 'e'] rest
    wrongType (.bool true) wanted
  | 'f' :: rest => do
    let _ ← word ['a', 'l', 's', 'e'] rest
    wrongType (.bool false) wanted
  | '"' :: rest => do
    let (text, _) ← string rest
    wrongType (.string text) wanted
  | '-' :: rest => do
    let (n, _) ← unsignedNumber true rest
    wrongType (.number n) wanted
  | '[' :: _ => wrongType .sequence wanted
  | '{' :: _ => wrongType .map wanted
  | c :: rest =>
    if c.isDigit then do
      let (n, _) ← unsignedNumber false (c :: rest)
      wrongType (.number n) wanted
    else fail .expectedValue

/-- A string. -/
def text : Reader String := fun s =>
  match skipSpace s with
  | '"' :: rest => string rest
  | s => mismatch "a string" s

/-- A value or `null`. -/
def optional {α : Type} (reader : Reader α) : Reader (Option α) := fun s =>
  match skipSpace s with
  | 'n' :: rest => do return (none, ← word ['u', 'l', 'l'] rest)
  | s => do
    let (a, rest) ← reader s
    return (some a, rest)

/-- An array. -/
def list {α : Type} (item : Reader α) : Reader (List α) := fun s =>
  match skipSpace s with
  | '[' :: rest => items item rest
  | s => mismatch "a sequence" s

/-- An object whose values nest less than `depth` levels deep. -/
def objectWithin (depth : Nat) : Reader Members := fun s =>
  match skipSpace s with
  | '{' :: rest =>
    members (fun name (acc : Members) s => do
      let (v, rest) ← valueWithin depth (← colon s)
      return (acc.insert name v, rest)) [] rest
  | s => mismatch "a map" s

/-! ### Passing over -/

/-- What follows the digits of an exponent. -/
def passExponent (s : List Char) : Except Error (List Char) :=
  let s := match s with
    | '+' :: rest | '-' :: rest => rest
    | s => s
  match s with
  | c :: rest => if c.isDigit then .ok (rest.dropWhile Char.isDigit) else fail .invalidNumber
  | [] => fail .invalidNumber

/-- What follows the exponent of a number, if it has one. -/
def passExponent? (s : List Char) : Except Error (List Char) :=
  match s with
  | 'e' :: rest | 'E' :: rest => passExponent rest
  | s => .ok s

/-- What follows a number behind its integer part. -/
def passFraction (s : List Char) : Except Error (List Char) :=
  match s with
  | '.' :: c :: rest =>
    if c.isDigit then passExponent? (rest.dropWhile Char.isDigit) else fail .invalidNumber
  | ['.'] => fail .invalidNumber
  | s => passExponent? s

/-- What follows a number behind its sign. -/
def passNumber (s : List Char) : Except Error (List Char) :=
  match s with
  | '0' :: c :: rest => if c.isDigit then fail .invalidNumber else passFraction (c :: rest)
  | c :: rest =>
    if c.isDigit then passFraction (rest.dropWhile Char.isDigit) else fail .invalidNumber
  | [] => fail .invalidNumber

/-- What follows the closing quote of a string. The values of escapes do not matter. -/
def passString : List Char → Except Error (List Char)
  | [] => fail .endInString
  | '"' :: rest => .ok rest
  | '\\' :: 'u' :: a :: b :: c :: d :: rest =>
    if (hexFour? a b c d).isSome then passString rest
    else fail (hexFault (a :: b :: c :: d :: rest))
  | '\\' :: 'u' :: rest => fail (hexFault rest)
  | ['\\'] => fail .endInString
  | '\\' :: c :: rest => if (escape? c).isSome then passString rest else fail .invalidEscape
  | c :: rest => if isControl c then fail .controlCharacter else passString rest

/-- The bracket that was opened last. -/
inductive Bracket where
  | array
  | object
deriving DecidableEq, Inhabited

/-- What follows the name of a member and its colon. -/
def passName (s : List Char) : Except Error (List Char) :=
  match skipSpace s with
  | '"' :: rest => do colon (← passString rest)
  | [] => fail .endInObject
  | _ => fail .keyNotString

mutual
/-- What follows a value, with brackets open around it. -/
def passValue : Nat → List Bracket → List Char → Except Error (List Char)
  | 0, _, _ => fail .endInValue
  | fuel + 1, opened, s =>
    match skipSpace s with
    | [] => fail .endInValue
    | 'n' :: rest => do passBehind fuel opened (← word ['u', 'l', 'l'] rest)
    | 't' :: rest => do passBehind fuel opened (← word ['r', 'u', 'e'] rest)
    | 'f' :: rest => do passBehind fuel opened (← word ['a', 'l', 's', 'e'] rest)
    | '"' :: rest => do passBehind fuel opened (← passString rest)
    | '-' :: rest => do passBehind fuel opened (← passNumber rest)
    | '[' :: rest =>
      match skipSpace rest with
      | [] => fail .endInArray
      | ']' :: rest => passBehind fuel opened rest
      | rest => passValue fuel (.array :: opened) rest
    | '{' :: rest =>
      match skipSpace rest with
      | [] => fail .endInObject
      | '}' :: rest => passBehind fuel opened rest
      | rest => do passValue fuel (.object :: opened) (← passName rest)
    | c :: rest =>
      if c.isDigit then do passBehind fuel opened (← passNumber (c :: rest))
      else fail .expectedValue

/-- What follows the value that the open brackets belong to, behind a value in them. -/
def passBehind : Nat → List Bracket → List Char → Except Error (List Char)
  | 0, _, _ => fail .endInValue
  | _ + 1, [], s => .ok s
  | fuel + 1, .array :: opened, s =>
    match skipSpace s with
    | [] => fail .endInArray
    | ',' :: rest => passValue fuel (.array :: opened) rest
    | ']' :: rest => passBehind fuel opened rest
    | _ => fail .expectedCommaOrBracket
  | fuel + 1, .object :: opened, s =>
    match skipSpace s with
    | [] => fail .endInObject
    | ',' :: rest => do passValue fuel (.object :: opened) (← passName rest)
    | '}' :: rest => passBehind fuel opened rest
    | _ => fail .expectedCommaOrBrace
end

/-- What follows a value of any kind. Every step takes at least one character, or ends. -/
def pass (s : List Char) : Except Error (List Char) := passValue (2 * s.length + 2) [] s

/-! ### Records -/

/-- A field of a record that is being read into `σ`. -/
structure Field (σ : Type) where
  name : String
  /-- An array may end before the field. -/
  mayMiss : Bool
  /-- The field has been read. -/
  isSet : σ → Bool
  read : σ → Reader σ

/-- A member of a record. -/
def recordMember {σ : Type} (fields : List (Field σ)) (name : String) (state : σ) : Reader σ :=
  fun s =>
    match fields.find? (·.name == name) with
    | none => do return (state, ← pass (← colon s))
    | some f =>
      if f.isSet state then .error (.type (.duplicateField name))
      else behindColon (f.read state) s

/-- Where the next item of an array begins, if there is one. -/
def nextItem (atStart : Bool) (s : List Char) : Except Error (Option (List Char)) :=
  match skipSpace s with
  | [] => fail .endInArray
  | ']' :: _ => .ok none
  | ',' :: rest =>
    if atStart then .ok (some (',' :: rest))
    else match skipSpace rest with
      | [] => fail .endInValue
      | ']' :: _ => fail .trailingComma
      | rest => .ok (some rest)
  | s => if atStart then .ok (some s) else fail .expectedCommaOrBracket

/-- What follows an array all of whose items have been read. -/
def endItems (s : List Char) : Except Error (List Char) :=
  match skipSpace s with
  | [] => fail .endInArray
  | ']' :: rest => .ok rest
  | ',' :: rest =>
    match skipSpace rest with
    | ']' :: _ => fail .trailingComma
    | _ => fail .trailingCharacters
  | _ => fail .trailingCharacters

/-- The fields of a record from the items of an array, of which `count` have been read. -/
def recordItems {σ : Type} (wanted : String) : (count : Nat) → List (Field σ) → σ → Reader σ
  | _, [], state, s => do return (state, ← endItems s)
  | count, f :: fields, state, s => do
    match ← nextItem (count == 0) s with
    | some s =>
      let (state, rest) ← f.read state s
      recordItems wanted (count + 1) fields state rest
    | none =>
      if f.mayMiss then recordItems wanted count fields state s
      else .error (.type (.invalidLength count wanted))

/-- The fields of a record. -/
def record {σ : Type} (name : String) (fields : List (Field σ)) (start : σ) : Reader σ := fun s =>
  let wanted := "struct " ++ name
  match skipSpace s with
  | '[' :: rest =>
    recordItems (wanted ++ " with " ++ toString fields.length ++ " elements") 0 fields start rest
  | '{' :: rest => members (recordMember fields) start rest
  | s => mismatch wanted s

/-- The value of a field that may not be left out. -/
def required {α : Type} (name : String) : Option α → Except Error α
  | some a => .ok a
  | none => .error (.type (.missingField name))

end Scaffold.Json
