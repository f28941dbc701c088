import Scaffold.Json.Value
import Scaffold.Text.Split

/-!
# What plain scalars mean

A plain scalar is null, a truth value, a number or a text, judged by its spelling. A
run of digits that begins with a zero is a text, and a number that is written with
digits but fits no 64 bits has no meaning.
-/

namespace Scaffold.Yaml.Plain

/-- What a plain scalar means. -/
inductive Meaning where
  | null
  | bool (value : Bool)
  | integer (value : Int)
  | double (value : Double)
  /-- An integer that is too large. -/
  | huge
  /-- An infinity or what is no number. -/
  | special
  | text
deriving Inhabited

/-- The value of a digit in a base up to sixteen. -/
def digit? (base : Nat) (c : Char) : Option Nat :=
  let n :=
    if c.isDigit then c.toNat - '0'.toNat
    else if 'a' ≤ c && c ≤ 'f' then c.toNat - 'a'.toNat + 10
    else if 'A' ≤ c && c ≤ 'F' then c.toNat - 'A'.toNat + 10
    else base
  if n < base then some n else none

/-- The number that a run of digits spells; it is not empty. -/
def digits? (base : Nat) (s : List Char) : Option Nat :=
  if s.isEmpty then none
  else s.foldl (fun acc c => do return (← acc) * base + (← digit? base c)) (some 0)

/-- The text without a sign at its front. -/
def withoutSign : List Char → List Char
  | '+' :: rest | '-' :: rest => rest
  | s => s

/-- The text without a plus at its front. -/
def withoutPlus : List Char → List Char
  | '+' :: rest => rest
  | s => s

/-- More than one digit, of which the first is a zero. -/
def isPadded (s : List Char) : Bool :=
  match withoutSign s with
  | '0' :: c :: rest => (c :: rest).all Char.isDigit
  | _ => false

/-- The base that a mark stands for, and the digits behind it. -/
def based? : List Char → Option (Nat × List Char)
  | '0' :: 'x' :: rest => some (16, rest)
  | '0' :: 'o' :: rest => some (8, rest)
  | '0' :: 'b' :: rest => some (2, rest)
  | _ => none

/-- The absolute value of an integer without a sign. -/
def magnitude? (s : List Char) : Option Nat :=
  match based? s with
  | some (base, digits) => digits? base digits
  | none => if isPadded s then none else digits? 10 s

/-- The integer that a text spells. -/
def integer? : List Char → Option Int
  | '-' :: rest => (magnitude? rest).map fun n => -(n : Int)
  | '+' :: rest => (magnitude? rest).map Int.ofNat
  | s => (magnitude? s).map Int.ofNat

/-- A decimal with digits before or behind its point: the digits as one number, and the
number of places. -/
def decimal? (s : List Char) : Option (Nat × Nat) :=
  let whole := s.takeWhile Char.isDigit
  match s.dropWhile Char.isDigit with
  | [] => (digits? 10 whole).map (·, 0)
  | '.' :: places =>
    if places.all Char.isDigit then (digits? 10 (whole ++ places)).map (·, places.length) else none
  | _ => none

/-- The power of ten behind the mark of an exponent. -/
def exponent? : List Char → Option Int
  | '-' :: rest => (digits? 10 rest).map fun n => -(n : Int)
  | s => (digits? 10 (withoutPlus s)).map Int.ofNat

/-- The double that a text without a sign spells. -/
def unsignedDouble? (negative : Bool) (s : List Char) : Option Double := do
  let mantissa := s.takeWhile fun c => c != 'e' && c != 'E'
  let (digits, places) ← decimal? mantissa
  let e ← match s.drop mantissa.length with
    | [] => some 0
    | _ :: rest => exponent? rest
  let e := e - places
  -- Beyond these bounds a double is zero or infinite, whatever its digits are.
  let bound : Int := 400 + s.length
  return .ofDecimal negative digits (max (-bound) (min bound e))

/-- The finite double that a text spells. -/
def double? (s : List Char) : Option Double := do
  let d ← match s with
    | '-' :: rest => unsignedDouble? true rest
    | s => unsignedDouble? false (withoutPlus s)
  if d.isFinite then some d else none

/-- The spellings of infinities and of what is no number. -/
def isSpecial (s : List Char) : Bool :=
  let infinities : List String := [".inf", ".Inf", ".INF"]
  let spelled := String.ofList s
  infinities.contains (String.ofList (withoutSign s)) || [".nan", ".NaN", ".NAN"].contains spelled

/-- The greatest integer of 64 bits. -/
def maxInteger : Int := 18446744073709551615

/-- The least integer of 64 bits. -/
def minInteger : Int := -9223372036854775808

/-- The bounds of integers of 128 bits, beyond which digits spell a double. -/
def isEnormous (i : Int) : Bool := Int.pow 2 128 ≤ i || i < -Int.pow 2 127

/-- What a plain scalar means. -/
def meaning (s : List Char) : Meaning :=
  match String.ofList s with
  | "" | "~" | "null" | "Null" | "NULL" => .null
  | "true" | "True" | "TRUE" => .bool true
  | "false" | "False" | "FALSE" => .bool false
  | _ =>
    let double : Meaning :=
      if isPadded s then .text
      else if isSpecial s then .special
      else match double? s with
        | some d => .double d
        | none => .text
    match integer? s with
    | some i =>
      if minInteger ≤ i && i ≤ maxInteger then .integer i
      else if isEnormous i then double
      else .huge
    | none => double

end Scaffold.Yaml.Plain
