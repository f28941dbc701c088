import Scaffold.Json.Error
import Scaffold.Text.Bytes

/-!
# Reading JSON

A reader takes what it reads off the front of a text and returns what is left. The
readers of arrays and objects (`items`, `members`) take the reader of an item or of
a member's value as an argument, so the same grammar serves for values of any kind
(`value`) and for records whose fields are asked for by type. Nesting is bounded:
`value` recurses on the depth that is left.
-/

namespace Scaffold.Json

/-- Takes a value off the front of a text. -/
abbrev Reader (α : Type) := List Char → Except Error (α × List Char)

/-- The grammar is broken. -/
def fail {α : Type} (e : SyntaxError) : Except Error α := .error (.grammar e)

/-- White space between lexemes: space, tab, line feed and carriage return. -/
def isSpace (c : Char) : Bool := c == ' ' || c == '\t' || c == '\n' || c == '\r'

/-- The text behind leading white space. -/
def skipSpace (s : List Char) : List Char := s.dropWhile isSpace

/-! ### Words and strings -/

/-- What follows the rest of a literal word. -/
def word : List Char → List Char → Except Error (List Char)
  | [], s => .ok s
  | _ :: _, [] => fail .endInValue
  | c :: expected, d :: s => if c = d then word expected s else fail .expectedIdent

/-- The value of a hexadecimal digit. -/
def hexDigit? (c : Char) : Option Nat :=
  if '0' ≤ c && c ≤ '9' then some (c.toNat - '0'.toNat)
  else if 'a' ≤ c && c ≤ 'f' then some (c.toNat - 'a'.toNat + 10)
  else if 'A' ≤ c && c ≤ 'F' then some (c.toNat - 'A'.toNat + 10)
  else none

/-- The number that four hexadecimal digits spell. -/
def hexFour? (a b c d : Char) : Option Nat := do
  return (((← hexDigit? a) * 16 + (← hexDigit? b)) * 16 + (← hexDigit? c)) * 16 + (← hexDigit? d)

/-- Why four hexadecimal digits cannot be read off a text: it has too few bytes, or
they are not digits. -/
def hexFault (s : List Char) : SyntaxError :=
  if Text.width s < 4 then .endInString else .invalidEscape

/-- The character of an escape that is a single letter. -/
def escape? : Char → Option Char
  | '"' => some '"'
  | '\\' => some '\\'
  | '/' => some '/'
  | 'b' => some '\x08'
  | 'f' => some '\x0c'
  | 'n' => some '\n'
  | 'r' => some '\r'
  | 't' => some '\t'
  | _ => none

/-- A character that may not stand unescaped in a string. -/
def isControl (c : Char) : Bool := c.toNat < 0x20

/-- The leading half of a surrogate pair. -/
def isHighSurrogate (n : Nat) : Bool := 0xD800 ≤ n && n ≤ 0xDBFF

/-- The trailing half of a surrogate pair. -/
def isLowSurrogate (n : Nat) : Bool := 0xDC00 ≤ n && n ≤ 0xDFFF

/-- The character of a surrogate pair. -/
def pairChar (high low : Nat) : Char :=
  Char.ofNat ((high - 0xD800) * 0x400 + (low - 0xDC00) + 0x10000)

/-- The characters of a string behind its opening quote, and what follows the closing one. -/
def stringBody : List Char → Except Error (List Char × List Char)
  | [] => fail .endInString
  | '"' :: rest => .ok ([], rest)
  | '\\' :: 'u' :: a :: b :: c :: d :: rest =>
    match hexFour? a b c d with
    | none => fail (hexFault (a :: b :: c :: d :: rest))
    | some n =>
      if isLowSurrogate n then fail .loneSurrogate
      else if isHighSurrogate n then
        match rest with
        | '\\' :: 'u' :: e :: f :: g :: h :: rest' =>
          match hexFour? e f g h with
          | none => fail (hexFault (e :: f :: g :: h :: rest'))
          | some low =>
            if isLowSurrogate low then do
              let (text, after) ← stringBody rest'
              return (pairChar n low :: text, after)
            else fail .loneSurrogate
        | '\\' :: 'u' :: rest' => fail (hexFault rest')
        | [] | ['\\'] => fail .endInString
        | _ => fail .unexpectedEndOfHexEscape
      else do
        let (text, after) ← stringBody rest
        return (Char.ofNat n :: text, after)
  | '\\' :: 'u' :: rest => fail (hexFault rest)
  | ['\\'] => fail .endInString
  | '\\' :: c :: rest =>
    match escape? c with
    | none => fail .invalidEscape
    | some d => do
      let (text, after) ← stringBody rest
      return (d :: text, after)
  | c :: rest =>
    if isControl c then fail .controlCharacter
    else do
      let (text, after) ← stringBody rest
      return (c :: text, after)

/-- A string behind its opening quote. -/
def string : Reader String := fun s => do
  let (text, rest) ← stringBody s
  return (String.ofList text, rest)

/-! ### Numbers -/

/-- The value of a decimal digit. -/
def digitValue (c : Char) : Nat := c.toNat - '0'.toNat

/-- The greatest integer that a significand holds. -/
def maxSignificand : Nat := 18446744073709551615

/-- The leading digits of a run that fit the significand, which is `acc` so far; the
number of digits taken; and what follows them. -/
def takeDigits : Nat → List Char → Nat × Nat × List Char
  | acc, [] => (acc, 0, [])
  | acc, c :: rest =>
    if c.isDigit then
      let next := acc * 10 + digitValue c
      if maxSignificand < next then (acc, 0, c :: rest)
      else
        let (significand, count, after) := takeDigits next rest
        (significand, count + 1, after)
    else (acc, 0, c :: rest)

/-- The powers of ten that have a double. -/
def greatestPower : Nat := 308

/-- `10 ^ e` as a double. -/
def powerOfTen (e : Nat) : Double := .ofDecimal false 1 e

/-- A double divided by `10 ^ 308` as long as the exponent asks for more, then by the rest
of the power. A zero stays, so four divisions are enough. -/
def divideByPower : Nat → Double → Nat → Double
  | 0, f, _ => f
  | rounds + 1, f, e =>
    if e ≤ greatestPower then f.div (powerOfTen e)
    else if f.isZero then f
    else divideByPower rounds (f.div (powerOfTen greatestPower)) (e - greatestPower)

/-- A significand scaled by a power of ten. Each scaling rounds, so the result can differ
from the nearest double. -/
def scaled (negative : Bool) (significand : Nat) (exponent : Int) : Except Error Double :=
  let f := Double.ofInt significand
  let signed (d : Double) : Double := if negative then d.neg else d
  match exponent with
  | .ofNat e =>
    if e ≤ greatestPower then
      let d := f.mul (powerOfTen e)
      if d.isInfinite then fail .numberOutOfRange else .ok (signed d)
    else if f.isZero then .ok (signed f)
    else fail .numberOutOfRange
  | .negSucc e => .ok (signed (divideByPower 8 f (e + 1)))

/-- The greatest exponent that is counted. -/
def maxExponent : Nat := 2147483647

/-- The number that the digits of an exponent spell. -/
def exponentValue (digits : List Char) : Nat :=
  digits.foldl (fun n c => n * 10 + digitValue c) 0

/-- A number behind the mark of its exponent. -/
def exponentPart (negative : Bool) (significand : Nat) (start : Int) (s : List Char) :
    Except Error (Number × List Char) := do
  let (down, s) := match s with
    | '+' :: rest => (false, rest)
    | '-' :: rest => (true, rest)
    | _ => (false, s)
  match s with
  | [] => fail .endInValue
  | c :: _ =>
    if !c.isDigit then fail .invalidNumber
    else
      let digits := s.takeWhile Char.isDigit
      let rest := s.dropWhile Char.isDigit
      let e := exponentValue digits
      if maxExponent < e then
        if significand != 0 && !down then fail .numberOutOfRange
        else return (.double (.ofMagnitude negative 0), rest)
      else
        let d ← scaled negative significand (if down then start - e else start + e)
        return (.double d, rest)

/-- What may follow the digits of a number: an exponent, or the end of the number. -/
def afterDigits (negative : Bool) (significand : Nat) (exponent : Int) (s : List Char) :
    Except Error (Number × List Char) :=
  match s with
  | 'e' :: rest | 'E' :: rest => exponentPart negative significand exponent rest
  | _ => do return (.double (← scaled negative significand exponent), s)

/-- A number behind its decimal point. Digits that no longer fit the significand are dropped. -/
def fractionPart (negative : Bool) (significand : Nat) (start : Int) (s : List Char) :
    Except Error (Number × List Char) :=
  let (m, count, rest) := takeDigits significand s
  match rest with
  | c :: _ =>
    if c.isDigit then afterDigits negative m (start - count) (rest.dropWhile Char.isDigit)
    else if count = 0 then fail .invalidNumber
    else afterDigits negative m (start - count) rest
  | [] =>
    if count = 0 then fail .endInValue else afterDigits negative m (start - count) []

/-- The number whose integer part is read and fits the significand. -/
def afterInteger (negative : Bool) (significand : Nat) (s : List Char) :
    Except Error (Number × List Char) :=
  match s with
  | '.' :: rest => fractionPart negative significand 0 rest
  | 'e' :: rest | 'E' :: rest => exponentPart negative significand 0 rest
  | _ =>
    if !negative then .ok (.integer significand, s)
    else if significand = 0 || 9223372036854775808 < significand then
      .ok (.double (Double.ofInt significand).neg, s)
    else .ok (.integer (-significand), s)

/-- A number behind its sign. An integer that does not fit the significand becomes a
double, and each digit dropped counts in the exponent. -/
def unsignedNumber (negative : Bool) : List Char → Except Error (Number × List Char)
  | [] => fail .endInValue
  | '0' :: rest =>
    match rest with
    | c :: _ => if c.isDigit then fail .invalidNumber else afterInteger negative 0 rest
    | [] => afterInteger negative 0 []
  | c :: rest =>
    if !c.isDigit then fail .invalidNumber
    else
      let (m, _, after) := takeDigits 0 (c :: rest)
      let dropped := after.takeWhile Char.isDigit
      if dropped.isEmpty then afterInteger negative m after
      else
        let after := after.dropWhile Char.isDigit
        match after with
        | '.' :: rest => fractionPart negative m dropped.length rest
        | _ => afterDigits negative m dropped.length after

/-! ### Containers -/

/-- The items of an array behind its opening bracket or behind an item. -/
def moreItems {α : Type} (item : Reader α) : Nat → Reader (List α)
  | 0, _ => fail .endInArray
  | fuel + 1, s =>
    match skipSpace s with
    | [] => fail .endInArray
    | ']' :: rest => .ok ([], rest)
    | ',' :: rest =>
      match skipSpace rest with
      | [] => fail .endInValue
      | ']' :: _ => fail .trailingComma
      | rest => do
        let (a, rest) ← item rest
        let (as, rest) ← moreItems item fuel rest
        return (a :: as, rest)
    | _ => fail .expectedCommaOrBracket

/-- The items of an array behind its opening bracket. -/
def items {α : Type} (item : Reader α) : Reader (List α) := fun s =>
  match skipSpace s with
  | [] => fail .endInArray
  | ']' :: rest => .ok ([], rest)
  | s => do
    let (a, rest) ← item s
    let (as, rest) ← moreItems item rest.length rest
    return (a :: as, rest)

/-- What follows the colon between a name and its value. -/
def colon (s : List Char) : Except Error (List Char) :=
  match skipSpace s with
  | [] => fail .endInObject
  | ':' :: rest => .ok rest
  | _ => fail .expectedColon

/-- What a reader reads behind a colon. -/
def behindColon {α : Type} (reader : Reader α) : Reader α := fun s => do reader (← colon s)

/-- A member behind the opening quote of its name. The reader of what follows the name may
depend on the name and on what was read before. -/
def member {σ : Type} (field : String → σ → Reader σ) (state : σ) : Reader σ := fun s => do
  let (name, rest) ← string s
  field name state rest

/-- The members of an object behind a member. -/
def moreMembers {σ : Type} (field : String → σ → Reader σ) : Nat → σ → Reader σ
  | 0, _, _ => fail .endInObject
  | fuel + 1, state, s =>
    match skipSpace s with
    | [] => fail .endInObject
    | '}' :: rest => .ok (state, rest)
    | ',' :: rest =>
      match skipSpace rest with
      | [] => fail .endInValue
      | '"' :: rest => do
        let (state, rest) ← member field state rest
        moreMembers field fuel state rest
      | '}' :: _ => fail .trailingComma
      | _ => fail .keyNotString
    | _ => fail .expectedCommaOrBrace

/-- The members of an object behind its opening brace, folded into a state. -/
def members {σ : Type} (field : String → σ → Reader σ) (start : σ) : Reader σ := fun s =>
  match skipSpace s with
  | [] => fail .endInObject
  | '}' :: rest => .ok (start, rest)
  | '"' :: rest => do
    let (state, rest) ← member field start rest
    moreMembers field rest.length state rest
  | _ => fail .keyNotString

/-! ### Values -/

/-- A value, nested less than `depth` levels deep. -/
def valueWithin : Nat → Reader Value
  | depth, s =>
    match skipSpace s with
    | [] => fail .endInValue
    | 'n' :: rest => do return (.null, ← word ['u', 'l', 'l'] rest)
    | 't' :: rest => do return (.bool true, ← word ['r', 'u', 'e'] rest)
    | 'f' :: rest => do return (.bool false, ← word ['a', 'l', 's', 'e'] rest)
    | '"' :: rest => do
      let (text, rest) ← string rest
      return (.string text, rest)
    | '-' :: rest => do
      let (n, rest) ← unsignedNumber true rest
      return (.number n, rest)
    | '[' :: rest =>
      match depth with
      | 0 => fail .recursionLimit
      | depth + 1 => do
        let (vs, rest) ← items (valueWithin depth) rest
        return (.array vs, rest)
    | '{' :: rest =>
      match depth with
      | 0 => fail .recursionLimit
      | depth + 1 => do
        let (ms, rest) ← members (fun name (acc : Members) s => do
          let (v, rest) ← valueWithin depth (← colon s)
          return (acc.insert name v, rest)) [] rest
        return (.object ms, rest)
    | c :: rest =>
      if c.isDigit then do
        let (n, rest) ← unsignedNumber false (c :: rest)
        return (.number n, rest)
      else fail .expectedValue

/-- The number of levels that may be nested. -/
def maxDepth : Nat := 127

/-- A value of any kind. -/
def value : Reader Value := valueWithin maxDepth

/-- A whole text that a reader reads, with white space around it. -/
def document {α : Type} (reader : Reader α) (s : List Char) : Except Error α := do
  let (a, rest) ← reader s
  if (skipSpace rest).isEmpty then return a else fail .trailingCharacters

/-- The value that a text spells. -/
def parse (s : String) : Except Error Value := document value s.toList

end Scaffold.Json
