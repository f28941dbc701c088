import Scaffold.Toml.Value

/-!
# Lexemes of TOML

White space, comments, strings, keys and the scalars that are written without quotes.
Every reader takes its lexeme off the front of a text and returns what is left.
-/

namespace Scaffold.Toml.Lexeme

/-- Space or tab. -/
def isBlank (c : Char) : Bool := c == ' ' || c == '\t'

/-- The text behind leading blanks. -/
def skipBlanks (s : List Char) : List Char := s.dropWhile isBlank

/-- A control character other than tab. -/
def isControl (c : Char) : Bool := (c.toNat < 0x20 && c != '\t') || c.toNat == 0x7F

/-- What follows a line end at the front. -/
def lineEnd? : List Char → Option (List Char)
  | '\n' :: rest => some rest
  | '\r' :: '\n' :: rest => some rest
  | _ => none

/-- The text behind a comment at the front. A comment has no control characters. -/
def skipComment (s : List Char) : Option (List Char) :=
  match s with
  | '#' :: rest =>
    let body := rest.takeWhile fun c => c != '\n' && c != '\r'
    if body.any isControl then none else some (rest.drop body.length)
  | _ => some s

/-- The text behind blanks, a comment, and the end of the line or of the text. -/
def endLine? (s : List Char) : Option (List Char) := do
  match ← skipComment (skipBlanks s) with
  | [] => some []
  | rest => lineEnd? rest

/-- The text behind blanks, comments and line ends. -/
def skipGap : Nat → List Char → Option (List Char)
  | 0, _ => none
  | fuel + 1, s => do
    let rest ← skipComment (skipBlanks s)
    match lineEnd? rest with
    | some rest => skipGap fuel rest
    | none => return rest

/-- The text behind blanks, comments and line ends. -/
def gap (s : List Char) : Option (List Char) := skipGap (s.length + 1) s

/-! ### Strings -/

/-- The value of a hexadecimal digit. -/
def hexDigit? (c : Char) : Option Nat :=
  if c.isDigit then some (c.toNat - '0'.toNat)
  else if 'a' ≤ c && c ≤ 'f' then some (c.toNat - 'a'.toNat + 10)
  else if 'A' ≤ c && c ≤ 'F' then some (c.toNat - 'A'.toNat + 10)
  else none

/-- The number of a run of hexadecimal digits. -/
def hex? (s : List Char) : Option Nat :=
  s.foldl (fun acc c => do return (← acc) * 16 + (← hexDigit? c)) (some 0)

/-- The character with this number. -/
def charOfCode? (n : Nat) : Option Char :=
  if h : n.isValidChar then some (Char.ofNatAux n h) else none

/-- The characters of escapes with one letter. -/
def escape? : Char → Option Char
  | 'b' => some '\x08'
  | 't' => some '\t'
  | 'n' => some '\n'
  | 'f' => some '\x0c'
  | 'r' => some '\r'
  | 'e' => some '\x1b'
  | '"' => some '"'
  | '\\' => some '\\'
  | _ => none

/-- The number of digits of an escape by number. -/
def hexEscape? : Char → Option Nat
  | 'x' => some 2
  | 'u' => some 4
  | 'U' => some 8
  | _ => none

/-- A line that ends in a backslash: what follows the blanks and line ends behind it. -/
def joinedLine? (s : List Char) : Option (List Char) :=
  match lineEnd? (skipBlanks s) with
  | some rest => some (rest.dropWhile fun c => isBlank c || c == '\n' || c == '\r')
  | none => none

/-- The text of a string in double quotes behind the opening ones, and what follows the
closing ones. A string over several lines ends at three quotes and may have two more
before them. -/
def basicBody (multiline : Bool) : Nat → List Char → Option (List Char × List Char)
  | 0, _ => none
  | _, [] => none
  | fuel + 1, c :: rest =>
    let keep (c : Char) (rest : List Char) : Option (List Char × List Char) := do
      let (text, after) ← basicBody multiline fuel rest
      return (c :: text, after)
    if c == '"' then
      if !multiline then some ([], rest)
      else match rest with
        | '"' :: '"' :: rest =>
          match rest with
          | '"' :: '"' :: rest => some (['"', '"'], rest)
          | '"' :: rest => some (['"'], rest)
          | rest => some ([], rest)
        | rest => keep '"' rest
    else if c == '\\' then
      match rest with
      | [] => none
      | d :: after =>
        match escape? d, hexEscape? d with
        | some e, _ => keep e after
        | none, some digits => do
          if after.length < digits then none
          keep (← charOfCode? (← hex? (after.take digits))) (after.drop digits)
        | none, none => do
          if !multiline then none
          basicBody multiline fuel (← joinedLine? rest)
    else if isControl c then
      match multiline, lineEnd? (c :: rest) with
      | true, some _ => keep c rest
      | _, _ => none
    else keep c rest

/-- The text of a string in single quotes behind the opening ones. -/
def literalBody (multiline : Bool) : List Char → Option (List Char × List Char)
  | [] => none
  | '\'' :: rest =>
    if !multiline then some ([], rest)
    else match rest with
      | '\'' :: '\'' :: rest =>
        match rest with
        | '\'' :: '\'' :: rest => some (['\'', '\''], rest)
        | '\'' :: rest => some (['\''], rest)
        | rest => some ([], rest)
      | rest => do
        let (text, after) ← literalBody multiline rest
        return ('\'' :: text, after)
  | c :: rest =>
    if isControl c && !(multiline && (lineEnd? (c :: rest)).isSome) then none
    else do
      let (text, after) ← literalBody multiline rest
      return (c :: text, after)

/-- The text behind a line end directly behind opening quotes. -/
def trimFirstLine (s : List Char) : List Char := (lineEnd? s).getD s

/-- A string in quotes. -/
def string? : List Char → Option (List Char × List Char)
  | '"' :: '"' :: '"' :: rest => basicBody true (rest.length + 1) (trimFirstLine rest)
  | '"' :: rest => basicBody false (rest.length + 1) rest
  | '\'' :: '\'' :: '\'' :: rest => literalBody true (trimFirstLine rest)
  | '\'' :: rest => literalBody false rest
  | _ => none

/-! ### Keys -/

/-- A character of a key without quotes. -/
def isBareChar (c : Char) : Bool := c.isAlphanum || c == '_' || c == '-'

/-- A key between dots. -/
def simpleKey? : List Char → Option (String × List Char)
  | '"' :: rest => (basicBody false (rest.length + 1) rest).map fun (k, r) => (String.ofList k, r)
  | '\'' :: rest => (literalBody false rest).map fun (k, r) => (String.ofList k, r)
  | s =>
    let k := s.takeWhile isBareChar
    if k.isEmpty then none else some (String.ofList k, s.drop k.length)

/-- A key with its dots: the keys before the last one, and the last one. -/
def key? : Nat → List Char → Option (List String × String × List Char)
  | 0, _ => none
  | fuel + 1, s => do
    let (k, rest) ← simpleKey? (skipBlanks s)
    match skipBlanks rest with
    | '.' :: more =>
      let (path, last, rest) ← key? fuel more
      return (k :: path, last, rest)
    | rest => return ([], k, rest)

/-! ### Scalars without quotes -/

/-- A character of a scalar without quotes. -/
def isScalarChar (c : Char) : Bool := c.isAlphanum || "_+-.:".toList.contains c

/-- The digits of a run without the underscores, each of which stands between two digits. -/
def digitRun? (isDigit : Char → Bool) : List Char → Option (List Char)
  | [] => none
  | [c] => if isDigit c then some [c] else none
  | c :: '_' :: rest => if isDigit c then (digitRun? isDigit rest).map (c :: ·) else none
  | c :: rest => if isDigit c then (digitRun? isDigit rest).map (c :: ·) else none

/-- The number that digits spell in a base up to sixteen. -/
def number (base : Nat) (digits : List Char) : Nat :=
  digits.foldl (fun n c => n * base + (hexDigit? c).getD 0) 0

/-- A digit of a base up to sixteen. -/
def isDigitOf (base : Nat) (c : Char) : Bool := (hexDigit? c).any (· < base)

/-- The integer part of a number: it begins with a zero only if it is zero. -/
def wholePart? (s : List Char) : Option (List Char) := do
  let digits ← digitRun? Char.isDigit s
  match digits with
  | '0' :: _ :: _ => none
  | _ => return digits

/-- An integer in another base. -/
def based? (base : Nat) (s : List Char) : Option Value := do
  let n : Int := number base (← digitRun? (isDigitOf base) s)
  if Value.isSigned64 n then return .integer n else none

/-- The power of ten behind the mark of an exponent. -/
def exponent? : List Char → Option Int
  | '-' :: rest => (digitRun? Char.isDigit rest).map fun d => -(number 10 d : Int)
  | '+' :: rest => (digitRun? Char.isDigit rest).map fun d => (number 10 d : Int)
  | s => (digitRun? Char.isDigit s).map fun d => (number 10 d : Int)

/-- A float without its sign. -/
def float? (negative : Bool) (s : List Char) : Option Value := do
  let isMark (c : Char) : Bool := c == 'e' || c == 'E'
  let mantissa := s.takeWhile (!isMark ·)
  let whole := mantissa.takeWhile (· != '.')
  let wholeDigits ← wholePart? whole
  let places ← match mantissa.drop whole.length with
    | [] => some []
    | _ :: places => digitRun? Char.isDigit places
  let e ← match s.drop mantissa.length with
    | [] => some 0
    | _ :: e => exponent? e
  let e := e - places.length
  -- Beyond these bounds a double is zero or infinite, whatever its digits are.
  let bound : Int := 400 + s.length
  let digits := number 10 (wholeDigits ++ places)
  let d := Double.ofDecimal negative digits (max (-bound) (min bound e))
  if d.isFinite then return .float d else none

/-- A number with its sign taken off. -/
def unsigned? (negative : Bool) (s : List Char) : Option Value :=
  match String.ofList s with
  | "inf" => some (.float (if negative then Double.infinity.neg else .infinity))
  | "nan" => some (.float .nan)
  | _ =>
    if s.any fun c => c == '.' || c == 'e' || c == 'E' then float? negative s
    else do
      let n : Int := number 10 (← wholePart? s)
      let i := if negative then -n else n
      if Value.isSigned64 i then return .integer i else none

/-- The value of a scalar without quotes. -/
def scalarValue? (s : List Char) : Option Value :=
  match s with
  | '+' :: rest => unsigned? false rest
  | '-' :: rest => unsigned? true rest
  | '0' :: 'x' :: rest => based? 16 rest
  | '0' :: 'o' :: rest => based? 8 rest
  | '0' :: 'b' :: rest => based? 2 rest
  | _ =>
    match String.ofList s with
    | "true" => some (.boolean true)
    | "false" => some (.boolean false)
    | _ =>
      match Datetime.parse? s with
      | some d => some (.datetime d)
      | none => unsigned? false s

/-- A scalar without quotes. Between a date and a time a space may stand. -/
def scalar? (s : List Char) : Option (Value × List Char) := do
  let token := s.takeWhile isScalarChar
  let rest := s.drop token.length
  match rest with
  | ' ' :: c :: more =>
    if c.isDigit && token.length == 10 && (Datetime.readDate? token).isSome then
      let time := (c :: more).takeWhile isScalarChar
      return (← scalarValue? (token ++ ' ' :: time), (c :: more).drop time.length)
    else return (← scalarValue? token, rest)
  | _ => return (← scalarValue? token, rest)

end Scaffold.Toml.Lexeme
