import Scaffold.Yaml.Plain
import Scaffold.Yaml.Character
import Scaffold.Text.Bytes

/-!
# Writing YAML

A value is written in block style. The items of a sequence in a mapping stand under its
key without indentation, every other nested collection is indented by two columns, and
an empty collection is written with brackets. A text is written plain where it reads
back as the same text; otherwise it is quoted, or takes a block of its own if it has
several lines.
-/

namespace Scaffold.Yaml.Printer

open Scaffold.Json (Value Number)

/-- Doubles are written positionally from `10⁻⁵` to below `10¹⁶`, and with an exponent outside. -/
def doubleLayout : Double.Layout := ⟨-5, 15, false⟩

/-! ### What styles a text admits -/

/-- A character that is written as it is. -/
def isPrintable (c : Char) : Bool :=
  let n := c.toNat
  n == 0x0A || (0x20 ≤ n && n ≤ 0x7E) || (0xA0 ≤ n && n ≤ 0xD7FF) ||
    (0xE000 ≤ n && n ≤ 0xFFFD && n != 0xFEFF) || 0x10000 ≤ n

/-- A character that ends a line or is a carriage return or next-line character. -/
def endsLine (c : Char) : Bool := isBreak c || c == '\r' || c == nextLine

/-- The text is at its end, at a blank or at the end of a line. -/
def atGap : List Char → Bool
  | [] => true
  | c :: _ => isBlank c || endsLine c

/-- A character that has a meaning at the start of a plain scalar. -/
def isLeadingMark (c : Char) : Bool := "#,[]\x7b\x7d&*!|>'\"%@`".toList.contains c

/-- The first character, or the run at the start, cannot begin a plain scalar. -/
def badStart : List Char → Bool
  | [] => false
  | '-' :: '-' :: '-' :: _ | '.' :: '.' :: '.' :: _ => true
  | c :: rest => isLeadingMark c || ((c == '?' || c == ':' || c == '-') && atGap rest)

/-- Somewhere behind the first character a colon ends a key or a comment begins. -/
def badInside : (afterGap : Bool) → List Char → Bool
  | _, [] => false
  | afterGap, c :: rest =>
    (c == ':' && atGap rest) || (c == '#' && afterGap) || badInside (atGap [c]) rest

/-- Somewhere a character of one kind is followed by one of another. -/
def hasPair (first second : Char → Bool) : List Char → Bool
  | [] | [_] => false
  | a :: b :: rest => (first a && second b) || hasPair first second (b :: rest)

/-- A blank that is a space. -/
def isSpace (c : Char) : Bool := c == ' '

/-- Characters that only double quotes can hold. -/
def hasSpecial (s : List Char) : Bool :=
  s.any (fun c => !isPrintable c) || hasPair isSpace endsLine s

/-- The text may be written plain, in a block. -/
def allowsPlain (s : List Char) : Bool :=
  match s with
  | [] => true
  | first :: rest =>
    !(badStart s || badInside (atGap [first]) rest || hasSpecial s || s.any endsLine ||
      isSpace first || (s.getLast?.any isSpace))

/-- The text may stand in single quotes. -/
def allowsSingle (s : List Char) : Bool := !(hasSpecial s || hasPair endsLine isSpace s)

/-- The text may be written as a block scalar. -/
def allowsBlock (s : List Char) : Bool :=
  !s.isEmpty && !hasSpecial s && !(s.getLast?.any isSpace)

/-- The text would read back as something else than a text, or looks like a number. -/
def isAmbiguous (s : List Char) : Bool :=
  match Plain.meaning s with
  | .text => Plain.isPadded s
  | _ => true

/-! ### Scalars -/

/-- Spaces up to a column. -/
def spaces (column : Nat) : List Char := List.replicate column ' '

/-- The characters in single quotes: a quote is doubled, and a line begins at column `indent`. -/
def singleBody (indent : Nat) : (afterBreak : Bool) → List Char → List Char
  | afterBreak, [] => if afterBreak then spaces indent else []
  | afterBreak, c :: rest =>
    if endsLine c then c :: singleBody indent true rest
    else if isSpace c then c :: singleBody indent afterBreak rest
    else
      (if afterBreak then spaces indent else []) ++
        (if c == '\'' then ['\'', '\''] else [c]) ++ singleBody indent false rest

/-- A hexadecimal number of at least `width` digits, in capitals. -/
def hex (width n : Nat) : List Char :=
  let digits := (Nat.toDigits 16 n).map Char.toUpper
  List.replicate (width - digits.length) '0' ++ digits

/-- The letter of an escape. -/
def escapeLetter? (c : Char) : Option Char :=
  match c with
  | '\x00' => some '0'
  | '\x07' => some 'a'
  | '\x08' => some 'b'
  | '\t' => some 't'
  | '\n' => some 'n'
  | '\x0b' => some 'v'
  | '\x0c' => some 'f'
  | '\r' => some 'r'
  | '\x1b' => some 'e'
  | '"' => some '"'
  | '\\' => some '\\'
  | '\u0085' => some 'N'
  | '\u2028' => some 'L'
  | '\u2029' => some 'P'
  | _ => none

/-- A character in double quotes. -/
def doubleChar (c : Char) : List Char :=
  match escapeLetter? c with
  | some letter => ['\\', letter]
  | none =>
    if isPrintable c then [c]
    else
      let n := c.toNat
      if n ≤ 0xFF then '\\' :: 'x' :: hex 2 n
      else if n ≤ 0xFFFF then '\\' :: 'u' :: hex 4 n
      else '\\' :: 'U' :: hex 8 n

/-- The indicators of a block scalar: a column for the indentation if the first line does not
show it, and what becomes of the line ends at the end. -/
def blockHeader (s : List Char) : List Char :=
  let indentation := match s with
    | c :: _ => if isSpace c || endsLine c then ['2'] else []
    | [] => []
  let chomping := match s.reverse with
    | [] => ['-']
    | [c] => if endsLine c then ['+'] else ['-']
    | c :: d :: _ => if !endsLine c then ['-'] else if endsLine d then ['+'] else []
  indentation ++ chomping

/-- The lines of a block scalar, each of which begins at column `indent` unless it is empty. -/
def blockBody (indent : Nat) : (afterBreak : Bool) → List Char → List Char
  | _, [] => []
  | afterBreak, c :: rest =>
    if endsLine c then c :: blockBody indent true rest
    else (if afterBreak then spaces indent else []) ++ c :: blockBody indent false rest

/-- How a text is written. -/
inductive Style where
  | plain
  | single
  | double
  | literal
deriving DecidableEq

/-- The style of a text, which is a key on one line or not. -/
def styleOf (simpleKey : Bool) (s : List Char) : Style :=
  if s.contains '\n' then
    if allowsBlock s && !simpleKey then .literal else .double
  else if (isAmbiguous s || !allowsPlain s) then
    if allowsSingle s then .single else .double
  else .plain

/-- A text whose further lines begin at column `indent`. -/
def scalar (simpleKey : Bool) (indent : Nat) (s : String) : List Char :=
  let cs := s.toList
  match styleOf simpleKey cs with
  | .plain => cs
  | .single => '\'' :: singleBody indent false cs ++ ['\'']
  | .double => '"' :: cs.flatMap doubleChar ++ ['"']
  | .literal => '|' :: blockHeader cs ++ '\n' :: blockBody indent true cs

/-- A key that stands on one line with its colon. -/
def isSimpleKey (s : String) : Bool :=
  !s.toList.any endsLine && Text.width s.toList ≤ 128

/-! ### Values -/

/-- The two texts on lines of their own, the second at column `indent`. -/
def below (indent : Nat) (first second : List Char) : List Char :=
  if first.getLast?.any endsLine then first ++ spaces indent ++ second
  else first ++ '\n' :: spaces indent ++ second

/-- The entries of a collection at a column, of which the first is already indented. -/
def stack (indent : Nat) : List (List Char) → List Char
  | [] => []
  | [entry] => entry
  | entry :: rest => below indent entry (stack indent rest)

/-- The text of a number. -/
def number : Number → List Char
  | .integer i => (toString i).toList
  | .double d => (d.text doubleLayout).toList

mutual
/-- A value whose collection, if it is one, has its entries at column `indent`; the
first entry is already indented. -/
def body (indent : Nat) : Value → List Char
  | .null => "null".toList
  | .bool b => (if b then "true" else "false").toList
  | .number n => number n
  | .string s => scalar false indent s
  | .array vs => if vs.isEmpty then "[]".toList else stack indent (items indent vs)
  | .object ms => if ms.isEmpty then "\x7b\x7d".toList else stack indent (entries indent ms)

/-- The items of a sequence at column `indent`. -/
def items (indent : Nat) : List Value → List (List Char)
  | [] => []
  | v :: rest => ('-' :: ' ' :: body (indent + 2) v) :: items indent rest

/-- The entries of a mapping at column `indent`. -/
def entries (indent : Nat) : List (String × Value) → List (List Char)
  | [] => []
  | (name, v) :: rest =>
    (if isSimpleKey name then scalar true (indent + 2) name ++ ':' :: under indent v
     else below indent ('?' :: ' ' :: scalar false (indent + 2) name)
      (':' :: ' ' :: body (indent + 2) v)) :: entries indent rest

/-- A value behind the colon of a key at column `indent`. -/
def under (indent : Nat) : Value → List Char
  | .array (v :: vs) => '\n' :: spaces indent ++ stack indent (items indent (v :: vs))
  | .object (m :: ms) =>
    '\n' :: spaces (indent + 2) ++ stack (indent + 2) (entries (indent + 2) (m :: ms))
  | v => ' ' :: body (indent + 2) v
end

/-- A document of one value, up to its last line end. -/
def document (v : Value) : List Char :=
  let text := match v with
    | .string s => scalar false 2 s
    | v => body 0 v
  if text.getLast?.any endsLine then text else text ++ ['\n']

/-- The text of a value. -/
def print (v : Value) : String := String.ofList (document v)

end Scaffold.Yaml.Printer
