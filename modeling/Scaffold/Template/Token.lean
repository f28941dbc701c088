import Scaffold.Number.Double
import Scaffold.Template.Fault
import Scaffold.Text.Blank
import Scaffold.Text.Split

/-!
# Tokens of templates

A template is text with marks in it: `\x7b\x7b … \x7d\x7d` around an expression, a brace and
a percent sign around a tag, a brace and a number sign around a comment. A hyphen at the inner
side of a mark takes away the blanks on its outer side. Between `raw` and `endraw` everything is
text.
-/

namespace Scaffold.Template

/-- A lexeme inside marks. -/
inductive Token where
  | name (text : String)
  | string (text : String)
  | integer (value : Nat)
  | float (value : Double)
  | mark (text : String)
deriving DecidableEq, Inhabited

/-- A part of a template. -/
inductive Piece where
  | text (text : String)
  | output (tokens : List Token)
  | tag (tokens : List Token)
deriving DecidableEq, Inhabited

namespace Token

/-! ### Lexemes -/

/-- A character that begins a name. -/
def isNameStart (c : Char) : Bool := c.isAlpha || c == '_'

/-- A character of a name. -/
def isNameChar (c : Char) : Bool := c.isAlphanum || c == '_'

/-- The value of a digit in a base up to sixteen. -/
def digit? (base : Nat) (c : Char) : Option Nat :=
  let n :=
    if c.isDigit then c.toNat - '0'.toNat
    else if 'a' ≤ c && c ≤ 'f' then c.toNat - 'a'.toNat + 10
    else if 'A' ≤ c && c ≤ 'F' then c.toNat - 'A'.toNat + 10
    else base
  if n < base then some n else none

/-- The number that digits spell. -/
def digits? (base : Nat) (s : List Char) : Option Nat :=
  if s.isEmpty then none
  else s.foldl (fun acc c => do return (← acc) * base + (← digit? base c)) (some 0)

/-- The character of four hexadecimal digits, or of two groups of them that are a pair. -/
def unicodeEscape? : List Char → Option (Char × List Char)
  | a :: b :: c :: d :: rest => do
    let n ← digits? 16 [a, b, c, d]
    if 0xD800 ≤ n && n ≤ 0xDBFF then
      match rest with
      | '\\' :: 'u' :: e :: f :: g :: h :: rest =>
        let low ← digits? 16 [e, f, g, h]
        if 0xDC00 ≤ low && low ≤ 0xDFFF then
          return (Char.ofNat ((n - 0xD800) * 0x400 + (low - 0xDC00) + 0x10000), rest)
        else none
      | _ => none
    else if 0xDC00 ≤ n && n ≤ 0xDFFF then none
    else return (Char.ofNat n, rest)
  | _ => none

/-- The character of an escape with one letter. -/
def escape? : Char → Option Char
  | '"' => some '"'
  | '\\' => some '\\'
  | '/' => some '/'
  | '\'' => some '\''
  | 'b' => some '\x08'
  | 'f' => some '\x0c'
  | 'n' => some '\n'
  | 'r' => some '\r'
  | 't' => some '\t'
  | _ => none

/-- The characters of a literal up to its closing quote, escapes included, and the rest. -/
def literalBody (quote : Char) : (escaped : Bool) → List Char → Option (List Char × List Char)
  | _, [] => none
  | escaped, c :: rest =>
    if !escaped && c == quote then some ([], rest)
    else do
      let (body, after) ← literalBody quote (!escaped && c == '\\') rest
      return (c :: body, after)

/-- The text of a literal with its escapes resolved. -/
def unescape : Nat → List Char → Option (List Char)
  | 0, _ => none
  | _, [] => some []
  | fuel + 1, '\\' :: 'u' :: rest => do
    let (c, rest) ← unicodeEscape? rest
    return c :: (← unescape fuel rest)
  | fuel + 1, '\\' :: c :: rest => do return (← escape? c) :: (← unescape fuel rest)
  | _, ['\\'] => none
  | fuel + 1, c :: rest => do return c :: (← unescape fuel rest)

/-- How the characters of a number go on. -/
inductive Phase where
  | whole
  | fraction
  | mark
  | exponent
deriving DecidableEq

/-- The phase behind one more character of a decimal number, if it belongs to it. -/
def Phase.step? (p : Phase) (c : Char) : Option Phase :=
  if c == '_' then some p
  else if c.isDigit then some (if p = .mark then .exponent else p)
  else if c == '.' && p = .whole then some .fraction
  else if (c == 'e' || c == 'E') && (p = .whole || p = .fraction) then some .mark
  else if (c == '+' || c == '-') && p = .mark then some .exponent
  else none

/-- The characters of a decimal number. -/
def numberChars : Phase → List Char → Phase × List Char × List Char
  | p, [] => (p, [], [])
  | p, c :: rest =>
    match p.step? c with
    | some q =>
      let (last, chars, after) := numberChars q rest
      (last, c :: chars, after)
    | none => (p, [], c :: rest)

/-- The power of ten behind the mark of an exponent. -/
def exponent? : List Char → Option Int
  | '-' :: rest => (digits? 10 rest).map fun n => -(n : Int)
  | '+' :: rest => (digits? 10 rest).map Int.ofNat
  | s => (digits? 10 s).map Int.ofNat

/-- The double that a decimal number spells. -/
def float? (s : List Char) : Option Double := do
  let isMark (c : Char) : Bool := c == 'e' || c == 'E'
  let mantissa := s.takeWhile (!isMark ·)
  let whole := mantissa.takeWhile (· != '.')
  let places := (mantissa.drop whole.length).drop 1
  let digits ← digits? 10 (whole ++ places)
  let e ← match s.drop mantissa.length with
    | [] => some 0
    | _ :: e => exponent? e
  let bound : Int := 400 + s.length
  return .ofDecimal false digits (max (-bound) (min bound (e - places.length)))

/-- The greatest integer that can be written. -/
def greatestInteger : Nat := Nat.pow 2 128 - 1

/-- A number in another base behind its mark. -/
def based (base : Nat) (s : List Char) : Except Fault (Token × List Char) :=
  let chars := s.takeWhile fun c => c == '_' || (digit? base c).isSome
  match digits? base (chars.filter (· != '_')) with
  | some n =>
    if chars.getLast? == some '_' || greatestInteger < n then .error .invalidSyntax
    else .ok (.integer n, s.drop chars.length)
  | none => .error .invalidSyntax

/-- A number at the front. -/
def number (s : List Char) : Except Fault (Token × List Char) :=
  match s with
  | '0' :: 'x' :: rest | '0' :: 'X' :: rest => based 16 rest
  | '0' :: 'o' :: rest | '0' :: 'O' :: rest => based 8 rest
  | '0' :: 'b' :: rest | '0' :: 'B' :: rest => based 2 rest
  | _ =>
    let (phase, chars, rest) := numberChars .whole s
    let digits := chars.filter (· != '_')
    let token? : Option Token :=
      if phase = .whole then
        ((digits? 10 digits).filter (· ≤ greatestInteger)).map .integer
      else (float? digits).map .float
    match token? with
    | some t => if chars.getLast? == some '_' then .error .invalidSyntax else .ok (t, rest)
    | none => .error .invalidSyntax

/-- The marks of two characters. -/
def doubleMarks : List String := ["//", "**", "==", "!=", ">=", "<="]

/-- The marks of one character. -/
def singleMarks : List Char := "+-*/%.,:~|=><()[]\x7b\x7d".toList

/-- The lexeme at the front, which is no blank. -/
def lexeme (s : List Char) : Except Fault (Token × List Char) :=
  match s with
  | [] => .error .invalidSyntax
  | c :: rest =>
    let two := String.ofList (s.take 2)
    if doubleMarks.contains two then .ok (.mark two, s.drop 2)
    else if singleMarks.contains c then .ok (.mark (String.singleton c), rest)
    else if c == '"' || c == '\'' then
      match literalBody c false rest with
      | none => .error .invalidSyntax
      | some (body, after) =>
        match unescape (body.length + 1) body with
        | some text => .ok (.string (String.ofList text), after)
        | none => .error .badEscape
    else if c.isDigit then number s
    else if isNameStart c then
      let name := s.takeWhile isNameChar
      .ok (.name (String.ofList name), s.drop name.length)
    else .error .invalidSyntax

/-- How a lexeme changes the number of open brackets. -/
def balance : Token → Int
  | .mark "(" | .mark "[" | .mark "\x7b" => 1
  | .mark ")" | .mark "]" | .mark "\x7d" => -1
  | _ => 0

/-- The closing mark at the front, where no bracket is open: whether it takes away blanks, and
what follows it. -/
def closing? (closer s : List Char) : Option (Bool × List Char) :=
  match s with
  | '-' :: rest =>
    match Text.stripStart? closer rest with
    | some after => some (true, after)
    | none => none
  | '+' :: rest =>
    match Text.stripStart? closer rest with
    | some after => some (false, after)
    | none => none
  | s => (Text.stripStart? closer s).map (false, ·)

/-- The lexemes up to the closing mark, whether the mark takes away blanks, and the rest. -/
def inside (closer : List Char) : Nat → (opened : Int) → List Char →
    Except Fault (List Token × Bool × List Char)
  | 0, _, _ => .error .invalidSyntax
  | fuel + 1, opened, s => do
    let s := Text.trimStart s
    match if opened = 0 then closing? closer s else none with
    | some (trims, rest) => return ([], trims, rest)
    | none =>
      let (t, rest) ← lexeme s
      let (ts, trims, rest) ← inside closer fuel (opened + t.balance) rest
      return (t :: ts, trims, rest)

end Token

namespace Piece

/-- An opening mark. -/
inductive Opening where
  | output
  | tag
  | comment
deriving DecidableEq

/-- The opening mark at the front. -/
def opening? : List Char → Option (Opening × List Char)
  | '{' :: '{' :: rest => some (.output, rest)
  | '{' :: '%' :: rest => some (.tag, rest)
  | '{' :: '#' :: rest => some (.comment, rest)
  | _ => none

/-- The text before the first opening mark, and the text from it on. -/
def untilOpening : List Char → List Char × List Char
  | [] => ([], [])
  | c :: rest =>
    if (opening? (c :: rest)).isSome then ([], c :: rest)
    else
      let (before, after) := untilOpening rest
      (c :: before, after)

/-- The sign directly behind an opening mark: whether it takes away blanks, and the rest. -/
def sign : List Char → Bool × List Char
  | '-' :: rest => (true, rest)
  | '+' :: rest => (false, rest)
  | s => (false, s)

/-- A character between the words of a tag. -/
def isSpace (c : Char) : Bool :=
  c == ' ' || c == '\t' || c == '\n' || c == '\r' || c == '\x0c'

/-- A tag of a single word at the front, behind its opening mark: whether it takes away the blanks
behind it, and the rest. -/
def wordTag? (word : List Char) (s : List Char) : Option (Bool × List Char) := do
  let rest ← Text.stripStart? word (s.dropWhile isSpace)
  let (trims, rest) := sign (rest.dropWhile isSpace)
  return (trims, ← Text.stripStart? ['%', '}'] rest)

/-- Text up to the tag `endraw`: the text, whether the tag takes away the blanks before and
behind it, and the rest. -/
def rawBody : List Char → Option (List Char × Bool × Bool × List Char)
  | [] => none
  | c :: rest =>
    let here : Option (Bool × Bool × List Char) :=
      match c :: rest with
      | '{' :: '%' :: inner =>
        let (before, inner) := sign inner
        (wordTag? "endraw".toList inner).map fun (behind, after) => (before, behind, after)
      | _ => none
    match here with
    | some (before, behind, after) => some ([], before, behind, after)
    | none => do
      let (body, before, behind, after) ← rawBody rest
      return (c :: body, before, behind, after)

/-- The text of a comment and what follows it. -/
def comment? (s : List Char) : Option (List Char × List Char) := Text.splitAround? ['#', '}'] s

/-- Text without blanks at an end where a mark takes them away. -/
def trimIf (atStart atEnd : Bool) (s : List Char) : List Char :=
  let s := if atStart then Text.trimStart s else s
  if atEnd then Text.trimEnd s else s

/-- The text piece of some characters, unless there are none. -/
def ofText (s : List Char) : List Piece := if s.isEmpty then [] else [.text (String.ofList s)]

/-- The pieces of a template, where `trims` says that blanks at the front are taken away. -/
def scan : Nat → (trims : Bool) → List Char → Except Fault (List Piece)
  | 0, _, _ => .error .invalidSyntax
  | fuel + 1, trims, s => do
    let s := trimIf trims false s
    let (before, rest) := untilOpening s
    match opening? rest with
    | none => return ofText before
    | some (opening, rest) =>
      let (trimsBefore, inner) := sign rest
      let lead := ofText (trimIf false trimsBefore before)
      match opening with
      | .comment =>
        match comment? rest with
        | none => .error .invalidSyntax
        | some (body, after) =>
          return lead ++ (← scan fuel (body.getLast? == some '-') after)
      | .output =>
        let (tokens, trims, after) ← Token.inside ['}', '}'] (inner.length + 1) 0 inner
        return lead ++ .output tokens :: (← scan fuel trims after)
      | .tag =>
        match wordTag? "raw".toList inner with
        | some (trimsInside, body) =>
          match rawBody body with
          | none => .error .invalidSyntax
          | some (raw, trimsEnd, trims, after) =>
            return lead ++ ofText (trimIf trimsInside trimsEnd raw) ++ (← scan fuel trims after)
        | none =>
          let (tokens, trims, after) ← Token.inside ['%', '}'] (inner.length + 1) 0 inner
          return lead ++ .tag tokens :: (← scan fuel trims after)

/-- The pieces of a template. -/
def ofTemplate (s : String) : Except Fault (List Piece) :=
  scan (s.length + 1) false s.toList

end Piece
end Scaffold.Template
