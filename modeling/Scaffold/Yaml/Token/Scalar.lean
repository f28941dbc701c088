import Scaffold.Yaml.Character

/-!
# Scalars as they are written

The text of a quoted, a plain and a block scalar is folded while it is read. A gap
between two words is what lies between them: blanks stand for themselves, one line
end becomes a blank, and of more line ends the first is dropped.
-/

namespace Scaffold.Yaml.Scalar

/-- What lies between two words of a scalar. -/
inductive Gap where
  /-- Blanks on one line, in reverse. -/
  | blanks (text : List Char)
  /-- Line ends: the first, unless it was escaped, and the others in reverse. -/
  | breaks (first? : Option Char) (more : List Char)

/-- What a gap contributes to the scalar, in reverse. -/
def Gap.folded : Gap → List Char
  | .blanks text => text
  | .breaks none more => more
  | .breaks (some '\n') [] => [' ']
  | .breaks (some '\n') more => more
  | .breaks (some c) more => more ++ [c]

/-- A blank extends a gap; behind a line end it is indentation. -/
def Gap.addBlank (c : Char) : Option Gap → Gap
  | none => .blanks [c]
  | some (.blanks text) => .blanks (c :: text)
  | some gap => gap

/-- A line end extends a gap; blanks before it do not count. -/
def Gap.addBreak (c : Char) : Option Gap → Gap
  | some (.breaks first? more) => .breaks first? (c :: more)
  | _ => .breaks (some c) []

/-- The gap holds a line end. -/
def Gap.hasBreak : Option Gap → Bool
  | some (.breaks _ _) => true
  | _ => false

/-- The text read so far, in reverse, with the gap behind it. -/
def flush (text : List Char) : Option Gap → List Char
  | none => text
  | some gap => gap.folded ++ text

/-! ### Quoted scalars -/

/-- What a character behind a backslash in a quoted scalar asks for. -/
inductive Escape where
  | char (c : Char)
  | hex (digits : Nat)

/-- The escapes of a scalar in double quotes. -/
def escape? : Char → Option Escape
  | '0' => some (.char '\x00')
  | 'a' => some (.char '\x07')
  | 'b' => some (.char '\x08')
  | 't' | '\t' => some (.char '\t')
  | 'n' => some (.char '\n')
  | 'v' => some (.char '\x0b')
  | 'f' => some (.char '\x0c')
  | 'r' => some (.char '\r')
  | 'e' => some (.char '\x1b')
  | ' ' => some (.char ' ')
  | '"' => some (.char '"')
  | '/' => some (.char '/')
  | '\\' => some (.char '\\')
  | 'N' => some (.char nextLine)
  | '_' => some (.char '\u00a0')
  | 'L' => some (.char lineSeparator)
  | 'P' => some (.char paragraphSeparator)
  | 'x' => some (.hex 2)
  | 'u' => some (.hex 4)
  | 'U' => some (.hex 8)
  | _ => none

/-- The value of a hexadecimal digit. -/
def hexDigit? (c : Char) : Option Nat :=
  if c.isDigit then some (c.toNat - '0'.toNat)
  else if 'a' ≤ c && c ≤ 'f' then some (c.toNat - 'a'.toNat + 10)
  else if 'A' ≤ c && c ≤ 'F' then some (c.toNat - 'A'.toNat + 10)
  else none

/-- The character with this number. -/
def charOfCode? (n : Nat) : Option Char :=
  if h : n.isValidChar then some (Char.ofNatAux n h) else none

/-- How the next character of a quoted scalar is taken. -/
inductive Mode where
  | text
  | escape
  | hex (left value : Nat)

/-- A scalar behind its opening quote. -/
def quoted (single : Bool) :
    (text : List Char) → Option Gap → Mode → Position → List Char → Option (List Char × Cursor)
  | _, _, _, _, [] => none
  | text, gap, .text, p, c :: rest =>
    if isBlank c then quoted single text (some (.addBlank c gap)) .text (p.after c) rest
    else if isBreak c then quoted single text (some (.addBreak c gap)) .text (p.after c) rest
    else if p.column == 0 && atDocumentMark (c :: rest) then none
    else
      let text := flush text gap
      if single then
        if c == '\'' then
          match rest with
          | '\'' :: rest' =>
            quoted single ('\'' :: text) none .text ((p.after c).after c) rest'
          | _ => some (text.reverse, ⟨p.after c, rest⟩)
        else quoted single (c :: text) none .text (p.after c) rest
      else if c == '"' then some (text.reverse, ⟨p.after c, rest⟩)
      else if c == '\\' then quoted single text none .escape (p.after c) rest
      else quoted single (c :: text) none .text (p.after c) rest
  | text, _, .escape, p, c :: rest =>
    if isBreak c then quoted single text (some (.breaks none [])) .text (p.after c) rest
    else match escape? c with
      | none => none
      | some (.char d) => quoted single (d :: text) none .text (p.after c) rest
      | some (.hex digits) => quoted single text none (.hex digits 0) (p.after c) rest
  | text, _, .hex left value, p, c :: rest =>
    match hexDigit? c with
    | none => none
    | some digit =>
      let value := value * 16 + digit
      if left ≤ 1 then
        match charOfCode? value with
        | none => none
        | some d => quoted single (d :: text) none .text (p.after c) rest
      else quoted single text none (.hex (left - 1) value) (p.after c) rest

/-! ### Plain scalars -/

/-- Brackets, braces and the comma, which end a plain scalar inside a flow collection. -/
def isFlowMark (c : Char) : Bool := c == ',' || c == '[' || c == ']' || c == '{' || c == '}'

/-- A colon that ends a plain scalar. -/
def isValueMark (c : Char) (rest : List Char) : Bool := c == ':' && atGap rest

/-- A colon directly before a mark of a flow collection, which is refused. -/
def isBadColon (c : Char) (rest : List Char) : Bool :=
  c == ':' && match rest with
    | d :: _ => isFlowMark d || d == '?'
    | [] => false

/-- A plain scalar: its text, whether it ends behind a line end, and where. Its lines
reach to column `indent` at least, unless it stands in a flow collection. -/
def plain (inFlow : Bool) (indent : Nat) :
    (text : List Char) → Option Gap → Position → List Char → Option (List Char × Bool × Cursor)
  | text, gap, p, [] => some (text.reverse, Gap.hasBreak gap, ⟨p, []⟩)
  | text, gap, p, c :: rest =>
    if isBlank c then
      if Gap.hasBreak gap && p.column < indent && c == '\t' then none
      else plain inFlow indent text (some (.addBlank c gap)) (p.after c) rest
    else if isBreak c then
      plain inFlow indent text (some (.addBreak c gap)) (p.after c) rest
    else
      let stop := some (text.reverse, Gap.hasBreak gap, ⟨p, c :: rest⟩)
      if gap.isSome && ((!inFlow && p.column < indent) || c == '#' ||
          (p.column == 0 && atDocumentMark (c :: rest))) then stop
      else if inFlow && isBadColon c rest then none
      else if isValueMark c rest || (inFlow && isFlowMark c) then stop
      else plain inFlow indent (c :: flush text gap) none (p.after c) rest

/-! ### Block scalars -/

/-- What becomes of the line ends at the end of a block scalar. -/
inductive Chomping where
  | strip
  | clip
  | keep
deriving DecidableEq

/-- What the indicators behind `|` or `>` say. -/
structure Header where
  chomping : Chomping
  increment? : Option Nat

/-- The chomping that an indicator asks for. -/
def chomping? : Char → Option Chomping
  | '+' => some .keep
  | '-' => some .strip
  | _ => none

/-- An indentation indicator: a digit that is not zero. -/
def increment? (c : Char) : Option Nat :=
  if c.isDigit && c != '0' then some (c.toNat - '0'.toNat) else none

/-- The indicators behind `|` or `>`, in either order, and their number. -/
def header : List Char → Option (Header × Nat)
  | c :: rest =>
    match chomping? c with
    | some chomping =>
      match rest with
      | d :: _ =>
        if d.isDigit then (increment? d).map fun n => (⟨chomping, some n⟩, 2)
        else some (⟨chomping, none⟩, 1)
      | [] => some (⟨chomping, none⟩, 1)
    | none =>
      if c.isDigit then
        (increment? c).map fun n =>
          match rest with
          | d :: _ =>
            match chomping? d with
            | some chomping => (⟨chomping, some n⟩, 2)
            | none => (⟨.clip, some n⟩, 1)
          | [] => (⟨.clip, some n⟩, 1)
      else some (⟨.clip, none⟩, 0)
  | [] => some (⟨.clip, none⟩, 0)

/-- The greatest indentation among the empty lines at the front and the first line that
is not empty. A tab in an indentation is refused. -/
def detectIndent : (column greatest : Nat) → List Char → Option Nat
  | column, greatest, [] => some (max column greatest)
  | column, greatest, c :: rest =>
    if c == ' ' then detectIndent (column + 1) greatest rest
    else if c == '\t' then none
    else if isBreak c then detectIndent 0 (max column greatest) rest
    else some (max column greatest)

/-- What is read of a block scalar: its text in reverse, the end of the last line, the
line ends behind it in reverse, and whether the last line began with a blank. -/
structure Block where
  text : List Char := []
  lineEnd? : Option Char := none
  more : List Char := []
  afterBlank : Bool := false

/-- A line begins, whose first character is a blank or not. In a folded scalar a line end
between two lines that do not begin with a blank becomes a blank, or vanishes before
empty lines. -/
def Block.beginLine (literal blank : Bool) (b : Block) : Block :=
  let joint : List Char :=
    if !literal && b.lineEnd? == some '\n' && !b.afterBlank && !blank then
      if b.more.isEmpty then [' '] else []
    else b.lineEnd?.toList
  ⟨b.more ++ joint ++ b.text, none, [], blank⟩

/-- The text with the line ends at its end chomped. -/
def Block.chomped (chomping : Chomping) (b : Block) : List Char :=
  match chomping with
  | .strip => b.text.reverse
  | .clip => b.text.reverse ++ b.lineEnd?.toList
  | .keep => b.text.reverse ++ b.lineEnd?.toList ++ b.more.reverse

/-- The lines of a block scalar, which begin at column `indent`. -/
def blockLines (literal : Bool) (indent : Nat) :
    (inLine : Bool) → Block → Position → List Char → Option (Block × Cursor)
  | _, b, p, [] => some (b, ⟨p, []⟩)
  | true, b, p, c :: rest =>
    if isBreak c then blockLines literal indent false { b with lineEnd? := some c } (p.after c) rest
    else blockLines literal indent true { b with text := c :: b.text } (p.after c) rest
  | false, b, p, c :: rest =>
    if c == ' ' && p.column < indent then blockLines literal indent false b (p.after c) rest
    else if c == '\t' && p.column < indent then none
    else if isBreak c then
      blockLines literal indent false { b with more := c :: b.more } (p.after c) rest
    else if p.column == indent then
      let b := b.beginLine literal (isBlank c)
      blockLines literal indent true { b with text := c :: b.text } (p.after c) rest
    else some (b, ⟨p, c :: rest⟩)

/-- A block scalar behind `|` or `>`, inside a collection whose indentation is
`parentIndent`. -/
def block (literal : Bool) (parentIndent : Int) (cursor : Cursor) :
    Option (List Char × Cursor) := do
  let (h, count) ← header cursor.rest
  let cursor := (cursor.skip count).skipWhile isBlank
  let cursor := match cursor.rest with
    | '#' :: _ => cursor.skipWhile fun c => !isBreak c
    | _ => cursor
  if !atLineEnd cursor.rest then none
  let cursor := cursor.skip 1
  let indent ← match h.increment? with
    | some n => some ((max parentIndent 0).toNat + n)
    | none =>
      (detectIndent 0 0 cursor.rest).map fun greatest =>
        max (max greatest (parentIndent + 1).toNat) 1
  let (b, cursor) ← blockLines literal indent false {} cursor.position cursor.rest
  return (b.chomped h.chomping, cursor)

end Scaffold.Yaml.Scalar
