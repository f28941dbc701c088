/-!
# Characters of YAML

The classes of characters that YAML's lexemes are made of, and positions in a text.
Line ends are made uniform before a text is scanned (`normalize`): a carriage return
with or without a line feed, and the next-line character, become a line feed. The
line and paragraph separators end lines too and stay what they are.
-/

namespace Scaffold.Yaml

/-- The next-line character. -/
def nextLine : Char := '\u0085'

/-- The line separator. -/
def lineSeparator : Char := '\u2028'

/-- The paragraph separator. -/
def paragraphSeparator : Char := '\u2029'

/-- The byte-order mark. -/
def byteOrderMark : Char := '\ufeff'

/-- Space or tab. -/
def isBlank (c : Char) : Bool := c == ' ' || c == '\t'

/-- A character that ends a line of a normalized text. -/
def isBreak (c : Char) : Bool := c == '\n' || c == lineSeparator || c == paragraphSeparator

/-- A character that may stand in a text. -/
def isAllowed (c : Char) : Bool :=
  let n := c.toNat
  n == 0x09 || n == 0x0A || n == 0x0D || (0x20 ≤ n && n ≤ 0x7E) || n == 0x85 ||
    (0xA0 ≤ n && n ≤ 0xFFFD) || 0x10000 ≤ n

/-- A character of a name: letter, digit, underscore or hyphen. -/
def isNameChar (c : Char) : Bool := c.isAlphanum || c == '_' || c == '-'

/-- The text is at its end, at a blank or at the end of a line. -/
def atGap : List Char → Bool
  | [] => true
  | c :: _ => isBlank c || isBreak c

/-- The text is at its end or at the end of a line. -/
def atLineEnd : List Char → Bool
  | [] => true
  | c :: _ => isBreak c

/-- The text is at a mark that stands between documents, followed by a gap. -/
def atDocumentMark : List Char → Bool
  | '-' :: '-' :: '-' :: rest => atGap rest
  | '.' :: '.' :: '.' :: rest => atGap rest
  | _ => false

/-- Every end of a line in one form. -/
def normalize : List Char → List Char
  | [] => []
  | '\r' :: '\n' :: rest => '\n' :: normalize rest
  | c :: rest => (if c == '\r' || c == nextLine then '\n' else c) :: normalize rest

/-- A place in a text. -/
structure Position where
  index : Nat
  line : Nat
  column : Nat
deriving DecidableEq, Inhabited

namespace Position

/-- The place behind a character. -/
def after (p : Position) (c : Char) : Position :=
  if isBreak c then ⟨p.index + 1, p.line + 1, 0⟩ else ⟨p.index + 1, p.line, p.column + 1⟩

/-- The place behind a text. -/
def afterAll (p : Position) (s : List Char) : Position := s.foldl after p

end Position

/-- A place in a text and what follows it. -/
structure Cursor where
  position : Position
  rest : List Char
deriving Inhabited

namespace Cursor

/-- The cursor behind the next `n` characters. -/
def skip (n : Nat) (c : Cursor) : Cursor :=
  ⟨c.position.afterAll (c.rest.take n), c.rest.drop n⟩

/-- The cursor behind the characters that satisfy `p`. -/
def skipWhile (p : Char → Bool) (c : Cursor) : Cursor :=
  ⟨c.position.afterAll (c.rest.takeWhile p), c.rest.dropWhile p⟩

/-- The column of the cursor. -/
def column (c : Cursor) : Nat := c.position.column

end Cursor
end Scaffold.Yaml
