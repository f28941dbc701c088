/-!
# Blanks

A blank is a character with the Unicode property `White_Space`. Trimming removes
blanks from the ends of a text, and splitting at blanks gives its words. The
definitions are on lists of characters, and the operations on `String` wrap them.
-/

namespace Scaffold.Text

/-- A character with the property `White_Space`. -/
def isBlank (c : Char) : Bool :=
  let n := c.toNat
  (0x09 ≤ n && n ≤ 0x0D) || n == 0x20 || n == 0x85 || n == 0xA0 || n == 0x1680 ||
    (0x2000 ≤ n && n ≤ 0x200A) || n == 0x2028 || n == 0x2029 || n == 0x202F || n == 0x205F ||
    n == 0x3000

/-! ### Cutting ends -/

/-- The text without the longest end of characters that satisfy `p`. -/
def dropEndWhile (p : Char → Bool) (s : List Char) : List Char :=
  (s.reverse.dropWhile p).reverse

/-- The text without leading blanks. -/
def trimStart (s : List Char) : List Char := s.dropWhile isBlank

/-- The text without trailing blanks. -/
def trimEnd (s : List Char) : List Char := dropEndWhile isBlank s

/-- The text without blanks at either end. -/
def trim (s : List Char) : List Char := trimEnd (trimStart s)

/-- A text of blanks only, the empty text included. -/
def allBlank (s : List Char) : Bool := s.all isBlank

/-- A character that ends a line: line feed or carriage return. -/
def isLineEnd (c : Char) : Bool := c == '\n' || c == '\r'

/-! ### Words -/

/-- The words of `s` behind the word read so far, which is kept in reverse. -/
def wordsFrom : List Char → List Char → List (List Char)
  | word, [] => if word.isEmpty then [] else [word.reverse]
  | word, c :: rest =>
    if isBlank c then
      if word.isEmpty then wordsFrom [] rest else word.reverse :: wordsFrom [] rest
    else wordsFrom (c :: word) rest

/-- The maximal pieces of a text without blanks, in order. -/
def words (s : List Char) : List (List Char) := wordsFrom [] s

/-! ### On strings -/

/-- `trim` on strings. -/
def trimmed (s : String) : String := String.ofList (trim s.toList)

/-- `allBlank` on strings. -/
def isBlankText (s : String) : Bool := allBlank s.toList

/-- Whether the text ends with a line feed. -/
def endsLine (s : String) : Bool := s.toList.getLast? == some '\n'

/-- The text, ended by a line feed if it was not. -/
def closeLine (s : String) : String := if endsLine s then s else s ++ "\n"

end Scaffold.Text
