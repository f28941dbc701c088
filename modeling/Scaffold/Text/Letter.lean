import Scaffold.Text.Letter.Alphanumeric
import Scaffold.Text.Letter.CaseClasses
import Scaffold.Text.Letter.CaseMaps

/-!
# Letters and their case

The Unicode classes and case maps of characters. A small sigma that ends a word is
written `ς`, which only the map of a whole text can see.
-/

namespace Scaffold.Text

namespace Letter

/-- The code point lies in one of the ranges. -/
def inRanges (ranges : List (Nat × Nat)) (n : Nat) : Bool :=
  ranges.any fun (first, last) => first ≤ n && n ≤ last

/-- The code point belongs to one of the runs. -/
def inRuns (runs : List (Nat × Nat × Nat)) (n : Nat) : Bool :=
  runs.any fun (first, last, step) => first ≤ n && n ≤ last && (n - first) % step == 0

/-- The image of a character under a case map beyond ASCII. -/
def image (runs : List (Nat × Nat × Nat × Int)) (texts : List (Nat × List Nat)) (c : Char) :
    List Char :=
  let n := c.toNat
  match texts.find? (·.1 == n) with
  | some (_, text) => text.map Char.ofNat
  | none =>
    match runs.find? fun (first, last, step, _) =>
        first ≤ n && n ≤ last && (n - first) % step == 0 with
    | some (_, _, _, distance) => [Char.ofNat ((n : Int) + distance).toNat]
    | none => [c]

end Letter

/-- A letter, a mark that belongs to one, or a number. -/
def isAlphanumeric (c : Char) : Bool :=
  if c.toNat < 128 then c.isAlphanum else Letter.inRanges Letter.alphanumericRanges c.toNat

/-- A character with the property `Uppercase`. -/
def isUppercase (c : Char) : Bool :=
  if c.toNat < 128 then c.isUpper else Letter.inRuns Letter.uppercaseRuns c.toNat

/-- A character with the property `Lowercase`. -/
def isLowercase (c : Char) : Bool :=
  if c.toNat < 128 then c.isLower else Letter.inRuns Letter.lowercaseRuns c.toNat

/-- The lowercase image of a character. -/
def lowerChar (c : Char) : List Char :=
  if c.toNat < 128 then [c.toLower] else Letter.image Letter.lowerRuns Letter.lowerTexts c

/-- The uppercase image of a character. -/
def upperChar (c : Char) : List Char :=
  if c.toNat < 128 then [c.toUpper] else Letter.image Letter.upperRuns Letter.upperTexts c

/-- A character that a case map changes or that is the image of one. -/
def isCased (c : Char) : Bool :=
  isUppercase c || isLowercase c || lowerChar c != [c] || upperChar c != [c]

/-- A character that does not separate a letter from the word around it. -/
def isCaseIgnorable (c : Char) : Bool := Letter.inRanges Letter.caseIgnorableRanges c.toNat

/-- Whether the first character that is not ignored is cased. -/
def meetsCased (s : List Char) : Bool :=
  match s.dropWhile isCaseIgnorable with
  | [] => false
  | c :: _ => isCased c

/-- The lowercase text of `rest`, where `before` holds the characters before it in reverse. -/
def lowerFrom (before : List Char) : List Char → List Char
  | [] => []
  | c :: rest =>
    let small :=
      if c = 'Σ' then [if meetsCased before && !meetsCased rest then 'ς' else 'σ'] else lowerChar c
    small ++ lowerFrom (c :: before) rest

/-- The text in lowercase. -/
def lower (s : List Char) : List Char := lowerFrom [] s

/-- The text in uppercase. -/
def upper (s : List Char) : List Char := s.flatMap upperChar

/-- The first character in uppercase and every other one in lowercase, each on its own. -/
def capitalize : List Char → List Char
  | [] => []
  | c :: rest => upperChar c ++ rest.flatMap lowerChar

end Scaffold.Text
