import Scaffold.Path
import Scaffold.Text.Letter

/-!
# Naming conventions

A name is cut into words, and the words are joined again as a convention asks. A
word ends before a character that is neither letter nor digit, which is dropped, and
before a capital that follows a small letter or an ASCII digit.
-/

namespace Scaffold

/-- How the names of files and folders are written. -/
inductive Convention where
  | none
  | kebab
  | snake
  | camel
  | pascal
deriving DecidableEq, Inhabited

namespace Convention

/-- The convention's name. -/
def name : Convention → String
  | .none => "none"
  | .kebab => "kebab"
  | .snake => "snake"
  | .camel => "camel"
  | .pascal => "pascal"

/-- Every convention. -/
def all : List Convention := [.none, .kebab, .snake, .camel, .pascal]

/-- A word ends between these two characters. -/
def isHump (before after : Char) : Bool :=
  Text.isUppercase after && (Text.isLowercase before || before.isDigit)

/-- The words of `s` behind the word read so far, which is kept in reverse. -/
def wordsFrom : List Char → List Char → List (List Char)
  | word, [] => if word.isEmpty then [] else [word.reverse]
  | word, c :: rest =>
    if !Text.isAlphanumeric c then
      if word.isEmpty then wordsFrom [] rest else word.reverse :: wordsFrom [] rest
    else match word with
      | [] => wordsFrom [c] rest
      | before :: _ =>
        if isHump before c then word.reverse :: wordsFrom [c] rest
        else wordsFrom (c :: word) rest

/-- The words of a name. -/
def words (s : List Char) : List (List Char) := wordsFrom [] s

/-- The words in lowercase with `mark` between them. -/
def joinLower (mark : Char) (ws : List (List Char)) : List Char :=
  List.intercalate [mark] (ws.map Text.lower)

/-- Words joined as a convention asks. -/
def join : Convention → List (List Char) → List Char
  | .none, ws => ws.flatten
  | .kebab, ws => joinLower '-' ws
  | .snake, ws => joinLower '_' ws
  | .camel, [] => []
  | .camel, w :: ws => Text.lower w ++ ws.flatMap Text.capitalize
  | .pascal, ws => ws.flatMap Text.capitalize

/-- A name without an extension, as a list of characters. -/
def applyTo (c : Convention) (s : List Char) : List Char :=
  if c = .none then s
  else
    let ws := words s
    if ws.isEmpty then s else c.join ws

/-- A name in the convention. A name without letters or digits stays. -/
def apply (c : Convention) (name : String) : String := String.ofList (c.applyTo name.toList)

/-- A file name in the convention. It stays from its first point on, and a name that
begins with a point stays whole. -/
def applyToFile (c : Convention) (name : String) : String :=
  match Text.splitFirst? '.' name.toList with
  | .none => c.apply name
  | some ([], _) => name
  | some (stem, rest) => String.ofList (c.applyTo stem ++ '.' :: rest)

/-- A relative path with the names of its folders in one convention and the name of its
file in another. -/
def renameComponents (folder file : Convention) : List Component → List Component
  | [] => []
  | [.normal name] => [.normal (file.applyToFile name)]
  | .normal name :: rest => .normal (folder.apply name) :: renameComponents folder file rest
  | c :: rest => c :: renameComponents folder file rest

end Convention

/-- The path with the names of its folders and its file as the conventions ask. -/
def Path.rename (folder file : Convention) (p : Path) : Path :=
  .ofComponents (Convention.renameComponents folder file p.components)

end Scaffold
