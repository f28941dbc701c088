/-!
# Cutting texts at a mark

Taking a given start or end off a text, cutting it at the first or the last
occurrence of a character, and joining pieces.
-/

namespace Scaffold.Text

/-- What follows `opener` at the start of the text, if it starts with `opener`. -/
def stripStart? : (opener s : List Char) → Option (List Char)
  | [], s => some s
  | _ :: _, [] => none
  | c :: opener, d :: s => if c = d then stripStart? opener s else none

/-- What comes before `closer` at the end of the text, if it ends with `closer`. -/
def stripEnd? (closer s : List Char) : Option (List Char) :=
  (stripStart? closer.reverse s.reverse).map List.reverse

/-- Whether the text starts with `opener`. -/
def startsWith (opener s : List Char) : Bool := (stripStart? opener s).isSome

/-- The parts before and after the first `mark`. -/
def splitFirst? (mark : Char) : List Char → Option (List Char × List Char)
  | [] => none
  | c :: rest =>
    if c = mark then some ([], rest)
    else (splitFirst? mark rest).map fun (before, after) => (c :: before, after)

/-- The parts before and after the last `mark`. -/
def splitLast? (mark : Char) : List Char → Option (List Char × List Char)
  | [] => none
  | c :: rest =>
    match splitLast? mark rest with
    | some (before, after) => some (c :: before, after)
    | none => if c = mark then some ([], rest) else none

/-- Whether `needle` occurs in the text. -/
def occurs (needle : List Char) : List Char → Bool
  | [] => needle.isEmpty
  | c :: rest => startsWith needle (c :: rest) || occurs needle rest

/-- The pieces of a text between the characters `mark`: one more than there are marks. -/
def splitOn (mark : Char) : List Char → List (List Char)
  | [] => [[]]
  | c :: rest =>
    if c = mark then [] :: splitOn mark rest
    else match splitOn mark rest with
      | [] => [[c]]
      | piece :: pieces => (c :: piece) :: pieces

/-- The cut of `s` where `needle` first occurs: what comes before, and what follows it. -/
def splitAround? (needle : List Char) : List Char → Option (List Char × List Char)
  | [] => if needle.isEmpty then some ([], []) else none
  | c :: rest =>
    match stripStart? needle (c :: rest) with
    | some after => some ([], after)
    | none => (splitAround? needle rest).map fun (before, after) => (c :: before, after)

/-- Every occurrence of a character becomes another one. -/
def replaceChar (old new : Char) (s : List Char) : List Char :=
  s.map fun c => if c = old then new else c

/-- An ASCII capital letter becomes small and every other character stays. -/
def lowerAscii (s : String) : String := String.ofList (s.toList.map Char.toLower)

end Scaffold.Text
