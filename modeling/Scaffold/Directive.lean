import Scaffold.Json.Reader
import Scaffold.Text.Blank
import Scaffold.Text.Bytes
import Scaffold.Text.Split

/-!
# Directives

A directive sets options inside a file: a marker, followed by a JSON object that may go
over several lines. A marker without an object behind it is prose. A marker inside a frozen
range is passed over. The lines that directives stand on are taken out of a text by `strip`.
-/

namespace Scaffold

/-- A directive of a text. Places are byte offsets. -/
structure Directive where
  /-- Where the marker begins. -/
  offset : Nat
  /-- Where the lines of the directive begin. -/
  start : Nat
  /-- Where the line behind them begins. -/
  stop : Nat
  payload : Json.Members
deriving Inhabited

namespace Directive

/-! ### Objects -/

/-- Where a brace is looked for. -/
inductive Mode where
  | outside
  | inString
  | escaped
deriving DecidableEq, Inhabited

/-- The mode behind one more character. -/
def Mode.step : Mode → Char → Mode
  | .outside, '"' => .inString
  | .outside, _ => .outside
  | .inString, '\\' => .escaped
  | .inString, '"' => .outside
  | .inString, _ => .inString
  | .escaped, _ => .inString

/-- The text up to the brace that closes the last of `depth` open ones, and what follows it.
Braces in strings do not count. -/
def untilClosed? : Mode → (depth : Nat) → List Char → Option (List Char × List Char)
  | _, _, [] => none
  | mode, depth, c :: rest =>
    let cons (r : List Char × List Char) : List Char × List Char := (c :: r.1, r.2)
    if mode = .outside && c == '{' then (untilClosed? .outside (depth + 1) rest).map cons
    else if mode = .outside && c == '}' then
      if depth ≤ 1 then some ([c], rest) else (untilClosed? .outside (depth - 1) rest).map cons
    else (untilClosed? (mode.step c) depth rest).map cons

/-- An object at the front of the text, judged by its braces, and what follows it. -/
def object? (s : List Char) : Option (List Char × List Char) := untilClosed? .outside 0 s

/-- The members of an object. -/
def membersOf : Json.Value → Except Json.Error Json.Members
  | .object members => .ok members
  | v => .error (.type (.invalidType v.found "a map"))

/-! ### Scanning -/

/-- Why a directive cannot be read. -/
inductive Complaint where
  | unbalanced (marker : String)
  | refused (error : Json.Error)
deriving DecidableEq, Inhabited

/-- The directive that cannot be read, by the number of its line. -/
structure Fault where
  line : Nat
  complaint : Complaint
deriving DecidableEq, Inhabited

/-- A place in a text: its offset, and the number and the offset of its line. -/
structure Place where
  offset : Nat
  line : Nat
  lineStart : Nat
deriving DecidableEq, Inhabited

/-- The first place. -/
def Place.first : Place := ⟨0, 1, 0⟩

/-- The place behind one more character. -/
def Place.step (p : Place) (c : Char) : Place :=
  let next := p.offset + c.utf8Size
  if c = '\n' then ⟨next, p.line + 1, next⟩ else ⟨next, p.line, p.lineStart⟩

/-- The length in bytes up to the end of the line, with the line feed. -/
def lineRest : List Char → Nat
  | [] => 0
  | c :: rest => if c = '\n' then c.utf8Size else c.utf8Size + lineRest rest

/-- The place lies in one of the ranges. -/
def isFrozen (frozen : List (Nat × Nat)) (offset : Nat) : Bool :=
  frozen.any fun (start, stop) => start ≤ offset && offset < stop

/-- What follows a marker: blanks, an object, and the rest. Without an opening brace behind
the blanks there is none. -/
structure Found where
  blanks : List Char
  object : List Char
  rest : List Char

/-- What stands behind a marker, if it is an object. An object that is not closed is a fault. -/
def found (marker : String) (line : Nat) (after : List Char) : Except Fault (Option Found) :=
  let blanks := after.takeWhile Text.isBlank
  match after.dropWhile Text.isBlank with
  | '{' :: rest =>
    match object? ('{' :: rest) with
    | some (object, rest) => .ok (some ⟨blanks, object, rest⟩)
    | none => .error ⟨line, .unbalanced marker⟩
  | _ => .ok none

/-- The payload of an object. -/
def readPayload (line : Nat) (object : List Char) : Except Fault Json.Members :=
  match Json.document Json.value object with
  | .error e => .error ⟨line, .refused e⟩
  | .ok v => (membersOf v).mapError fun e => ⟨line, .refused e⟩

/-- The directives of a text from a place on, after `skip` more characters. -/
def scanFrom (marker : String) (frozen : List (Nat × Nat)) : (skip : Nat) → Place → List Char →
    Except Fault (List Directive)
  | _, _, [] => .ok []
  | skip + 1, p, c :: rest => scanFrom marker frozen skip (p.step c) rest
  | 0, p, c :: rest =>
    match Text.stripStart? marker.toList (c :: rest) with
    | none => scanFrom marker frozen 0 (p.step c) rest
    | some after =>
      if isFrozen frozen p.offset then
        scanFrom marker frozen (marker.length - 1) (p.step c) rest
      else do
        match ← found marker p.line after with
        | none => scanFrom marker frozen (marker.length - 1) (p.step c) rest
        | some f =>
          let members ← readPayload p.line f.object
          let taken := marker.toList ++ f.blanks ++ f.object
          let d : Directive :=
            ⟨p.offset, p.lineStart, p.offset + Text.width taken + lineRest f.rest, members⟩
          return d :: (← scanFrom marker frozen (taken.length - 1) (p.step c) rest)

/-- The directives of a text, in order. No marker, no directives. -/
def scan (marker : String) (frozen : List (Nat × Nat)) (s : String) :
    Except Fault (List Directive) :=
  if marker.isEmpty then .ok [] else scanFrom marker frozen 0 .first s.toList

/-! ### Taking out -/

/-- The text from a place on without the lines of directives. Lines that begin before the
place are gone already. -/
def stripFrom (s : List Char) : (cursor : Nat) → List Directive → List Char
  | cursor, [] => Text.dropBytes cursor s
  | cursor, d :: rest =>
    if d.start < cursor then stripFrom s cursor rest
    else Text.slice cursor d.start s ++ stripFrom s d.stop rest

/-- The text without the lines of its directives. -/
def strip (s : String) (directives : List Directive) : String :=
  String.ofList (stripFrom s.toList 0 directives)

end Directive
end Scaffold
