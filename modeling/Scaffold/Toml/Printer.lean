import Scaffold.Number.Shortest
import Scaffold.Toml.Value
import Scaffold.Text.Split

/-!
# Writing TOML

A table is written as a section: a header and a line for each member that is no table.
Its tables follow as sections of their own, with a blank line before each. A section
without lines of its own is left out if sections follow for what it holds. An array of
more than one item has a line for each.
-/

namespace Scaffold.Toml.Printer

/-! ### Strings and keys -/

/-- A control character other than tab and line feed. -/
def isControl (c : Char) : Bool :=
  (c.toNat < 0x20 && c != '\t' && c != '\n') || c.toNat == 0x7F

/-- The text has a run of three of a character. -/
def hasThree (c : Char) (s : List Char) : Bool := Text.occurs [c, c, c] s

/-- A number of four hexadecimal digits, in capitals. -/
def hexFour (n : Nat) : List Char :=
  let digits := (Nat.toDigits 16 n).map Char.toUpper
  List.replicate (4 - digits.length) '0' ++ digits

/-- A character in double quotes that has to be escaped. -/
def escaped? : Char → Option (List Char)
  | '\x08' => some ['\\', 'b']
  | '\t' => some ['\\', 't']
  | '\x0c' => some ['\\', 'f']
  | '\r' => some ['\\', 'r']
  | '\\' => some ['\\', '\\']
  | c => if isControl c then some ('\\' :: 'u' :: hexFour c.toNat) else none

/-- The characters between double quotes. -/
def basicChars (s : List Char) : List Char :=
  s.flatMap fun c =>
    if c == '"' then ['\\', '"']
    else if c == '\n' then ['\\', 'n']
    else (escaped? c).getD [c]

/-- The characters between threefold double quotes: of a run of quotes every third one is
escaped. The run so far has `run` quotes since the last one that was. -/
def multilineChars : (run : Nat) → List Char → List Char
  | _, [] => []
  | run, c :: rest =>
    if c == '"' then
      if run == 2 then '\\' :: '"' :: multilineChars 0 rest
      else '"' :: multilineChars (run + 1) rest
    else (escaped? c).getD [c] ++ multilineChars 0 rest

/-- A text in double quotes. -/
def basic (s : List Char) : List Char := '"' :: basicChars s ++ ['"']

/-- A text in single quotes. -/
def literal (s : List Char) : List Char := '\'' :: s ++ ['\'']

/-- Three quotes on each side, with a line end behind the first ones if the text has one. -/
def threefold (quote : Char) (s body : List Char) : List Char :=
  let quotes := [quote, quote, quote]
  quotes ++ (if s.contains '\n' then ['\n'] else []) ++ body ++ quotes

/-- A text in double quotes needs no escape but for tabs. -/
def isPlainBasic (s : List Char) : Bool :=
  !s.any fun c => c == '\n' || c == '"' || c == '\\' || isControl c

/-- A text can stand between single quotes. -/
def isLiteral (s : List Char) : Bool := !s.any fun c => c == '\n' || c == '\'' || isControl c

/-- A text in the first kind of quotes that shows it best. -/
def string (s : List Char) : List Char :=
  if isPlainBasic s then basic s
  else if isLiteral s then literal s
  else if !s.any (fun c => c == '\\' || isControl c) && !hasThree '"' s then
    threefold '"' s (multilineChars 0 s)
  else if !s.any isControl && !hasThree '\'' s then threefold '\'' s s
  else if s.contains '\n' then threefold '"' s (multilineChars 0 s)
  else basic s

/-- A character of a key without quotes. -/
def isBareChar (c : Char) : Bool := c.isAlphanum || c == '_' || c == '-'

/-- A key between dots. -/
def key (k : String) : List Char :=
  let s := k.toList
  if !s.isEmpty && s.all isBareChar then s
  else if isPlainBasic s then basic s
  else if isLiteral s then literal s
  else basic s

/-! ### Values -/

/-- The text of a float that is finite or not. -/
def float (d : Double) : List Char :=
  if d.isNaN then "nan".toList
  else if d.isInfinite then (if d.isNegative then "-inf" else "inf").toList
  else d.plainText.toList

/-- Where a member stands among the members of a table. -/
inductive Rank where
  /-- No tables are in it. -/
  | plain
  /-- An array with tables in it. -/
  | mixed
  | table
deriving DecidableEq

/-- Where a member with this value stands. -/
def rank : Value → Rank
  | .table _ => .table
  | .array items => if items.any Value.isTable then .mixed else .plain
  | _ => .plain

/-- An array that is not empty and holds only tables has a section for each. -/
def isTables : Value → Bool
  | .array items => !items.isEmpty && items.all Value.isTable
  | _ => false

/-- The texts with commas between them. -/
def separated (texts : List (List Char)) : List Char :=
  List.intercalate [',', ' '] texts

/-- Items between brackets. Of two or more, each has a line of its own. -/
def brackets (texts : List (List Char)) : List Char :=
  match texts with
  | [] => ['[', ']']
  | [text] => '[' :: text ++ [']']
  | texts => '[' :: '\n' :: (texts.flatMap fun t => "    ".toList ++ t ++ [',', '\n']) ++ [']']

/-- Members between braces. -/
def braces (texts : List (List Char)) : List Char :=
  if texts.isEmpty then ['{', '}'] else '{' :: ' ' :: separated texts ++ [' ', '}']

mutual
/-- A value behind its key or in an array. -/
def value : Value → List Char
  | .string s => string s.toList
  | .integer i => (toString i).toList
  | .float d => float d
  | .boolean b => (if b then "true" else "false").toList
  | .datetime d => d.text.toList
  | .array items => brackets (values items)
  | .table members =>
    braces (inline .plain members ++ inline .mixed members ++ inline .table members)

/-- The items of an array. -/
def values : List Value → List (List Char)
  | [] => []
  | v :: rest => value v :: values rest

/-- The members of one rank, with their keys. -/
def inline (r : Rank) : List (String × Value) → List (List Char)
  | [] => []
  | (k, v) :: rest =>
    if rank v = r then (key k ++ " = ".toList ++ value v) :: inline r rest else inline r rest
end

/-! ### Sections -/

/-- A header with the lines below it. -/
structure Section where
  path : List String
  isElement : Bool
  body : List Char
  hasSections : Bool

/-- The value has sections of its own. -/
def hasSections (v : Value) : Bool := v.isTable || isTables v

/-- The lines of the members without sections for which `p` holds. -/
def lines (p : Value → Bool) (members : List (String × Value)) : List Char :=
  members.flatMap fun (k, v) =>
    if p v && !hasSections v then key k ++ " = ".toList ++ value v ++ ['\n'] else []

/-- The lines of a table below the top: arrays with tables in them come last. -/
def nestedLines (members : List (String × Value)) : List Char :=
  lines (rank · = .plain) members ++ lines (rank · = .mixed) members

mutual
/-- The sections of a member below a path. -/
def sections (path : List String) : Value → List Section
  | .table members =>
    ⟨path, false, nestedLines members, members.any (hasSections ·.2)⟩ ::
      (memberSections (rank · = .mixed) path members ++
        memberSections (rank · = .table) path members)
  | .array items => elementSections path items
  | _ => []

/-- The sections of the members for which `p` holds. -/
def memberSections (p : Value → Bool) (path : List String) :
    List (String × Value) → List Section
  | [] => []
  | (k, v) :: rest =>
    (if p v && hasSections v then sections (path ++ [k]) v else []) ++
      memberSections p path rest

/-- The sections of the elements of an array of tables. -/
def elementSections (path : List String) : List Value → List Section
  | [] => []
  | v :: rest =>
    (match v with
      | .table members =>
        ⟨path, true, nestedLines members, members.any (hasSections ·.2)⟩ ::
          (memberSections (rank · = .mixed) path members ++
            memberSections (rank · = .table) path members)
      | _ => []) ++ elementSections path rest
end

/-- A section shows something that no other section shows. -/
def Section.isNeeded (s : Section) : Bool :=
  if s.path.isEmpty then !s.body.isEmpty
  else s.isElement || !s.body.isEmpty || !s.hasSections

/-- The text of a section. -/
def Section.text (s : Section) : List Char :=
  let name := List.intercalate ['.'] (s.path.map key)
  let header :=
    if s.path.isEmpty then []
    else if s.isElement then '[' :: '[' :: name ++ [']', ']', '\n']
    else '[' :: name ++ [']', '\n']
  header ++ s.body

/-- The text of a document. -/
def print (t : Table) : String :=
  let root : Section := ⟨[], false, lines (fun _ => true) t, true⟩
  let all := (root :: memberSections (fun _ => true) [] t).filter Section.isNeeded
  String.ofList (List.intercalate ['\n'] (all.map Section.text))

end Scaffold.Toml.Printer
