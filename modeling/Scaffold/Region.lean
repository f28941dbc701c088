import Scaffold.Options
import Scaffold.Region.Header
import Scaffold.Text.Bytes
import Scaffold.Text.Lines

/-!
# Regions

A region is a block of lines between a start line and an end line, both of them comments
with a marker as their only text. Behind the start line stands a header, and the content
begins behind the first blank line. A region without a blank line has no header and all of
it is content. Regions do not nest: a start line belongs to the first end line below it,
and an end line on its own is ordinary text.
-/

namespace Scaffold

/-- What the regions of a file look like. -/
structure Delimiters where
  comment : Comment
  startMarker : String
  endMarker : String
deriving DecidableEq, Inhabited

namespace Delimiters

/-- What the regions of the file at a path look like. -/
def ofOptions (o : Options) (path : Path) : Delimiters :=
  ⟨o.commentFor path, o.startMarker, o.endMarker⟩

/-- The line that starts a region. -/
def startLine (d : Delimiters) : String := d.comment.wrap d.startMarker

/-- The line that ends a region. -/
def endLine (d : Delimiters) : String := d.comment.wrap d.endMarker

end Delimiters

/-- A region of a text. Places are byte offsets. -/
structure Region where
  /-- Where the start line begins. -/
  start : Nat
  /-- Where the line behind the end line begins. -/
  stop : Nat
  /-- Where the content begins. -/
  contentStart : Nat
  /-- Where the end line begins. -/
  contentStop : Nat
  /-- What the header says, if it is a header. -/
  identity? : Option Identity
deriving Inhabited

namespace Region

/-- The place lies in the region. -/
def contains (r : Region) (offset : Nat) : Bool := r.start ≤ offset && offset < r.stop

/-- The content of a region of the text. -/
def content (r : Region) (s : List Char) : List Char := Text.slice r.contentStart r.contentStop s

/-- The region comes from the unit, with whatever parameters. -/
def matchesUnit (r : Region) (u : UnitName) : Bool := r.identity?.any (·.unit == u)

/-! ### Lines -/

/-- What a line is for regions. -/
inductive LineKind where
  | start
  | stop
  | other
deriving DecidableEq, Inhabited

/-- What a line is, which may still have its line end. -/
def lineKind (d : Delimiters) (line : List Char) : LineKind :=
  match d.comment.strip? line with
  | some text =>
    if text = d.startMarker.toList then .start
    else if text = d.endMarker.toList then .stop
    else .other
  | none => .other

/-- The lines before the first blank line, and that line. -/
def untilBlank? : List (List Char) → Option (List (List Char) × List Char)
  | [] => none
  | line :: rest =>
    if Text.allBlank line then some ([], line)
    else (untilBlank? rest).map fun (before, blank) => (line :: before, blank)

/-! ### Scanning -/

/-- Why the markers of a text do not pair. -/
inductive Complaint where
  /-- A second start line stands before the end line. -/
  | another (startMarker : String) (line : Nat) (endMarker : String)
  /-- There is no end line. -/
  | missing (endMarker : String)
deriving DecidableEq, Inhabited

/-- The region that is malformed, by the number of its start line. -/
structure Fault where
  line : Nat
  complaint : Complaint
deriving DecidableEq, Inhabited

/-- The wording of a complaint. -/
def Complaint.message : Complaint → String
  | .another startMarker line endMarker =>
    "found another `" ++ startMarker ++ "` on line " ++ toString line ++ " before `" ++
      endMarker ++ "`"
  | .missing endMarker => "missing `" ++ endMarker ++ "`"

/-- A region whose end line has not come yet: the number of its start line, where that line
begins and ends, and the lines behind it. -/
structure Opened where
  line : Nat
  start : Nat
  inside : Nat
  lines : List (List Char)
deriving Inhabited

/-- The region with one more line in it. -/
def Opened.add (o : Opened) (line : List Char) : Opened :=
  ⟨o.line, o.start, o.inside, o.lines ++ [line]⟩

/-- The region is closed by an end line that begins and ends at the given places. -/
def Opened.close (o : Opened) (c : Comment) (lineStart lineStop : Nat) : Region :=
  match untilBlank? o.lines with
  | some (header, blank) =>
    ⟨o.start, lineStop, o.inside + Text.width (header.flatten ++ blank), lineStart,
      Identity.ofHeader? c header⟩
  | none => ⟨o.start, lineStop, o.inside, lineStart, none⟩

/-- The regions of lines, of which the first has the given number and begins at the given
place. -/
def scanLines (d : Delimiters) : Option Opened → (line offset : Nat) → List (List Char) →
    Except Fault (List Region)
  | none, _, _, [] => .ok []
  | some o, _, _, [] => .error ⟨o.line, .missing d.endMarker⟩
  | opened?, n, offset, line :: rest =>
    let next := offset + Text.width line
    match lineKind d line, opened? with
    | .start, some o => .error ⟨o.line, .another d.startMarker n d.endMarker⟩
    | .start, none => scanLines d (some ⟨n, offset, next, []⟩) (n + 1) next rest
    | .stop, some o => do
      return o.close d.comment offset next :: (← scanLines d none (n + 1) next rest)
    | .other, some o => scanLines d (some (o.add line)) (n + 1) next rest
    | _, none => scanLines d none (n + 1) next rest

/-- The regions of a text, in order. -/
def scan (d : Delimiters) (s : String) : Except Fault (List Region) :=
  scanLines d none 1 0 (Text.lines s.toList)

/-- The places from the start to the end of each region. -/
def spans (regions : List Region) : List (Nat × Nat) := regions.map fun r => (r.start, r.stop)

end Region
end Scaffold
