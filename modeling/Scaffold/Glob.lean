/-!
# Glob patterns

A pattern is read as a list of tokens and matched against the bytes of a path. `*` and
`?` match any bytes, a slash included. `**` between slashes stands for any number of
folders. Alternatives stand between braces and may be nested.
-/

namespace Scaffold.Glob

/-- A set of characters between brackets. -/
structure Class where
  negated : Bool
  ranges : List (Char × Char)
deriving Inhabited

/-- A part of a pattern. -/
inductive Token where
  | literal (c : Char)
  /-- Any byte. -/
  | any
  /-- Any bytes. -/
  | many
  /-- Any folders, at the front. -/
  | leadingFolders
  /-- Anything in the folder. -/
  | wholeFolder
  /-- Any folders, between slashes. -/
  | innerFolders
  | class (c : Class)
  | alternatives (branches : List (List Token))
deriving Inhabited

/-- Why a text is no pattern. -/
inductive Fault where
  | unclosedClass
  | invalidRange (first last : Char)
  | unopenedAlternates
  | unclosedAlternates
deriving DecidableEq, Inhabited

/-- The wording of a fault. -/
def Fault.message (f : Fault) (pattern : String) : String :=
  "error parsing glob '" ++ pattern ++ "': " ++
    match f with
    | .unclosedClass => "unclosed character class; missing ']'"
    | .invalidRange first last =>
      "invalid range; '" ++ String.singleton first ++ "' > '" ++ String.singleton last ++ "'"
    | .unopenedAlternates =>
      "unopened alternate group; missing '\x7b' (maybe escape '\x7d' with '[\x7d]'?)"
    | .unclosedAlternates =>
      "unclosed alternate group; missing '\x7d' (maybe escape '\x7b' with '[\x7b]'?)"

/-! ### Reading -/

/-- A group of alternatives that is not closed: the finished branches and the tokens before
the group, both in reverse. -/
structure Group where
  branches : List (List Token)
  before : List Token

/-- A set that is not closed: its ranges in reverse. -/
structure OpenClass where
  negated : Bool
  ranges : List (Char × Char) := []
  first : Bool := true
  inRange : Bool := false

/-- What is read of a pattern: the tokens of the branch in reverse, the open groups and the
last character. -/
structure Reading where
  tokens : List Token := []
  groups : List Group := []
  last? : Option Char := none

namespace Reading

/-- A token is added. -/
def push (t : Token) (r : Reading) : Reading := { r with tokens := t :: r.tokens }

/-- The last character read is noted. -/
def behind (c : Char) (r : Reading) : Reading := { r with last? := some c }

/-- Two stars without a meaning of their own. -/
def twoMany (r : Reading) : Reading := (r.push .many).push .many

/-- The token before two stars gives way to what they mean together. -/
def fold (t : Token) (r : Reading) : Reading :=
  match r.tokens with
  | .leadingFolders :: _ | .wholeFolder :: _ => r
  | _ :: rest => { r with tokens := t :: rest }
  | [] => r.push t

/-- Two stars before `rest`: whether a slash behind them belongs to them, and what is read. -/
def doubleStar (r : Reading) (rest : List Char) : Bool × Reading :=
  if r.tokens.isEmpty then
    match rest with
    | [] => (false, r.push .leadingFolders)
    | '/' :: _ => (true, r.push .leadingFolders)
    | _ => (false, r.twoMany)
  else if r.last? != some '/' then (false, r.twoMany)
  else match rest with
    | [] => (false, r.fold .wholeFolder)
    | '/' :: _ => (true, r.fold .innerFolders)
    | c :: _ =>
      if (c == ',' || c == '}') && !r.groups.isEmpty then (false, r.fold .wholeFolder)
      else (false, r.twoMany)

end Reading

/-- The last range of a set gets its end. -/
def OpenClass.closeRange (k : OpenClass) (c : Char) : Except Fault OpenClass :=
  match k.ranges with
  | (first, _) :: rest =>
    if c < first then .error (.invalidRange first c)
    else .ok { k with ranges := (first, c) :: rest, first := false, inRange := false }
  | [] => .ok k

/-- A character between brackets; none if it closes them. -/
def OpenClass.step (k : OpenClass) (c : Char) : Except Fault (Option OpenClass) :=
  if c == ']' && !k.first then .ok none
  else if c == '-' && !k.first && !k.inRange then .ok (some { k with inRange := true })
  else if k.inRange then (k.closeRange c).map some
  else .ok (some { k with ranges := (c, c) :: k.ranges, first := false })

/-- The finished set. A hyphen at its end stands for itself. -/
def OpenClass.close (k : OpenClass) : Class :=
  ⟨k.negated, (if k.inRange then ('-', '-') :: k.ranges else k.ranges).reverse⟩

/-- The tokens of a pattern, of which a part is read. -/
def readFrom : Option OpenClass → Reading → List Char → Except Fault (List Token)
  | none, r, [] => if r.groups.isEmpty then .ok r.tokens.reverse else .error .unclosedAlternates
  | some _, _, [] => .error .unclosedClass
  | some k, r, c :: rest => do
    match ← k.step c with
    | some k => readFrom (some k) (r.behind c) rest
    | none => readFrom none ((r.push (.class k.close)).behind c) rest
  | none, r, '*' :: '*' :: rest =>
    let (takesSlash, r) := r.doubleStar rest
    if takesSlash then
      match rest with
      | c :: rest => readFrom none (r.behind c) rest
      | [] => readFrom none (r.behind '*') []
    else readFrom none (r.behind '*') rest
  | none, r, '[' :: '!' :: rest => readFrom (some { negated := true }) (r.behind '!') rest
  | none, r, '[' :: '^' :: rest => readFrom (some { negated := true }) (r.behind '^') rest
  | none, r, c :: rest =>
    let r' := r.behind c
    match c with
    | '?' => readFrom none (r'.push .any) rest
    | '*' => readFrom none (r'.push .many) rest
    | '[' => readFrom (some { negated := false }) r' rest
    | '{' => readFrom none { r' with tokens := [], groups := ⟨[], r.tokens⟩ :: r.groups } rest
    | '}' =>
      match r.groups with
      | [] => .error .unopenedAlternates
      | g :: groups =>
        let branches := (r.tokens.reverse :: g.branches).reverse
        readFrom none { r' with tokens := .alternatives branches :: g.before, groups } rest
    | ',' =>
      match r.groups with
      | [] => readFrom none (r'.push (.literal ',')) rest
      | g :: groups =>
        readFrom none { r' with
          tokens := [], groups := { g with branches := r.tokens.reverse :: g.branches } :: groups }
          rest
    | c => readFrom none (r'.push (.literal c)) rest

/-- The tokens of a pattern. -/
def parse (pattern : String) : Except Fault (List Token) := readFrom none {} pattern.toList

/-! ### Matching -/

/-- The bytes of a character. -/
def bytesOf (c : Char) : List UInt8 := (String.singleton c).toUTF8.toList

/-- What follows the slash at the front. -/
def afterSlash? : List UInt8 → Option (List UInt8)
  | b :: rest => if b == 47 then some rest else none
  | [] => none

/-- Some end of the bytes is accepted. -/
def someEnd (accept : List UInt8 → Bool) : List UInt8 → Bool
  | [] => accept []
  | b :: rest => accept (b :: rest) || someEnd accept rest

/-- Some end of the bytes that follows a slash is accepted. -/
def someFolder (accept : List UInt8 → Bool) (s : List UInt8) : Bool :=
  someEnd (fun rest => (afterSlash? rest).any accept) s

/-- What follows the given bytes at the front. -/
def afterBytes? : List UInt8 → List UInt8 → Option (List UInt8)
  | [], s => some s
  | _ :: _, [] => none
  | a :: expected, b :: s => if a == b then afterBytes? expected s else none

/-- The byte is in a range. A range of characters with several bytes counts its inner ends as
the ends of a range of bytes, and every other byte for itself. -/
def inRange (b : UInt8) (first last : Char) : Bool :=
  if first == last then (bytesOf first).contains b
  else
    let low := bytesOf first
    let high := bytesOf last
    low.dropLast.contains b || (high.drop 1).contains b ||
      (low.getLast?.getD 0 ≤ b && b ≤ high.head?.getD 0)

/-- The byte is in a set. -/
def Class.holds (k : Class) (b : UInt8) : Bool :=
  (k.ranges.any fun (first, last) => inRange b first last) != k.negated

/-- The branch matches nothing but the empty text for lack of tokens. -/
def isEmptyBranch (tokens : List Token) : Bool := tokens.isEmpty

mutual
/-- The token matches the front of the bytes in a way that leaves an accepted end. -/
def matchToken : Token → (List UInt8 → Bool) → List UInt8 → Bool
  | .literal c, accept, s => (afterBytes? (bytesOf c) s).any accept
  | .any, accept, s =>
    match s with
    | _ :: rest => accept rest
    | [] => false
  | .many, accept, s => someEnd accept s
  | .leadingFolders, accept, s =>
    accept s || (afterSlash? s).any accept || someFolder accept s
  | .wholeFolder, accept, s => (afterSlash? s).any (someEnd accept)
  | .innerFolders, accept, s =>
    (afterSlash? s).any fun rest => accept rest || someFolder accept rest
  | .class k, accept, s =>
    match s with
    | b :: rest => k.holds b && accept rest
    | [] => false
  | .alternatives branches, accept, s =>
    if branches.all isEmptyBranch then accept s else matchBranches branches accept s

/-- One of the branches matches. Empty branches do not count. -/
def matchBranches : List (List Token) → (List UInt8 → Bool) → List UInt8 → Bool
  | [], _, _ => false
  | branch :: rest, accept, s =>
    (!isEmptyBranch branch && matchTokens branch accept s) || matchBranches rest accept s

/-- The tokens match one after the other. -/
def matchTokens : List Token → (List UInt8 → Bool) → List UInt8 → Bool
  | [], accept, s => accept s
  | t :: rest, accept, s => matchToken t (fun s => matchTokens rest accept s) s
end

/-- The pattern of these tokens matches a whole path. Two stars alone match every path. -/
def isMatch (tokens : List Token) (path : String) : Bool :=
  match tokens with
  | [.leadingFolders] => true
  | _ => matchTokens tokens List.isEmpty path.toUTF8.toList

end Scaffold.Glob
