import Scaffold.Toml.Value

/-!
# The tables of a document

While a document is read, every table remembers how it came to be, because that decides
what may still be added to it: a table that was written between braces is finished, one
that has its header may not have another, and one that arose from dotted keys is extended
by dotted keys only. `Outline.toTable` forgets all this.
-/

namespace Scaffold.Toml

/-- How a table came to be. -/
inductive Origin where
  /-- A header names a table below it. -/
  | implied
  /-- A dotted key names a member of it. -/
  | dotted
  /-- It has a header of its own. -/
  | header
  /-- It is written between braces. -/
  | braces
deriving DecidableEq, Inhabited

/-- What a key stands for. -/
inductive Item where
  | value (value : Value)
  | table (origin : Origin) (members : List (String × Item))
  | tables (elements : List (List (String × Item)))
deriving Inhabited

/-- The members of a table that is not finished. -/
abbrev Outline := List (String × Item)

namespace Outline

/-- What a key stands for. -/
def get? (k : String) (o : Outline) : Option Item := o.lookup k

/-- The key stands for something else where it is, or is added at the end. -/
def set (k : String) (item : Item) : Outline → Outline
  | [] => [(k, item)]
  | (other, old) :: rest =>
    if other = k then (k, item) :: rest else (other, old) :: set k item rest

/-- The outline without a key. -/
def erase (k : String) (o : Outline) : Outline := o.filter (·.1 != k)

/-- A change to the table at the end of a path. The tables on the way are created if they
are missing; of an array of tables the last one is meant. Dotted keys pass only through
tables without a header. -/
def change (byDots : Bool) (f : Origin → Outline → Option Outline) :
    List String → Origin → Outline → Option Outline
  | [], origin, o => f origin o
  | k :: path, _, o => do
    match o.get? k with
    | none =>
      let origin : Origin := if byDots then .dotted else .implied
      return o.set k (.table origin (← change byDots f path origin []))
    | some (.value _) => none
    | some (.table origin members) =>
      if origin = .braces || (byDots && origin = .header) then none
      else return o.set k (.table origin (← change byDots f path origin members))
    | some (.tables elements) =>
      if byDots then none
      else match elements.getLast? with
        | none => none
        | some last =>
          return o.set k (.tables (elements.dropLast ++ [← change byDots f path .header last]))

/-- A member is added under a dotted key. Its table has to be the one where the key is
written, or to have arisen from dotted keys. -/
def addMember (path : List String) (k : String) (item : Item) (o : Outline) : Option Outline :=
  change true (fun origin members =>
    if !path.isEmpty && origin != .dotted then none
    else if (members.get? k).isSome then none
    else some (members.set k item)) path .header o

/-- A table gets its header: what its members are so far, and the outline without it. A table
that has been implied before goes to the end of its parent. -/
def openTable (path : List String) (k : String) (o : Outline) : Option Outline :=
  change false (fun _ members =>
    match members.get? k with
    | none => some (members.set k (.table .header []))
    | some (.table .implied inner) => some ((erase k members).set k (.table .header inner))
    | some _ => none) path .header o

/-- An array of tables gets one more. -/
def openElement (path : List String) (k : String) (o : Outline) : Option Outline :=
  change false (fun _ members =>
    match members.get? k with
    | none => some (members.set k (.tables [[]]))
    | some (.tables elements) => some (members.set k (.tables (elements ++ [[]])))
    | some _ => none) path .header o

/-- A member is added to the table whose header was last, given by its path from the root. -/
def addBelow (header path : List String) (k : String) (item : Item) (o : Outline) :
    Option Outline :=
  change false (fun _ members => addMember path k item members) header .header o

mutual
/-- The value of an item. -/
def itemValue : Item → Value
  | .value v => v
  | .table _ members => .table (toTable members)
  | .tables elements => .array (elementValues elements)

/-- The finished table. -/
def toTable : List (String × Item) → Table
  | [] => []
  | (k, item) :: rest => (k, itemValue item) :: toTable rest

/-- The finished tables of an array. -/
def elementValues : List (List (String × Item)) → List Value
  | [] => []
  | members :: rest => .table (toTable members) :: elementValues rest
end

end Outline
end Scaffold.Toml
