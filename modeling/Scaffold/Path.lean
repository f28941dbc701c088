import Scaffold.Text.Split

/-!
# Paths

A path is kept as it is written. Its components are what lies between slashes,
without empty ones and without `.` but for one at the very start. Paths are
compared and ordered by their components, so `a//b` and `a/./b` name what `a/b` names.
-/

namespace Scaffold

/-- A path as it is written. -/
structure Path where
  text : String
deriving DecidableEq, Inhabited

/-- A step of a path. -/
inductive Component where
  | root
  | current
  | parent
  | normal (name : String)
deriving DecidableEq, Inhabited

namespace Component

/-- The written form. -/
def text : Component → String
  | .root => "/"
  | .current => "."
  | .parent => ".."
  | .normal name => name

/-- Kinds of components in order, and names in the order of their bytes. -/
def le : Component → Component → Bool
  | .normal a, .normal b => a ≤ b
  | .normal _, _ => false
  | _, .normal _ => true
  | .parent, .parent => true
  | .parent, _ => false
  | _, .parent => true
  | .current, .current => true
  | .current, .root => false
  | _, _ => true

/-- The order of lists of components: component by component, a shorter list first. -/
def leAll : List Component → List Component → Bool
  | [], _ => true
  | _ :: _, [] => false
  | a :: as, b :: bs => if a = b then leAll as bs else le a b

end Component

namespace Path

/-- The components of the pieces between slashes. A `.` counts only as the first piece
of a relative path. -/
def componentsOf (atStart : Bool) : List (List Char) → List Component
  | [] => []
  | piece :: pieces =>
    let rest := componentsOf false pieces
    match piece with
    | [] => rest
    | ['.'] => if atStart then .current :: rest else rest
    | ['.', '.'] => .parent :: rest
    | name => .normal (String.ofList name) :: rest

/-- The path starts at the root of the file system. -/
def isAbsolute (p : Path) : Bool := Text.startsWith ['/'] p.text.toList

/-- The components of a path. -/
def components (p : Path) : List Component :=
  if p.isAbsolute then .root :: componentsOf false (Text.splitOn '/' p.text.toList)
  else componentsOf true (Text.splitOn '/' p.text.toList)

/-- Paths that name the same place by their components. -/
def same (p q : Path) : Bool := p.components == q.components

/-- The order of paths by their components. -/
def le (p q : Path) : Bool := Component.leAll p.components q.components

/-- The path `q` taken from `p`: an absolute `q` stands for itself. -/
def join (p q : Path) : Path :=
  if q.isAbsolute then q
  else if p.text.isEmpty || p.text.toList.getLast? == some '/' then ⟨p.text ++ q.text⟩
  else ⟨p.text ++ "/" ++ q.text⟩

/-- The path that pushes the components one after the other. -/
def ofComponents (cs : List Component) : Path :=
  cs.foldl (fun p c => p.join ⟨c.text⟩) ⟨""⟩

/-- The path without its last component. A path without components has none to lose. -/
def parent? (p : Path) : Option Path :=
  match p.components.getLast? with
  | none | some .root => none
  | some _ => some (ofComponents p.components.dropLast)

/-- What remains of a path behind the components of another one. -/
def stripStart? (root p : Path) : Option Path :=
  if root.components.isPrefixOf p.components then
    some (ofComponents (p.components.drop root.components.length))
  else none

/-- The last component, if it is a name. -/
def fileName? (p : Path) : Option String :=
  match p.components.getLast? with
  | some (.normal name) => some name
  | _ => none

/-- What follows the last point of a file name that does not begin with it. -/
def extensionOf? (name : String) : Option String := do
  let (stem, extension) ← Text.splitLast? '.' name.toList
  if stem.isEmpty then none else some (String.ofList extension)

/-- The extension of the file name. -/
def extension? (p : Path) : Option String := p.fileName?.bind extensionOf?

end Path
end Scaffold
