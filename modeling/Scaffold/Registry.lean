/-!
# Registries

A registry finds things by name. It is kept in the order of the names, and a name that is
registered again stands for the new thing.
-/

namespace Scaffold

/-- Things by name, in increasing order of names. -/
abbrev Registry (α : Type) := List (String × α)

namespace Registry

variable {α : Type}

/-- A thing is registered under a name. -/
def register (name : String) (a : α) : Registry α → Registry α
  | [] => [(name, a)]
  | (other, b) :: rest =>
    if name = other then (name, a) :: rest
    else if name < other then (name, a) :: (other, b) :: rest
    else (other, b) :: register name a rest

/-- The registry of pairs, where a later pair replaces an earlier one of the same name. -/
def ofPairs (pairs : List (String × α)) : Registry α :=
  pairs.foldl (fun acc (name, a) => register name a acc) []

/-- The registered names, in order. -/
def names (r : Registry α) : List String := r.map Prod.fst

/-- What is registered under a name. -/
def find? (r : Registry α) (name : String) : Option α := r.lookup name

/-- Whether a name is registered. -/
def contains (r : Registry α) (name : String) : Bool := (r.find? name).isSome

/-- What is registered under names, in their order. The first name that is not registered is
the error. -/
def findAll (r : Registry α) : List String → Except String (List α)
  | [] => .ok []
  | name :: rest =>
    match r.find? name with
    | some a => (findAll r rest).map (a :: ·)
    | none => .error name

end Registry
end Scaffold
