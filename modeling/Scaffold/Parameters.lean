import Scaffold.Json.Value

/-!
# Parameters

The parameters that a unit is applied with: values by name, kept in the order of
their names, so that headers and records do not depend on the order in which the
parameters were given.
-/

namespace Scaffold

/-- Values by name, in increasing order of names. -/
abbrev Parameters := List (String × Json.Value)

namespace Parameters

/-- The value of a parameter is set. -/
def insert (name : String) (value : Json.Value) : Parameters → Parameters
  | [] => [(name, value)]
  | (other, old) :: rest =>
    if name = other then (name, value) :: rest
    else if name < other then (name, value) :: (other, old) :: rest
    else (other, old) :: insert name value rest

/-- The parameters of a list of pairs, where a later pair overwrites an earlier one. -/
def ofPairs (pairs : List (String × Json.Value)) : Parameters :=
  pairs.foldl (fun acc (name, value) => insert name value acc) []

/-- Equality of names and values. -/
def same (a b : Parameters) : Bool := (Json.Value.object a).same (.object b)

end Parameters
end Scaffold
