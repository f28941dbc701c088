import Scaffold.Json.Value
import Scaffold.Strategy

/-!
# Merging values

A source value is merged into a target value. Objects are merged name by name: a name that
both have keeps its place in the target, and a new name goes to the end. Arrays are merged
as a strategy says. In every other case, `null` included, the source stands alone.
-/

namespace Scaffold.Merge

/-- An item takes the place of the first item with the same value of the field, or goes to the
end if there is none. -/
def putByField (field : String) (target : List Json.Value) (item : Json.Value) :
    List Json.Value :=
  match item.get? field with
  | none => target ++ [item]
  | some key =>
    match target.findIdx? fun other => (other.get? field).any (·.same key) with
    | some i => target.set i item
    | none => target ++ [item]

/-- The items of the source are put into the target one by one, by the value of a field. -/
def arraysByField (field : String) (target source : List Json.Value) : List Json.Value :=
  source.foldl (putByField field) target

mutual
/-- The source merged into the target. -/
def values (arrays : ArrayStrategy) (target source : Json.Value) : Json.Value :=
  match source, target with
  | .object more, .object members => .object (objects arrays members more)
  | .array more, .array items =>
    .array (match arrays with
      | .replace => more
      | .ignore => if items.isEmpty then more else items
      | .concat => items ++ more
      | .key field => arraysByField field items more
      | .combine => itemwise arrays items more)
  | source, _ => source

/-- The members of the source merged into those of the target. -/
def objects (arrays : ArrayStrategy) (target : Json.Members) :
    List (String × Json.Value) → Json.Members
  | [] => target
  | (name, value) :: rest =>
    let merged := match target.get? name with
      | some old => values arrays old value
      | none => value
    objects arrays (target.insert name merged) rest

/-- The items of the source merged into those of the target in the same places. -/
def itemwise (arrays : ArrayStrategy) (target : List Json.Value) :
    List Json.Value → List Json.Value
  | [] => target
  | item :: rest =>
    match target with
    | [] => item :: itemwise arrays [] rest
    | old :: more => values arrays old item :: itemwise arrays more rest
end

/-- The items of the source merged into those of the target. -/
def arrays (strategy : ArrayStrategy) (target source : List Json.Value) : List Json.Value :=
  match strategy with
  | .replace => source
  | .ignore => if target.isEmpty then source else target
  | .concat => target ++ source
  | .key field => arraysByField field target source
  | .combine => itemwise .combine target source

/-- Two arrays are merged as the strategy says. -/
theorem values_array (strategy : ArrayStrategy) (target source : List Json.Value) :
    values strategy (.array target) (.array source) = .array (arrays strategy target source) := by
  cases strategy <;> simp [values, arrays]

end Scaffold.Merge
