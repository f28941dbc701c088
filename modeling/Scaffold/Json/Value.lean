import Scaffold.Number.Shortest

/-!
# JSON values

A JSON value. The members of an object are a list in the order in which their names
first appeared; `insert` keeps that order and keeps names apart, and
`Value.WellFormed` says that no object of a value repeats a name. A number is an
integer or a double.
-/

namespace Scaffold.Json

/-- A number: an integer that was written as one, or a double. -/
inductive Number where
  | integer (value : Int)
  | double (value : Double)
deriving DecidableEq, Inhabited

/-- Equality of numbers. An integer never equals a double, and the two zeros are equal. -/
def Number.same : Number → Number → Bool
  | .integer a, .integer b => a == b
  | .double a, .double b => a.same b
  | _, _ => false

/-- A JSON value. -/
inductive Value where
  | null
  | bool (value : Bool)
  | number (value : Number)
  | string (value : String)
  | array (items : List Value)
  | object (members : List (String × Value))
deriving Inhabited

/-- The members of an object, in order of first appearance. -/
abbrev Members := List (String × Value)

namespace Members

/-- The value of the member `name`. -/
def get? (name : String) : Members → Option Value
  | [] => none
  | (key, value) :: rest => if key = name then some value else get? name rest

/-- The member `name` gets a new value where it stands, or is added at the end. -/
def insert (name : String) (value : Value) : Members → Members
  | [] => [(name, value)]
  | (key, old) :: rest =>
    if key = name then (key, value) :: rest else (key, old) :: insert name value rest

/-- The members of `more` are inserted one after the other. -/
def insertAll (members more : Members) : Members :=
  more.foldl (fun acc (name, value) => acc.insert name value) members

/-- The members of a list of pairs, where a later pair overwrites an earlier one. -/
def ofPairs (pairs : List (String × Value)) : Members := insertAll [] pairs

/-- The names, in order. -/
def names (members : Members) : List String := members.map Prod.fst

@[simp] theorem get?_insert_self (members : Members) (name : String) (value : Value) :
    (members.insert name value).get? name = some value := by
  induction members with
  | nil => simp [insert, get?]
  | cons m rest ih =>
    obtain ⟨key, old⟩ := m
    by_cases h : key = name <;> simp [insert, get?, h, ih]

theorem get?_insert_of_ne (members : Members) {name other : String} (value : Value)
    (h : other ≠ name) : (members.insert name value).get? other = members.get? other := by
  induction members with
  | nil => simp [insert, get?, h.symm]
  | cons m rest ih =>
    obtain ⟨key, old⟩ := m
    by_cases hk : key = name
    · subst hk
      simp [insert, get?, h.symm]
    · by_cases ho : key = other
      · subst ho
        simp [insert, get?, hk]
      · simp [insert, get?, hk, ho, ih]

end Members

namespace Value

/-! ### Equality -/

mutual
/-- Equality of values: arrays item by item, objects as maps from names to values. -/
def same : Value → Value → Bool
  | .null, .null => true
  | .bool a, .bool b => a == b
  | .number a, .number b => a.same b
  | .string a, .string b => a == b
  | .array a, .array b => sameItems a b
  | .object a, .object b => a.length == b.length && sameMembers a b
  | _, _ => false

/-- Equality of arrays. -/
def sameItems : List Value → List Value → Bool
  | [], [] => true
  | a :: as, b :: bs => same a b && sameItems as bs
  | _, _ => false

/-- Every member has an equal one of the same name on the other side. -/
def sameMembers : List (String × Value) → List (String × Value) → Bool
  | [], _ => true
  | (name, a) :: rest, b =>
    (match Members.get? name b with
      | some v => same a v
      | none => false) && sameMembers rest b
end

/-- The member `name` of an object. -/
def get? (name : String) : Value → Option Value
  | .object members => Members.get? name members
  | _ => none

/-- The value is `null`. -/
def isNull : Value → Bool
  | .null => true
  | _ => false

mutual
/-- No object in the value repeats a name. -/
def WellFormed : Value → Prop
  | .array items => WellFormedItems items
  | .object members => (members.map Prod.fst).Nodup ∧ WellFormedMembers members
  | _ => True

/-- `WellFormed` for all items. -/
def WellFormedItems : List Value → Prop
  | [] => True
  | item :: rest => WellFormed item ∧ WellFormedItems rest

/-- `WellFormed` for the values of all members. -/
def WellFormedMembers : List (String × Value) → Prop
  | [] => True
  | (_, value) :: rest => WellFormed value ∧ WellFormedMembers rest
end

end Value

end Scaffold.Json
