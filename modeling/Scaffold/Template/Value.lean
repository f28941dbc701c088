import Scaffold.Json.Value
import Scaffold.Template.Fault
import Scaffold.Text.Quoted
import Scaffold.Text.Split

/-!
# Values in templates

The values that the expressions of a template compute with. A map holds its entries in
the order of their keys. Values of all kinds are ordered, first by kind; numbers are
compared by value, and a truth value counts as a number where a number is asked for.
-/

namespace Scaffold.Template

/-- What a loop knows of its turn: its place, the number of turns and its depth. -/
structure Turn where
  index : Nat
  length : Nat
  depth : Nat
deriving DecidableEq, Inhabited

/-- A value. -/
inductive Value where
  /-- No value. A silent one may be printed. -/
  | undefined (silent : Bool)
  | none
  | bool (value : Bool)
  | integer (value : Int)
  | float (value : Double)
  | string (value : String)
  | list (items : List Value)
  | map (entries : List (Value × Value))
  | function (name : String)
  | loop (turn : Turn)
deriving Inhabited

namespace Value

/-! ### Order and equality -/

/-- The place of a value's kind among all kinds. -/
def kindRank : Value → Nat
  | .undefined _ => 0
  | .none => 1
  | .bool _ => 2
  | .integer _ | .float _ => 3
  | .string _ => 4
  | .list _ => 5
  | .map _ => 6
  | .function _ | .loop _ => 7

/-- The integer that a value counts as. -/
def integer? : Value → Option Int
  | .integer i => some i
  | .bool b => some (if b then 1 else 0)
  | _ => Option.none

/-- The double that a value counts as. -/
def float? : Value → Option Double
  | .float d => some d
  | v => v.integer?.map Double.ofInt

/-- The order of two doubles. -/
def compareDoubles (a b : Double) : Ordering := compare a.orderKey b.orderKey

/-- The order of two values that are no containers. -/
def compareSimple (a b : Value) : Ordering :=
  match a, b with
  | .string a, .string b => compare a b
  | _, _ =>
    match a.integer?, b.integer? with
    | some i, some j => compare i j
    | _, _ =>
      match a.float?, b.float? with
      | some x, some y => compareDoubles x y
      | _, _ => compare a.kindRank b.kindRank

mutual
/-- The order of values. -/
def order : Value → Value → Ordering
  | .list a, .list b => orderItems a b
  | .map a, .map b => orderEntries a b
  | a, b => compareSimple a b

/-- The order of lists, item by item. -/
def orderItems : List Value → List Value → Ordering
  | [], [] => .eq
  | [], _ :: _ => .lt
  | _ :: _, [] => .gt
  | a :: as, b :: bs => (order a b).then (orderItems as bs)

/-- The order of maps, entry by entry. -/
def orderEntries : List (Value × Value) → List (Value × Value) → Ordering
  | [], [] => .eq
  | [], _ :: _ => .lt
  | _ :: _, [] => .gt
  | (k, v) :: as, (l, w) :: bs => ((order k l).then (order v w)).then (orderEntries as bs)
end

/-- Equality of values. What is no number equals nothing. -/
def same (a b : Value) : Bool :=
  match a, b with
  | .float x, .float y => x.same y
  | _, _ => order a b == .eq

/-- The entry of a key is set, in the order of keys. -/
def insertEntry (k v : Value) : List (Value × Value) → List (Value × Value)
  | [] => [(k, v)]
  | (l, w) :: rest =>
    match order k l with
    | .lt => (k, v) :: (l, w) :: rest
    | .eq => (l, v) :: rest
    | .gt => (l, w) :: insertEntry k v rest

/-- The map of pairs, of which a later one overwrites an earlier one. -/
def ofPairs (pairs : List (Value × Value)) : Value :=
  .map (pairs.foldl (fun acc (k, v) => insertEntry k v acc) [])

mutual
/-- The template value of a JSON value. -/
def ofJson : Json.Value → Value
  | .null => .none
  | .bool b => .bool b
  | .number (.integer i) => .integer i
  | .number (.double d) => .float d
  | .string s => .string s
  | .array items => .list (ofJsonItems items)
  | .object members => .map (ofJsonMembers members)

/-- The template values of items. -/
def ofJsonItems : List Json.Value → List Value
  | [] => []
  | item :: rest => ofJson item :: ofJsonItems rest

/-- The entries of members, in the order of keys; of members of one name the last counts. -/
def ofJsonMembers : List (String × Json.Value) → List (Value × Value)
  | [] => []
  | (name, value) :: rest =>
    let later := ofJsonMembers rest
    if later.any fun (k, _) => k.same (.string name) then later
    else insertEntry (.string name) (ofJson value) later
end

/-! ### Kinds -/

/-- The value counts as no value where one is needed. -/
def isUndefined : Value → Bool
  | .undefined _ => true
  | _ => false

/-- The value may not be used, because it is none. -/
def isMissing : Value → Bool
  | .undefined silent => !silent
  | _ => false

/-- The value counts as true. -/
def isTrue : Value → Bool
  | .undefined _ | .none => false
  | .bool b => b
  | .integer i => i != 0
  | .float d => !d.isZero
  | .string s => !s.isEmpty
  | .list items => !items.isEmpty
  | .map entries => !entries.isEmpty
  | .function _ | .loop _ => true

/-- The items of a value that can be gone through: the items of a list, the keys of a map, the
characters of a text. Nothing stands for no items. -/
def items? : Value → Option (List Value)
  | .undefined _ | .none => some []
  | .string s => some (s.toList.map fun c => .string (String.singleton c))
  | .list items => some items
  | .map entries => some (entries.map Prod.fst)
  | _ => Option.none

/-- The number of items. -/
def length? : Value → Option Nat
  | .string s => some s.length
  | .list items => some items.length
  | .map entries => some entries.length
  | _ => Option.none

/-! ### Text -/

/-- The text of a double. -/
def floatText (d : Double) : String :=
  if d.isNaN then "NaN"
  else if d.isInfinite then if d.isNegative then "-inf" else "inf"
  else d.plainText

mutual
/-- The text of a value in a container. -/
def quotedText : Value → String
  | .undefined _ => "Undefined"
  | .none => "None"
  | .bool b => if b then "True" else "False"
  | .integer i => toString i
  | .float d => floatText d
  | .string s => Text.quoted s
  | .list items => "[" ++ String.intercalate ", " (itemTexts items) ++ "]"
  | .map entries => "\x7b" ++ String.intercalate ", " (entryTexts entries) ++ "\x7d"
  | .function name => name
  | .loop turn => "<loop " ++ toString turn.index ++ "/" ++ toString turn.length ++ ">"

/-- The texts of items. -/
def itemTexts : List Value → List String
  | [] => []
  | item :: rest => quotedText item :: itemTexts rest

/-- The texts of entries. -/
def entryTexts : List (Value × Value) → List String
  | [] => []
  | (k, v) :: rest => (quotedText k ++ ": " ++ quotedText v) :: entryTexts rest
end

/-- The text of a value: a text is shown as it is, and no value shows nothing. -/
def text : Value → String
  | .undefined _ => ""
  | .string s => s
  | v => v.quotedText

/-! ### Parts -/

/-- The item at a place of a list; a negative place counts from the end. -/
def itemAt? {α : Type} (items : List α) (i : Int) : Option α :=
  match i with
  | .ofNat n => items[n]?
  | .negSucc n => if n < items.length then items[items.length - (n + 1)]? else Option.none

/-- What a loop tells of its turn. -/
def turnPart? (t : Turn) : String → Option Value
  | "index" => some (.integer (t.index + 1))
  | "index0" => some (.integer t.index)
  | "revindex" => some (.integer (t.length - t.index))
  | "revindex0" => some (.integer (t.length - t.index - 1))
  | "first" => some (.bool (t.index == 0))
  | "last" => some (.bool (t.index + 1 == t.length))
  | "length" => some (.integer t.length)
  | "depth" => some (.integer t.depth)
  | "depth0" => some (.integer (t.depth - 1))
  | _ => Option.none

/-- The part of a value under a key. -/
def part? (v key : Value) : Option Value :=
  match v, key with
  | .map entries, _ => (entries.find? fun (k, _) => k.same key).map Prod.snd
  | .list items, .integer i => itemAt? items i
  | .string s, .integer i => (itemAt? s.toList i).map fun c => .string (String.singleton c)
  | .loop turn, .string name => turnPart? turn name
  | _, _ => Option.none

/-- The part of a value under a key. A value that is missing has no parts. -/
def part (v key : Value) : Except Fault Value :=
  match v.part? key with
  | some part => .ok part
  | Option.none => if v.isMissing then .error .undefinedValue else .ok (.undefined false)

/-- Whether a container has the value. -/
def contains (container v : Value) : Except Fault Bool :=
  match container with
  | .undefined silent => if silent then .ok false else .error .undefinedValue
  | .string s => .ok (Text.occurs v.text.toList s.toList)
  | .list items => .ok (items.any v.same)
  | .map entries => .ok (entries.any fun (k, _) => k.same v)
  | .loop _ | .function _ => .ok false
  | _ => .error .invalidOperation

/-! ### Arithmetic -/

/-- The integers that can be computed with: those of 128 bits with a sign. -/
def isComputable (i : Int) : Bool := -Int.pow 2 127 ≤ i && i < Int.pow 2 127

/-- The outcome of an operation on integers. -/
def computed : Option Int → Except Fault Value
  | some i => if isComputable i then .ok (.integer i) else .error .invalidOperation
  | Option.none => .error .invalidOperation

/-- An operation on two integers, or else on two doubles. -/
def arithmetic (onIntegers : Int → Int → Option Int) (onFloats : Double → Double → Double)
    (a b : Value) : Except Fault Value :=
  match a, b with
  | .float _, _ | _, .float _ =>
    match a.float?, b.float? with
    | some x, some y => .ok (.float (onFloats x y))
    | _, _ => .error .invalidOperation
  | _, _ =>
    match a.integer?, b.integer? with
    | some i, some j => computed (onIntegers i j)
    | _, _ => .error .invalidOperation

/-- The sum of numbers; texts and lists are joined. -/
def add : Value → Value → Except Fault Value
  | .string a, .string b => .ok (.string (a ++ b))
  | .list a, .list b => .ok (.list (a ++ b))
  | a, b => arithmetic (fun i j => some (i + j)) Double.add a b

/-- The difference. -/
def sub (a b : Value) : Except Fault Value :=
  arithmetic (fun i j => some (i - j)) Double.sub a b

/-- The product; a text or a list is repeated. -/
def mul (a b : Value) : Except Fault Value :=
  match a, b with
  | .string s, .integer (.ofNat n) | .integer (.ofNat n), .string s =>
    .ok (.string (String.join (List.replicate n s)))
  | .list items, .integer (.ofNat n) | .integer (.ofNat n), .list items =>
    .ok (.list (List.replicate n items).flatten)
  | a, b => arithmetic (fun i j => some (i * j)) Double.mul a b

/-- The quotient, which is a double. -/
def div (a b : Value) : Except Fault Value :=
  match a.float?, b.float? with
  | some x, some y => .ok (.float (x.div y))
  | _, _ => .error .invalidOperation

/-- The quotient of doubles that leaves a remainder that is not negative. -/
def floorDivDoubles (a b : Double) : Double :=
  let q := a.div b
  let whole := if q.isNegative then q.neg.floor.neg else q.floor
  let rest := a.rem b
  if rest.isNegative && !rest.isZero then
    if b.isNegative then whole.add (Double.ofInt 1) else whole.sub (Double.ofInt 1)
  else whole

/-- The whole quotient that leaves a remainder that is not negative. -/
def floorDiv (a b : Value) : Except Fault Value :=
  arithmetic (fun i j => if j = 0 then Option.none else some (i / j)) floorDivDoubles a b

/-- The remainder: of integers the one that is not negative, of doubles the one with the sign of
the dividend. -/
def rem (a b : Value) : Except Fault Value :=
  arithmetic (fun i j => if j = 0 then Option.none else some (i % j)) Double.rem a b

/-- A power of an integer, unless it is far too great. -/
def power? (i : Int) (n : Nat) : Option Int :=
  if i.natAbs ≤ 1 then some (Int.pow i (n % 2 + 2 * min (n / 2) 1))
  else if n ≤ 128 then some (Int.pow i n)
  else Option.none

/-- The power of an integer. -/
def pow (a b : Value) : Except Fault Value :=
  match a.integer?, b.integer? with
  | some i, some (.ofNat n) => computed (power? i n)
  | _, _ => .error .invalidOperation

/-- The number with the opposite sign. -/
def neg : Value → Except Fault Value
  | .integer i => computed (some (-i))
  | .float d => .ok (.float d.neg)
  | _ => .error .invalidOperation

end Value
end Scaffold.Template
