import Scaffold.Template.Value
import Scaffold.Text.Blank
import Scaffold.Text.Split

/-!
# Filters, tests and functions

What can be applied to values in a template, by name. A filter that takes texts refuses a
missing value; `default` and the test `defined` accept it.
-/

namespace Scaffold.Template

/-- The outcome of an application. -/
abbrev Outcome := Except Fault Value

namespace Filter

/-- The text of an argument. A missing value has none. -/
def textOf (v : Value) : Except Fault String :=
  if v.isMissing then .error .undefinedValue else .ok v.text

/-- The argument at a place, if it was given. -/
def argument? (args : List Value) (n : Nat) : Option Value := args[n]?

/-- No more than `n` arguments were given. -/
def atMost (n : Nat) (args : List Value) : Except Fault Unit :=
  if n < args.length then .error .tooManyArguments else .ok ()

/-- A text with a function applied to its characters. -/
def onText (f : List Char → List Char) (v : Value) : Outcome := do
  return .string (String.ofList (f (← textOf v).toList))

/-- An ASCII character that is neither letter nor digit and can be seen. -/
def isPunctuation (c : Char) : Bool :=
  0x21 ≤ c.toNat && c.toNat ≤ 0x7E && !c.isAlphanum

/-- Every word with a capital at its front. -/
def title : (atStart : Bool) → List Char → List Char
  | _, [] => []
  | atStart, c :: rest =>
    if isPunctuation c || Text.isBlank c then c :: title true rest
    else (if atStart then Text.upperChar c else Text.lowerChar c) ++ title false rest

/-- The first character in capitals and the rest in small letters. -/
def capitalize : List Char → List Char
  | [] => []
  | c :: rest => Text.upperChar c ++ Text.lower rest

/-- Every occurrence of a text that is not empty becomes another one; `skip` characters of an
occurrence are still to be passed over. -/
def replaceFrom (old new : List Char) : (skip : Nat) → List Char → List Char
  | _, [] => []
  | skip + 1, _ :: rest => replaceFrom old new skip rest
  | 0, c :: rest =>
    if Text.startsWith old (c :: rest) then new ++ replaceFrom old new (old.length - 1) rest
    else c :: replaceFrom old new 0 rest

/-- Every occurrence of a text becomes another one. The empty text occurs between all
characters. -/
def replace (old new s : List Char) : List Char :=
  if old.isEmpty then new ++ s.flatMap (· :: new) else replaceFrom old new 0 s

/-- The texts of items joined. The joint stands before an item that has a text before it. -/
def join (joint : String) (items : List Value) : String :=
  items.foldl (fun acc v => (if acc.isEmpty then acc else acc ++ joint) ++ v.text) ""

/-- The characters without those of a set at either end. -/
def trimSet (set s : List Char) : List Char :=
  Text.dropEndWhile set.contains (s.dropWhile set.contains)

/-- The items of a value, which a missing value does not have. -/
def itemsOf (v : Value) : Except Fault (List Value) :=
  if v.isMissing then .error .undefinedValue
  else match v.items? with
    | some items => .ok items
    | none => .error .invalidOperation

/-- The items of a text or a list. -/
def sequence? : Value → Option (List Value)
  | .string s => (Value.string s).items?
  | .list items => some items
  | _ => none

/-- The first item of a text or a list, or the first key of a map. -/
def first (v : Value) : Outcome :=
  match v, sequence? v with
  | .map entries, _ => .ok ((entries.head?.map Prod.fst).getD (.undefined false))
  | _, some items => .ok (items.head?.getD (.undefined false))
  | _, none => .error .invalidOperation

/-- The last item of a text or a list. -/
def last (v : Value) : Outcome :=
  match sequence? v with
  | some items => .ok (items.getLast?.getD (.undefined false))
  | none => .error .invalidOperation

/-- A filter by name, applied to a value and arguments. -/
def apply (name : String) (v : Value) (args : List Value) : Outcome := do
  match name with
  | "upper" => atMost 0 args; onText Text.upper v
  | "lower" => atMost 0 args; onText Text.lower v
  | "capitalize" => atMost 0 args; onText capitalize v
  | "title" => atMost 0 args; onText (title true) v
  | "string" => atMost 0 args; onText id v
  | "trim" =>
    atMost 1 args
    match argument? args 0 with
    | none | some .none => onText Text.trim v
    | some set => onText (trimSet (← textOf set).toList) v
  | "replace" =>
    atMost 2 args
    match argument? args 0, argument? args 1 with
    | some old, some new =>
      let s ← textOf v
      return .string (String.ofList
        (replace (← textOf old).toList (← textOf new).toList s.toList))
    | _, _ => .error .missingArgument
  | "length" | "count" =>
    atMost 0 args
    match v.length? with
    | some n => return .integer n
    | none => .error .invalidOperation
  | "join" =>
    atMost 1 args
    let joint ← match argument? args 0 with
      | none | some .none => .ok ""
      | some joint => textOf joint
    return .string (join joint (← itemsOf v))
  | "default" | "d" =>
    atMost 2 args
    let other := (argument? args 0).getD (.string "")
    let lax := (argument? args 1).any Value.isTrue
    return if v.isUndefined || (lax && !v.isTrue) then other else v
  | "first" => atMost 0 args; first v
  | "last" => atMost 0 args; last v
  | "list" => atMost 0 args; return .list (← itemsOf v)
  | "reverse" =>
    atMost 0 args
    match v with
    | .string s => return .string (String.ofList s.toList.reverse)
    | v => return .list (← itemsOf v).reverse
  | "items" =>
    atMost 0 args
    match v with
    | .map entries => return .list (entries.map fun (k, w) => .list [k, w])
    | _ => .error .invalidOperation
  | _ => .error .unknownFilter

end Filter

namespace Test

/-- The value is a number. -/
def isNumber : Value → Bool
  | .integer _ | .float _ => true
  | _ => false

/-- The order of the value and the argument. -/
def ordered (p : Ordering → Bool) (v : Value) (args : List Value) : Except Fault Bool :=
  match args with
  | [a] => .ok (p (v.order a))
  | [] => .error .missingArgument
  | _ => .error .tooManyArguments

/-- A test by name, applied to a value and arguments. -/
def apply (name : String) (v : Value) (args : List Value) : Except Fault Bool := do
  match name with
  | "defined" => Filter.atMost 0 args; return !v.isUndefined
  | "undefined" => Filter.atMost 0 args; return v.isUndefined
  | "none" => Filter.atMost 0 args; return (match v with | .none => true | _ => false)
  | "boolean" => Filter.atMost 0 args; return (match v with | .bool _ => true | _ => false)
  | "string" => Filter.atMost 0 args; return (match v with | .string _ => true | _ => false)
  | "mapping" => Filter.atMost 0 args; return (match v with | .map _ => true | _ => false)
  | "sequence" => Filter.atMost 0 args; return (match v with | .list _ => true | _ => false)
  | "number" => Filter.atMost 0 args; return isNumber v
  | "odd" => Filter.atMost 0 args; return v.integer?.any (· % 2 == 1)
  | "even" => Filter.atMost 0 args; return v.integer?.any (· % 2 == 0)
  | "eq" | "equalto" =>
    match args with
    | [a] => return v.same a
    | [] => .error .missingArgument
    | _ => .error .tooManyArguments
  | "ne" => ordered (· != .eq) v args
  | "lt" | "lessthan" => ordered (· == .lt) v args
  | "le" => ordered (· != .gt) v args
  | "gt" | "greaterthan" => ordered (· == .gt) v args
  | "ge" => ordered (· != .lt) v args
  | "in" =>
    match args with
    | [a] => a.contains v
    | [] => .error .missingArgument
    | _ => .error .tooManyArguments
  | _ => .error .unknownTest

end Test

namespace Function

/-- The functions that every template can call. -/
def names : List String := ["range", "dict"]

/-- The greatest number of integers in a range. -/
def maxRange : Nat := 100000

/-- The integers from `first` to before `last` in steps. -/
def range (first last step : Int) : Outcome :=
  if step = 0 then .error .invalidOperation
  else
    let span := if 0 < step then last - first else first - last
    let count := ((span + step.natAbs - 1) / step.natAbs).toNat
    if maxRange < count then .error .invalidOperation
    else .ok (.list ((List.range count).map fun (k : Nat) => .integer (first + step * k)))

/-- A function by name, applied to arguments. -/
def apply (name : String) (args : List Value) : Outcome :=
  match name, args with
  | "range", [.integer n] => range 0 n 1
  | "range", [.integer a, .integer b] => range a b 1
  | "range", [.integer a, .integer b, .integer c] => range a b c
  | "range", [] => .error .missingArgument
  | "range", _ =>
    if args.any Value.isMissing then .error .undefinedValue else .error .invalidOperation
  | "dict", [] => .ok (.map [])
  | "dict", [.map entries] => .ok (.map entries)
  | _, _ => .error .invalidOperation

end Function
end Scaffold.Template
