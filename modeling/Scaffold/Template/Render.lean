import Scaffold.Template.Filter
import Scaffold.Template.Reader

/-!
# Rendering templates

The tree of a template is evaluated under variables. A value that is missing may be
tested for and given a default; any other use of it is a fault. A text without marks is no
template and is rendered as itself.
-/

namespace Scaffold.Template

/-- The bindings that are in force, innermost first: those of the loops and scopes, of which a
loop also has its turn. -/
structure Frame where
  bindings : List (String × Value) := []
  turn? : Option Turn := none

/-- The frames, innermost first. -/
abbrev Frames := List Frame

namespace Frames

/-- The value of a name. -/
def lookup (name : String) : Frames → Value
  | [] => if Function.names.contains name then .function name else .undefined false
  | frame :: rest =>
    match frame.bindings.lookup name with
    | some v => v
    | none =>
      match name, frame.turn? with
      | "loop", some turn => .loop turn
      | _, _ => lookup name rest

/-- A name is bound in the innermost frame. -/
def bind (name : String) (v : Value) : Frames → Frames
  | [] => [{ bindings := [(name, v)] }]
  | frame :: rest => { frame with bindings := (name, v) :: frame.bindings } :: rest

/-- The number of loops around. -/
def depth (frames : Frames) : Nat := (frames.filter (·.turn?.isSome)).length

end Frames

mutual
/-- A value is bound to a target; a list of targets takes a list of as many values. -/
def Target.bind (v : Value) : Target → Frames → Except Fault Frames
  | .name n, frames => .ok (frames.bind n v)
  | .list targets, frames =>
    match v with
    | .list items => if items.length = targets.length then bindAll items targets frames
      else .error .cannotUnpack
    | _ => .error .cannotUnpack

/-- Values are bound to targets one by one. -/
def bindAll : List Value → List Target → Frames → Except Fault Frames
  | v :: vs, t :: ts, frames => do bindAll vs ts (← Target.bind v t frames)
  | _, _, frames => .ok frames
end

/-- Whether a value counts as true. A missing value counts as neither. -/
def truth (v : Value) : Except Fault Bool :=
  if v.isMissing then .error .undefinedValue else .ok v.isTrue

/-- Two values joined as texts. A missing value has no text. -/
def joined (a b : Value) : Except Fault Value := do
  return .string ((← Filter.textOf a) ++ (← Filter.textOf b))

/-- The value of an operation. -/
def Operator.apply (op : Operator) (a b : Value) : Except Fault Value :=
  match op with
  | .add => a.add b
  | .sub => a.sub b
  | .mul => a.mul b
  | .div => a.div b
  | .floorDiv => a.floorDiv b
  | .rem => a.rem b
  | .pow => a.pow b
  | .concat => joined a b
  | .eq => .ok (.bool (a.same b))
  | .ne => .ok (.bool !(a.same b))
  | .lt => .ok (.bool (a.order b == .lt))
  | .le => .ok (.bool (a.order b != .gt))
  | .gt => .ok (.bool (a.order b == .gt))
  | .ge => .ok (.bool (a.order b != .lt))
  | .isIn => do return .bool (← b.contains a)

/-- A value is called. Only functions can be. -/
def Value.call (v : Value) (args : List Value) : Except Fault Value :=
  match v with
  | .function name => Function.apply name args
  | .undefined _ => .error .undefinedValue
  | _ => .error .invalidOperation

/-- A method of a value is called. Maps have what they hold, and a loop can go round its
arguments. -/
def Value.callMethod (v : Value) (name : String) (args : List Value) : Except Fault Value :=
  match v with
  | .loop turn =>
    if name = "cycle" then
      match args[turn.index % args.length]? with
      | some a => .ok a
      | Option.none => .error .invalidOperation
    else .error .unknownMethod
  | v =>
    match v.part? (.string name) with
    | some part => part.call args
    | Option.none => .error .unknownMethod

mutual
/-- The value of an expression. -/
def eval (frames : Frames) : Expr → Except Fault Value
  | .constant v => .ok v
  | .var name => .ok (frames.lookup name)
  | .list items => do return .list (← evalAll frames items)
  | .map keys values => do
    let ks ← evalAll frames keys
    let vs ← evalAll frames values
    return Value.ofPairs (ks.zip vs)
  | .part of key => do
    let v ← eval frames of
    v.part (← eval frames key)
  | .call name args => do
    let vs ← evalAll frames args
    match frames.lookup name with
    | .undefined _ => .error .unknownFunction
    | f => f.call vs
  | .method of name args => do
    let v ← eval frames of
    v.callMethod name (← evalAll frames args)
  | .apply function args => do
    let f ← eval frames function
    f.call (← evalAll frames args)
  | .filter of name args => do
    let v ← eval frames of
    Filter.apply name v (← evalAll frames args)
  | .test of name args => do
    let v ← eval frames of
    return .bool (← Test.apply name v (← evalAll frames args))
  | .neg of => do (← eval frames of).neg
  | .not of => do return .bool !(← truth (← eval frames of))
  | .and left right => do
    let v ← eval frames left
    if ← truth v then eval frames right else return v
  | .or left right => do
    let v ← eval frames left
    if ← truth v then return v else eval frames right
  | .binary op left right => do
    let a ← eval frames left
    op.apply a (← eval frames right)
  | .choice test thenCase elseCase => do
    if ← truth (← eval frames test) then eval frames thenCase else eval frames elseCase

/-- The values of expressions, in order. -/
def evalAll (frames : Frames) : List Expr → Except Fault (List Value)
  | [] => .ok []
  | e :: rest => do
    let v ← eval frames e
    return v :: (← evalAll frames rest)
end

/-- The items for which an expression holds, each bound to the target. -/
def kept (frames : Frames) (target : Target) (keep : Expr) (items : List Value) :
    Except Fault (List Value) :=
  items.filterM fun v => do truth (← eval (← target.bind v ({} :: frames)) keep)

/-- The turns of a loop with their items, from a turn on. The frame of the loop keeps what its
body binds. -/
def turns (depth length : Nat) (target : Target)
    (body : Frames → Except Fault (String × Frames)) :
    (index : Nat) → List Value → Frame → Frames → Except Fault String
  | _, [], _, _ => .ok ""
  | index, v :: rest, frame, outer => do
    let frame := { frame with turn? := some ⟨index, length, depth⟩ }
    let (text, frames) ← body (← target.bind v (frame :: outer))
    let frame := frames.head?.getD frame
    return text ++ (← turns depth length target body (index + 1) rest frame outer)

mutual
/-- The text of a node, and the frames with what it binds. -/
def renderNode : Node → Frames → Except Fault (String × Frames)
  | .text s, frames => .ok (s, frames)
  | .output e, frames => do
    let v ← eval frames e
    if v.isMissing then .error .undefinedValue else return (v.text, frames)
  | .cond test thenNodes elseNodes, frames => do
    if ← truth (← eval frames test) then renderNodes thenNodes frames
    else renderNodes elseNodes frames
  | .loop target items keep body elseNodes, frames => do
    let v ← eval frames items
    let all ← Filter.itemsOf v
    let vs ← match keep with
      | .constant _ => .ok all
      | keep => kept frames target keep all
    if vs.isEmpty then renderNodes elseNodes frames
    else
      let text ← turns (frames.depth + 1) vs.length target (renderNodes body) 0 vs {} frames
      return (text, frames)
  | .set target e, frames => do
    return ("", ← target.bind (← eval frames e) frames)
  | .capture target body, frames => do
    let (text, _) ← renderNodes body ({} :: frames)
    return ("", ← target.bind (.string text) frames)
  | .scope targets values body, frames => do
    let vs ← evalAll frames values
    let (text, _) ← renderNodes body (← bindAll vs targets ({} :: frames))
    return (text, frames)

/-- The text of nodes one after the other. -/
def renderNodes : List Node → Frames → Except Fault (String × Frames)
  | [], frames => .ok ("", frames)
  | n :: rest, frames => do
    let (text, frames) ← renderNode n frames
    let (more, frames) ← renderNodes rest frames
    return (text ++ more, frames)
end

/-- The text has an opening mark. -/
def hasMarks (source : String) : Bool :=
  let s := source.toList
  Text.occurs ['{', '{'] s || Text.occurs ['{', '%'] s || Text.occurs ['{', '#'] s

/-- The frame of variables. -/
def Frame.ofMembers (given : Json.Members) : Frame :=
  ⟨given.map fun (name, value) => (name, Value.ofJson value), none⟩

/-- A text rendered under variables. -/
def render (source : String) (given : Json.Members) : Except Fault String :=
  if hasMarks source then do
    let nodes ← Reader.template source
    let (text, _) ← renderNodes nodes [Frame.ofMembers given]
    return text
  else .ok source

/-- A way of rendering a text under variables. -/
abbrev Renderer := (source : String) → (given : Json.Members) → Except Fault String

end Scaffold.Template
