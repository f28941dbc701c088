import Scaffold.Yaml.Event
import Scaffold.Yaml.Plain

/-!
# YAML documents

The events of a document make up a value. An alias stands for the node that its anchor
names, and is read again wherever it stands; nesting and the number of aliases read are
bounded, so no document takes more than its share of time. The keys of a mapping are
taken as the texts that were written.
-/

namespace Scaffold.Yaml.Document

open Scaffold.Json (Value Members)

/-- The number of the alias at each place, and the places of the nodes they stand for. A new
anchor has the number of anchors known before it. -/
def link : Nat → List (String × Nat) → List (Nat × Nat) → List Event →
    Option (List (Nat × Nat) × List (Nat × Nat))
  | _, _, places, [] => some ([], places)
  | i, anchors, places, event :: rest =>
    let named (anchor? : Option String) : Option (List (Nat × Nat) × List (Nat × Nat)) :=
      match anchor? with
      | none => link (i + 1) anchors places rest
      | some a =>
        let number := anchors.length
        let others := anchors.filter (·.1 != a)
        link (i + 1) ((a, number) :: others) ((number, i) :: places) rest
    match event with
    | .alias a => do
      let number ← anchors.lookup a
      let (aliases, places) ← link (i + 1) anchors places rest
      return ((i, number) :: aliases, places)
    | .scalar anchor? _ _ _ | .sequenceStart anchor? _ | .mappingStart anchor? _ => named anchor?
    | .sequenceEnd | .mappingEnd => link (i + 1) anchors places rest

/-- What is needed to read a node: all events, and where the alias at a place leads. -/
structure Context where
  events : List Event
  aliases : List (Nat × Nat)
  places : List (Nat × Nat)

/-- Events from a place on. -/
structure Stream where
  place : Nat
  rest : List Event

/-- The events from a place on. -/
def Context.streamAt (c : Context) (place : Nat) : Stream := ⟨place, c.events.drop place⟩

/-- Where the alias at a place leads. -/
def Context.target? (c : Context) (place : Nat) : Option Stream := do
  let number ← c.aliases.lookup place
  let target ← c.places.lookup number
  return c.streamAt target

/-- The number of aliases that may be followed. -/
def Context.jumpLimit (c : Context) : Nat := c.events.length * 100

/-- A double, or null where JSON has no number for it. -/
def double (d : Double) : Value := .number (.double d)

/-- The value of a plain scalar. -/
def plainValue (text : String) : Option Value :=
  match Plain.meaning text.toList with
  | .null => some .null
  | .bool b => some (.bool b)
  | .integer i => some (.number (.integer i))
  | .double d => some (double d)
  | .special => some .null
  | .huge => none
  | .text => some (.string text)

/-- The value of a scalar. A tag of YAML's own schema asks for a kind of value, and any
other known tag for a text. -/
def scalarValue (tag? : Option String) (text : String) (plain : Bool) : Option Value :=
  match tag? with
  | none => if plain then plainValue text else some (.string text)
  | some tag =>
    let m := Plain.meaning text.toList
    if Text.startsWith ['!'] tag.toList then none
    else match tag with
      | "tag:yaml.org,2002:bool" =>
        match m with
        | .bool b => some (.bool b)
        | _ => none
      | "tag:yaml.org,2002:int" =>
        match Plain.integer? text.toList with
        | some i =>
          if Plain.minInteger ≤ i && i ≤ Plain.maxInteger then some (.number (.integer i)) else none
        | none => none
      | "tag:yaml.org,2002:float" =>
        if Plain.isSpecial text.toList then some .null
        else (Plain.double? text.toList).map double
      | "tag:yaml.org,2002:null" =>
        if ["null", "Null", "NULL", "~"].contains text then some .null else none
      | _ => some (.string text)

/-- A tag of the document's own is not known. -/
def isForeign (tag? : Option String) : Bool :=
  match tag? with
  | some tag => Text.startsWith ['!'] tag.toList
  | none => false

/-- The text of a key. An alias may lead to it. -/
def key (c : Context) (jumps : Nat) (s : Stream) : Option (String × Nat × Stream) :=
  match s.rest with
  | .scalar _ _ text _ :: rest => some (text, jumps, ⟨s.place + 1, rest⟩)
  | .alias _ :: rest => do
    if c.jumpLimit ≤ jumps then none
    match (← c.target? s.place).rest with
    | .scalar _ _ text _ :: _ => return (text, jumps + 1, ⟨s.place + 1, rest⟩)
    | _ => none
  | _ => none

mutual
/-- A node at the stream: its value, the number of aliases followed, and what follows. -/
def node (c : Context) : Nat → (depth jumps : Nat) → Stream → Option (Value × Nat × Stream)
  | 0, _, _, _ => none
  | fuel + 1, depth, jumps, s =>
    match s.rest with
    | .scalar _ tag? text plain :: rest => do
      return (← scalarValue tag? text plain, jumps, ⟨s.place + 1, rest⟩)
    | .sequenceStart _ tag? :: rest => do
      if isForeign tag? || depth == 0 then none
      let (vs, jumps, s) ← items c fuel (depth - 1) jumps ⟨s.place + 1, rest⟩
      return (.array vs, jumps, s)
    | .mappingStart _ tag? :: rest => do
      if isForeign tag? || depth == 0 then none
      let (ms, jumps, s) ← members c fuel (depth - 1) jumps [] ⟨s.place + 1, rest⟩
      return (.object ms, jumps, s)
    | .alias _ :: rest => do
      if c.jumpLimit ≤ jumps then none
      let (v, jumps, _) ← node c fuel depth (jumps + 1) (← c.target? s.place)
      return (v, jumps, ⟨s.place + 1, rest⟩)
    | _ => none

/-- The items of a sequence. -/
def items (c : Context) : Nat → (depth jumps : Nat) → Stream → Option (List Value × Nat × Stream)
  | 0, _, _, _ => none
  | fuel + 1, depth, jumps, s =>
    match s.rest with
    | .sequenceEnd :: rest => some ([], jumps, ⟨s.place + 1, rest⟩)
    | _ => do
      let (v, jumps, s) ← node c fuel depth jumps s
      let (vs, jumps, s) ← items c fuel depth jumps s
      return (v :: vs, jumps, s)

/-- The members of a mapping; a key that comes again overwrites. -/
def members (c : Context) :
    Nat → (depth jumps : Nat) → Members → Stream → Option (Members × Nat × Stream)
  | 0, _, _, _, _ => none
  | fuel + 1, depth, jumps, acc, s =>
    match s.rest with
    | .mappingEnd :: rest => some (acc, jumps, ⟨s.place + 1, rest⟩)
    | _ => do
      let (k, jumps, s) ← key c jumps s
      let (v, jumps, s) ← node c fuel depth jumps s
      members c fuel depth jumps (acc.insert k v) s
end

/-- The number of levels that may be nested. -/
def maxDepth : Nat := 128

/-- A bound on the depth of calls: on each level all events may be passed, and each of them may
be an alias. -/
def bound (events : List Event) : Nat := (maxDepth + 2) * (2 * events.length + 2)

/-- The value of the events of a document; no events stand for null. -/
def ofEvents? (events : List Event) : Option Value :=
  if events.isEmpty then some .null
  else do
    let (aliases, places) ← link 0 [] [] events
    let c : Context := ⟨events, aliases, places⟩
    let (v, _, _) ← node c (bound events) maxDepth 0 (c.streamAt 0)
    return v

/-- The value of a text of one document. -/
def parse? (s : String) : Option Value := do
  let tokens ← Token.scan s.toList
  let events ← Event.ofTokens? tokens
  ofEvents? events

end Scaffold.Yaml.Document
