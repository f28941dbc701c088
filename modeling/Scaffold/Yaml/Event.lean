import Scaffold.Yaml.Token

/-!
# Events of YAML

The tokens of a document are read as events: scalars, aliases, and the starts and
ends of sequences and mappings. What is still to be read is a list of goals. One step
meets the first goal with the next tokens and puts the goals that arise from it in its
place.
-/

namespace Scaffold.Yaml

/-- A step in the traversal of a document. An anchor names the node that begins here. -/
inductive Event where
  | alias (name : String)
  | scalar (anchor? tag? : Option String) (text : String) (plain : Bool)
  | sequenceStart (anchor? tag? : Option String)
  | sequenceEnd
  | mappingStart (anchor? tag? : Option String)
  | mappingEnd
deriving DecidableEq, Inhabited

namespace Event

/-- What is still to be read. -/
inductive Goal where
  /-- A node; block collections, and sequences that are not indented, may be allowed. -/
  | node (block indentless : Bool)
  | blockItems
  | indentlessItems
  | blockKey
  | blockValue
  | flowItems (first : Bool)
  | pairKey
  | pairValue
  | pairEnd
  | flowKey (first : Bool)
  | flowValue
  | noValue

/-- What the directives of a document give for the handles of tags. -/
abbrev Handles := List (String × String)

/-- The handles that every document has. -/
def defaultHandles : Handles := [("!", "!"), ("!!", "tag:yaml.org,2002:")]

/-- A scalar that is not written. -/
def empty : Event := .scalar none none "" true

/-- The tag that a handle and the rest of a tag make. -/
def resolveTag (handles : Handles) (handle closer : String) : Option String :=
  if handle.isEmpty then some closer
  else (handles.lookup handle).map (· ++ closer)

/-- The anchor and the tag before a node, in either order. -/
def properties (handles : Handles) :
    List Token → Option (Option String × Option String × List Token)
  | .anchor a :: .tag handle closer :: rest | .tag handle closer :: .anchor a :: rest => do
    return (some a, some (← resolveTag handles handle closer), rest)
  | .anchor a :: rest => some (some a, none, rest)
  | .tag handle closer :: rest => do
    return (none, some (← resolveTag handles handle closer), rest)
  | rest => some (none, none, rest)

/-- A node: its first event, the goals that it leaves, and the tokens that follow. -/
def node (handles : Handles) (block indentless : Bool) (tokens : List Token) :
    Option (Event × List Goal × List Token) :=
  match tokens with
  | .alias name :: rest => some (.alias name, [], rest)
  | _ => do
    let (anchor?, tag?, tokens) ← properties handles tokens
    match tokens with
    | .scalar text plain :: rest => return (.scalar anchor? tag? text plain, [], rest)
    | .flowSequenceStart :: rest => return (.sequenceStart anchor? tag?, [.flowItems true], rest)
    | .flowMappingStart :: rest => return (.mappingStart anchor? tag?, [.flowKey true], rest)
    | .blockEntry :: _ =>
      if indentless then return (.sequenceStart anchor? tag?, [.indentlessItems], tokens)
      else if anchor?.isSome || tag?.isSome then return (.scalar anchor? tag? "" true, [], tokens)
      else none
    | .blockSequenceStart :: rest =>
      if block then return (.sequenceStart anchor? tag?, [.blockItems], rest)
      else if anchor?.isSome || tag?.isSome then return (.scalar anchor? tag? "" true, [], tokens)
      else none
    | .blockMappingStart :: rest =>
      if block then return (.mappingStart anchor? tag?, [.blockKey], rest)
      else if anchor?.isSome || tag?.isSome then return (.scalar anchor? tag? "" true, [], tokens)
      else none
    | _ =>
      if anchor?.isSome || tag?.isSome then return (.scalar anchor? tag? "" true, [], tokens)
      else none

/-- What a step yields: an event if one arises, the goals that take the place of the one
that was met, and the tokens that follow. -/
abbrev Step := Option (List Event × List Goal × List Token)

/-- A node, and then a goal. -/
def nodeThen (handles : Handles) (block indentless : Bool) (next : Goal) (tokens : List Token) :
    Step := do
  let (event, goals, rest) ← node handles block indentless tokens
  return ([event], goals ++ [next], rest)

/-- The tokens begin with one of the tokens that end a block value. -/
def atBlockGap (orEntry : Bool) : List Token → Bool
  | .key :: _ | .value :: _ | .blockEnd :: _ => true
  | .blockEntry :: _ => orEntry
  | _ => false

/-- One goal is met. -/
def step (handles : Handles) (goal : Goal) (tokens : List Token) : Step :=
  match goal, tokens with
  | .node block indentless, _ => do
    let (event, goals, rest) ← node handles block indentless tokens
    return ([event], goals, rest)
  | .blockItems, .blockEntry :: rest =>
    match rest with
    | .blockEntry :: _ | .blockEnd :: _ => some ([empty], [.blockItems], rest)
    | _ => nodeThen handles true false .blockItems rest
  | .blockItems, .blockEnd :: rest => some ([.sequenceEnd], [], rest)
  | .blockItems, _ => none
  | .indentlessItems, .blockEntry :: rest =>
    if atBlockGap true rest then some ([empty], [.indentlessItems], rest)
    else nodeThen handles true false .indentlessItems rest
  | .indentlessItems, _ => some ([.sequenceEnd], [], tokens)
  | .blockKey, .key :: rest =>
    if atBlockGap false rest then some ([empty], [.blockValue], rest)
    else nodeThen handles true true .blockValue rest
  | .blockKey, .blockEnd :: rest => some ([.mappingEnd], [], rest)
  | .blockKey, _ => none
  | .blockValue, .value :: rest =>
    if atBlockGap false rest then some ([empty], [.blockKey], rest)
    else nodeThen handles true true .blockKey rest
  | .blockValue, _ => some ([empty], [.blockKey], tokens)
  | .flowItems _, .flowSequenceEnd :: rest => some ([.sequenceEnd], [], rest)
  | .flowItems first, _ => do
    let tokens ← match first, tokens with
      | true, _ => some tokens
      | false, .flowEntry :: rest => some rest
      | false, _ => none
    match tokens with
    | .key :: rest => return ([.mappingStart none none], [.pairKey], rest)
    | .flowSequenceEnd :: rest => return ([.sequenceEnd], [], rest)
    | _ => nodeThen handles false false (.flowItems false) tokens
  | .pairKey, .value :: rest | .pairKey, .flowEntry :: rest | .pairKey, .flowSequenceEnd :: rest =>
    some ([empty], [.pairValue], rest)
  | .pairKey, _ => nodeThen handles false false .pairValue tokens
  | .pairValue, .value :: rest =>
    match rest with
    | .flowEntry :: _ | .flowSequenceEnd :: _ => some ([empty], [.pairEnd], rest)
    | _ => nodeThen handles false false .pairEnd rest
  | .pairValue, _ => some ([empty], [.pairEnd], tokens)
  | .pairEnd, _ => some ([.mappingEnd], [.flowItems false], tokens)
  | .flowKey _, .flowMappingEnd :: rest => some ([.mappingEnd], [], rest)
  | .flowKey first, _ => do
    let tokens ← match first, tokens with
      | true, _ => some tokens
      | false, .flowEntry :: rest => some rest
      | false, _ => none
    match tokens with
    | .key :: rest =>
      match rest with
      | .value :: _ | .flowEntry :: _ | .flowMappingEnd :: _ =>
        return ([empty], [.flowValue], rest)
      | _ => nodeThen handles false false .flowValue rest
    | .flowMappingEnd :: rest => return ([.mappingEnd], [], rest)
    | _ => nodeThen handles false false .noValue tokens
  | .flowValue, .value :: rest =>
    match rest with
    | .flowEntry :: _ | .flowMappingEnd :: _ => some ([empty], [.flowKey false], rest)
    | _ => nodeThen handles false false (.flowKey false) rest
  | .flowValue, _ => some ([empty], [.flowKey false], tokens)
  | .noValue, _ => some ([empty], [.flowKey false], tokens)

/-- The events that meet all goals, and the tokens that follow. -/
def run (handles : Handles) : Nat → List Goal → List Token → Option (List Event × List Token)
  | _, [], tokens => some ([], tokens)
  | 0, _ :: _, _ => none
  | fuel + 1, goal :: goals, tokens => do
    let (events, more, tokens) ← step handles goal tokens
    let (later, rest) ← run handles fuel (more ++ goals) tokens
    return (events ++ later, rest)

/-- The directives before a document: its handles and what follows them. A version is given
once at most, and each handle once. -/
def directives : (version : Bool) → Handles → List Token → Option (Handles × List Token)
  | version, handles, .version major minor :: rest =>
    if version || major != 1 || (minor != 1 && minor != 2) then none
    else directives true handles rest
  | version, handles, .tagDirective handle opener :: rest =>
    if (handles.lookup handle).isSome then none
    else directives version (handles ++ [(handle, opener)]) rest
  | _, handles, rest => some (handles, rest)

/-- The tokens hold nothing but marks of ends of documents. -/
def onlyEnds (tokens : List Token) : Bool := tokens.all (· == .documentEnd)

/-- A bound on the number of steps: each token is met once and leaves three goals at most. -/
def bound (tokens : List Token) : Nat := 4 * tokens.length + 4

/-- The events of a stream of one document, or none if the stream is empty. -/
def ofTokens? (tokens : List Token) : Option (List Event) :=
  if tokens.isEmpty then some []
  else do
    let (handles, tokens') ← directives false [] tokens
    let handles := handles ++ defaultHandles
    let (goals, body) ← match tokens' with
      | .documentStart :: rest =>
        match rest with
        | [] | .documentStart :: _ | .documentEnd :: _ | .version _ _ :: _
        | .tagDirective _ _ :: _ => some (none, rest)
        | _ => some (some [Goal.node true false], rest)
      | _ =>
        if tokens'.length == tokens.length then some (some [Goal.node true false], tokens')
        else none
    match goals with
    | none => if onlyEnds body then return [empty] else none
    | some goals =>
      let (events, rest) ← run handles (bound body) goals body
      if onlyEnds rest then return events else none

end Event
end Scaffold.Yaml
