import Scaffold.Yaml.Token.Scalar

/-!
# Tokens of YAML

A text is cut into tokens. Indentation becomes tokens of its own: a block collection
starts and ends with one. A key that stands before its colon on one line is known as
a key only at the colon, so the place of every possible key is remembered, and the
token that announces it is put there when the colon comes.
-/

namespace Scaffold.Yaml

/-- A lexeme. -/
inductive Token where
  | version (major minor : Nat)
  | tagDirective (handle opener : String)
  | documentStart
  | documentEnd
  | blockSequenceStart
  | blockMappingStart
  | blockEnd
  | flowSequenceStart
  | flowSequenceEnd
  | flowMappingStart
  | flowMappingEnd
  | blockEntry
  | flowEntry
  | key
  | value
  | alias (name : String)
  | anchor (name : String)
  | tag (handle closer : String)
  | scalar (text : String) (plain : Bool)
deriving DecidableEq, Inhabited

namespace Token

/-- A place where a key may begin. -/
structure PossibleKey where
  /-- No other lexeme than a key fits here. -/
  required : Bool
  /-- The number of tokens before it. -/
  token : Nat
  position : Position

/-- The state of the scan. -/
structure Scan where
  cursor : Cursor
  /-- The depth of flow collections. -/
  flowLevel : Nat := 0
  /-- The columns of the open block collections, innermost first. -/
  indents : List Nat := []
  /-- A key may begin here. -/
  keyAllowed : Bool := true
  /-- The possible key of each flow level, innermost first. -/
  keys : List (Option PossibleKey) := [none]
  /-- The tokens so far, in reverse. -/
  tokens : List Token := []
  count : Nat := 0

namespace Scan

/-- The column of the innermost block collection, or one less than all columns. -/
def indent (s : Scan) : Int :=
  match s.indents with
  | [] => -1
  | column :: _ => column

def column (s : Scan) : Nat := s.cursor.column

/-- The token goes to the end. -/
def push (t : Token) (s : Scan) : Scan :=
  { s with tokens := t :: s.tokens, count := s.count + 1 }

/-- The token goes behind the first `n` tokens. -/
def insertAt (n : Nat) (t : Token) (s : Scan) : Scan :=
  let later := s.count - n
  { s with tokens := s.tokens.take later ++ t :: s.tokens.drop later, count := s.count + 1 }

/-- The cursor moves over `n` characters. -/
def skip (n : Nat) (s : Scan) : Scan := { s with cursor := s.cursor.skip n }

def allowKey (allowed : Bool) (s : Scan) : Scan := { s with keyAllowed := allowed }

/-! ### Possible keys -/

/-- A key ends on its line and within 1024 characters. -/
def isStale (p : Position) (k : PossibleKey) : Bool :=
  k.position.line < p.line || k.position.index + 1024 < p.index

/-- Possible keys that can no longer be keys are dropped. -/
def dropStale (s : Scan) : Option Scan := do
  let keys ← s.keys.mapM fun
    | none => some none
    | some k =>
      if isStale s.cursor.position k then if k.required then none else some none
      else some (some k)
  return { s with keys }

/-- The possible key of this level is dropped. -/
def dropKey (s : Scan) : Option Scan :=
  match s.keys with
  | some k :: rest => if k.required then none else some { s with keys := none :: rest }
  | _ => some s

/-- A key may begin at the cursor. -/
def markKey (s : Scan) : Option Scan :=
  if s.keyAllowed then do
    let s ← s.dropKey
    let k : PossibleKey :=
      ⟨s.flowLevel == 0 && s.indent == s.column, s.count, s.cursor.position⟩
    return { s with keys := some k :: s.keys.drop 1 }
  else some s

/-! ### Indentation -/

/-- A block collection starts at a column to the right of the innermost one, with its
token behind the first `at` tokens. -/
def roll (column : Nat) (place : Nat) (t : Token) (s : Scan) : Scan :=
  if s.flowLevel == 0 && s.indent < column then
    { s with indents := column :: s.indents }.insertAt place t
  else s

/-- The block collections to the right of a column end. -/
def unrollFrom (column : Int) : List Nat → Scan → Scan
  | [], s => { s with indents := [] }
  | c :: rest, s =>
    if column < c then unrollFrom column rest (s.push .blockEnd)
    else { s with indents := c :: rest }

/-- The block collections to the right of a column end, but not in a flow collection. -/
def unroll (column : Int) (s : Scan) : Scan :=
  if s.flowLevel == 0 then unrollFrom column s.indents s else s

/-! ### Lexemes -/

/-- Blanks, comments and line ends before a token. A tab may not stand where a key may
begin, and behind a line end a key may begin. -/
def skipGapFrom (inFlow : Bool) : (allowed comment : Bool) → Position → List Char → Bool × Cursor
  | allowed, _, p, [] => (allowed, ⟨p, []⟩)
  | allowed, comment, p, c :: rest =>
    if isBreak c then skipGapFrom inFlow (allowed || !inFlow) false (p.after c) rest
    else if comment || c == ' ' || (c == '\t' && (inFlow || !allowed)) ||
        (c == byteOrderMark && p.column == 0) then
      skipGapFrom inFlow allowed comment (p.after c) rest
    else if c == '#' then skipGapFrom inFlow allowed true (p.after c) rest
    else (allowed, ⟨p, c :: rest⟩)

/-- The scan at the next token. -/
def skipGap (s : Scan) : Scan :=
  let (allowed, cursor) :=
    skipGapFrom (s.flowLevel != 0) s.keyAllowed false s.cursor.position s.cursor.rest
  { s with keyAllowed := allowed, cursor := cursor }

/-- The open block collections end, and no key is possible before what follows. -/
def closeBlocks (s : Scan) : Option Scan := do
  let s ← (s.unroll (-1)).dropKey
  return s.allowKey false

/-- A mark between documents. -/
def documentMark (t : Token) (s : Scan) : Option Scan := do
  let s ← s.closeBlocks
  return (s.skip 3).push t

/-- A flow collection starts. -/
def flowStart (t : Token) (s : Scan) : Option Scan := do
  let s ← s.markKey
  let opened : Scan :=
    { s with keys := none :: s.keys, flowLevel := s.flowLevel + 1, keyAllowed := true }
  return (opened.skip 1).push t

/-- A flow collection ends. -/
def flowEnd (t : Token) (s : Scan) : Option Scan := do
  let s ← s.dropKey
  let s := if s.flowLevel == 0 then s
    else { s with keys := s.keys.drop 1, flowLevel := s.flowLevel - 1 }
  return ((s.allowKey false).skip 1).push t

/-- A comma in a flow collection. -/
def flowEntry (s : Scan) : Option Scan := do
  let s ← s.dropKey
  return ((s.allowKey true).skip 1).push .flowEntry

/-- A hyphen before an item of a block sequence. -/
def blockEntry (s : Scan) : Option Scan := do
  if s.flowLevel == 0 && !s.keyAllowed then none
  let s ← (s.roll s.column s.count .blockSequenceStart).dropKey
  return ((s.allowKey true).skip 1).push .blockEntry

/-- A question mark before a key. -/
def explicitKey (s : Scan) : Option Scan := do
  if s.flowLevel == 0 && !s.keyAllowed then none
  let s ← (s.roll s.column s.count .blockMappingStart).dropKey
  return ((s.allowKey (s.flowLevel == 0)).skip 1).push .key

/-- A colon before a value. If a key was possible before it, it was one. -/
def colon (s : Scan) : Option Scan := do
  match s.keys with
  | some k :: rest =>
    let s := (s.insertAt k.token .key).roll k.position.column k.token .blockMappingStart
    return (({ s with keys := none :: rest }.allowKey false).skip 1).push .value
  | _ =>
    if s.flowLevel == 0 && !s.keyAllowed then none
    let s := s.roll s.column s.count .blockMappingStart
    return ((s.allowKey (s.flowLevel == 0)).skip 1).push .value

/-- A character that may follow the name of an anchor. -/
def endsName : List Char → Bool
  | [] => true
  | c :: rest => atGap (c :: rest) || "?:,]\x7d%@`".toList.contains c

/-- An anchor or alias. -/
def name (make : String → Token) (s : Scan) : Option Scan := do
  let s ← s.markKey
  let s := (s.allowKey false).skip 1
  let text := s.cursor.rest.takeWhile isNameChar
  let s := s.skip text.length
  if text.isEmpty || !endsName s.cursor.rest then none
  else return s.push (make (String.ofList text))

/-- A character of a tag. -/
def isTagChar (verbatim : Bool) (c : Char) : Bool :=
  isNameChar c || ";/?:@&=+$.!~*'()%".toList.contains c || (verbatim && ",[]".toList.contains c)

/-- The bytes that a run of escapes `%xx` stands for, and what follows it. -/
def escapedBytes : List Char → Option (List Nat × List Char)
  | '%' :: a :: b :: rest => do
    let byte := (← Scalar.hexDigit? a) * 16 + (← Scalar.hexDigit? b)
    let (bytes, after) ← escapedBytes rest
    return (byte :: bytes, after)
  | '%' :: _ => none
  | rest => some ([], rest)

/-- The text of a tag with its escapes resolved. -/
def unescapeTag : Nat → List Char → Option (List Char)
  | 0, _ => none
  | _, [] => some []
  | fuel + 1, '%' :: rest => do
    let (bytes, after) ← escapedBytes ('%' :: rest)
    let text ← String.fromUTF8? ⟨(bytes.map UInt8.ofNat).toArray⟩
    return text.toList ++ (← unescapeTag fuel after)
  | fuel + 1, c :: rest => do return c :: (← unescapeTag fuel rest)

/-- The characters of a tag at the cursor, behind those that were taken for a handle. -/
def tagText (verbatim : Bool) (head : List Char) (s : Scan) : Option (List Char × Scan) := do
  let text := s.cursor.rest.takeWhile (isTagChar verbatim)
  let resolved ← unescapeTag (text.length + 1) text
  if head.isEmpty && text.isEmpty then none
  else return (head.drop 1 ++ resolved, s.skip text.length)

/-- The handle of a tag: an exclamation mark, a name, and another mark if there is one. -/
def tagHandle (s : Scan) : Option (List Char × Scan) :=
  match s.cursor.rest with
  | '!' :: rest =>
    let inner := rest.takeWhile isNameChar
    match rest.drop inner.length with
    | '!' :: _ => some ('!' :: inner ++ ['!'], s.skip (inner.length + 2))
    | _ => some ('!' :: inner, s.skip (inner.length + 1))
  | _ => none

/-- The handle and the rest of a tag at the cursor. -/
def tagParts (s : Scan) : Option (List Char × List Char × Scan) :=
  match s.cursor.rest with
  | '!' :: '<' :: _ => do
    let (text, s) ← tagText true [] (s.skip 2)
    match s.cursor.rest with
    | '>' :: _ => return ([], text, s.skip 1)
    | _ => none
  | _ => do
    let (handle, s) ← tagHandle s
    if 1 < handle.length && handle.getLast? == some '!' then
      let (text, s) ← tagText false [] s
      return (handle, text, s)
    else
      let (text, s) ← tagText false handle s
      if text.isEmpty then return ([], ['!'], s) else return (['!'], text, s)

/-- A tag. -/
def tag (s : Scan) : Option Scan := do
  let s ← s.markKey
  let (handle, text, s) ← tagParts (s.allowKey false)
  let ended := atGap s.cursor.rest || (s.flowLevel != 0 && s.cursor.rest.head? == some ',')
  if ended then return s.push (.tag (String.ofList handle) (String.ofList text)) else none

/-- A block scalar. -/
def blockScalar (literal : Bool) (s : Scan) : Option Scan := do
  let s ← s.dropKey
  let (text, cursor) ← Scalar.block literal s.indent (s.cursor.skip 1)
  return { s.allowKey true with cursor }.push (.scalar (String.ofList text) false)

/-- A quoted scalar. -/
def quotedScalar (single : Bool) (s : Scan) : Option Scan := do
  let s ← s.markKey
  let start := s.cursor.skip 1
  let (text, cursor) ← Scalar.quoted single [] none .text start.position start.rest
  return { s.allowKey false with cursor }.push (.scalar (String.ofList text) false)

/-- A plain scalar. Behind a line end a key may begin. -/
def plainScalar (s : Scan) : Option Scan := do
  let s ← s.markKey
  let (text, atLineStart, cursor) ←
    Scalar.plain (s.flowLevel != 0) (s.indent + 1).toNat [] none s.cursor.position s.cursor.rest
  return { s.allowKey atLineStart with cursor }.push (.scalar (String.ofList text) true)

/-- A number of a version: one to nine digits. -/
def versionNumber (s : Scan) : Option (Nat × Scan) :=
  let digits := s.cursor.rest.takeWhile Char.isDigit
  if digits.isEmpty || 9 < digits.length then none
  else some ((String.ofList digits).toNat?.getD 0, s.skip digits.length)

/-- Blanks at the cursor are skipped. -/
def skipBlanks (s : Scan) : Scan := { s with cursor := s.cursor.skipWhile isBlank }

/-- What a directive with this name says. -/
def directiveBody (directive : List Char) (s : Scan) : Option Scan := do
  if directive == "YAML".toList then
    let (major, s) ← versionNumber s.skipBlanks
    match s.cursor.rest with
    | '.' :: _ =>
      let (minor, s) ← versionNumber (s.skip 1)
      return s.push (.version major minor)
    | _ => none
  else if directive == "TAG".toList then
    let (handle, s) ← tagHandle s.skipBlanks
    if handle != ['!'] && (handle.length < 2 || handle.getLast? != some '!') then none
    if !(s.cursor.rest.head?.any isBlank) then none
    let (text, s) ← tagText true [] s.skipBlanks
    if !atGap s.cursor.rest then none
    return s.push (.tagDirective (String.ofList handle) (String.ofList text))
  else none

/-- A directive. -/
def directive (s : Scan) : Option Scan := do
  let s := (← s.closeBlocks).skip 1
  let text := s.cursor.rest.takeWhile isNameChar
  let s := s.skip text.length
  if text.isEmpty || !atGap s.cursor.rest then none
  let s := (← directiveBody text s).skipBlanks
  let s := match s.cursor.rest with
    | '#' :: _ => { s with cursor := s.cursor.skipWhile fun c => !isBreak c }
    | _ => s
  if atLineEnd s.cursor.rest then return s.skip 1 else none

/-- A character that begins no plain scalar. -/
def isIndicator (c : Char) : Bool := "-?:,[]\x7b\x7d#&*!|>'\"%@`".toList.contains c

/-- The text may begin a plain scalar. -/
def beginsPlain (inFlow : Bool) : List Char → Bool
  | [] => false
  | '-' :: rest => !(rest.head?.any isBlank)
  | c :: rest =>
    if c == '?' || c == ':' then !inFlow && !atGap rest
    else !isIndicator c && !atGap [c]

/-- The next token, where one begins. -/
def lexeme (s : Scan) : Option Scan :=
  let inFlow := s.flowLevel != 0
  let other (s : Scan) : Option Scan :=
    if beginsPlain inFlow s.cursor.rest then s.plainScalar else none
  if s.column == 0 && s.cursor.rest.head? == some '%' then s.directive
  else if s.column == 0 && atDocumentMark s.cursor.rest then
    s.documentMark (if s.cursor.rest.head? == some '-' then .documentStart else .documentEnd)
  else match s.cursor.rest with
    | '[' :: _ => s.flowStart .flowSequenceStart
    | '{' :: _ => s.flowStart .flowMappingStart
    | ']' :: _ => s.flowEnd .flowSequenceEnd
    | '}' :: _ => s.flowEnd .flowMappingEnd
    | ',' :: _ => s.flowEntry
    | '-' :: rest => if atGap rest then s.blockEntry else other s
    | '?' :: rest => if inFlow || atGap rest then s.explicitKey else other s
    | ':' :: rest => if inFlow || atGap rest then s.colon else other s
    | '*' :: _ => s.name .alias
    | '&' :: _ => s.name .anchor
    | '!' :: _ => s.tag
    | '|' :: _ => if inFlow then none else s.blockScalar true
    | '>' :: _ => if inFlow then none else s.blockScalar false
    | '\'' :: _ => s.quotedScalar true
    | '"' :: _ => s.quotedScalar false
    | _ => other s

/-- The end of the text. -/
def finish (s : Scan) : Option (List Token) := do
  let s ← s.closeBlocks
  return s.tokens.reverse

/-- The tokens of the rest of the text. Every lexeme takes a character at least, so their
number is bounded by the length of the text. -/
def run : Nat → Scan → Option (List Token)
  | 0, _ => none
  | fuel + 1, s => do
    let s ← s.skipGap.dropStale
    let s := s.unroll s.column
    if s.cursor.rest.isEmpty then s.finish else run fuel (← s.lexeme)

end Scan

/-- The tokens of a text. -/
def scan (s : List Char) : Option (List Token) :=
  let s := match s with
    | c :: rest => if c == byteOrderMark then rest else s
    | [] => s
  if s.all isAllowed then
    let text := normalize s
    Scan.run (text.length + 1) { cursor := ⟨⟨0, 0, 0⟩, text⟩ }
  else none

end Token
end Scaffold.Yaml
