import Scaffold.Merge.Text
import Scaffold.Merge.Values

/-!
# Merging documents

Fresh content goes into a structured document by merging their values. Several pieces of
content for one file are combined first: documents are merged in order, and other texts
are joined line by line.
-/

namespace Scaffold.Merge

/-- The value of a document. A blank text has none. -/
def parse (f : DataFormat) (s : String) : Except Failure (Option Json.Value) :=
  (f.parse s).mapError .document

/-- The document of a value. -/
def print (f : DataFormat) (v : Json.Value) : Except Failure String :=
  (f.print v).mapError .document

/-- The value of a document after another one went into it, or nothing if it stays. A value
`null` is not written. -/
def document (o : Options) (isPresent : Bool) (target? : Option Json.Value)
    (source : Json.Value) : Option Json.Value :=
  let merged? :=
    match o.appendStrategy, target? with
    | .replace, _ => some source
    | .appendIfExists, none => if isPresent then some source else none
    | .ignore, some _ => none
    | _, some target => some (values o.arrayStrategy target source)
    | _, none => some source
  merged?.filter fun v => !v.isNull

/-- The text of a document after content went into it. -/
def structured (f : DataFormat) (input : MergeInput) : Except Failure (Option String) := do
  let source := (← parse f input.content).getD .null
  let target? ← match input.destination? with
    | some s => parse f s
    | none => .ok none
  match document input.options input.destination?.isSome target? source with
  | none => return none
  | some v => return some (← print f v)

/-- The values of documents merged in order. Blank ones do not count. -/
def combineValues (f : DataFormat) (strategy : ArrayStrategy) :
    Option Json.Value → List String → Except Failure (Option Json.Value)
  | acc?, [] => .ok acc?
  | acc?, s :: rest => do
    match ← parse f s with
    | none => combineValues f strategy acc? rest
    | some v =>
      combineValues f strategy (match acc? with
        | some acc => some (values strategy acc v)
        | none => some v) rest

/-- Texts that are not empty, joined with line feeds. -/
def joinTexts (contents : List String) : String :=
  String.intercalate "\n" (contents.filter (!·.isEmpty))

/-- Several contents for one file as one. -/
def combine (format : String) (contents : List String) (strategy : ArrayStrategy) :
    Except Failure String :=
  match contents with
  | [single] => .ok single
  | contents =>
    match DataFormat.ofName? format with
    | none => .ok (joinTexts contents)
    | some f => do
      match ← combineValues f strategy none contents with
      | some v => print f v
      | none => return ""

end Scaffold.Merge
