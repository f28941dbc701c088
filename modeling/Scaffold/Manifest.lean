import Scaffold.Failure
import Scaffold.FileTree
import Scaffold.Json.Record

/-!
# Manifests

A manifest stands at the root of a generated tree. It says which template the tree comes
from, with options for all of its files, and it records every application of a unit once.
It is a file of one of three names; the first name under which there is a file counts, and
the first name is used for a new one.
-/

namespace Scaffold

/-- The record of an application as a JSON object. -/
def Identity.toRecord (i : Identity) : Json.Value :=
  .object [("path", .string i.unit.part), ("template", .string i.unit.template),
    ("version", .string i.unit.version), ("parameters", .object i.parameters)]

/-- The template of a tree. -/
structure TreeTemplate where
  name : String
  version : String
  /-- Options for all files of the tree. -/
  options? : Option Json.Members
deriving Inhabited

/-- The template as a JSON object. -/
def TreeTemplate.toJson (t : TreeTemplate) : Json.Value :=
  .object ([("name", .string t.name), ("version", .string t.version)] ++
    match t.options? with
    | some options => [("options", .object options)]
    | none => [])

/-- A manifest. -/
structure Manifest where
  template? : Option TreeTemplate
  records : List Identity
deriving Inhabited

namespace Manifest

/-- The manifest of a tree that has none yet. -/
def empty : Manifest := ⟨none, []⟩

/-- The names of manifest files, the preferred one first. -/
def fileNames : List Path := [⟨"scf.json"⟩, ⟨".scf.json"⟩, ⟨".config/scf.json"⟩]

/-- The name for a new manifest. -/
def newFileName : Path := ⟨"scf.json"⟩

/-! ### Writing -/

/-- The manifest as a JSON object. -/
def toJson (m : Manifest) : Json.Value :=
  .object ((match m.template? with
    | some t => [("template", t.toJson)]
    | none => []) ++ [("partials", .array (m.records.map Identity.toRecord))])

/-- The text of a manifest file. -/
def print (m : Manifest) : String := m.toJson.pretty ++ "\n"

/-! ### Reading -/

/-- The fields of a template that have been read. -/
structure TemplateDraft where
  name? : Option String
  version? : Option String
  options? : Option (Option Json.Members)

/-- The fields of a template. -/
def templateFields : List (Json.Field TemplateDraft) :=
  [⟨"name", false, (·.name?.isSome), fun d s => do
      let (v, rest) ← Json.text s
      return (⟨some v, d.version?, d.options?⟩, rest)⟩,
    ⟨"version", false, (·.version?.isSome), fun d s => do
      let (v, rest) ← Json.text s
      return (⟨d.name?, some v, d.options?⟩, rest)⟩,
    ⟨"options", true, (·.options?.isSome), fun d s => do
      let (v, rest) ← Json.optional (Json.objectWithin (Json.maxDepth - 3)) s
      return (⟨d.name?, d.version?, some v⟩, rest)⟩]

/-- A template in a manifest. -/
def readTemplate : Json.Reader TreeTemplate := fun s => do
  let (d, rest) ← Json.record "ManifestTemplate" templateFields ⟨none, none, none⟩ s
  return (⟨← Json.required "name" d.name?, ← Json.required "version" d.version?,
    d.options?.getD none⟩, rest)

/-- The fields of a record that have been read. -/
structure RecordDraft where
  path? : Option String
  template? : Option String
  version? : Option String
  parameters? : Option Parameters

/-- The fields of a record. -/
def recordFields : List (Json.Field RecordDraft) :=
  [⟨"path", false, (·.path?.isSome), fun d s => do
      let (v, rest) ← Json.text s
      return (⟨some v, d.template?, d.version?, d.parameters?⟩, rest)⟩,
    ⟨"template", false, (·.template?.isSome), fun d s => do
      let (v, rest) ← Json.text s
      return (⟨d.path?, some v, d.version?, d.parameters?⟩, rest)⟩,
    ⟨"version", false, (·.version?.isSome), fun d s => do
      let (v, rest) ← Json.text s
      return (⟨d.path?, d.template?, some v, d.parameters?⟩, rest)⟩,
    ⟨"parameters", true, (·.parameters?.isSome), fun d s => do
      let (v, rest) ← Json.objectWithin (Json.maxDepth - 4) s
      return (⟨d.path?, d.template?, d.version?, some (.ofPairs v)⟩, rest)⟩]

/-- A record in a manifest. -/
def readRecord : Json.Reader Identity := fun s => do
  let (d, rest) ← Json.record "AppliedRecord" recordFields ⟨none, none, none, none⟩ s
  let path ← Json.required "path" d.path?
  let template ← Json.required "template" d.template?
  let version ← Json.required "version" d.version?
  return (⟨⟨template, version, path⟩, d.parameters?.getD []⟩, rest)

/-- The fields of a manifest that have been read. -/
structure Draft where
  template? : Option (Option TreeTemplate)
  records? : Option (List Identity)

/-- The fields of a manifest. -/
def fields : List (Json.Field Draft) :=
  [⟨"template", true, (·.template?.isSome), fun d s => do
      let (v, rest) ← Json.optional readTemplate s
      return (⟨some v, d.records?⟩, rest)⟩,
    ⟨"partials", true, (·.records?.isSome), fun d s => do
      let (v, rest) ← Json.list readRecord s
      return (⟨d.template?, some v⟩, rest)⟩]

/-- A manifest. -/
def reader : Json.Reader Manifest := fun s => do
  let (d, rest) ← Json.record "Manifest" fields ⟨none, none⟩ s
  return (⟨d.template?.getD none, d.records?.getD []⟩, rest)

/-- The manifest that a text spells. -/
def parse (s : String) : Except Json.Error Manifest := Json.document reader s.toList

/-! ### In a tree -/

/-- The manifest file below a folder. -/
def file? (t : FileTree) (root : Path) : Option Path :=
  (fileNames.map root.join).find? t.isFile

/-- The manifest below a folder. -/
def load (t : FileTree) (root : Path) : Except Failure (Option Manifest) := do
  match file? t root with
  | none => return none
  | some path =>
    match ← (t.readOptional path).mapError Failure.file with
    | none => return none
    | some s => return some (← (parse s).mapError (.manifest path))

/-- The options for all files of the tree. -/
def options (m : Manifest) : Json.Members := (m.template?.bind (·.options?)).getD []

/-- The application has been recorded. -/
def contains (m : Manifest) (i : Identity) : Bool := m.records.any (·.same i)

/-- The manifest with one more record. The first record names the template of the tree. -/
def add (m : Manifest) (i : Identity) : Manifest :=
  ⟨m.template?.or (some ⟨i.unit.template, i.unit.version, none⟩), m.records ++ [i]⟩

/-- An application is recorded below a folder, unless it has been recorded before: the tree
with the record, and whether it is new. -/
def record (t : FileTree) (root : Path) (i : Identity) : FileTree × Except Failure Bool :=
  let path := (file? t root).getD (root.join newFileName)
  match load t root with
  | .error e => (t, .error e)
  | .ok found? =>
    let m := found?.getD empty
    if m.contains i then (t, .ok false)
    else
      match t.write path (m.add i).print with
      | (t, .ok ()) => (t, .ok true)
      | (t, .error e) => (t, .error (.file e))

end Manifest
end Scaffold
