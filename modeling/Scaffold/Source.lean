import Scaffold.Failure
import Scaffold.FileTree
import Scaffold.Json.Record

/-!
# Template sources

Templates and their parts come from a source. A source may keep a state of its own between
requests. One source reads a folder, and another one remembers what a source has answered.
-/

namespace Scaffold

/-- The configuration of a template. -/
structure TemplateConfig where
  name : String
  version : String
  options : Json.Members
deriving Inhabited

/-- The configuration of a part. -/
structure PartConfig where
  description? : Option String
  options : Json.Members
deriving Inhabited

/-- A part of a template: its configuration and the folder of its files. -/
structure PartDefinition where
  config : PartConfig
  contentRoot : Path
deriving Inhabited

/-- Where templates and parts come from, with a state of type `σ`. -/
structure Source (σ : Type) where
  template : (name version : String) → FileTree → σ → Except Failure TemplateConfig × σ
  part : (unit : UnitName) → FileTree → σ → Except Failure PartDefinition × σ

namespace Source

/-! ### Configurations -/

/-- The fields of a configuration that have been read. -/
structure TemplateDraft where
  name? : Option String
  version? : Option String
  options? : Option Json.Members

/-- The fields of a template's configuration. All of them may miss. -/
def templateFields : List (Json.Field TemplateDraft) :=
  [⟨"name", true, (·.name?.isSome), fun d s => do
      let (v, rest) ← Json.text s
      return (⟨some v, d.version?, d.options?⟩, rest)⟩,
    ⟨"version", true, (·.version?.isSome), fun d s => do
      let (v, rest) ← Json.text s
      return (⟨d.name?, some v, d.options?⟩, rest)⟩,
    ⟨"options", true, (·.options?.isSome), fun d s => do
      let (v, rest) ← Json.objectWithin (Json.maxDepth - 2) s
      return (⟨d.name?, d.version?, some v⟩, rest)⟩]

/-- The configuration of a template. -/
def readTemplate : Json.Reader TemplateConfig := fun s => do
  let (d, rest) ← Json.record "TemplateConfig" templateFields ⟨none, none, none⟩ s
  return (⟨d.name?.getD "", d.version?.getD "", d.options?.getD []⟩, rest)

/-- The fields of a configuration that have been read. -/
structure PartDraft where
  description? : Option (Option String)
  options? : Option Json.Members

/-- The fields of a part's configuration. All of them may miss. -/
def partFields : List (Json.Field PartDraft) :=
  [⟨"description", true, (·.description?.isSome), fun d s => do
      let (v, rest) ← Json.optional Json.text s
      return (⟨some v, d.options?⟩, rest)⟩,
    ⟨"options", true, (·.options?.isSome), fun d s => do
      let (v, rest) ← Json.objectWithin (Json.maxDepth - 2) s
      return (⟨d.description?, some v⟩, rest)⟩]

/-- The configuration of a part. -/
def readPart : Json.Reader PartConfig := fun s => do
  let (d, rest) ← Json.record "PartialConfig" partFields ⟨none, none⟩ s
  return (⟨d.description?.getD none, d.options?.getD []⟩, rest)

/-- The configuration in a file, or the one for a file that is missing. -/
def config {α : Type} (reader : Json.Reader α) (missing : α) (key : String) (path : Path)
    (t : FileTree) : Except Failure α := do
  match ← (t.readOptional path).mapError Failure.file with
  | none => return missing
  | some s => (Json.document reader s.toList).mapError fun e => .source key (.unreadable path e)

/-! ### Folders -/

/-- The folder of a template. -/
def templateFolder (root : Path) (name version : String) : Path :=
  (root.join ⟨name⟩).join ⟨version⟩

/-- A text, or another one if it is empty. -/
def orElse (s other : String) : String := if s.isEmpty then other else s

/-- A template in a folder of templates. -/
def folderTemplate (root : Path) (name version : String) (t : FileTree) :
    Except Failure TemplateConfig := do
  let key := name ++ "@" ++ version
  let folder := templateFolder root name version
  if t.isFolder folder then
    let c ← config readTemplate ⟨"", "", []⟩ key (folder.join ⟨"template.json"⟩) t
    return ⟨orElse c.name name, orElse c.version version, c.options⟩
  else throw (.source key (.missing folder))

/-- A part of a template in a folder of templates. -/
def folderPart (root : Path) (unit : UnitName) (t : FileTree) : Except Failure PartDefinition := do
  let parts := (templateFolder root unit.template unit.version).join ⟨"partials"⟩
  let folder := parts.join ⟨unit.part⟩
  let contentRoot := folder.join ⟨"files"⟩
  if t.isFolder contentRoot then
    let c ← config readPart ⟨none, []⟩ unit.text (folder.join ⟨"partial.json"⟩) t
    return ⟨c, contentRoot⟩
  else throw (.source unit.text (.missing contentRoot))

/-- The templates in a folder: `name/version/template.json` and
`name/version/partials/part/partial.json`, with the files of the part in `files` beside it. -/
def folder (root : Path) : Source Unit :=
  ⟨fun name version t s => (folderTemplate root name version t, s),
    fun unit t s => (folderPart root unit t, s)⟩

/-! ### Remembering -/

/-- Answers by keys. -/
abbrev Memory (κ α : Type) := List (κ × α)

/-- The remembered answer, or a fresh one, which is remembered unless it is an error. -/
def Memory.answer {κ α σ : Type} [BEq κ] (memory : Memory κ α) (key : κ)
    (ask : σ → Except Failure α × σ) (s : σ) : Except Failure α × Memory κ α × σ :=
  match memory.lookup key with
  | some a => (.ok a, memory, s)
  | none =>
    match ask s with
    | (.ok a, s) => (.ok a, (key, a) :: memory, s)
    | (.error e, s) => (.error e, memory, s)

/-- What has been remembered of a source, and the state of that source. -/
structure Remembered (σ : Type) where
  templates : Memory (String × String) TemplateConfig
  parts : Memory UnitName PartDefinition
  inner : σ
deriving Inhabited

/-- Nothing is remembered yet. -/
def Remembered.start {σ : Type} (inner : σ) : Remembered σ := ⟨[], [], inner⟩

/-- The source that asks another one for each template and each part until it has an answer. -/
def remembering {σ : Type} (source : Source σ) : Source (Remembered σ) :=
  ⟨fun name version t m =>
      let (answer, templates, inner) :=
        m.templates.answer (name, version) (source.template name version t) m.inner
      (answer, ⟨templates, m.parts, inner⟩),
    fun unit t m =>
      let (answer, parts, inner) := m.parts.answer unit (source.part unit t) m.inner
      (answer, ⟨m.templates, parts, inner⟩)⟩

end Source
end Scaffold
