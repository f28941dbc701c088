import Scaffold.Proofs.Options.Layers

/-!
# Layers that come together

Two layers of overrides, one after the other, are one layer: the first with the members of the second
in it (`layer_insertAll`). It does not matter that the options are written and read back between the
two, and an override that cannot be read is reported the same. What a layer does not name stays
(`keeps_of_layer`), and so does everything under a layer of names that are not those of options
(`layer_of_unknown`). All this is for options that were read from members, as those are that come
from the default options by layers; others may have no written form, such as an array strategy with
a field of blanks.
-/

namespace Scaffold.Options

open Json (Members)

variable {ms a : Members} {o o' : Options}

/-! ### One layer for two -/

/-- **Layers come together**: what a second layer makes of the options is what the first one with the
members of the second in it makes of those below, be it that one of them cannot be read. -/
theorem layer_insertAll (ho : ofMembers ms = .ok o) (ha : a.names.Nodup) (h : o.layer a = .ok o')
    (b : Members) : o'.layer b = o.layer (a.insertAll b) := by
  rw [layer_eq_ofMembers ho] at h
  rw [layer_eq_ofMembers h, layer_eq_ofMembers ho]
  refine ofMembers_congr fun name _ => ?_
  calc ((ms.insertAll a).insertAll b).get? name
      = ((Members.ofPairs b).get? name).or ((a.get? name).or (ms.get? name)) := by
        rw [Members.get?_insertAll, Members.get?_insertAll, Members.get?_ofPairs ha]
    _ = ((a.insertAll b).get? name).or (ms.get? name) := by
        rw [Members.get?_insertAll a, Option.or_assoc]
    _ = (ms.insertAll (a.insertAll b)).get? name := by
        rw [Members.get?_insertAll ms, Members.get?_ofPairs (Members.nodup_insertAll ha b)]

/-! ### What stays -/

/-- The options have the same values but for those that overrides name. -/
structure Keeps (overrides : Members) (o o' : Options) : Prop where
  commentSyntax : "commentSyntax" ∉ overrides.names → o'.commentSyntax = o.commentSyntax
  startMarker : "startRegionMarker" ∉ overrides.names → o'.startMarker = o.startMarker
  endMarker : "endRegionMarker" ∉ overrides.names → o'.endMarker = o.endMarker
  optionMarker : "optionMarker" ∉ overrides.names → o'.optionMarker = o.optionMarker
  annotate : "annotate" ∉ overrides.names → o'.annotate = o.annotate
  annotationTemplate : "annotationTemplate" ∉ overrides.names →
    o'.annotationTemplate = o.annotationTemplate
  appendStrategy : "appendStrategy" ∉ overrides.names → o'.appendStrategy = o.appendStrategy
  arrayStrategy : "arrayAppendStrategy" ∉ overrides.names → o'.arrayStrategy = o.arrayStrategy
  processors : "processors" ∉ overrides.names → o'.processors = o.processors
  appenders : "appenders" ∉ overrides.names → o'.appenders = o.appenders
  format : "format" ∉ overrides.names → o'.format = o.format
  folderNaming : "folderNaming" ∉ overrides.names → o'.folderNaming = o.folderNaming
  fileNaming : "fileNaming" ∉ overrides.names → o'.fileNaming = o.fileNaming

/-- An option that overrides do not name is read from the members below. -/
theorem eq_of_field_insertAll {α : Type} {name : String} {decode : Json.Value → Decoded α}
    {fallback x y : α} (hx : field ms name decode fallback = .ok x)
    (hy : field (ms.insertAll a) name decode fallback = .ok y) (hname : name ∉ a.names) : y = x := by
  rw [field, Members.get?_insertAll_of_not_mem hname] at hy
  exact Except.ok.inj (hy.symm.trans hx)

/-- **What a layer does not name stays.** -/
theorem keeps_of_layer (ho : ofMembers ms = .ok o) (h : o.layer a = .ok o') : Keeps a o o' := by
  rw [layer_eq_ofMembers ho] at h
  have hx := ofMembers_eq_ok.1 ho
  have hy := ofMembers_eq_ok.1 h
  exact ⟨eq_of_field_insertAll hx.commentSyntax hy.commentSyntax,
    eq_of_field_insertAll hx.startMarker hy.startMarker,
    eq_of_field_insertAll hx.endMarker hy.endMarker,
    eq_of_field_insertAll hx.optionMarker hy.optionMarker,
    eq_of_field_insertAll hx.annotate hy.annotate,
    eq_of_field_insertAll hx.annotationTemplate hy.annotationTemplate,
    eq_of_field_insertAll hx.appendStrategy hy.appendStrategy,
    eq_of_field_insertAll hx.arrayStrategy hy.arrayStrategy,
    eq_of_field_insertAll hx.processors hy.processors,
    eq_of_field_insertAll hx.appenders hy.appenders, eq_of_field_insertAll hx.format hy.format,
    eq_of_field_insertAll hx.folderNaming hy.folderNaming,
    eq_of_field_insertAll hx.fileNaming hy.fileNaming⟩

/-- **A layer of unknown names changes nothing**, although the options are written and read back. -/
theorem layer_of_unknown (ho : ofMembers ms = .ok o) (h : ∀ name ∈ a.names, name ∉ names) :
    o.layer a = .ok o := by
  rw [layer_eq_ofMembers ho, ← ho]
  exact ofMembers_congr fun name hname =>
    Members.get?_insertAll_of_not_mem (fun hmem => h name hmem hname) ms

/-- Options that were read are read back from their own members. -/
theorem ofMembers_toMembers (ho : ofMembers ms = .ok o) : ofMembers o.toMembers = .ok o := by
  have hunknown : o.layer [("", .null)] = .ok o := layer_of_unknown ho (by decide)
  rw [← hunknown, layer, if_neg (by decide)]
  exact ofMembers_congr fun name hname =>
    (Members.get?_insertAll_of_not_mem (fun hmem => absurd hname (by
      rw [List.mem_singleton.1 hmem]; decide)) o.toMembers).symm

/-- **Layering composes**, for all options that come from the default ones by layers: another layer
on top of a layer is one layer with the members of both, the fault of one that cannot be read
included. Options that the first layer does not name keep their values, and what it gives is read
back from its written form, whatever the overrides spelled it as. -/
theorem layer_composes {layers : List Members} (ho : layers.foldlM layer default = .ok o)
    (ha : a.names.Nodup) (h : o.layer a = .ok o') :
    (∀ b, o'.layer b = o.layer (a.insertAll b)) ∧ Keeps a o o' ∧
      ofMembers o'.toMembers = .ok o' ∧
        ∀ b : Members, (∀ name ∈ b.names, name ∉ names) → o'.layer b = .ok o' := by
  have hread := ofMembers_of_foldlM ofMembers_stacked_nil ho
  have hread' := (layer_eq_ofMembers hread a).symm.trans h
  exact ⟨layer_insertAll hread ha h, keeps_of_layer hread h, ofMembers_toMembers hread',
    fun b hb => layer_of_unknown hread' hb⟩

/-- A strategy for arrays with blanks that its written form does not have. -/
def spacedLayer : Members := [("arrayAppendStrategy", .string " key< id > ")]

/-- A strategy that is given as an object, and a format. -/
def nestedLayer : Members :=
  [("appendStrategy", .object [("ignore", .null)]), ("format", .string "toml")]

/-- Overrides that are spelled otherwise than they are written compose, also with one that cannot be
read. -/
theorem layer_composes_of_spellings : ∃ o o' e, [spacedLayer].foldlM layer default = .ok o ∧
    o.layer nestedLayer = .ok o' ∧ o'.arrayStrategy = .key "id" ∧ o'.appendStrategy = .ignore ∧
    ofMembers o'.toMembers = .ok o' ∧
    o'.layer [("format", .bool true)] = .error e ∧
    o.layer (nestedLayer.insertAll [("format", .bool true)]) = .error e := by
  have ho : [spacedLayer].foldlM layer default =
      .ok { default with arrayStrategy := .key "id" } := by rfl
  have h : ({ default with arrayStrategy := .key "id" } : Options).layer nestedLayer =
      .ok { default with
        arrayStrategy := .key "id", appendStrategy := .ignore, format := some "toml" } := by rfl
  obtain ⟨hlayers, hkeeps, hback, -⟩ := layer_composes ho (by decide) h
  refine ⟨_, _, .invalidType (.bool true) "a string", ho, h, hkeeps.arrayStrategy (by decide), rfl,
    hback, by rfl, ?_⟩
  rw [← hlayers]
  rfl

end Scaffold.Options
