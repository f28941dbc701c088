import Mathlib
import Scaffold.Proofs.Merge.Structured
import Scaffold.Proofs.Merge.Tables
import Scaffold.Proofs.Toml.Reader

/-!
# Date-times in merged TOML documents

A date-time is a scalar, and one would expect it to be merged like the others: the source takes the
place of the target, and the reserved name that stands for date-times in JSON is written nowhere.
But a table with members that meets a date-time gets the reserved name beside them, whichever of the
two is the source, and an empty table does not take the place of a date-time. Nothing else goes
wrong: date-times go like scalars in exactly those documents where they do not meet such tables
(`datetimes_iff`). The order in which a document gives the members of a table is left open by this,
as it is by the format.
-/

namespace Scaffold.Merge

open Toml (Step Table Datetime)
open Toml.Value

section
variable {strategy : ArrayStrategy} {a b v x y : Toml.Value} {s : Step}

/-! ### The reserved name in what is merged -/

/-- A date-time and a table with members meet where parts are merged with each other. -/
def Clash (strategy : ArrayStrategy) (a b : Toml.Value) : Prop :=
  ∃ path x y, (∀ s ∈ path, Followed strategy s) ∧ a.at? path = some x ∧ b.at? path = some y ∧
    Torn x y

theorem Clash.of_child? (hs : Followed strategy s) (hx : a.child? s = some x)
    (hy : b.child? s = some y) (h : Clash strategy x y) : Clash strategy a b := by
  obtain ⟨path, x', y', hpath, hx', hy', ht⟩ := h
  exact ⟨s :: path, x', y', List.forall_mem_cons.2 ⟨hs, hpath⟩, at?_cons_eq_some.2 ⟨x, hx, hx'⟩,
    at?_cons_eq_some.2 ⟨y, hy, hy'⟩, ht⟩

/-- An object with the reserved name and another one becomes a table with the reserved name. -/
theorem mentions_of_object {js : Json.Members} (hkey : datetimeKey ∈ js.names) {k : String}
    (hk : k ∈ js.names) (hne : k ≠ datetimeKey) (h : ofJson (.object js) = .ok v) :
    v.Mentions datetimeKey := by
  have hheld : heldDatetime? js = none := by
    by_contra hheld
    obtain ⟨d, hd⟩ := Option.ne_none_iff_exists'.1 hheld
    rw [names_of_held hd] at hk
    exact hne (List.mem_singleton.1 hk)
  obtain ⟨vs, rfl, hvs⟩ := table_of_ofJson hheld h
  obtain ⟨j, hj⟩ := Option.isSome_iff_exists.1 (Json.Members.get?_isSome.2 hkey)
  obtain ⟨w, hw, -⟩ := exists_of_rel_some (hj ▸ rel_lookup datetimeKey hvs)
  exact mentions_of_child? (v := .table vs) hw

/-- Torn into one, a date-time and a table with members give a table with the reserved name. -/
theorem Torn.mentions (h : Torn a b) (ha : Clean a) (hb : Clean b) (hv : Merged strategy a b v) :
    v.Mentions datetimeKey := by
  cases h with
  | @intoTable d members hne =>
    obtain ⟨m, rest, rfl⟩ := List.exists_cons_of_ne_nil hne
    obtain ⟨hnames, -, hkey⟩ := ha.names
    have hm : m.1 ∈ (m :: rest).map Prod.fst := List.mem_cons_self
    have hn : (Json.Members.names [(datetimeKey, .string d.text)]).Nodup := List.nodup_singleton _
    rw [Merged, toJson, toJson, values] at hv
    exact mentions_of_object ((mem_names_objects hn).2 (.inr (List.mem_singleton.2 rfl)))
      ((mem_names_objects hn).2 (.inl (hnames ▸ hm))) (fun heq => hkey (heq ▸ hm)) hv
  | @intoDatetime d members hne =>
    obtain ⟨m, rest, rfl⟩ := List.exists_cons_of_ne_nil hne
    obtain ⟨hnames, hn, hkey⟩ := hb.names
    have hm : m.1 ∈ (m :: rest).map Prod.fst := List.mem_cons_self
    rw [Merged, toJson, toJson, values] at hv
    exact mentions_of_object ((mem_names_objects (hnames ▸ hn)).2 (.inl (List.mem_singleton.2 rfl)))
      ((mem_names_objects (hnames ▸ hn)).2 (.inr (hnames ▸ hm))) (fun heq => hkey (heq ▸ hm)) hv

/-- **The reserved name stands in what is merged exactly if a date-time and a table with members
clash.** -/
theorem mentions_merged_iff (ha : Clean a) (hb : Clean b) (h : Merged strategy a b v) :
    v.Mentions datetimeKey ↔ Clash strategy a b := by
  constructor
  · rintro ⟨path, hpath⟩
    by_contra hclash
    induction path generalizing a b v with
    | nil =>
      have ht : ¬ Torn a b := fun ht => hclash ⟨[], a, b, nofun, rfl, rfl, ht⟩
      obtain ⟨w, hw⟩ := Option.isSome_iff_exists.1 hpath
      obtain ⟨c, hc, -⟩ := at?_cons_eq_some.1 hw
      cases h.comes ha hb hc ht with
      | merged _ hx _ _ => exact ha.quiet (mentions_of_child? hx)
      | kept hof hs hkept =>
        obtain rfl := hs _ rfl
        rcases hof with rfl | rfl
        · exact ha.quiet (mentions_of_child? hkept)
        · exact hb.quiet (mentions_of_child? hkept)
    | cons s path ih =>
      have ht : ¬ Torn a b := fun ht => hclash ⟨[], a, b, nofun, rfl, rfl, ht⟩
      obtain ⟨w, hw⟩ := Option.isSome_iff_exists.1 hpath
      obtain ⟨c, hc, hw⟩ := at?_cons_eq_some.1 hw
      have hmore : (c.at? (path ++ [.name datetimeKey])).isSome :=
        Option.isSome_iff_exists.2 ⟨w, hw⟩
      cases h.comes ha hb hc ht with
      | merged hs hx hy hmerged =>
        exact ih (ha.child? hx) (hb.child? hy) hmerged hmore fun hc =>
          hclash (hc.of_child? hs hx hy)
      | kept hof _ hkept =>
        have hmentions : c.Mentions datetimeKey := ⟨path, hmore⟩
        rcases hof with rfl | rfl
        · exact ha.quiet (hmentions.of_child? hkept)
        · exact hb.quiet (hmentions.of_child? hkept)
  · rintro ⟨path, x, y, hs, hx, hy, ht⟩
    obtain ⟨z, hz, hmerged⟩ := h.at? ha hb hs hx hy
    exact (ht.mentions (ha.at? hx) (hb.at? hy) hmerged).of_at? hz

/-! ### Date-times where the source wins -/

/-- At every path of names where just one of two values is a date-time, the source stands in the
result. -/
def SourceWins (a b r : Toml.Value) : Prop :=
  ∀ (names : List String) (x y : Toml.Value), a.at? (names.map .name) = some x →
    b.at? (names.map .name) = some y → x.isDatetime ≠ y.isDatetime →
      ∃ z, r.at? (names.map .name) = some z ∧ z.Alike y

/-- A date-time of the target meets an empty table of the source. -/
def Outlasts (a b : Toml.Value) : Prop :=
  ∃ (names : List String) (d : Datetime), a.at? (names.map .name) = some (.datetime d) ∧
    b.at? (names.map .name) = some (.table [])

theorem followed_names (names : List String) :
    ∀ s ∈ names.map Step.name, Followed strategy s := by
  intro s hs
  obtain ⟨k, -, rfl⟩ := List.mem_map.1 hs
  trivial

/-- What stands at a path of names in a result that is like the merged value. -/
theorem Merged.exists_alike {r : Toml.Value} {names : List String} (ha : Clean a) (hb : Clean b)
    (h : Merged strategy a b v) (hr : r.Alike v) (hx : a.at? (names.map .name) = some x)
    (hy : b.at? (names.map .name) = some y) :
    ∃ z, Meets x y z ∧ (Torn x y → Clash strategy a b) ∧
      ∃ z', r.at? (names.map .name) = some z' ∧ z'.Alike z := by
  obtain ⟨z, hz, hmerged⟩ := h.at? ha hb (followed_names names) hx hy
  exact ⟨z, meets_of_merged (ha.at? hx) (hb.at? hy) hmerged,
    fun ht => ⟨_, x, y, followed_names names, hx, hy, ht⟩, hr.at? hz⟩

/-- **Date-times go like scalars exactly if none of them meets a table** with members, or as the
target an empty one. -/
theorem sourceWins_iff (ha : Clean a) (hb : Clean b) (h : Merged strategy a b v) {r : Toml.Value}
    (hr : r.Alike v) : (¬ r.Mentions datetimeKey ∧ SourceWins a b r) ↔
      ¬ Clash strategy a b ∧ ¬ Outlasts a b := by
  have hmentions : r.Mentions datetimeKey ↔ Clash strategy a b :=
    ⟨fun hm => (mentions_merged_iff ha hb h).1 (hr.symm.mentions hm),
      fun hc => hr.mentions ((mentions_merged_iff ha hb h).2 hc)⟩
  rw [hmentions]
  refine and_congr_right fun hclash => ⟨?_, fun houtlasts names x y hx hy hne => ?_⟩
  · rintro hwins ⟨names, d, hx, hy⟩
    obtain ⟨z, hmeets, -, z', hz', halike⟩ := h.exists_alike ha hb hr hx hy
    obtain ⟨z'', hz'', hwon⟩ := hwins names _ _ hx hy nofun
    obtain rfl := Option.some.inj (hz'.symm.trans hz'')
    cases hmeets with
    | torn ht =>
      cases ht with
      | intoDatetime _ hne => exact hne rfl
    | kept d => cases halike.outer.symm.trans hwon.outer
    | replaced hne => exact hne d rfl rfl
  · obtain ⟨z, hmeets, htorn, z', hz', halike⟩ := h.exists_alike ha hb hr hx hy
    refine ⟨z', hz', ?_⟩
    cases hmeets with
    | tables | arrays => exact absurd rfl hne
    | torn ht => exact absurd (htorn ht) hclash
    | kept d => exact absurd ⟨names, d, hx, hy⟩ houtlasts
    | replaced => exact halike

end

/-! ### Documents -/

/-- The table that a document spells. A blank one spells an empty table. -/
def table? (s : String) : Option Table :=
  if Text.isBlankText s then some [] else Toml.Reader.parse? s

/-- What is printed of a table is read as a table like it. -/
def ReadsAlike (t : Table) : Prop :=
  ∃ r, Toml.Reader.parse? (Text.closeLine (Toml.Printer.print t)) = some r ∧
    (Toml.Value.table r).Alike (.table t)

section
variable {s : String} {t : Table}

theorem table?_eq_parse? (hs : Text.isBlankText s = false) : table? s = Toml.Reader.parse? s := by
  rw [table?, hs, if_neg Bool.false_ne_true]

theorem sound_of_table? (h : table? s = some t) : (Toml.Value.table t).Sound := by
  unfold table? at h
  split at h
  · obtain rfl := Option.some.inj h
    exact .table List.nodup_nil nofun
  · exact Toml.Reader.sound_of_parse? h

theorem parse_toml (hs : Text.isBlankText s = false) (h : Toml.Reader.parse? s = some t) :
    parse .toml s = .ok (some (Toml.Value.table t).toJson) := by
  rw [parse, DataFormat.parse, hs, if_neg Bool.false_ne_true, DataFormat.read, h]
  rfl

theorem print_toml {v : Json.Value} (h : ofJson v = .ok (.table t)) :
    print .toml v = .ok (Text.closeLine (Toml.Printer.print t)) := by
  rw [print, DataFormat.print, DataFormat.printToml, h]
  rfl

theorem parse_of_table? (h : table? s = some t) :
    parse .toml s = .ok none ∧ t = [] ∨ parse .toml s = .ok (some (Toml.Value.table t).toJson) := by
  unfold table? at h
  split at h
  · rename_i hblank
    rw [parse, DataFormat.parse, if_pos hblank]
    exact .inl ⟨rfl, (Option.some.inj h).symm⟩
  · rename_i hblank
    exact .inr (parse_toml (Bool.eq_false_iff.2 hblank) h)

end

section
variable {input : MergeInput} {destination text : String} {a b : Table}

/-- A table that goes into an empty document, or into none, stands there alone. -/
theorem values_empty (strategy : ArrayStrategy) (hb : (Toml.Value.table b).Sound) :
    values strategy (Toml.Value.table []).toJson (Toml.Value.table b).toJson =
      (Toml.Value.table b).toJson := by
  cases hb with
  | table hn =>
    rw [← names_toJsonMembers] at hn
    rw [toJson, toJson, values, toJsonMembers, objects_of_disjoint hn, List.nil_append]

/-- The value that content makes of a document is the merged value of their tables. -/
theorem structuredValue_of_append (happend : input.options.appendStrategy = .append)
    (hdestination : input.destination? = some destination) (ha : table? destination = some a)
    (hb : table? input.content = some b) {v : Json.Value}
    (h : structuredValue .toml input = .ok (some v)) :
    v = values input.options.arrayStrategy (Toml.Value.table a).toJson
      (Toml.Value.table b).toJson := by
  obtain ⟨source?, hsource, h⟩ := Outcome.bind_eq_ok.1 h
  obtain ⟨target?, htarget, h⟩ := Outcome.bind_eq_ok.1 h
  rw [targetValue, hdestination] at htarget
  obtain ⟨hnull, rfl⟩ := document_of_append happend (Except.ok.inj h)
  rcases parse_of_table? hb with ⟨hblank, -⟩ | hparse
  · -- a blank source is null, and so would be what is written
    obtain rfl := Except.ok.inj (hblank.symm.trans hsource)
    cases target? with
    | none => cases hnull
    | some target => cases target <;> cases hnull
  · obtain rfl := Except.ok.inj (hparse.symm.trans hsource)
    rcases parse_of_table? ha with ⟨hblank, rfl⟩ | hparse
    · obtain rfl := Except.ok.inj (hblank.symm.trans htarget)
      exact (values_empty _ (sound_of_table? hb)).symm
    · obtain rfl := Except.ok.inj (hparse.symm.trans htarget)
      rfl

/-- What is written is printed from the merged tables. -/
theorem merged_of_structured (happend : input.options.appendStrategy = .append)
    (hdestination : input.destination? = some destination) (ha : table? destination = some a)
    (hb : table? input.content = some b) (h : structured .toml input = .ok (some text)) :
    ∃ t, Merged input.options.arrayStrategy (.table a) (.table b) (.table t) ∧
      text = Text.closeLine (Toml.Printer.print t) := by
  obtain ⟨v, hvalue, hprint⟩ := structured_eq_some.1 h
  obtain rfl := structuredValue_of_append happend hdestination ha hb hvalue
  obtain ⟨unclosed, hunclosed, rfl⟩ := Outcome.map_eq_ok.1 (Outcome.mapError_eq_ok.1 hprint)
  unfold DataFormat.printToml at hunclosed
  split at hunclosed
  · rename_i t hmerged
    exact ⟨t, hmerged, congrArg Text.closeLine (Except.ok.inj hunclosed).symm⟩
  · cases hunclosed
  · cases hunclosed

/-- **Date-times in merged documents.** Where a TOML document goes into another one and neither
mentions the reserved name, what is written can be read again, whatever the strategy for arrays. The
reserved name does not stand in it, and at every path of names where just one of the documents has a
date-time it has what the source has there, exactly if no date-time meets a table with members and
no date-time of the target meets an empty table. -/
theorem datetimes_iff (happend : input.options.appendStrategy = .append)
    (hdestination : input.destination? = some destination) (ha : table? destination = some a)
    (hb : table? input.content = some b) (hqa : ¬ (Toml.Value.table a).Mentions datetimeKey)
    (hqb : ¬ (Toml.Value.table b).Mentions datetimeKey)
    (hback : ∀ t, Merged input.options.arrayStrategy (.table a) (.table b) (.table t) →
      ReadsAlike t)
    (h : structured .toml input = .ok (some text)) :
    ∃ r, Toml.Reader.parse? text = some r ∧
      ((¬ (Toml.Value.table r).Mentions datetimeKey ∧
          SourceWins (.table a) (.table b) (.table r)) ↔
        ¬ Clash input.options.arrayStrategy (.table a) (.table b) ∧
          ¬ Outlasts (.table a) (.table b)) := by
  obtain ⟨t, hmerged, rfl⟩ := merged_of_structured happend hdestination ha hb h
  obtain ⟨r, hr, halike⟩ := hback t hmerged
  exact ⟨r, hr, sourceWins_iff ⟨sound_of_table? ha, hqa⟩ ⟨sound_of_table? hb, hqb⟩ hmerged halike⟩

end

/-- The day that a document has under a name. -/
def someDay : Datetime := ⟨some ⟨1979, 5, 27⟩, none, none⟩

/-- The document with the day. -/
def dayText : String := "a = 1979-05-27\n"

/-- The table of the document with the day. -/
def dayTable : Table := [("a", .datetime someDay)]

/-- A document with an empty table of the same name. -/
def emptyTableText : String := "[a]\n"

/-- The empty table goes into the document with the day. -/
def emptyTableInput : MergeInput where
  destination? := some dayText
  content := emptyTableText
  identity := ⟨⟨"t", "1", "p"⟩, []⟩
  delimiters := .ofOptions .default ⟨"a.toml"⟩
  options := .default

theorem not_mentions_singleton {k name : String} {v : Toml.Value} (hname : k ≠ name)
    (hv : ∀ s, v.child? s = none) : ¬ (Toml.Value.table [(name, v)]).Mentions k := by
  have hscalar : ¬ v.Mentions k :=
    not_mentions_of_forall (hv _) fun s w hw => absurd hw (by simp [hv s])
  have hlookup : ∀ other w, List.lookup other [(name, v)] = some w → other = name ∧ w = v := by
    intro other w hw
    obtain ⟨rfl, rfl⟩ := Prod.mk.inj (List.mem_singleton.1 (mem_of_lookup hw))
    exact ⟨rfl, rfl⟩
  refine not_mentions_of_forall ?_ fun s w hw => ?_
  · exact Option.eq_none_iff_forall_ne_some.2 fun w hw => hname (hlookup k w hw).1
  · obtain ⟨other, rfl⟩ : ∃ other, s = .name other := by
      cases s with
      | name other => exact ⟨other, rfl⟩
      | index i => cases hw
    exact (hlookup other w hw).2 ▸ hscalar

theorem merged_dayTable : Merged .combine (.table dayTable) (.table [("a", .table [])])
    (.table dayTable) := by
  have hvalid : someDay.Valid := .date ⟨by decide, by decide, by decide⟩
  have hvalues : values .combine (Toml.Value.table dayTable).toJson
      (Toml.Value.table [("a", .table [])]).toJson =
        .object [("a", .object [(datetimeKey, .string someDay.text)])] := by
    simp [dayTable, toJson, toJsonMembers, values, objects, Json.Members.get?, Json.Members.insert]
  have hmember : ofJson (.object [(datetimeKey, .string someDay.text)]) = .ok (.datetime someDay) :=
    ofJson_of_held (heldDatetime?_text hvalid)
  have hheld : heldDatetime? [("a", .object [(datetimeKey, .string someDay.text)])] = none := rfl
  have hmembers : ofJsonMembers [("a", .object [(datetimeKey, .string someDay.text)])] =
      .ok dayTable := Outcome.bind_eq_ok.2 ⟨_, hmember, rfl⟩
  rw [Merged, hvalues, ofJson, hheld]
  exact Outcome.bind_eq_ok.2 ⟨_, hmembers, rfl⟩

theorem parse?_dayText : Toml.Reader.parse? dayText = some dayTable := by cbv

theorem parse?_emptyTable : Toml.Reader.parse? emptyTableText = some [("a", .table [])] := by
  cbv

theorem isBlankText_dayText : Text.isBlankText dayText = false := by cbv

theorem isBlankText_emptyTable : Text.isBlankText emptyTableText = false := by cbv

theorem print_dayTable : Text.closeLine (Toml.Printer.print dayTable) = dayText := by
  decide +kernel

/-- The day outlasts an empty table of its name. -/
theorem datetimes_iff_of_empty_table :
    structured .toml emptyTableInput = .ok (some dayText) ∧
    Outlasts (.table dayTable) (.table [("a", .table [])]) ∧
    ∃ r, Toml.Reader.parse? dayText = some r ∧
      ¬ (¬ (Toml.Value.table r).Mentions datetimeKey ∧
        SourceWins (.table dayTable) (.table [("a", .table [])]) (.table r)) := by
  have ha := (table?_eq_parse? isBlankText_dayText).trans parse?_dayText
  have hb := (table?_eq_parse? isBlankText_emptyTable).trans parse?_emptyTable
  have hvalue : structuredValue .toml emptyTableInput = .ok (some (values .combine
      (Toml.Value.table dayTable).toJson (Toml.Value.table [("a", .table [])]).toJson)) :=
    Outcome.bind_eq_ok.2 ⟨_, parse_toml isBlankText_emptyTable parse?_emptyTable,
      Outcome.bind_eq_ok.2 ⟨_, parse_toml isBlankText_dayText parse?_dayText, rfl⟩⟩
  have hwritten : structured .toml emptyTableInput = .ok (some dayText) :=
    structured_eq_some.2 ⟨_, hvalue, print_dayTable ▸ print_toml merged_dayTable⟩
  have houtlasts : Outlasts (.table dayTable) (.table [("a", .table [])]) :=
    ⟨["a"], someDay, rfl, rfl⟩
  have hback : ∀ t, Merged .combine (.table dayTable) (.table [("a", .table [])]) (.table t) →
      ReadsAlike t := by
    intro t ht
    obtain rfl : dayTable = t :=
      Toml.Value.table.inj (Except.ok.inj (merged_dayTable.symm.trans ht))
    exact ⟨dayTable, print_dayTable ▸ parse?_dayText, .refl _⟩
  obtain ⟨r, hr, hiff⟩ := datetimes_iff rfl rfl ha hb
    (not_mentions_singleton (by decide) fun s => by cases s <;> rfl)
    (not_mentions_singleton (by decide) fun s => by cases s <;> rfl) hback hwritten
  exact ⟨hwritten, houtlasts, r, hr, fun hgood => (hiff.1 hgood).2 houtlasts⟩

end Scaffold.Merge
