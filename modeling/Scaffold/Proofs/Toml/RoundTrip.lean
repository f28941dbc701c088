import Scaffold.Proofs.Toml.Bridge

/-!
# TOML values that come back from JSON

A sound value is lost on the way to JSON and back in two ways only, and both are exact: it does not
come back at all if a float in it is not finite, and it comes back as another value if one of its
tables is what a date-time looks like in JSON (`ofJson_toJson`). In both directions the argument goes
down the value: a value comes back if and only if its parts do.
-/

namespace Scaffold.Toml

namespace Value

variable {v w : Value} {s : Step} {path : List Step}

/-! ### Values that come back -/

/-- Every float in the value is finite. -/
def WithFiniteFloats (v : Value) : Prop :=
  ∀ path d, v.at? path = some (.float d) → d.isFinite = true

theorem WithFiniteFloats.child? (h : v.WithFiniteFloats) (hw : v.child? s = some w) :
    w.WithFiniteFloats :=
  fun path d hpath => h (s :: path) d (at?_cons_eq_some.2 ⟨w, hw, hpath⟩)

theorem exists_ofJsonItems {js : List Json.Value} (h : ∀ j ∈ js, ∃ v, ofJson j = .ok v) :
    ∃ vs, ofJsonItems js = .ok vs := by
  induction js with
  | nil => exact ⟨[], rfl⟩
  | cons j js ih =>
    obtain ⟨⟨v, hv⟩, hjs⟩ := List.forall_mem_cons.1 h
    obtain ⟨vs, hvs⟩ := ih hjs
    exact ⟨v :: vs, Outcome.bind_eq_ok.2 ⟨v, hv, Outcome.bind_eq_ok.2 ⟨vs, hvs, rfl⟩⟩⟩

theorem exists_ofJsonMembers {js : Json.Members} (h : ∀ j ∈ js, ∃ v, ofJson j.2 = .ok v) :
    ∃ vs, ofJsonMembers js = .ok vs := by
  induction js with
  | nil => exact ⟨[], rfl⟩
  | cons j js ih =>
    obtain ⟨⟨v, hv⟩, hjs⟩ := List.forall_mem_cons.1 h
    obtain ⟨vs, hvs⟩ := ih hjs
    exact ⟨(j.1, v) :: vs, Outcome.bind_eq_ok.2 ⟨v, hv, Outcome.bind_eq_ok.2 ⟨vs, hvs, rfl⟩⟩⟩

/-- **A value whose floats are finite comes back**, be it as another one. -/
theorem exists_ofJson_toJson (hs : v.Sound) (h : v.WithFiniteFloats) :
    ∃ w, ofJson v.toJson = .ok w := by
  induction hs with
  | string s => exact ⟨_, rfl⟩
  | integer hi => exact ⟨_, rfl⟩
  | float d =>
    rw [toJson, if_pos (h [] d rfl)]
    exact ⟨_, rfl⟩
  | boolean b => exact ⟨_, rfl⟩
  | datetime hd => exact ⟨_, ofJson_of_held (heldDatetime?_text hd)⟩
  | @array items _ ih =>
    have hitems : ∀ j ∈ toJsonItems items, ∃ w, ofJson j = .ok w := by
      rw [toJsonItems_eq, List.forall_mem_map]
      intro item hitem
      obtain ⟨i, hi⟩ := List.mem_iff_getElem?.1 hitem
      exact ih item hitem (h.child? (s := .index i) hi)
    obtain ⟨ws, hws⟩ := exists_ofJsonItems hitems
    exact ⟨.array ws, Outcome.bind_eq_ok.2 ⟨ws, hws, rfl⟩⟩
  | @table members hn _ ih =>
    have hmembers : ∀ j ∈ toJsonMembers members, ∃ w, ofJson j.2 = .ok w := by
      rw [toJsonMembers_eq, List.forall_mem_map]
      intro m hm
      exact ih m hm (h.child? (s := .name m.1) (lookup_of_mem hn hm))
    obtain ⟨ws, hws⟩ := exists_ofJsonMembers hmembers
    rw [toJson, ofJson]
    cases heldDatetime? (toJsonMembers members) with
    | some d => exact ⟨_, rfl⟩
    | none => exact ⟨.table ws, Outcome.bind_eq_ok.2 ⟨ws, hws, rfl⟩⟩

/-! ### Parts of values that come back -/

theorem eq_string_of_toJson {text : String} (h : v.toJson = .string text) : v = .string text := by
  cases v with
  | string s => exact congrArg Value.string (Json.Value.string.inj h)
  | float d =>
    rw [toJson] at h
    split at h <;> cases h
  | _ => cases h

/-- A table that looks like a date-time in JSON has a text under the reserved name, and nothing
else. -/
theorem exists_text_of_held_toJsonMembers {members : Table} {d : Datetime}
    (h : heldDatetime? (toJsonMembers members) = some d) :
    ∃ text, members = [(datetimeKey, .string text)] ∧ Datetime.parse? text.toList = some d := by
  obtain ⟨text, hjs, hparse⟩ := exists_text_of_held h
  rw [toJsonMembers_eq, List.map_eq_singleton_iff] at hjs
  obtain ⟨⟨name, value⟩, rfl, hm⟩ := hjs
  obtain ⟨rfl, hvalue⟩ := Prod.mk.inj hm
  obtain rfl : value = .string text := eq_string_of_toJson hvalue
  exact ⟨text, rfl, hparse⟩

/-- **A value is undisguised** if a text stands alone under the reserved name only where it is not
the text of a date-time. -/
theorem undisguised_iff : v.Undisguised ↔ ∀ path text,
    v.at? path = some (.table [(datetimeKey, .string text)]) →
      Datetime.parse? text.toList = none := by
  constructor
  · intro h path text hpath
    have hheld := h path _ hpath
    rwa [toJsonMembers, toJson, toJsonMembers, heldDatetime?, if_pos rfl] at hheld
  · intro h path members hpath
    refine Option.eq_none_iff_forall_ne_some.2 fun d hd => ?_
    obtain ⟨text, rfl, hparse⟩ := exists_text_of_held_toJsonMembers hd
    cases (h path text hpath).symm.trans hparse

/-- What comes back comes back part by part, but for the text of a date-time in disguise. -/
theorem child?_of_ofJson (h : ofJson v.toJson = .ok w) {c : Value} (hc : v.child? s = some c) :
    (∃ d text, w = .datetime d ∧ c = .string text) ∨
      ∃ c', w.child? s = some c' ∧ ofJson c.toJson = .ok c' := by
  cases s with
  | index i =>
    obtain ⟨items, rfl, hi⟩ := child?_index_eq_some.1 hc
    rw [toJson, toJsonItems_eq] at h
    obtain ⟨vs, rfl, hvs⟩ := array_of_ofJson h
    have hrel := rel_getElem? i hvs
    rw [List.getElem?_map, hi] at hrel
    exact .inr (exists_of_rel_some hrel)
  | name k =>
    obtain ⟨members, rfl, hk⟩ := child?_name_eq_some.1 hc
    cases hheld : heldDatetime? (toJsonMembers members) with
    | some d =>
      obtain rfl := Except.ok.inj ((ofJson_of_held hheld).symm.trans h)
      obtain ⟨text, rfl, -⟩ := exists_text_of_held_toJsonMembers hheld
      obtain ⟨-, rfl⟩ := Prod.mk.inj (List.mem_singleton.1 (mem_of_lookup hk))
      exact .inl ⟨d, text, rfl, rfl⟩
    | none =>
      obtain ⟨vs, rfl, hvs⟩ := table_of_ofJson hheld h
      have hrel := rel_lookup k hvs
      rw [get?_toJsonMembers, hk] at hrel
      exact .inr (exists_of_rel_some hrel)

/-- **What comes back has finite floats only.** -/
theorem withFiniteFloats_of_ofJson (h : ofJson v.toJson = .ok w) : v.WithFiniteFloats := by
  intro path d hpath
  induction path generalizing v w with
  | nil =>
    obtain rfl := Option.some.inj hpath
    rw [toJson] at h
    split at h
    · assumption
    · cases h
  | cons s path ih =>
    obtain ⟨c, hc, hpath⟩ := at?_cons_eq_some.1 hpath
    rcases child?_of_ofJson h hc with ⟨-, text, -, rfl⟩ | ⟨c', -, hback⟩
    · exact ih (v := .string text) rfl hpath
    · exact ih hback hpath

/-- **What comes back as it was is undisguised.** -/
theorem undisguised_of_ofJson (h : ofJson v.toJson = .ok v) : v.Undisguised := by
  intro path members hpath
  induction path generalizing v with
  | nil =>
    obtain rfl := Option.some.inj hpath
    refine Option.eq_none_iff_forall_ne_some.2 fun d hd => ?_
    cases (ofJson_of_held hd).symm.trans h
  | cons s path ih =>
    obtain ⟨c, hc, hpath⟩ := at?_cons_eq_some.1 hpath
    rcases child?_of_ofJson h hc with ⟨d, -, rfl, -⟩ | ⟨c', hc', hback⟩
    · cases s <;> cases hc
    · obtain rfl := Option.some.inj (hc.symm.trans hc')
      exact ih hback hpath

/-! ### There and back -/

/-- **A sound value goes to JSON and back** with an error exactly if it has a float that is not
finite, at any depth. Otherwise it comes back as it was, the order of names, integers, floats and
date-times included, exactly if no table in it has the reserved name alone with the text of a
date-time under it. -/
theorem ofJson_toJson (hs : v.Sound) :
    ((∃ e, ofJson v.toJson = .error e) ↔
      ∃ path d, v.at? path = some (.float d) ∧ d.isFinite = false) ∧
    (ofJson v.toJson = .ok v ↔
      (∀ path d, v.at? path = some (.float d) → d.isFinite = true) ∧
      ∀ path text, v.at? path = some (.table [(datetimeKey, .string text)]) →
        Datetime.parse? text.toList = none) := by
  refine ⟨⟨?_, ?_⟩, ⟨fun h => ?_, ?_⟩⟩
  · rintro ⟨e, he⟩
    by_contra hnone
    have hfinite : v.WithFiniteFloats := fun path d hpath =>
      Bool.not_eq_false _ ▸ fun hd => hnone ⟨path, d, hpath, hd⟩
    obtain ⟨w, hw⟩ := exists_ofJson_toJson hs hfinite
    cases he.symm.trans hw
  · rintro ⟨path, d, hpath, hd⟩
    cases hback : ofJson v.toJson with
    | error e => exact ⟨e, rfl⟩
    | ok w => cases hd.symm.trans (withFiniteFloats_of_ofJson hback path d hpath)
  · exact ⟨withFiniteFloats_of_ofJson h, undisguised_iff.1 (undisguised_of_ofJson h)⟩
  · rintro ⟨hfinite, hplain⟩
    obtain ⟨w, hw⟩ := exists_ofJson_toJson hs hfinite
    rwa [eq_of_ofJson_toJson hs (undisguised_iff.2 hplain) hw] at hw

/-- A value without parts is all that there is in it. -/
theorem eq_of_at?_of_leaf (h : ∀ s, v.child? s = none) (hw : v.at? path = some w) : w = v := by
  cases path with
  | nil => exact (Option.some.inj hw).symm
  | cons s path =>
    obtain ⟨c, hc, -⟩ := at?_cons_eq_some.1 hw
    cases (h s).symm.trans hc

/-- A table with a day. -/
def datedTable : Value := .table [("day", .datetime ⟨some ⟨2024, 2, 29⟩, none, none⟩)]

/-- A table with an array with a float that is not finite. -/
def boundlessTable : Value := .table [("limits", .array [.float .infinity])]

/-- The table with the day comes back, and the one with the infinite float does not. -/
theorem ofJson_toJson_of_day : ofJson datedTable.toJson = .ok datedTable ∧
    ∃ e, ofJson boundlessTable.toJson = .error e := by
  have hdated : datedTable.Sound := by
    refine .table (List.nodup_singleton _) (List.forall_mem_singleton.2 (.datetime (.date ?_)))
    exact ⟨by decide, by decide, by decide⟩
  have hboundless : boundlessTable.Sound :=
    .table (List.nodup_singleton _) (List.forall_mem_singleton.2
      (.array (List.forall_mem_singleton.2 (.float _))))
  -- what stands in the table with the day is the table or the day
  have hparts : ∀ path w, datedTable.at? path = some w →
      w = datedTable ∨ w = .datetime ⟨some ⟨2024, 2, 29⟩, none, none⟩ := by
    intro path w hw
    cases path with
    | nil => exact .inl (Option.some.inj hw).symm
    | cons s path =>
      obtain ⟨c, hc, hw⟩ := at?_cons_eq_some.1 hw
      cases s with
      | index i => cases hc
      | name k =>
        obtain ⟨-, rfl⟩ := Prod.mk.inj (List.mem_singleton.1 (mem_of_lookup hc))
        exact .inr (eq_of_at?_of_leaf (fun s => by cases s <;> rfl) hw)
  refine ⟨(ofJson_toJson hdated).2.2 ⟨fun path d hd => ?_, fun path text htext => ?_⟩,
    (ofJson_toJson hboundless).1.2 ⟨[.name "limits", .index 0], .infinity, rfl, by decide⟩⟩
  · rcases hparts path _ hd with h | h <;> cases h
  · rcases hparts path _ htext with h | h
    · have hname : datetimeKey = "day" := congrArg Prod.fst (List.cons.inj (Value.table.inj h)).1
      exact absurd hname (by decide)
    · cases h

end Value

end Scaffold.Toml
