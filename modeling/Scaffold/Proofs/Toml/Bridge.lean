import Scaffold.Proofs.Json.Equality
import Scaffold.Proofs.Outcome
import Scaffold.Proofs.Toml.Value

/-!
# TOML values as JSON and back

The passage from TOML to JSON and back is described part by part: the parts of the JSON form are the
JSON forms of the parts, and the same holds on the way back unless an object holds a date-time. So a
sound value none of whose tables looks like a date-time comes back as it was, if it comes back at
all (`eq_of_ofJson_toJson`); a float that is not finite does not.
-/

namespace Scaffold.Toml.Value

/-! ### To JSON -/

theorem toJsonItems_eq (items : List Value) : toJsonItems items = items.map toJson := by
  induction items with
  | nil => rfl
  | cons item items ih => rw [toJsonItems, ih, List.map_cons]

theorem toJsonMembers_eq (members : Table) :
    toJsonMembers members = members.map fun m => (m.1, m.2.toJson) := by
  induction members with
  | nil => rfl
  | cons m members ih => rw [toJsonMembers, ih, List.map_cons]

theorem names_toJsonMembers (members : Table) :
    Json.Members.names (toJsonMembers members) = members.map Prod.fst := by
  simp [toJsonMembers_eq, Json.Members.names]

theorem get?_toJsonMembers (k : String) (members : Table) :
    Json.Members.get? k (toJsonMembers members) = (members.lookup k).map toJson := by
  induction members with
  | nil => rfl
  | cons m members ih =>
    obtain ⟨name, v⟩ := m
    rw [toJsonMembers, Json.Members.get?, List.lookup_cons, ih]
    by_cases h : name = k
    · simp [h]
    · have hne : (k == name) = false := by simpa using Ne.symm h
      rw [if_neg h, hne]

/-! ### From JSON -/

theorem forall₂_of_ofJsonItems {js : List Json.Value} {vs : List Value}
    (h : ofJsonItems js = .ok vs) : List.Forall₂ (fun j v => ofJson j = .ok v) js vs := by
  induction js generalizing vs with
  | nil =>
    obtain rfl := Except.ok.inj h
    exact .nil
  | cons j js ih =>
    obtain ⟨v, hv, h⟩ := Outcome.bind_eq_ok.1 h
    obtain ⟨rest, hrest, h⟩ := Outcome.bind_eq_ok.1 h
    obtain rfl := Except.ok.inj h
    exact .cons hv (ih hrest)

theorem forall₂_of_ofJsonMembers {js : Json.Members} {vs : Table}
    (h : ofJsonMembers js = .ok vs) :
    List.Forall₂ (fun j v => j.1 = v.1 ∧ ofJson j.2 = .ok v.2) js vs := by
  induction js generalizing vs with
  | nil =>
    obtain rfl := Except.ok.inj h
    exact .nil
  | cons j js ih =>
    obtain ⟨v, hv, h⟩ := Outcome.bind_eq_ok.1 h
    obtain ⟨rest, hrest, h⟩ := Outcome.bind_eq_ok.1 h
    obtain rfl := Except.ok.inj h
    exact .cons ⟨rfl, hv⟩ (ih hrest)

/-- An object that holds a date-time has a text under the reserved name, and nothing else. -/
theorem exists_text_of_held {js : Json.Members} {d : Datetime} (h : heldDatetime? js = some d) :
    ∃ text, js = [(datetimeKey, .string text)] ∧ Datetime.parse? text.toList = some d := by
  unfold heldDatetime? at h
  split at h
  · split at h
    · rename_i text hname
      subst hname
      exact ⟨text, rfl, h⟩
    · cases h
  · cases h

/-- An object that holds a date-time has the reserved name and no other. -/
theorem names_of_held {js : Json.Members} {d : Datetime} (h : heldDatetime? js = some d) :
    js.names = [datetimeKey] := by
  obtain ⟨text, rfl, -⟩ := exists_text_of_held h
  rfl

theorem heldDatetime?_of_not_mem {js : Json.Members} (h : datetimeKey ∉ js.names) :
    heldDatetime? js = none := by
  by_contra hne
  obtain ⟨d, hd⟩ := Option.ne_none_iff_exists'.1 hne
  exact h (names_of_held hd ▸ List.mem_singleton.2 rfl)

/-- A valid date-time is held by its object. -/
theorem heldDatetime?_text {d : Datetime} (h : d.Valid) :
    heldDatetime? [(datetimeKey, .string d.text)] = some d := by
  rw [heldDatetime?, if_pos rfl, Datetime.parse?_text h]

section
variable {α β : Type} {r : α → β → Prop} {a : α} {b : β} {a? : Option α} {b? : Option β}

theorem exists_of_rel_some (h : Option.Rel r (some a) b?) : ∃ b, b? = some b ∧ r a b := by
  cases h with
  | some h => exact ⟨_, rfl, h⟩

theorem exists_of_some_rel (h : Option.Rel r a? (some b)) : ∃ a, a? = some a ∧ r a b := by
  cases h with
  | some h => exact ⟨_, rfl, h⟩

end

section
variable {js : Json.Members} {items : List Json.Value} {v w : Value} {d : Datetime}

theorem ofJson_of_held (h : heldDatetime? js = some d) :
    ofJson (.object js) = .ok (.datetime d) := by
  simp only [ofJson, h]

/-- An object that holds no date-time becomes a table with the same names. -/
theorem table_of_ofJson (hheld : heldDatetime? js = none) (h : ofJson (.object js) = .ok v) :
    ∃ members, v = .table members ∧
      List.Forall₂ (fun j m => j.1 = m.1 ∧ ofJson j.2 = .ok m.2) js members := by
  simp only [ofJson, hheld] at h
  obtain ⟨members, hmembers, h⟩ := Outcome.bind_eq_ok.1 h
  exact ⟨members, (Except.ok.inj h).symm, forall₂_of_ofJsonMembers hmembers⟩

theorem array_of_ofJson (h : ofJson (.array items) = .ok v) :
    ∃ vs, v = .array vs ∧ List.Forall₂ (fun j v => ofJson j = .ok v) items vs := by
  obtain ⟨vs, hvs, h⟩ := Outcome.bind_eq_ok.1 h
  exact ⟨vs, (Except.ok.inj h).symm, forall₂_of_ofJsonItems hvs⟩

/-- The parts of a table come from the parts of the object. -/
theorem rel_lookup {members : Table} (k : String)
    (h : List.Forall₂ (fun j m => j.1 = m.1 ∧ ofJson j.2 = .ok m.2) js members) :
    Option.Rel (fun j v => ofJson j = .ok v) (js.get? k) (members.lookup k) := by
  induction h with
  | nil => exact .none
  | @cons j m js members hm _ ih =>
    obtain ⟨name, j⟩ := j
    obtain ⟨name', v⟩ := m
    obtain ⟨rfl, hv⟩ := hm
    dsimp only at hv
    rw [Json.Members.get?, List.lookup_cons]
    by_cases hk : name = k
    · subst hk
      simpa using Option.Rel.some hv
    · have hne : (k == name) = false := by simpa using Ne.symm hk
      rw [if_neg hk, hne]
      exact ih

/-- The items of an array come from the items of the other one. -/
theorem rel_getElem? {vs : List Value} (i : Nat)
    (h : List.Forall₂ (fun j v => ofJson j = .ok v) items vs) :
    Option.Rel (fun j v => ofJson j = .ok v) items[i]? vs[i]? := by
  induction h generalizing i with
  | nil => exact .none
  | cons hv _ ih =>
    cases i with
    | zero => exact .some hv
    | succ i => exact ih i

end

/-! ### There and back -/

/-- No table of the value looks like a date-time in JSON. -/
def Undisguised (v : Value) : Prop :=
  ∀ path members, v.at? path = some (.table members) → heldDatetime? (toJsonMembers members) = none

theorem Undisguised.child? {v w : Value} {s : Step} (h : v.Undisguised)
    (hw : v.child? s = some w) : w.Undisguised :=
  fun path members hpath => h (s :: path) members (at?_cons_eq_some.2 ⟨w, hw, hpath⟩)

theorem heldDatetime?_of_not_mentions {members : Table}
    (h : ¬ (Value.table members).Mentions datetimeKey) :
    heldDatetime? (toJsonMembers members) = none := by
  refine heldDatetime?_of_not_mem ?_
  rw [names_toJsonMembers]
  exact lookup_eq_none.1 (lookup_of_not_mentions h)

theorem undisguised_of_not_mentions {v : Value} (h : ¬ v.Mentions datetimeKey) : v.Undisguised :=
  fun _ _ hpath => heldDatetime?_of_not_mentions fun hm => h (hm.of_at? hpath)

theorem eq_of_forall₂ {α : Type} {r : α → α → Prop} {xs ys : List α} (h : List.Forall₂ r xs ys)
    (heq : ∀ x ∈ xs, ∀ y, r x y → y = x) : ys = xs := by
  induction h with
  | nil => rfl
  | cons hr _ ih =>
    obtain ⟨hx, hxs⟩ := List.forall_mem_cons.1 heq
    rw [hx _ hr, ih hxs]

/-- **A sound value comes back as it was**, if none of its tables looks like a date-time. -/
theorem eq_of_ofJson_toJson {v w : Value} (hs : v.Sound) (hu : v.Undisguised)
    (h : ofJson v.toJson = .ok w) : w = v := by
  induction hs generalizing w with
  | string s => exact (Except.ok.inj h).symm
  | @integer i hi =>
    have hnumber : ofNumber (.integer i) = w := Except.ok.inj h
    rw [← hnumber, ofNumber, if_pos hi]
  | float d =>
    rw [toJson] at h
    split at h
    · exact (Except.ok.inj h).symm
    · cases h
  | boolean b => exact (Except.ok.inj h).symm
  | datetime hd =>
    exact (Except.ok.inj ((ofJson_of_held (heldDatetime?_text hd)).symm.trans h)).symm
  | @array items _ ih =>
    rw [toJson, toJsonItems_eq] at h
    obtain ⟨ws, rfl, hws⟩ := array_of_ofJson h
    refine congrArg array (eq_of_forall₂ (List.forall₂_map_left_iff.1 hws) fun v hv w hw => ?_)
    obtain ⟨i, hi⟩ := List.mem_iff_getElem?.1 hv
    exact ih v hv (hu.child? (s := .index i) hi) hw
  | @table members hn _ ih =>
    obtain ⟨ws, rfl, hws⟩ := table_of_ofJson (hu [] members rfl) h
    rw [toJsonMembers_eq] at hws
    refine congrArg table (eq_of_forall₂ (List.forall₂_map_left_iff.1 hws) ?_)
    rintro m hm ⟨name, w⟩ ⟨rfl, hw⟩
    exact Prod.ext rfl (ih m hm (hu.child? (s := .name m.1) (lookup_of_mem hn hm)) hw)

end Scaffold.Toml.Value
