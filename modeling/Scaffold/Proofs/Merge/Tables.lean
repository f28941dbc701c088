import Scaffold.Proofs.Merge.Values
import Scaffold.Proofs.Toml.Bridge

/-!
# Merging TOML values

TOML values are merged by way of JSON, where a date-time is an object with a single member of a
reserved name. So a date-time that meets a table is merged with it member by member, as two tables
are (`meets_of_merged`). What is said here of merged values is said part by part: what two values
have in the same place is merged with each other along paths of names, and along positions too if
arrays are merged item by item (`Merged.at?`), and every other part of what is merged is a part of
one of the two values (`Merged.comes`), unless a date-time and a table with members are torn into
one.
-/

namespace Scaffold.Merge

open Toml (Step Table Datetime)
open Toml.Value

/-! ### Values without the reserved name -/

/-- A value that a document can spell in which no member has the name for date-times. -/
structure Clean (v : Toml.Value) : Prop where
  sound : v.Sound
  quiet : ¬ v.Mentions datetimeKey

section
variable {v w : Toml.Value}

theorem Clean.child? {s : Step} (h : Clean v) (hw : v.child? s = some w) : Clean w :=
  ⟨h.sound.child? hw, fun hm => h.quiet (hm.of_child? hw)⟩

theorem Clean.at? {path : List Step} (h : Clean v) (hw : v.at? path = some w) : Clean w := by
  induction path generalizing v with
  | nil =>
    obtain rfl := Option.some.inj hw
    exact h
  | cons s path ih =>
    obtain ⟨c, hc, hw⟩ := at?_cons_eq_some.1 hw
    exact ih (h.child? hc) hw

/-- A clean value comes back from JSON as it was. -/
theorem Clean.eq_of_ofJson (h : Clean v) (hw : ofJson v.toJson = .ok w) : w = v :=
  eq_of_ofJson_toJson h.sound (undisguised_of_not_mentions h.quiet) hw

theorem Clean.names {members : Table} (h : Clean (.table members)) :
    Json.Members.names (toJsonMembers members) = members.map Prod.fst ∧
      (members.map Prod.fst).Nodup ∧ datetimeKey ∉ members.map Prod.fst := by
  refine ⟨names_toJsonMembers members, ?_, lookup_eq_none.1 (lookup_of_not_mentions h.quiet)⟩
  cases h.sound
  assumption

end

/-! ### Merging -/

/-- The value that comes of merging a source into a target, by way of JSON. -/
def Merged (strategy : ArrayStrategy) (target source merged : Toml.Value) : Prop :=
  ofJson (values strategy target.toJson source.toJson) = .ok merged

/-- The parts that two values have one step below are merged with each other. -/
def Followed (strategy : ArrayStrategy) : Step → Prop
  | .name _ => True
  | .index _ => strategy = .combine

/-- A date-time and a table with members, in either place. -/
inductive Torn : Toml.Value → Toml.Value → Prop where
  | intoTable (d : Datetime) {members : Table} (h : members ≠ []) :
      Torn (.table members) (.datetime d)
  | intoDatetime (d : Datetime) {members : Table} (h : members ≠ []) :
      Torn (.datetime d) (.table members)

/-- How two values meet that are merged, with what comes of them. -/
inductive Meets : (target source merged : Toml.Value) → Prop where
  | tables (as bs : Table) (v : Toml.Value) : Meets (.table as) (.table bs) v
  | arrays (as bs : List Toml.Value) (v : Toml.Value) : Meets (.array as) (.array bs) v
  | torn {a b : Toml.Value} (h : Torn a b) (v : Toml.Value) : Meets a b v
  | kept (d : Datetime) : Meets (.datetime d) (.table []) (.datetime d)
  | replaced {a b : Toml.Value} (h : ∀ d, a = .datetime d → b ≠ .table []) : Meets a b b

/-- What comes of the parts that two merged values have in the same place. -/
inductive Parts (strategy : ArrayStrategy) : (x? y? z? : Option Toml.Value) → Prop where
  | none : Parts strategy none none none
  | target (x : Toml.Value) : Parts strategy (some x) none (some x)
  | source (y : Toml.Value) : Parts strategy none (some y) (some y)
  | both {x y z : Toml.Value} (h : Merged strategy x y z) :
      Parts strategy (some x) (some y) (some z)

section
variable {strategy : ArrayStrategy} {a b v w x y : Toml.Value} {s : Step}

theorem parts_of_rel {x? y? z? : Option Toml.Value} (hx : ∀ x ∈ x?, Clean x)
    (hy : ∀ y ∈ y?, Clean y) (h : Option.Rel (fun j w => ofJson j = .ok w)
      (Option.merge (values strategy) (x?.map toJson) (y?.map toJson)) z?) :
    Parts strategy x? y? z? := by
  cases x? with
  | none =>
    cases y? with
    | none =>
      cases h
      exact .none
    | some y =>
      obtain ⟨z, rfl, hz⟩ := exists_of_rel_some h
      obtain rfl := (hy y rfl).eq_of_ofJson hz
      exact .source z
  | some x =>
    cases y? with
    | none =>
      obtain ⟨z, rfl, hz⟩ := exists_of_rel_some h
      obtain rfl := (hx x rfl).eq_of_ofJson hz
      exact .target z
    | some y =>
      obtain ⟨z, rfl, hz⟩ := exists_of_rel_some h
      exact .both hz

/-- The members of merged tables. -/
theorem merged_tables {as bs : Table} (ha : Clean (.table as)) (hb : Clean (.table bs))
    (h : Merged strategy (.table as) (.table bs) v) :
    ∃ vs, v = .table vs ∧ ∀ k, Parts strategy (as.lookup k) (bs.lookup k) (vs.lookup k) := by
  obtain ⟨-, -, hka⟩ := ha.names
  obtain ⟨hnames, hn, hkb⟩ := hb.names
  have hget : ∀ k, (objects strategy (toJsonMembers as) (toJsonMembers bs)).get? k =
      Option.merge (values strategy) ((as.lookup k).map toJson) ((bs.lookup k).map toJson) :=
    fun k => by rw [get?_objects (hnames ▸ hn), get?_toJsonMembers, get?_toJsonMembers]
  have hheld : heldDatetime? (objects strategy (toJsonMembers as) (toJsonMembers bs)) = none := by
    refine heldDatetime?_of_not_mem fun hm => ?_
    have hsome := Json.Members.get?_isSome.2 hm
    rw [hget, lookup_eq_none.2 hka, lookup_eq_none.2 hkb] at hsome
    cases hsome
  rw [Merged, toJson, toJson, values] at h
  obtain ⟨vs, rfl, hvs⟩ := table_of_ofJson hheld h
  exact ⟨vs, rfl, fun k => parts_of_rel (fun _ hx => ha.child? (s := .name k) hx)
    (fun _ hy => hb.child? (s := .name k) hy) (hget k ▸ rel_lookup k hvs)⟩

/-- The items of merged arrays. -/
theorem merged_arrays {as bs : List Toml.Value} (h : Merged strategy (.array as) (.array bs) v) :
    ∃ vs, v = .array vs ∧ List.Forall₂ (fun j w => ofJson j = .ok w)
      (arrays strategy (as.map toJson) (bs.map toJson)) vs := by
  rw [Merged, toJson, toJson, toJsonItems_eq, toJsonItems_eq, values_array] at h
  exact array_of_ofJson h

theorem merged_arrays_combine {as bs : List Toml.Value} (ha : Clean (.array as))
    (hb : Clean (.array bs)) (h : Merged .combine (.array as) (.array bs) v) :
    ∃ vs : List Toml.Value, v = .array vs ∧
      ∀ i : Nat, Parts .combine as[i]? bs[i]? vs[i]? := by
  obtain ⟨vs, rfl, hvs⟩ := merged_arrays h
  refine ⟨vs, rfl, fun i => parts_of_rel (fun _ hx => ha.child? (s := .index i) hx)
    (fun _ hy => hb.child? (s := .index i) hy) ?_⟩
  rw [← List.getElem?_map, ← List.getElem?_map, ← getElem?_itemwise]
  exact rel_getElem? i hvs

/-- Values that become neither two objects nor two arrays in JSON. -/
def Apart : Toml.Value → Toml.Value → Prop
  | .table _, .table _ | .table _, .datetime _ => False
  | .datetime _, .table _ | .datetime _, .datetime _ => False
  | .array _, .array _ => False
  | _, _ => True

theorem values_of_apart (h : Apart a b) : values strategy a.toJson b.toJson = b.toJson := by
  cases a <;> cases b <;>
    first
    | exact h.elim
    | rfl
    | (simp only [toJson]; split_ifs <;> rfl)

theorem Apart.ne_empty (h : Apart a b) (d : Datetime) (ha : a = .datetime d) : b ≠ .table [] := by
  subst ha
  rintro rfl
  exact h

/-- **What comes of merging two values.** Tables and arrays are merged part by part. In all other
cases the source takes the place of the target, but for date-times that meet tables: an empty table
does not take the place of a date-time, and tables with members are torn. -/
theorem meets_of_merged (ha : Clean a) (hb : Clean b) (h : Merged strategy a b v) :
    Meets a b v := by
  have hreplaced : values strategy a.toJson b.toJson = b.toJson →
      (∀ d, a = .datetime d → b ≠ .table []) → Meets a b v := by
    intro heq hne
    rw [Merged, heq] at h
    obtain rfl := hb.eq_of_ofJson h
    exact .replaced hne
  have hapart : Apart a b → Meets a b v := fun hab => hreplaced (values_of_apart hab) hab.ne_empty
  cases b with
  | table bs =>
    cases a with
    | table as => exact .tables as bs v
    | datetime d =>
      by_cases hbs : bs = []
      · subst hbs
        exact ha.eq_of_ofJson h ▸ .kept d
      · exact .torn (.intoDatetime d hbs) v
    | _ => exact hapart trivial
  | array bs =>
    cases a with
    | array as => exact .arrays as bs v
    | _ => exact hapart trivial
  | datetime d =>
    have hne : Toml.Value.datetime d ≠ .table [] := by simp
    cases a with
    | table as =>
      by_cases has : as = []
      · subst has
        exact hreplaced rfl fun _ _ => hne
      · exact .torn (.intoTable d has) v
    | datetime d' =>
      have hinsert : values strategy (datetime d').toJson (datetime d).toJson =
          (datetime d).toJson := by
        simp [toJson, values, objects, Json.Members.get?, Json.Members.insert]
      exact hreplaced hinsert fun _ _ => hne
    | _ => exact hapart trivial
  | _ => exact hapart (by cases a <;> trivial)

/-! #### Part by part -/

theorem Merged.child? (ha : Clean a) (hb : Clean b) (h : Merged strategy a b v)
    (hs : Followed strategy s) (hx : a.child? s = some x) (hy : b.child? s = some y) :
    ∃ z, v.child? s = some z ∧ Merged strategy x y z := by
  have hparts : Parts strategy (a.child? s) (b.child? s) (v.child? s) := by
    cases s with
    | name k =>
      obtain ⟨as, rfl, -⟩ := child?_name_eq_some.1 hx
      obtain ⟨bs, rfl, -⟩ := child?_name_eq_some.1 hy
      obtain ⟨vs, rfl, hvs⟩ := merged_tables ha hb h
      exact hvs k
    | index i =>
      obtain ⟨as, rfl, -⟩ := child?_index_eq_some.1 hx
      obtain ⟨bs, rfl, -⟩ := child?_index_eq_some.1 hy
      obtain rfl : strategy = .combine := hs
      obtain ⟨vs, rfl, hvs⟩ := merged_arrays_combine ha hb h
      exact hvs i
  rw [hx, hy] at hparts
  generalize v.child? s = z? at hparts ⊢
  cases hparts with
  | both h => exact ⟨_, rfl, h⟩

/-- **What is merged at a path** all of whose steps are followed. -/
theorem Merged.at? (ha : Clean a) (hb : Clean b) (h : Merged strategy a b v) {path : List Step}
    (hs : ∀ s ∈ path, Followed strategy s) (hx : a.at? path = some x) (hy : b.at? path = some y) :
    ∃ z, v.at? path = some z ∧ Merged strategy x y z := by
  induction path generalizing a b v with
  | nil =>
    obtain rfl := Option.some.inj hx
    obtain rfl := Option.some.inj hy
    exact ⟨v, rfl, h⟩
  | cons s path ih =>
    obtain ⟨hfirst, hrest⟩ := List.forall_mem_cons.1 hs
    obtain ⟨x₁, hx₁, hx⟩ := at?_cons_eq_some.1 hx
    obtain ⟨y₁, hy₁, hy⟩ := at?_cons_eq_some.1 hy
    obtain ⟨z₁, hz₁, hmerged⟩ := h.child? ha hb hfirst hx₁ hy₁
    obtain ⟨z, hz, hzm⟩ := ih (ha.child? hx₁) (hb.child? hy₁) hmerged hrest hx hy
    exact ⟨z, at?_cons_eq_some.2 ⟨z₁, hz₁, hz⟩, hzm⟩

/-- Where a part of a merged value comes from: it is merged from the parts in the same place, or it
is a part of one of the two values. -/
inductive Comes (strategy : ArrayStrategy) (a b : Toml.Value) (s : Step) (w : Toml.Value) :
    Prop where
  | merged {x y : Toml.Value} (hs : Followed strategy s) (hx : a.child? s = some x)
      (hy : b.child? s = some y) (h : Merged strategy x y w)
  | kept {c : Toml.Value} {s' : Step} (hc : c = a ∨ c = b) (hs : ∀ k, s = .name k → s' = s)
      (h : c.child? s' = some w)

theorem comes_of_parts (hs : Followed strategy s)
    (h : Parts strategy (a.child? s) (b.child? s) (some w)) : Comes strategy a b s w := by
  generalize hx : a.child? s = x? at h
  generalize hy : b.child? s = y? at h
  cases h with
  | target => exact .kept (.inl rfl) (fun _ _ => rfl) hx
  | source => exact .kept (.inr rfl) (fun _ _ => rfl) hy
  | both h => exact .merged hs hx hy h

/-- An item that comes back from JSON is an item of the array. -/
theorem exists_child?_of_mem {items : List Toml.Value} (hc : Clean (.array items)) {j : Json.Value}
    (hj : j ∈ items.map toJson) (hw : ofJson j = .ok w) :
    ∃ i, (Toml.Value.array items).child? (.index i) = some w := by
  obtain ⟨item, hitem, rfl⟩ := List.mem_map.1 hj
  obtain ⟨i, hi⟩ := List.mem_iff_getElem?.1 hitem
  obtain rfl := (hc.child? (s := .index i) hi).eq_of_ofJson hw
  exact ⟨i, hi⟩

/-- **Where the parts of a merged value come from.** -/
theorem Merged.comes (ha : Clean a) (hb : Clean b) (h : Merged strategy a b v)
    (hw : v.child? s = some w) (ht : ¬ Torn a b) : Comes strategy a b s w := by
  cases meets_of_merged ha hb h with
  | torn h => exact absurd h ht
  | kept d => cases s <;> cases hw
  | replaced => exact .kept (.inr rfl) (fun _ _ => rfl) hw
  | tables as bs =>
    obtain ⟨vs, rfl, hvs⟩ := merged_tables ha hb h
    cases s with
    | name k =>
      have hk : vs.lookup k = some w := hw
      exact comes_of_parts trivial (hk ▸ hvs k)
    | index i => cases hw
  | arrays as bs =>
    cases s with
    | name k =>
      obtain ⟨vs, rfl, -⟩ := merged_arrays h
      cases hw
    | index i =>
      by_cases hcombine : strategy = .combine
      · subst hcombine
        obtain ⟨vs, rfl, hvs⟩ := merged_arrays_combine ha hb h
        have hi : vs[i]? = some w := hw
        exact comes_of_parts rfl (hi ▸ hvs i)
      · obtain ⟨vs, rfl, hvs⟩ := merged_arrays h
        have hi : vs[i]? = some w := hw
        obtain ⟨j, hj, hjw⟩ := exists_of_some_rel (hi ▸ rel_getElem? i hvs)
        rcases mem_arrays hcombine (List.mem_of_getElem? hj) with hmem | hmem
        · obtain ⟨i', hi'⟩ := exists_child?_of_mem ha hmem hjw
          exact .kept (.inl rfl) nofun hi'
        · obtain ⟨i', hi'⟩ := exists_child?_of_mem hb hmem hjw
          exact .kept (.inr rfl) nofun hi'

end

end Scaffold.Merge
