import Scaffold.Proofs.Toml.Datetime
import Scaffold.Toml.Value

/-!
# Parts of TOML values

A part of a value is reached by a path of names and positions (`Value.at?`). What is said here of
values is said by their parts: that a name occurs in a value, and that two values are alike, which
leaves the order of the members of tables open. A value is sound if it is one that a document can
spell: its integers fit into 64 bits, its date-times are valid, and no table has a name twice.
-/

namespace Scaffold.Toml

/-- From a table to one of its members, or from an array to one of its items. -/
inductive Step where
  | name (k : String)
  | index (i : Nat)
deriving DecidableEq

namespace Value

/-! ### Paths -/

/-- The part one step below. -/
def child? : Step → Value → Option Value
  | .name k, .table members => members.lookup k
  | .index i, .array items => items[i]?
  | _, _ => none

/-- The part at the end of a path. -/
def at? : List Step → Value → Option Value
  | [], v => some v
  | s :: path, v => (v.child? s).bind (at? path)

theorem at?_append (path more : List Step) (v : Value) :
    v.at? (path ++ more) = (v.at? path).bind (at? more) := by
  induction path generalizing v with
  | nil => rfl
  | cons s path ih =>
    rw [List.cons_append, at?, at?]
    cases v.child? s with
    | none => rfl
    | some w => exact ih w

/-- A path that is not empty begins with a step to a child. -/
theorem at?_cons_eq_some {s : Step} {path : List Step} {v w : Value} :
    v.at? (s :: path) = some w ↔ ∃ c, v.child? s = some c ∧ c.at? path = some w :=
  Option.bind_eq_some_iff

theorem child?_name_eq_some {k : String} {v w : Value} :
    v.child? (.name k) = some w ↔ ∃ members, v = .table members ∧ members.lookup k = some w := by
  cases v <;> simp [child?]

theorem child?_index_eq_some {i : Nat} {v w : Value} :
    v.child? (.index i) = some w ↔ ∃ items, v = .array items ∧ items[i]? = some w := by
  cases v <;> simp [child?]

/-! ### Names in a value -/

/-- A table in the value has a member of this name. -/
def Mentions (k : String) (v : Value) : Prop :=
  ∃ path, (v.at? (path ++ [.name k])).isSome

section
variable {k : String} {v w : Value}

theorem mentions_of_child? (h : v.child? (.name k) = some w) : v.Mentions k :=
  ⟨[], by simp [at?, h]⟩

theorem Mentions.of_at? {path : List Step} (hw : v.at? path = some w) (h : w.Mentions k) :
    v.Mentions k := by
  obtain ⟨more, h⟩ := h
  refine ⟨path ++ more, ?_⟩
  rwa [List.append_assoc, at?_append, hw]

theorem Mentions.of_child? {s : Step} (hw : v.child? s = some w) (h : w.Mentions k) :
    v.Mentions k :=
  h.of_at? (at?_cons_eq_some.2 ⟨w, hw, rfl⟩ : v.at? [s] = some w)

theorem not_mentions_of_forall (h : v.child? (.name k) = none)
    (hparts : ∀ s w, v.child? s = some w → ¬ w.Mentions k) : ¬ v.Mentions k := by
  rintro ⟨path, hpath⟩
  obtain ⟨w, hw⟩ := Option.isSome_iff_exists.1 hpath
  cases path with
  | nil =>
    obtain ⟨c, hc, -⟩ := at?_cons_eq_some.1 hw
    cases h.symm.trans hc
  | cons s path =>
    obtain ⟨c, hc, hw⟩ := at?_cons_eq_some.1 hw
    exact hparts s c hc ⟨path, Option.isSome_iff_exists.2 ⟨w, hw⟩⟩

/-- A table without a name has no member of it. -/
theorem lookup_of_not_mentions {members : Table} (h : ¬ (table members).Mentions k) :
    members.lookup k = none := by
  by_contra hne
  obtain ⟨w, hw⟩ := Option.ne_none_iff_exists'.1 hne
  exact h (mentions_of_child? (v := .table members) hw)

end

/-! ### Values that are alike -/

/-- A value without what is in it. -/
def outer : Value → Value
  | .array _ => .array []
  | .table _ => .table []
  | v => v

/-- The value is a date-time. -/
def isDatetime : Value → Bool
  | .datetime _ => true
  | _ => false

/-- The values have the same parts at the same paths. -/
def Alike (v w : Value) : Prop := ∀ path, (v.at? path).map outer = (w.at? path).map outer

section
variable {v w : Value}

theorem Alike.refl (v : Value) : v.Alike v := fun _ => rfl

theorem Alike.symm (h : v.Alike w) : w.Alike v := fun path => (h path).symm

theorem Alike.outer (h : v.Alike w) : v.outer = w.outer := Option.some.inj (h [])

/-- What is at a path of one value has its like at that path of the other. -/
theorem Alike.at? (h : v.Alike w) {path : List Step} {y : Value} (hy : w.at? path = some y) :
    ∃ x, v.at? path = some x ∧ x.Alike y := by
  have hpath := h path
  rw [hy] at hpath
  obtain ⟨x, hx, -⟩ := Option.map_eq_some_iff.1 hpath
  refine ⟨x, hx, fun more => ?_⟩
  have hmore := h (path ++ more)
  rwa [at?_append, at?_append, hx, hy] at hmore

theorem Alike.mentions {k : String} (h : v.Alike w) (hw : w.Mentions k) : v.Mentions k := by
  obtain ⟨path, hpath⟩ := hw
  refine ⟨path, ?_⟩
  rw [← Option.isSome_map, h, Option.isSome_map]
  exact hpath

end

/-! ### Sound values -/

/-- A value that a document can spell. -/
inductive Sound : Value → Prop where
  | string (s : String) : Sound (.string s)
  | integer {i : Int} (h : isSigned64 i = true) : Sound (.integer i)
  | float (d : Double) : Sound (.float d)
  | boolean (b : Bool) : Sound (.boolean b)
  | datetime {d : Datetime} (h : d.Valid) : Sound (.datetime d)
  | array {items : List Value} (h : ∀ item ∈ items, Sound item) : Sound (.array items)
  | table {members : Table} (hn : (members.map Prod.fst).Nodup) (h : ∀ m ∈ members, Sound m.2) :
      Sound (.table members)

theorem mem_of_lookup {members : Table} {k : String} {w : Value}
    (h : members.lookup k = some w) : (k, w) ∈ members := by
  obtain ⟨before, after, rfl, -⟩ := List.lookup_eq_some_iff.1 h
  simp

theorem lookup_of_mem {members : Table} (hn : (members.map Prod.fst).Nodup) {m : String × Value}
    (hm : m ∈ members) : members.lookup m.1 = some m.2 := by
  obtain ⟨before, after, rfl⟩ := List.append_of_mem hm
  refine List.lookup_eq_some_iff.2 ⟨before, after, rfl, fun p hp => ?_⟩
  rw [List.map_append, List.map_cons, List.nodup_append] at hn
  simpa using (hn.2.2 p.1 (List.mem_map_of_mem hp) m.1 List.mem_cons_self).symm

theorem lookup_eq_none {members : Table} {k : String} :
    members.lookup k = none ↔ k ∉ members.map Prod.fst := by
  rw [List.lookup_eq_none_iff, List.mem_map]
  constructor
  · rintro h ⟨m, hm, rfl⟩
    simpa using h m hm
  · intro h m hm
    simpa using fun hk : k = m.1 => h ⟨m, hm, hk.symm⟩

theorem Sound.child? {v w : Value} {s : Step} (h : v.Sound) (hw : v.child? s = some w) :
    w.Sound := by
  cases s with
  | name k =>
    obtain ⟨members, rfl, hk⟩ := child?_name_eq_some.1 hw
    cases h with
    | table hn h => exact h _ (mem_of_lookup hk)
  | index i =>
    obtain ⟨items, rfl, hi⟩ := child?_index_eq_some.1 hw
    cases h with
    | array h => exact h w (List.mem_of_getElem? hi)

end Value
end Scaffold.Toml
