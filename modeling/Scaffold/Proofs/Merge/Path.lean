import Scaffold.Proofs.Merge.Values

/-!
# Merged values along paths

A path of names leads from an object to one of its members, and from there on. What stands at a path
of a merged value is said here by what the target and the source have there. Where the source has a
value, that value stands in the result, merged into the target's if there is one
(`at?_values_of_source`). Where the source ends in objects before the path does, the target's value
stays (`at?_values_of_target`). Objects that meet keep the target's names in their order, with the
names that only the source has behind them (`names_objects`).
-/

namespace Scaffold

namespace Json

namespace Value

/-- The value at the end of a path of names. -/
def at? : List String → Value → Option Value
  | [], v => some v
  | name :: path, v => (v.get? name).bind (at? path)

/-- The value is an object. -/
def isObject : Value → Bool
  | .object _ => true
  | _ => false

/-- The value is neither an object nor an array. -/
def isScalar : Value → Bool
  | .object _ | .array _ => false
  | _ => true

variable {name : String} {path : List String} {v w : Value}

/-- A path that is not empty begins with the name of a member. -/
theorem at?_cons_eq_some :
    v.at? (name :: path) = some w ↔ ∃ part, v.get? name = some part ∧ part.at? path = some w :=
  Option.bind_eq_some_iff

theorem exists_of_isObject (h : v.isObject = true) : ∃ members, v = .object members := by
  cases v with
  | object members => exact ⟨members, rfl⟩
  | _ => cases h

theorem isObject_of_get? (h : v.get? name = some w) : v.isObject = true := by
  obtain ⟨members, rfl, -⟩ := get?_eq_some.1 h
  rfl

theorem WellFormed.at? (h : v.WellFormed) (hw : v.at? path = some w) : w.WellFormed := by
  induction path generalizing v with
  | nil => exact Option.some.inj hw ▸ h
  | cons name path ih =>
    obtain ⟨part, hpart, hw⟩ := at?_cons_eq_some.1 hw
    exact ih (h.get? hpart) hw

end Value

end Json

namespace Merge

open Json (Value Members)

variable {strategy : ArrayStrategy} {target source : Value} {path : List String} {x y : Value}

/-! ### Names -/

/-- **The names of merged objects** are the target's in their order, and behind them those that only
the source has in theirs. -/
theorem names_objects {members more : Members} (hn : more.names.Nodup) :
    (objects strategy members more).names =
      members.names ++ more.names.filter fun name => name ∉ members.names := by
  induction more generalizing members with
  | nil => exact (List.append_nil _).symm
  | cons m more ih =>
    obtain ⟨name, value⟩ := m
    obtain ⟨hname, hmore⟩ := List.nodup_cons.1 hn
    rw [objects, ih hmore, show Members.names ((name, value) :: more) = name :: Members.names more
      from rfl, List.filter_cons]
    by_cases hmem : name ∈ members.names
    · rw [Members.names_insert_of_mem hmem, if_neg (by simpa using hmem)]
    · rw [Members.names_insert_of_not_mem hmem, if_pos (by simpa using hmem), List.append_assoc,
        List.singleton_append]
      -- the name that was added does not come again in the source
      refine congrArg (fun rest => members.names ++ name :: rest) (List.filter_congr ?_)
      intro other hother
      have hne : other ≠ name := fun heq => hname (heq ▸ hother)
      simp [hne]

theorem nodup_names_objects {members more : Members} (hmembers : members.names.Nodup)
    (hmore : more.names.Nodup) : (objects strategy members more).names.Nodup := by
  rw [names_objects hmore]
  refine List.nodup_append.2 ⟨hmembers, hmore.filter _, fun name hname other hother heq => ?_⟩
  have hnot : other ∉ members.names := by simpa using (List.mem_filter.1 hother).2
  exact hnot (heq ▸ hname)

/-! ### Values -/

/-- **One step down**, a source that is an object is merged into the target's member of a name. -/
theorem get?_values (hs : source.WellFormed) (hobject : source.isObject = true) (name : String) :
    (values strategy target source).get? name =
      Option.merge (values strategy) (target.get? name) (source.get? name) := by
  obtain ⟨more, rfl⟩ := Value.exists_of_isObject hobject
  cases target with
  | object members =>
    rw [values]
    exact get?_objects (Value.wellFormed_object.1 hs).1 members name
  | _ =>
    -- a target of another kind has no members and leaves the source as it is
    show Members.get? name more = Option.merge (values strategy) none (Members.get? name more)
    cases Members.get? name more <;> rfl

/-- **Where the source has a value**, the result has it, merged into the value that the target has
there if it has one. -/
theorem at?_values_of_source (hs : source.WellFormed) (h : source.at? path = some y) :
    (values strategy target source).at? path =
      some ((target.at? path).elim y fun x => values strategy x y) := by
  induction path generalizing target source with
  | nil =>
    obtain rfl := Option.some.inj h
    rfl
  | cons name path ih =>
    obtain ⟨v, hv, hy⟩ := Value.at?_cons_eq_some.1 h
    rw [Value.at?, Value.at?, get?_values hs (Value.isObject_of_get? hv), hv]
    cases target.get? name with
    | none => exact hy
    | some u => exact ih (hs.get? hv) hy

/-- **Where the source has nothing**, the target's value stays, if the source has nothing but objects
on the way. -/
theorem at?_values_of_target (hs : source.WellFormed) (hx : target.at? path = some x)
    (hnone : source.at? path = none)
    (hway : ∀ before w, before <+: path → before ≠ path → source.at? before = some w →
      w.isObject = true) : (values strategy target source).at? path = some x := by
  induction path generalizing target source with
  | nil => cases hnone
  | cons name path ih =>
    have hobject : source.isObject = true :=
      hway [] source List.nil_prefix (List.cons_ne_nil name path).symm rfl
    obtain ⟨u, hu, hx⟩ := Value.at?_cons_eq_some.1 hx
    rw [Value.at?, get?_values hs hobject, hu]
    cases hv : source.get? name with
    | none => exact hx
    | some v =>
      rw [Value.at?, hv] at hnone
      refine ih (hs.get? hv) hx hnone fun before w hbefore hne hw => ?_
      exact hway (name :: before) w (List.cons_prefix_cons.2 ⟨rfl, hbefore⟩)
        (fun heq => hne (List.cons.inj heq).2) (Value.at?_cons_eq_some.2 ⟨v, hv, hw⟩)

theorem values_of_isScalar (h : y.isScalar = true) : values strategy x y = y := by
  cases y with
  | object more => cases h
  | array more => cases h
  | _ => cases x <;> rfl

/-- **The source wins and nothing else is lost**, at every path of names and whatever the strategy
for arrays. A value of the source that is neither an object nor an array stands in the result. A
value of the target stays where the source has nothing, and nothing but objects on the way. And
where two objects meet, the result has the names of the target in their order and then those that
only the source has in theirs, each of them once. -/
theorem values_along (ht : target.WellFormed) (hs : source.WellFormed) (path : List String) :
    (∀ y, source.at? path = some y → y.isScalar = true →
      (values strategy target source).at? path = some y) ∧
    (∀ x, target.at? path = some x → source.at? path = none →
      (∀ before w, before <+: path → before ≠ path → source.at? before = some w →
        w.isObject = true) →
      (values strategy target source).at? path = some x) ∧
    ∀ members more : Members, target.at? path = some (.object members) →
      source.at? path = some (.object more) →
      ∃ merged : Members, (values strategy target source).at? path = some (.object merged) ∧
        merged.names = members.names ++ more.names.filter (fun name => name ∉ members.names) ∧
        merged.names.Nodup := by
  refine ⟨fun y hy hscalar => ?_, fun x hx hnone hway => at?_values_of_target hs hx hnone hway,
    fun members more hmembers hmore => ⟨objects strategy members more, ?_, ?_, ?_⟩⟩
  · rw [at?_values_of_source hs hy]
    cases target.at? path with
    | none => rfl
    | some x => exact congrArg some (values_of_isScalar hscalar)
  · rw [at?_values_of_source hs hmore, hmembers, Option.elim_some, values]
  · exact names_objects (Value.wellFormed_object.1 (hs.at? hmore)).1
  · exact nodup_names_objects (Value.wellFormed_object.1 (ht.at? hmembers)).1
      (Value.wellFormed_object.1 (hs.at? hmore)).1

/-- A target with an object in an object. -/
def nestedTarget : Value :=
  .object [("a", .object [("x", .bool true), ("y", .object [("k", .bool true)])]),
    ("b", .array [])]

/-- A source that changes the object of the target and gives it a new member. -/
def nestedSource : Value :=
  .object [("b", .null), ("a", .object [("z", .bool false), ("x", .null)])]

/-- A member of the source replaces the target's, another member of the target stays, and a new one
goes to the end. -/
theorem values_along_of_nested_objects :
    (values .combine nestedTarget nestedSource).at? ["a", "x"] = some .null ∧
    (values .combine nestedTarget nestedSource).at? ["a", "y", "k"] = some (.bool true) ∧
    ∃ merged : Members, (values .combine nestedTarget nestedSource).at? ["a"] =
      some (.object merged) ∧ merged.names = ["x", "y", "z"] := by
  have ht : nestedTarget.WellFormed := by
    simp [nestedTarget, Value.WellFormed, Value.WellFormedItems, Value.WellFormedMembers]
  have hs : nestedSource.WellFormed := by
    simp [nestedSource, Value.WellFormed, Value.WellFormedMembers]
  have hway : ∀ before w, before <+: ["a", "y", "k"] → before ≠ ["a", "y", "k"] →
      nestedSource.at? before = some w → w.isObject = true := by
    intro before w hbefore _ hw
    rcases before with _ | ⟨a, _ | ⟨b, rest⟩⟩
    · obtain rfl := Option.some.inj hw
      rfl
    · obtain ⟨rfl, -⟩ := List.cons_prefix_cons.1 hbefore
      obtain rfl := Option.some.inj hw
      rfl
    · obtain ⟨rfl, hrest⟩ := List.cons_prefix_cons.1 hbefore
      obtain ⟨rfl, -⟩ := List.cons_prefix_cons.1 hrest
      cases hw
  obtain ⟨merged, hmerged, hnames, -⟩ := (values_along ht hs ["a"]).2.2 _ _ rfl rfl
  exact ⟨(values_along ht hs ["a", "x"]).1 _ rfl rfl,
    (values_along ht hs ["a", "y", "k"]).2.1 _ rfl rfl hway, merged, hmerged, hnames⟩

end Merge

end Scaffold
