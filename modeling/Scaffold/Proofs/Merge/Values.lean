import Scaffold.Merge.Values
import Scaffold.Proofs.Json.Equality

/-!
# Merged values

What is merged is described part by part: the members of merged objects (`get?_objects`) and the
items of merged arrays (`getElem?_itemwise`, `mem_arrays`).

A source that has been merged into a target is merged again without effect, and merged into itself
it stays what it is (`stable_of_repeatable`), unless the arrays are concatenated. Where the items of
arrays are put in place by the value of a field, each item of the source has to have the field, with
a value of its own: then each of them is the first item with its value in what the first merge gives
(`Keyed.found`), and so is put where it stands already.
-/

namespace Scaffold.Merge

open Json (Value Members)

/-! ### Parts of merged arrays and objects -/

section
variable {strategy : ArrayStrategy}

/-- An item of arrays merged item by item comes from one of them, or is merged from both. -/
theorem getElem?_itemwise (target source : List Value) (i : Nat) :
    (itemwise strategy target source)[i]? =
      Option.merge (values strategy) target[i]? source[i]? := by
  induction source generalizing target i with
  | nil => cases h : target[i]? <;> simp [itemwise, h]
  | cons item source ih =>
    cases target with
    | nil =>
      rw [itemwise]
      cases i with
      | zero => rfl
      | succ i => simpa using ih [] i
    | cons old target =>
      rw [itemwise]
      cases i with
      | zero => rfl
      | succ i => simpa using ih target i

theorem mem_putByField {field : String} {target : List Value} {item j : Value}
    (h : j ∈ putByField field target item) : j ∈ target ∨ j = item := by
  unfold putByField at h
  split at h
  · simpa using h
  · split at h
    · exact List.mem_or_eq_of_mem_set h
    · simpa using h

theorem mem_arraysByField {field : String} {target source : List Value} {j : Value}
    (h : j ∈ arraysByField field target source) : j ∈ target ∨ j ∈ source := by
  induction source generalizing target with
  | nil => exact .inl h
  | cons item source ih =>
    rcases ih h with h | h
    · exact (mem_putByField h).imp_right fun heq => List.mem_cons.2 (.inl heq)
    · exact .inr (List.mem_cons_of_mem _ h)

/-- Unless arrays are merged item by item, their items are those of the two arrays. -/
theorem mem_arrays (hs : strategy ≠ .combine) {target source : List Value} {j : Value}
    (h : j ∈ arrays strategy target source) : j ∈ target ∨ j ∈ source := by
  cases strategy with
  | combine => exact absurd rfl hs
  | concat => exact List.mem_append.1 h
  | replace => exact .inr h
  | ignore =>
    rw [arrays] at h
    split at h
    · exact .inr h
    · exact .inl h
  | key field => exact mem_arraysByField h

/-- A member of merged objects is the member of one of them, or merged from the members of both. -/
theorem get?_objects {source : Members} (hn : source.names.Nodup) (target : Members)
    (name : String) : (objects strategy target source).get? name =
      Option.merge (values strategy) (target.get? name) (source.get? name) := by
  induction source generalizing target with
  | nil => cases h : target.get? name <;> simp [objects, Members.get?, h]
  | cons m source ih =>
    obtain ⟨key, value⟩ := m
    obtain ⟨hkey, hrest⟩ := List.nodup_cons.1 hn
    rw [objects, ih hrest, Members.get?]
    by_cases hname : key = name
    · subst hname
      rw [if_pos rfl, Members.get?_insert_self, Members.get?_eq_none.2 hkey]
      cases target.get? key <;> rfl
    · rw [if_neg hname, Members.get?_insert_of_ne _ _ (Ne.symm hname)]

/-- Merged objects have the names of both. -/
theorem mem_names_objects {target source : Members} (hn : source.names.Nodup) {k : String} :
    k ∈ (objects strategy target source).names ↔ k ∈ target.names ∨ k ∈ source.names := by
  rw [← Members.get?_isSome, ← Members.get?_isSome, ← Members.get?_isSome, get?_objects hn]
  cases target.get? k <;> cases source.get? k <;> simp

/-- Members that the target does not have go behind its own. -/
theorem objects_of_disjoint {target source : Members} (hn : (target ++ source).names.Nodup) :
    objects strategy target source = target ++ source := by
  induction source generalizing target with
  | nil => rw [objects, List.append_nil]
  | cons m source ih =>
    obtain ⟨name, value⟩ := m
    have hname : name ∉ target.names := by
      rw [Members.names, List.map_append, List.nodup_append] at hn
      exact fun hm => hn.2.2 name hm name List.mem_cons_self rfl
    rw [objects, Members.get?_eq_none.2 hname]
    dsimp only
    rw [Members.insert_of_not_mem hname, ih (by simpa using hn), List.append_assoc,
      List.singleton_append]

end

/-! ### Items in place of others -/

/-- An item in place of the first item with a property, or at the end if there is none. -/
def putItem (p : Value → Bool) (item : Value) : List Value → List Value
  | [] => [item]
  | other :: rest => if p other then item :: rest else other :: putItem p item rest

/-- The value of a field is this one. -/
def hasKey (field : String) (key item : Value) : Bool := (item.get? field).any (·.same key)

theorem putByField_eq {field : String} {key item : Value} (h : item.get? field = some key)
    (target : List Value) : putByField field target item = putItem (hasKey field key) item target := by
  rw [putByField, h]
  dsimp only
  rw [← show hasKey field key = fun other => (other.get? field).any (·.same key) from rfl]
  induction target with
  | nil => rfl
  | cons other rest ih =>
    rw [List.findIdx?_cons, putItem]
    cases hasKey field key other with
    | true => rfl
    | false =>
      rw [if_neg Bool.false_ne_true, ← ih]
      cases rest.findIdx? (hasKey field key) <;> rfl

section
variable {p q : Value → Bool} {item other : Value} {target : List Value}

/-- What has been put is the first item with the property. -/
theorem find?_putItem_self (hp : p item = true) : (putItem p item target).find? p = some item := by
  induction target with
  | nil => rw [putItem, List.find?_cons_of_pos hp]
  | cons first rest ih =>
    rw [putItem]
    split
    · rw [List.find?_cons_of_pos hp]
    · rename_i hfirst
      rw [List.find?_cons_of_neg hfirst, ih]

/-- The first item with a property stays it when another item is put elsewhere. -/
theorem find?_putItem_of_find? (h : target.find? p = some item) (hother : p other = false)
    (hitem : q item = false) : (putItem q other target).find? p = some item := by
  induction target with
  | nil => cases h
  | cons first rest ih =>
    rw [putItem]
    by_cases hfirst : p first = true
    · rw [List.find?_cons_of_pos hfirst] at h
      obtain rfl := Option.some.inj h
      rw [if_neg (by simp [hitem]), List.find?_cons_of_pos hfirst]
    · rw [List.find?_cons_of_neg hfirst] at h
      split
      · rw [List.find?_cons_of_neg (by simp [hother]), h]
      · rw [List.find?_cons_of_neg hfirst, ih h]

/-- An item that is the first one with the property is put where it stands. -/
theorem putItem_eq_self (h : target.find? p = some item) : putItem p item target = target := by
  induction target with
  | nil => cases h
  | cons first rest ih =>
    rw [putItem]
    by_cases hfirst : p first = true
    · rw [List.find?_cons_of_pos hfirst] at h
      rw [if_pos hfirst, Option.some.inj h]
    · rw [List.find?_cons_of_neg hfirst] at h
      rw [if_neg hfirst, ih h]

end

/-! ### Arrays by a field -/

/-- Every item is an object with the field, and no two have the same value of it. -/
structure Keyed (field : String) (items : List Value) : Prop where
  key : ∀ item ∈ items, ∃ key, item.get? field = some key
  different : items.Pairwise fun a b =>
    ∀ k l, a.get? field = some k → b.get? field = some l → k.same l = false

/-- The item stands where its key is found. -/
def Found (field : String) (target : List Value) (item : Value) : Prop :=
  ∃ key, item.get? field = some key ∧ target.find? (hasKey field key) = some item

section
variable {field : String} {target items : List Value} {item other : Value}

theorem proper_get? {key : Value} (h : item.Proper) (hkey : item.get? field = some key) :
    key.Proper := by
  obtain ⟨members, rfl, hmember⟩ := Value.get?_eq_some.1 hkey
  exact (Value.proper_object.1 h).2 (field, key) (Members.mem_of_get? hmember)

theorem Found.putByField_eq (h : Found field target item) :
    putByField field target item = target := by
  obtain ⟨key, hkey, hfind⟩ := h
  rw [Merge.putByField_eq hkey, putItem_eq_self hfind]

theorem found_putByField {key : Value} (hkey : item.get? field = some key)
    (hproper : item.Proper) : Found field (putByField field target item) item := by
  refine ⟨key, hkey, ?_⟩
  rw [Merge.putByField_eq hkey, find?_putItem_self]
  rw [hasKey, hkey]
  exact Value.same_refl key (proper_get? hproper hkey)

/-- An item with another key is put elsewhere. -/
theorem Found.putByField (h : Found field target item) (hitem : item.Proper)
    (hother : other.Proper) {l : Value} (hl : other.get? field = some l)
    (hne : ∀ k, item.get? field = some k → k.same l = false) :
    Found field (putByField field target other) item := by
  obtain ⟨key, hkey, hfind⟩ := h
  have hsame := hne key hkey
  refine ⟨key, hkey, ?_⟩
  rw [Merge.putByField_eq hl]
  refine find?_putItem_of_find? hfind ?_ ?_
  · rw [hasKey, hl]
    exact (Value.same_comm (proper_get? hother hl).names (proper_get? hitem hkey).names).trans hsame
  · rw [hasKey, hkey]
    exact hsame

theorem Found.arraysByField (h : Found field target item) (hitem : item.Proper)
    (hproper : ∀ other ∈ items, other.Proper)
    (hkeys : ∀ other ∈ items, ∃ l, other.get? field = some l ∧
      ∀ k, item.get? field = some k → k.same l = false) :
    Found field (arraysByField field target items) item := by
  induction items generalizing target with
  | nil => exact h
  | cons other items ih =>
    obtain ⟨hother, hrest⟩ := List.forall_mem_cons.1 hproper
    obtain ⟨⟨l, hl, hne⟩, hkeys⟩ := List.forall_mem_cons.1 hkeys
    exact ih (h.putByField hitem hother hl hne) hrest hkeys

/-- **Every item of a source with a key of its own is found** in what the source is merged into. -/
theorem Keyed.found (h : Keyed field items) (hproper : ∀ item ∈ items, item.Proper)
    (target : List Value) : ∀ item ∈ items, Found field (arraysByField field target items) item := by
  induction items generalizing target with
  | nil => simp
  | cons item items ih =>
    obtain ⟨hitem, hitems⟩ := List.forall_mem_cons.1 hproper
    obtain ⟨⟨key, hkey⟩, hkeys⟩ := List.forall_mem_cons.1 h.key
    obtain ⟨hfirst, hrest⟩ := List.pairwise_cons.1 h.different
    refine List.forall_mem_cons.2 ⟨?_, ih ⟨hkeys, hrest⟩ hitems _⟩
    refine (found_putByField hkey hitem).arraysByField hitem hitems fun other hother => ?_
    obtain ⟨l, hl⟩ := hkeys other hother
    exact ⟨l, hl, fun k hk => hfirst other hother k l hk hl⟩

theorem arraysByField_eq_self (h : ∀ item ∈ items, Found field target item) :
    arraysByField field target items = target := by
  induction items with
  | nil => rfl
  | cons item items ih =>
    obtain ⟨hitem, hitems⟩ := List.forall_mem_cons.1 h
    rw [arraysByField, List.foldl_cons, hitem.putByField_eq]
    exact ih hitems

/-- Every item of a source with a key of its own is found in the source. -/
theorem Keyed.found_self (h : Keyed field items) (hproper : ∀ item ∈ items, item.Proper) :
    ∀ item ∈ items, Found field items item := by
  induction items with
  | nil => simp
  | cons item items ih =>
    obtain ⟨hitem, hitems⟩ := List.forall_mem_cons.1 hproper
    obtain ⟨⟨key, hkey⟩, hkeys⟩ := List.forall_mem_cons.1 h.key
    obtain ⟨hfirst, hrest⟩ := List.pairwise_cons.1 h.different
    refine List.forall_mem_cons.2 ⟨⟨key, hkey, List.find?_cons_of_pos ?_⟩, fun other hother => ?_⟩
    · rw [hasKey, hkey]
      exact Value.same_refl key (proper_get? hitem hkey)
    · obtain ⟨l, hl, hfind⟩ := ih ⟨hkeys, hrest⟩ hitems other hother
      refine ⟨l, hl, ?_⟩
      rw [List.find?_cons_of_neg, hfind]
      rw [hasKey, hkey]
      exact Bool.eq_false_iff.1 (hfirst other hother key l hkey hl)

end

/-! ### Values -/

/-- Merged again, the source changes nothing, and neither does it merged into itself. -/
def Stable (strategy : ArrayStrategy) (source : Value) : Prop :=
  values strategy source source = source ∧
    ∀ target, values strategy (values strategy target source) source =
      values strategy target source

/-- A source that can be merged again under a strategy for arrays: they are not concatenated, and if
their items are put in place by a field, then all items of any array of the source have the field,
with different values. -/
def Repeatable (source : Value) : ArrayStrategy → Prop
  | .concat => False
  | .key field => ∀ items, Value.Occurs (.array items) source → Keyed field items
  | _ => True

section
variable {strategy : ArrayStrategy}

theorem Repeatable.of_item {items : List Value} {item : Value} (hitem : item ∈ items)
    (h : Repeatable (.array items) strategy) : Repeatable item strategy := by
  cases strategy with
  | key field => exact fun inner hinner => h inner (.item hitem hinner)
  | _ => exact h

theorem Repeatable.of_member {members : Members} {m : String × Value} (hm : m ∈ members)
    (h : Repeatable (.object members) strategy) : Repeatable m.2 strategy := by
  cases strategy with
  | key field => exact fun inner hinner => h inner (.member hm hinner)
  | _ => exact h

/-! #### Arrays item by item -/

section
variable {items : List Value} (h : ∀ item ∈ items, Stable strategy item)

include h

theorem itemwise_self : itemwise strategy items items = items := by
  induction items with
  | nil => rfl
  | cons item items ih =>
    obtain ⟨hitem, hitems⟩ := List.forall_mem_cons.1 h
    rw [itemwise, hitem.1, ih hitems]

theorem itemwise_again (target : List Value) :
    itemwise strategy (itemwise strategy target items) items = itemwise strategy target items := by
  induction items generalizing target with
  | nil => rfl
  | cons item items ih =>
    obtain ⟨hitem, hitems⟩ := List.forall_mem_cons.1 h
    cases target with
    | nil => rw [itemwise, itemwise, hitem.1, ih hitems]
    | cons old target => rw [itemwise, itemwise, hitem.2, ih hitems]

end

theorem arrays_stable {items : List Value} (hproper : ∀ item ∈ items, item.Proper)
    (hrepeat : Repeatable (.array items) strategy) (h : ∀ item ∈ items, Stable strategy item) :
    arrays strategy items items = items ∧ ∀ target : List Value,
      arrays strategy (arrays strategy target items) items = arrays strategy target items := by
  cases strategy with
  | concat => exact hrepeat.elim
  | replace => exact ⟨rfl, fun _ => rfl⟩
  | ignore =>
    refine ⟨by simp [arrays], fun target => ?_⟩
    cases target <;> simp [arrays]
  | combine => exact ⟨itemwise_self h, itemwise_again h⟩
  | key field =>
    have hkeyed : Keyed field items := hrepeat items .here
    exact ⟨arraysByField_eq_self (hkeyed.found_self hproper),
      fun target => arraysByField_eq_self (hkeyed.found hproper target)⟩

/-! #### Objects member by member -/

theorem insert_get? {name : String} {value : Value} {members : Members}
    (h : members.get? name = some value) : members.insert name value = members := by
  induction members with
  | nil => cases h
  | cons m members ih =>
    obtain ⟨key, old⟩ := m
    rw [Members.get?] at h
    rw [Members.insert]
    split at h
    · rename_i hkey
      rw [if_pos hkey, Option.some.inj h]
    · rename_i hkey
      rw [if_neg hkey, ih h]

/-- The members of a source change nothing where each is merged into what comes of it. -/
theorem objects_eq_self {target source : Members}
    (h : ∀ m ∈ source, ∃ old, target.get? m.1 = some old ∧ values strategy old m.2 = old) :
    objects strategy target source = target := by
  induction source with
  | nil => rfl
  | cons m source ih =>
    obtain ⟨name, value⟩ := m
    obtain ⟨⟨old, hold, hvalue⟩, hrest⟩ := List.forall_mem_cons.1 h
    rw [objects, hold]
    dsimp only at hvalue ⊢
    rw [hvalue, insert_get? hold, ih hrest]

theorem objects_stable {members : Members} (hn : members.names.Nodup)
    (h : ∀ m ∈ members, Stable strategy m.2) :
    objects strategy members members = members ∧ ∀ target : Members,
      objects strategy (objects strategy target members) members =
        objects strategy target members := by
  refine ⟨objects_eq_self fun m hm => ⟨m.2, Members.get?_of_mem hn hm, (h m hm).1⟩, fun target => ?_⟩
  refine objects_eq_self fun m hm => ?_
  rw [get?_objects hn, Members.get?_of_mem hn hm]
  cases Members.get? m.1 target with
  | none => exact ⟨m.2, rfl, (h m hm).1⟩
  | some old => exact ⟨values strategy old m.2, rfl, (h m hm).2 old⟩

/-! #### All values -/

theorem stable_of_scalar {source : Value} (h : ∀ target, values strategy target source = source) :
    Stable strategy source :=
  ⟨h source, fun target => by rw [h target, h source]⟩

mutual
/-- **A source that has been merged is merged again without effect.** -/
theorem stable_of_repeatable : ∀ source : Value, source.Proper → Repeatable source strategy →
    Stable strategy source
  | .null, _, _ => stable_of_scalar fun target => by cases target <;> rfl
  | .bool b, _, _ => stable_of_scalar fun target => by cases target <;> rfl
  | .number n, _, _ => stable_of_scalar fun target => by cases target <;> rfl
  | .string s, _, _ => stable_of_scalar fun target => by cases target <;> rfl
  | .array items, hproper, hrepeat => by
    have hitems := Value.proper_array.1 hproper
    obtain ⟨hself, hagain⟩ := arrays_stable hitems hrepeat
      (stable_items items hitems fun _ hitem => hrepeat.of_item hitem)
    have hvalues : values strategy (.array items) (.array items) = .array items := by
      rw [values_array, hself]
    refine ⟨hvalues, fun target => ?_⟩
    cases target with
    | array target => rw [values_array, values_array, hagain]
    | _ => exact hvalues
  | .object members, hproper, hrepeat => by
    obtain ⟨hnames, hmembers⟩ := Value.proper_object.1 hproper
    obtain ⟨hself, hagain⟩ := objects_stable hnames
      (stable_members members hmembers fun _ hm => hrepeat.of_member hm)
    have hvalues : values strategy (.object members) (.object members) = .object members := by
      rw [values, hself]
    refine ⟨hvalues, fun target => ?_⟩
    cases target with
    | object target => rw [values, values, hagain]
    | _ => exact hvalues

theorem stable_items : ∀ items : List Value, (∀ item ∈ items, item.Proper) →
    (∀ item ∈ items, Repeatable item strategy) → ∀ item ∈ items, Stable strategy item
  | [], _, _ => by simp
  | item :: items, hproper, hrepeat => by
    obtain ⟨hitem, hitems⟩ := List.forall_mem_cons.1 hproper
    obtain ⟨hfirst, hrest⟩ := List.forall_mem_cons.1 hrepeat
    exact List.forall_mem_cons.2
      ⟨stable_of_repeatable item hitem hfirst, stable_items items hitems hrest⟩

theorem stable_members : ∀ members : List (String × Value), (∀ m ∈ members, m.2.Proper) →
    (∀ m ∈ members, Repeatable m.2 strategy) → ∀ m ∈ members, Stable strategy m.2
  | [], _, _ => by simp
  | (_, value) :: members, hproper, hrepeat => by
    obtain ⟨hvalue, hmembers⟩ := List.forall_mem_cons.1 hproper
    obtain ⟨hfirst, hrest⟩ := List.forall_mem_cons.1 hrepeat
    exact List.forall_mem_cons.2
      ⟨stable_of_repeatable value hvalue hfirst, stable_members members hmembers hrest⟩
end

end

end Scaffold.Merge
