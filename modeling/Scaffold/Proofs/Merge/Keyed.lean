import Scaffold.Proofs.Merge.Values

/-!
# Arrays merged by a field

The items of a source are put into a target one after the other, each in place of the first item
that has its value of the field by then, which may be one that came from the source before. What
comes of it is said here place by place, without the order of the steps (`arrays_key_iff`): in the
place of a target's item stands the last item of the source with the same value, if the target's is
the first one with it, and behind the target stand those items of the source whose value is new,
again as the last item with it. Items without the field are alike to none, not even to themselves.

The one step is `putItem`; `arraysByField_eq` is the run, by induction on the source.
-/

namespace Scaffold.Merge

open Json (Value)

variable {field : String} {item other x y : Value} {before seen target source : List Value}

/-! ### Items with equal values of the field -/

/-- Both items have the field, with equal values. -/
def sharesKey (field : String) (x y : Value) : Bool :=
  (x.get? field).any fun key => hasKey field key y

theorem sharesKey_eq_true : sharesKey field x y = true ↔
    ∃ k l, x.get? field = some k ∧ y.get? field = some l ∧ l.same k = true := by
  rw [sharesKey, Option.any_eq_true]
  constructor
  · rintro ⟨k, hk, h⟩
    obtain ⟨l, hl, hsame⟩ := (Option.any_eq_true _ _).1 h
    exact ⟨k, l, hk, hl, hsame⟩
  · rintro ⟨k, l, hk, hl, hsame⟩
    exact ⟨k, hk, (Option.any_eq_true _ _).2 ⟨l, hl, hsame⟩⟩

theorem sharesKey_symm (hx : x.WellFormed) (hy : y.WellFormed) (h : sharesKey field x y = true) :
    sharesKey field y x = true := by
  obtain ⟨k, l, hk, hl, hsame⟩ := sharesKey_eq_true.1 h
  exact sharesKey_eq_true.2 ⟨l, k, hl, hk,
    Value.same_symm l k (hy.get? hl) (hx.get? hk) hsame⟩

theorem sharesKey_comm (hx : x.WellFormed) (hy : y.WellFormed) :
    sharesKey field x y = sharesKey field y x :=
  Bool.eq_iff_iff.2 ⟨sharesKey_symm hx hy, sharesKey_symm hy hx⟩

theorem sharesKey_trans (h : sharesKey field x y = true) (h' : sharesKey field y item = true) :
    sharesKey field x item = true := by
  obtain ⟨k, l, hk, hl, hkl⟩ := sharesKey_eq_true.1 h
  obtain ⟨l', m, hl', hm, hlm⟩ := sharesKey_eq_true.1 h'
  obtain rfl := Option.some.inj (hl.symm.trans hl')
  exact sharesKey_eq_true.2 ⟨k, m, hk, hm, Value.same_trans m l k hlm hkl⟩

/-- The items share the values of the field with the same items. -/
structure KeyAlike (field : String) (x y : Value) : Prop where
  left : sharesKey field x = sharesKey field y
  right : ∀ item, sharesKey field item x = sharesKey field item y

theorem KeyAlike.refl (x : Value) : KeyAlike field x x := ⟨rfl, fun _ => rfl⟩

theorem KeyAlike.symm (h : KeyAlike field x y) : KeyAlike field y x :=
  ⟨h.left.symm, fun item => (h.right item).symm⟩

theorem keyAlike_of_sharesKey (hx : x.WellFormed) (hy : y.WellFormed)
    (h : sharesKey field x y = true) : KeyAlike field x y := by
  have h' := sharesKey_symm hx hy h
  exact ⟨funext fun item => Bool.eq_iff_iff.2 ⟨sharesKey_trans h', sharesKey_trans h⟩,
    fun item => Bool.eq_iff_iff.2 ⟨(sharesKey_trans · h), (sharesKey_trans · h')⟩⟩

/-! ### The last item with a value -/

/-- The last item with the same value of the field, or the item itself if there is none. -/
def latest (field : String) (items : List Value) (item : Value) : Value :=
  (items.filter (sharesKey field item)).getLast?.getD item

theorem latest_cons_of_not_sharesKey (h : sharesKey field item x = false) :
    latest field (x :: source) item = latest field source item := by
  rw [latest, latest, List.filter_cons_of_neg (Bool.eq_false_iff.1 h)]

theorem latest_cons_of_keyAlike (hshares : sharesKey field item x = true)
    (h : KeyAlike field item x) : latest field (x :: source) item = latest field source x := by
  rw [latest, latest, List.filter_cons_of_pos hshares, List.getLast?_cons, Option.getD_some,
    h.left]

theorem latest_cons_self : latest field (x :: source) x = latest field source x := by
  by_cases h : sharesKey field x x = true
  · exact latest_cons_of_keyAlike h (.refl x)
  · exact latest_cons_of_not_sharesKey (Bool.eq_false_iff.2 h)

theorem latest_eq_or (field : String) (source : List Value) (item : Value) :
    latest field source item = item ∨ latest field source item ∈ source ∧
      sharesKey field item (latest field source item) = true := by
  rw [latest]
  cases h : (source.filter (sharesKey field item)).getLast? with
  | none => exact .inl rfl
  | some last => exact .inr (List.mem_filter.1 (List.mem_of_getLast? h))

/-- The last item with the value of an item is alike to it. -/
theorem keyAlike_latest (hitem : item.WellFormed) (hs : ∀ x ∈ source, x.WellFormed) :
    KeyAlike field item (latest field source item) := by
  rcases latest_eq_or field source item with h | ⟨hmem, h⟩
  · rw [h]
    exact .refl item
  · exact keyAlike_of_sharesKey hitem (hs _ hmem) h

/-! ### The items of the target -/

/-- The items behind `before` after a source went in: the first one with its value becomes the last
one of the source with it. -/
def updated (field : String) (source : List Value) : (before : List Value) → List Value → List Value
  | _, [] => []
  | before, item :: rest =>
    (if before.any (sharesKey field item) then item else latest field source item) ::
      updated field source (before ++ [item]) rest

theorem length_updated : (updated field source before target).length = target.length := by
  induction target generalizing before with
  | nil => rfl
  | cons item target ih => rw [updated, List.length_cons, List.length_cons, ih]

theorem getElem?_updated (i : Nat) : (updated field source before target)[i]? =
    target[i]?.map fun item =>
      if (before ++ target.take i).any (sharesKey field item) then item
      else latest field source item := by
  induction target generalizing before i with
  | nil => rfl
  | cons item target ih =>
    rw [updated]
    cases i with
    | zero => simp
    | succ i => simpa using @ih (before ++ [item]) i

theorem updated_nil : updated field [] before target = target := by
  induction target generalizing before with
  | nil => rfl
  | cons item target ih =>
    rw [updated, ih]
    split <;> rfl

theorem updated_append (more : List Value) : updated field source before (target ++ more) =
    updated field source before target ++ updated field source (before ++ target) more := by
  induction target generalizing before with
  | nil => simp [updated]
  | cons item target ih => simp [updated, ih]

/-- What stands before matters only for the values that are in it. -/
theorem updated_congr {after : List Value}
    (h : ∀ item, before.any (sharesKey field item) = after.any (sharesKey field item)) :
    updated field source before target = updated field source after target := by
  induction target generalizing before after with
  | nil => rfl
  | cons item target ih =>
    rw [updated, updated, h]
    congr 1
    refine ih fun other => ?_
    rw [List.any_append, List.any_append, h]

/-- An item of the source whose value the items do not have does not matter. -/
theorem updated_cons_of_not_sharesKey (h : ∀ item ∈ target, sharesKey field item x = false) :
    updated field (x :: source) before target = updated field source before target := by
  induction target generalizing before with
  | nil => rfl
  | cons item target ih =>
    obtain ⟨hitem, htarget⟩ := List.forall_mem_cons.1 h
    rw [updated, updated, latest_cons_of_not_sharesKey hitem, ih htarget]

/-- An item of the source whose value is found before does not matter. -/
theorem updated_cons_of_keyAlike {old : Value} (hold : old ∈ before) (h : KeyAlike field old x) :
    updated field (x :: source) before target = updated field source before target := by
  induction target generalizing before with
  | nil => rfl
  | cons item target ih =>
    rw [updated, updated, ih (List.mem_append_left [item] hold)]
    by_cases hseen : before.any (sharesKey field item) = true
    · rw [if_pos hseen, if_pos hseen]
    · have hx : sharesKey field item x = false := by
        rw [← h.right item]
        exact Bool.eq_false_iff.2 fun hshares => hseen (List.any_eq_true.2 ⟨old, hold, hshares⟩)
      rw [latest_cons_of_not_sharesKey hx]

/-! ### The items that are new -/

/-- The items whose value of the field is not among those seen, nor among those of the items before
them. -/
def newcomers (field : String) : (seen : List Value) → List Value → List Value
  | _, [] => []
  | seen, item :: rest =>
    if seen.any (sharesKey field item) then newcomers field (seen ++ [item]) rest
    else item :: newcomers field (seen ++ [item]) rest

theorem newcomers_sublist : (newcomers field seen source).Sublist source := by
  induction source generalizing seen with
  | nil => exact .slnil
  | cons item source ih =>
    rw [newcomers]
    split
    · exact .cons item ih
    · exact .cons_cons item ih

theorem newcomers_congr {known : List Value}
    (h : ∀ item, seen.any (sharesKey field item) = known.any (sharesKey field item)) :
    newcomers field seen source = newcomers field known source := by
  induction source generalizing seen known with
  | nil => rfl
  | cons item source ih =>
    have hrest : newcomers field (seen ++ [item]) source =
        newcomers field (known ++ [item]) source :=
      ih fun other => by rw [List.any_append, List.any_append, h]
    rw [newcomers, newcomers, h, hrest]

theorem not_sharesKey_of_mem_newcomers (h : item ∈ newcomers field seen source)
    (hold : other ∈ seen) : sharesKey field item other = false := by
  induction source generalizing seen with
  | nil => cases h
  | cons x source ih =>
    rw [newcomers] at h
    split at h
    · exact ih h (List.mem_append_left [x] hold)
    · rename_i hx
      rcases List.mem_cons.1 h with rfl | h
      · exact Bool.eq_false_iff.2 fun hshares => hx (List.any_eq_true.2 ⟨other, hold, hshares⟩)
      · exact ih h (List.mem_append_left [x] hold)

theorem pairwise_newcomers : (newcomers field seen source).Pairwise
    fun item later => sharesKey field later item = false := by
  induction source generalizing seen with
  | nil => exact .nil
  | cons x source ih =>
    rw [newcomers]
    split
    · exact ih
    · exact .cons (fun later hlater => not_sharesKey_of_mem_newcomers hlater (by simp)) ih

/-! ### One item -/

theorem putItem_of_not_any {p : Value → Bool} (h : target.any p = false) :
    putItem p item target = target ++ [item] := by
  induction target with
  | nil => rfl
  | cons other target ih =>
    rw [List.any_cons, Bool.or_eq_false_iff] at h
    rw [putItem, if_neg (Bool.eq_false_iff.1 h.1), ih h.2, List.cons_append]

/-- An item is put in place of the first one with its value of the field. -/
theorem putByField_eq_putItem (field : String) (target : List Value) (item : Value) :
    putByField field target item = putItem (sharesKey field item) item target := by
  cases hkey : item.get? field with
  | some key =>
    rw [putByField_eq hkey, show hasKey field key = sharesKey field item by
      funext other; rw [sharesKey, hkey, Option.any_some]]
  | none =>
    have hnone : sharesKey field item = fun _ => false := by
      funext other
      rw [sharesKey, hkey, Option.any_none]
    rw [putByField, hkey, hnone, putItem_of_not_any (by simp)]

section
variable (hx : x.WellFormed) (ht : ∀ item ∈ target, item.WellFormed)

include hx ht

/-- The values that items have when one was put are those that they had, and its own. -/
theorem any_putItem (item : Value) :
    (putItem (sharesKey field x) x target).any (sharesKey field item) =
      (target ++ [x]).any (sharesKey field item) := by
  induction target with
  | nil => rfl
  | cons other target ih =>
    obtain ⟨hother, htarget⟩ := List.forall_mem_cons.1 ht
    rw [putItem]
    split
    · rename_i hshares
      have hright := (keyAlike_of_sharesKey hx hother hshares).right item
      simp only [List.cons_append, List.any_cons, List.any_append, List.any_nil, Bool.or_false,
        hright]
      cases sharesKey field item other <;> simp
    · rw [List.cons_append, List.any_cons, List.any_cons, ih htarget]

/-- Put in place of the first item with its value, an item is what the first item becomes. -/
theorem updated_putItem (hbefore : before.any (sharesKey field x) = false)
    (h : target.any (sharesKey field x) = true) :
    updated field source before (putItem (sharesKey field x) x target) =
      updated field (x :: source) before target := by
  induction target generalizing before with
  | nil => cases h
  | cons other target ih =>
    obtain ⟨hother, htarget⟩ := List.forall_mem_cons.1 ht
    rw [putItem]
    split
    · rename_i hshares
      have halike : KeyAlike field other x := (keyAlike_of_sharesKey hx hother hshares).symm
      -- behind them it makes no difference which of the two stands before
      have hrest : updated field source (before ++ [x]) target =
          updated field (x :: source) (before ++ [other]) target := by
        have hmem : other ∈ before ++ [other] := by simp
        rw [updated_cons_of_keyAlike hmem halike]
        exact updated_congr fun item => by simp [halike.right item]
      rw [updated, updated, halike.left, hbefore, if_neg Bool.false_ne_true,
        if_neg Bool.false_ne_true, hrest,
        latest_cons_of_keyAlike (sharesKey_symm hx hother hshares) halike]
    · rename_i hshares
      have hfirst : sharesKey field other x = false := by
        rw [sharesKey_comm hother hx]
        exact Bool.eq_false_iff.2 hshares
      have hrest : target.any (sharesKey field x) = true := by
        rwa [List.any_cons, Bool.eq_false_iff.2 hshares, Bool.false_or] at h
      have hseen : (before ++ [other]).any (sharesKey field x) = false := by
        simp [hbefore, Bool.eq_false_iff.2 hshares]
      rw [updated, updated, latest_cons_of_not_sharesKey hfirst, ih htarget hseen hrest]

end

/-! ### All items -/

/-- **The items put one by one**: those of the target, each in its place, and behind them those that
are new. -/
theorem arraysByField_eq (ht : ∀ item ∈ target, item.WellFormed)
    (hs : ∀ item ∈ source, item.WellFormed) :
    arraysByField field target source = updated field source [] target ++
      (newcomers field target source).map (latest field source) := by
  induction source generalizing target with
  | nil => simp [arraysByField, updated_nil, newcomers]
  | cons x source ih =>
    obtain ⟨hx, hs⟩ := List.forall_mem_cons.1 hs
    have hput : ∀ item ∈ putByField field target x, item.WellFormed := fun item hitem =>
      (mem_putByField hitem).elim (ht item) fun heq => heq ▸ hx
    -- the rest of the source finds the values of the target and that of `x`, wherever `x` went
    have hnew : (newcomers field (putByField field target x) source).map (latest field source) =
        (newcomers field (target ++ [x]) source).map (latest field (x :: source)) := by
      rw [putByField_eq_putItem, newcomers_congr (any_putItem hx ht)]
      refine List.map_congr_left fun item hitem => (latest_cons_of_not_sharesKey ?_).symm
      exact not_sharesKey_of_mem_newcomers hitem (by simp)
    rw [show arraysByField field target (x :: source) =
      arraysByField field (putByField field target x) source from rfl, ih hput hs, hnew, newcomers,
      putByField_eq_putItem]
    by_cases h : target.any (sharesKey field x) = true
    · rw [if_pos h, updated_putItem hx ht rfl h]
    · have hnone : ∀ item ∈ target, sharesKey field item x = false := by
        intro item hitem
        rw [sharesKey_comm (ht item hitem) hx]
        exact Bool.eq_false_iff.2 fun hshares => h (List.any_eq_true.2 ⟨item, hitem, hshares⟩)
      rw [if_neg h, putItem_of_not_any (Bool.eq_false_iff.2 h), updated_append,
        updated_cons_of_not_sharesKey hnone, updated, updated, List.nil_append, if_neg h,
        List.map_cons, latest_cons_self, List.append_assoc, List.singleton_append]

section
variable (ht : ∀ item ∈ target, item.WellFormed) (hs : ∀ item ∈ source, item.WellFormed)

include ht hs

/-- In the place of an item of the target stands the last item of the source with its value, if it is
the first one with it. -/
theorem getElem?_arraysByField (i : Nat) (h : i < target.length) :
    (arraysByField field target source)[i]? =
      some (if (target.take i).any (sharesKey field target[i]) then target[i]
        else latest field source target[i]) := by
  rw [arraysByField_eq ht hs, List.getElem?_append_left (by rwa [length_updated]),
    getElem?_updated, List.getElem?_eq_getElem h]
  rfl

theorem drop_arraysByField : (arraysByField field target source).drop target.length =
    (newcomers field target source).map (latest field source) := by
  rw [arraysByField_eq ht hs, List.drop_left' length_updated]

/-- What is new has no value that the target has. -/
theorem not_sharesKey_latest (hnew : item ∈ newcomers field target source)
    (hold : other ∈ target) : sharesKey field other (latest field source item) = false := by
  have hitem : item.WellFormed := hs item (newcomers_sublist.subset hnew)
  rw [← (keyAlike_latest hitem hs).right, sharesKey_comm (ht other hold) hitem]
  exact not_sharesKey_of_mem_newcomers hnew hold

end

/-- What is new has no value twice. -/
theorem pairwise_latest (hs : ∀ item ∈ source, item.WellFormed) :
    ((newcomers field seen source).map (latest field source)).Pairwise
      fun x y => sharesKey field x y = false := by
  rw [List.pairwise_map]
  refine pairwise_newcomers.imp_of_mem fun {x y} hx hy h => ?_
  have hx : x.WellFormed := hs x (newcomers_sublist.subset hx)
  have hy : y.WellFormed := hs y (newcomers_sublist.subset hy)
  rw [← (keyAlike_latest hx hs).left, ← (keyAlike_latest hy hs).right, sharesKey_comm hx hy]
  exact h

theorem eq_of_getElem?_of_drop {α : Type} {l m : List α} {n : Nat}
    (h : ∀ i, i < n → l[i]? = m[i]?) (hdrop : l.drop n = m.drop n) : l = m := by
  refine List.ext_getElem? fun i => ?_
  rcases Nat.lt_or_ge i n with hi | hi
  · exact h i hi
  · rw [← Nat.add_sub_cancel' hi, ← List.getElem?_drop, ← List.getElem?_drop, hdrop]

/-- **Arrays that are merged by a field**, place by place. In the place of an item of the target that
is the first with its value of the field stands the last item of the source with that value, if there
is one; every other item of the target stays. Behind them stand, in the order of the source, its
items without the field, and for each value that the target does not have the last item with it where
the first one was. So every item of the target keeps its place or gives it to one with the same
value, and no two items that were added have the same value, nor one that the target has. -/
theorem arrays_key_iff (ht : ∀ item ∈ target, item.WellFormed)
    (hs : ∀ item ∈ source, item.WellFormed) :
    (∀ result, arrays (.key field) target source = result ↔
      (∀ i (h : i < target.length), result[i]? =
        some (if (target.take i).any (sharesKey field target[i]) then target[i]
          else latest field source target[i])) ∧
      result.drop target.length = (newcomers field target source).map (latest field source)) ∧
    (∀ i (h : i < target.length), ∃ item, (arrays (.key field) target source)[i]? = some item ∧
      (item = target[i] ∨ sharesKey field target[i] item = true)) ∧
    ((arrays (.key field) target source).drop target.length).Pairwise
      (fun x y => sharesKey field x y = false) ∧
    ∀ new ∈ (arrays (.key field) target source).drop target.length, ∀ old ∈ target,
      sharesKey field old new = false := by
  rw [arrays, drop_arraysByField ht hs]
  refine ⟨fun result => ⟨?_, ?_⟩, fun i h => ?_, pairwise_latest hs, fun new hnew old hold => ?_⟩
  · rintro rfl
    exact ⟨getElem?_arraysByField ht hs, drop_arraysByField ht hs⟩
  · rintro ⟨hplace, hdrop⟩
    exact eq_of_getElem?_of_drop
      (fun i h => (getElem?_arraysByField ht hs i h).trans (hplace i h).symm)
      ((drop_arraysByField ht hs).trans hdrop.symm)
  · refine ⟨_, getElem?_arraysByField ht hs i h, ?_⟩
    split
    · exact .inl rfl
    · exact (latest_eq_or field source target[i]).imp_right And.right
  · obtain ⟨item, hitem, rfl⟩ := List.mem_map.1 hnew
    exact not_sharesKey_latest ht hs hitem hold

/-- A target with two items of one value and one without the field. -/
def keyedTarget : List Value :=
  [.object [("id", .bool true), ("x", .null)], .null, .object [("id", .bool true)]]

/-- A source with an item for the target, two of a new value and one without the field. -/
def keyedSource : List Value :=
  [.object [("id", .bool false)], .null, .object [("id", .bool true), ("z", .null)],
    .object [("id", .bool false), ("y", .null)]]

/-- The first of two items with a value is replaced, and a new value goes where it came first, with
the item that came last. -/
theorem arrays_key_of_repeated_values : arrays (.key "id") keyedTarget keyedSource =
    [.object [("id", .bool true), ("z", .null)], .null, .object [("id", .bool true)],
      .object [("id", .bool false), ("y", .null)], .null] := by
  have ht : ∀ item ∈ keyedTarget, item.WellFormed := by
    simp [keyedTarget, Value.WellFormed, Value.WellFormedMembers]
  have hs : ∀ item ∈ keyedSource, item.WellFormed := by
    simp [keyedSource, Value.WellFormed, Value.WellFormedMembers]
  refine ((arrays_key_iff ht hs).1 _).2 ⟨fun i h => ?_, rfl⟩
  rcases i with _ | _ | _ | i
  · rfl
  · rfl
  · rfl
  · exact absurd h (Nat.not_lt.2 (Nat.le_add_left 3 i))

end Scaffold.Merge
