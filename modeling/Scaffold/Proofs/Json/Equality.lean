import Mathlib.Data.List.Perm.Subperm
import Scaffold.Json.Value

/-!
# Equal values

Values are equal where their numbers, texts and items are, and objects where each has the members of
the other. So a value is equal to itself as long as no number in it is NaN (`same_refl`), and
equality of values whose objects repeat no name goes both ways (`same_comm`). Values that are equal
to the same one are equal (`same_trans`).
-/

namespace Scaffold

theorem Double.same_comm (a b : Double) : a.same b = b.same a := by
  rw [same, same, Bool.and_comm (!a.isNaN), Bool.beq_comm]

theorem Double.same_trans {a b c : Double} (h : a.same b = true) (h' : b.same c = true) :
    a.same c = true := by
  simp only [same, Bool.and_eq_true, beq_iff_eq] at h h' ⊢
  exact ⟨⟨h.1.1, h'.1.2⟩, h.2.trans h'.2⟩

namespace Json

theorem Number.same_trans {a b c : Number} (h : a.same b = true) (h' : b.same c = true) :
    a.same c = true := by
  cases a <;> cases b <;> cases c <;> simp_all [same]
  exact Double.same_trans h h'

theorem Number.same_comm (a b : Number) : a.same b = b.same a := by
  cases a <;> cases b <;> simp only [same, Double.same_comm, Bool.beq_comm]

namespace Members

variable {name : String} {value : Value} {ms : Members}

theorem mem_of_get? (h : ms.get? name = some value) : (name, value) ∈ ms := by
  induction ms with
  | nil => cases h
  | cons m ms ih =>
    obtain ⟨key, old⟩ := m
    rw [get?] at h
    split at h
    · rename_i hkey
      rw [hkey, Option.some.inj h]
      exact List.mem_cons_self
    · exact List.mem_cons_of_mem _ (ih h)

theorem get?_of_mem (hn : ms.names.Nodup) (h : (name, value) ∈ ms) : ms.get? name = some value := by
  induction ms with
  | nil => cases h
  | cons m ms ih =>
    obtain ⟨key, old⟩ := m
    obtain ⟨hkey, hms⟩ := List.nodup_cons.1 hn
    rw [get?]
    rcases List.mem_cons.1 h with heq | hmem
    · obtain ⟨rfl, rfl⟩ := Prod.mk.inj heq
      rw [if_pos rfl]
    · have hne : key ≠ name := by
        rintro rfl
        exact hkey (List.mem_map.2 ⟨(key, value), hmem, rfl⟩)
      rw [if_neg hne, ih hms hmem]

theorem get?_isSome : (ms.get? name).isSome ↔ name ∈ ms.names := by
  induction ms with
  | nil => simp [get?, names]
  | cons m ms ih =>
    obtain ⟨key, old⟩ := m
    rw [get?, names, List.map_cons, List.mem_cons]
    split
    · rename_i hkey
      simp [hkey]
    · rename_i hkey
      simp only [Ne.symm hkey, false_or]
      exact ih

theorem get?_eq_none : ms.get? name = none ↔ name ∉ ms.names := by
  rw [← get?_isSome, Option.not_isSome_iff_eq_none]

/-- A member with a new name is put at the end. -/
theorem insert_of_not_mem (h : name ∉ ms.names) : ms.insert name value = ms ++ [(name, value)] := by
  induction ms with
  | nil => rfl
  | cons m ms ih =>
    obtain ⟨key, old⟩ := m
    obtain ⟨hkey, hms⟩ := not_or.1 fun hmem => h (List.mem_cons.2 hmem)
    rw [insert, if_neg (Ne.symm hkey), ih hms, List.cons_append]

/-- A member that is there gets its new value where it stands. -/
theorem names_insert_of_mem (h : name ∈ ms.names) : (ms.insert name value).names = ms.names := by
  induction ms with
  | nil => cases h
  | cons m ms ih =>
    obtain ⟨key, old⟩ := m
    rw [insert]
    split
    · rfl
    · rename_i hkey
      have hms : name ∈ names ms := (List.mem_cons.1 h).resolve_left (Ne.symm hkey)
      exact congrArg (key :: ·) (ih hms)

theorem names_insert_of_not_mem (h : name ∉ ms.names) :
    (ms.insert name value).names = ms.names ++ [name] := by
  rw [insert_of_not_mem h, names, List.map_append]
  rfl

end Members

namespace Value

/-! ### Parts of values -/

/-- One value occurs in another one, at any depth. -/
inductive Occurs (w : Value) : Value → Prop where
  | here : Occurs w w
  | item {items : List Value} {item : Value} (hmem : item ∈ items) (h : Occurs w item) :
      Occurs w (.array items)
  | member {members : Members} {m : String × Value} (hmem : m ∈ members) (h : Occurs w m.2) :
      Occurs w (.object members)

/-- No number in the value is NaN, which is not even equal to itself. -/
def WithoutNaN (v : Value) : Prop := ∀ n, Occurs (.number n) v → n.same n = true

/-- A value that a document can hold: no object repeats a name, and no number is NaN. -/
structure Proper (v : Value) : Prop where
  names : v.WellFormed
  numbers : v.WithoutNaN

theorem wellFormedItems_iff {items : List Value} :
    WellFormedItems items ↔ ∀ item ∈ items, item.WellFormed := by
  induction items with
  | nil => simp [WellFormedItems]
  | cons item items ih => rw [WellFormedItems, ih, List.forall_mem_cons]

theorem wellFormedMembers_iff {members : Members} :
    WellFormedMembers members ↔ ∀ m ∈ members, m.2.WellFormed := by
  induction members with
  | nil => simp [WellFormedMembers]
  | cons m members ih =>
    obtain ⟨name, value⟩ := m
    rw [WellFormedMembers, ih, List.forall_mem_cons]

theorem wellFormed_array {items : List Value} :
    (array items).WellFormed ↔ ∀ item ∈ items, item.WellFormed := by
  rw [WellFormed, wellFormedItems_iff]

theorem wellFormed_object {members : Members} :
    (object members).WellFormed ↔ members.names.Nodup ∧ ∀ m ∈ members, m.2.WellFormed := by
  rw [WellFormed, wellFormedMembers_iff, Members.names]

/-- Only an object has members. -/
theorem get?_eq_some {name : String} {v w : Value} :
    v.get? name = some w ↔ ∃ members, v = .object members ∧ Members.get? name members = some w := by
  cases v <;> simp [get?]

/-- The members of an object that repeats no name repeat none either. -/
theorem WellFormed.get? {name : String} {v w : Value} (h : v.WellFormed)
    (hw : v.get? name = some w) : w.WellFormed := by
  obtain ⟨members, rfl, hget⟩ := get?_eq_some.1 hw
  exact (wellFormed_object.1 h).2 _ (Members.mem_of_get? hget)

theorem withoutNaN_array {items : List Value} :
    (array items).WithoutNaN ↔ ∀ item ∈ items, item.WithoutNaN := by
  constructor
  · exact fun h item hitem n hn => h n (.item hitem hn)
  · intro h n hn
    cases hn with
    | item hitem hn => exact h _ hitem n hn

theorem withoutNaN_object {members : Members} :
    (object members).WithoutNaN ↔ ∀ m ∈ members, m.2.WithoutNaN := by
  constructor
  · exact fun h m hm n hn => h n (.member hm hn)
  · intro h n hn
    cases hn with
    | member hm hn => exact h _ hm n hn

theorem proper_array {items : List Value} :
    (array items).Proper ↔ ∀ item ∈ items, item.Proper := by
  constructor
  · exact fun h item hitem =>
      ⟨wellFormed_array.1 h.names item hitem, withoutNaN_array.1 h.numbers item hitem⟩
  · exact fun h => ⟨wellFormed_array.2 fun item hitem => (h item hitem).names,
      withoutNaN_array.2 fun item hitem => (h item hitem).numbers⟩

theorem proper_object {members : Members} :
    (object members).Proper ↔ members.names.Nodup ∧ ∀ m ∈ members, m.2.Proper := by
  constructor
  · intro h
    obtain ⟨hnames, hmembers⟩ := wellFormed_object.1 h.names
    exact ⟨hnames, fun m hm => ⟨hmembers m hm, withoutNaN_object.1 h.numbers m hm⟩⟩
  · exact fun ⟨hnames, h⟩ => ⟨wellFormed_object.2 ⟨hnames, fun m hm => (h m hm).names⟩,
      withoutNaN_object.2 fun m hm => (h m hm).numbers⟩

/-! ### Equality -/

theorem sameMembers_iff {a b : Members} : sameMembers a b = true ↔
    ∀ m ∈ a, ∃ v, b.get? m.1 = some v ∧ m.2.same v = true := by
  induction a with
  | nil => simp [sameMembers]
  | cons m a ih =>
    obtain ⟨name, value⟩ := m
    rw [sameMembers, Bool.and_eq_true, ih, List.forall_mem_cons]
    refine and_congr_left fun _ => ?_
    cases b.get? name <;> simp

mutual
/-- **A value without NaN is equal to itself.** -/
theorem same_refl : ∀ v : Value, v.Proper → v.same v = true
  | .null, _ => rfl
  | .bool b, _ => by simp [same]
  | .number n, h => h.numbers n .here
  | .string s, _ => by simp [same]
  | .array items, h => sameItems_refl items (proper_array.1 h)
  | .object members, h => by
    obtain ⟨hnames, hmembers⟩ := proper_object.1 h
    rw [same, beq_self_eq_true, Bool.true_and, sameMembers_iff]
    exact fun m hm => ⟨m.2, Members.get?_of_mem hnames hm, sameMembers_refl members hmembers m hm⟩

theorem sameItems_refl :
    ∀ items : List Value, (∀ item ∈ items, item.Proper) → sameItems items items = true
  | [], _ => rfl
  | item :: items, h => by
    obtain ⟨hitem, hitems⟩ := List.forall_mem_cons.1 h
    rw [sameItems, same_refl item hitem, sameItems_refl items hitems]
    rfl

theorem sameMembers_refl : ∀ members : List (String × Value), (∀ m ∈ members, m.2.Proper) →
    ∀ m ∈ members, m.2.same m.2 = true
  | [], _ => by simp
  | (_, value) :: members, h => by
    obtain ⟨hvalue, hmembers⟩ := List.forall_mem_cons.1 h
    exact List.forall_mem_cons.2 ⟨same_refl value hvalue, sameMembers_refl members hmembers⟩
end

/-- Where every name of one object is one of another object with as many members, the names are the
same. -/
theorem names_subset_of_sameMembers {a b : Members} (ha : a.names.Nodup)
    (hlength : a.length = b.length) (h : sameMembers a b = true) : b.names ⊆ a.names := by
  have hsubset : a.names ⊆ b.names := by
    intro name hname
    obtain ⟨m, hm, rfl⟩ := List.mem_map.1 hname
    obtain ⟨v, hv, -⟩ := sameMembers_iff.1 h m hm
    exact Members.get?_isSome.1 (by rw [hv]; rfl)
  have hle : b.names.length ≤ a.names.length := by simp [Members.names, hlength]
  exact ((List.subperm_of_subset ha hsubset).perm_of_length_le hle).symm.subset

mutual
/-- Equality of values is symmetric. -/
theorem same_symm : ∀ v w : Value, v.WellFormed → w.WellFormed → v.same w = true → w.same v = true
  | .null, w, _, _, h => by cases w <;> simp_all [same]
  | .bool a, w, _, _, h => by cases w <;> simp_all [same]
  | .number a, w, _, _, h => by
    cases w with
    | number b => exact (Number.same_comm b a).trans h
    | _ => cases h
  | .string a, w, _, _, h => by cases w <;> simp_all [same]
  | .array items, w, hv, hw, h => by
    cases w with
    | array others =>
      exact sameItems_symm items others (wellFormed_array.1 hv) (wellFormed_array.1 hw) h
    | _ => cases h
  | .object a, w, hv, hw, h => by
    cases w with
    | object b =>
      obtain ⟨ha, hmembers⟩ := wellFormed_object.1 hv
      obtain ⟨hb, hothers⟩ := wellFormed_object.1 hw
      rw [same, Bool.and_eq_true, beq_iff_eq] at h
      obtain ⟨hlength, hsame⟩ := h
      rw [same, Bool.and_eq_true, beq_iff_eq, sameMembers_iff]
      refine ⟨hlength.symm, fun m hm => ?_⟩
      have hname : m.1 ∈ Members.names a :=
        names_subset_of_sameMembers ha hlength hsame (List.mem_map_of_mem hm)
      obtain ⟨v, hget⟩ := Option.isSome_iff_exists.1 (Members.get?_isSome.2 hname)
      have hmem := Members.mem_of_get? hget
      obtain ⟨w, hfound, hequal⟩ := sameMembers_iff.1 hsame (m.1, v) hmem
      obtain rfl : w = m.2 := Option.some.inj (hfound.symm.trans (Members.get?_of_mem hb hm))
      exact ⟨v, hget, sameMembers_symm a hmembers (m.1, v) hmem m.2 (hothers m hm) hequal⟩
    | _ => cases h

theorem sameItems_symm : ∀ items others : List Value, (∀ item ∈ items, item.WellFormed) →
    (∀ item ∈ others, item.WellFormed) → sameItems items others = true →
      sameItems others items = true
  | [], others, _, _, h => by cases others <;> simp_all [sameItems]
  | item :: items, others, hv, hw, h => by
    cases others with
    | nil => cases h
    | cons other others =>
      obtain ⟨hitem, hitems⟩ := List.forall_mem_cons.1 hv
      obtain ⟨hother, hothers⟩ := List.forall_mem_cons.1 hw
      rw [sameItems, Bool.and_eq_true] at h ⊢
      exact ⟨same_symm item other hitem hother h.1, sameItems_symm items others hitems hothers h.2⟩

theorem sameMembers_symm : ∀ members : List (String × Value), (∀ m ∈ members, m.2.WellFormed) →
    ∀ m ∈ members, ∀ w : Value, w.WellFormed → m.2.same w = true → w.same m.2 = true
  | [], _ => by simp
  | (_, value) :: members, h => by
    obtain ⟨hvalue, hmembers⟩ := List.forall_mem_cons.1 h
    exact List.forall_mem_cons.2
      ⟨fun w hw => same_symm value w hvalue hw, sameMembers_symm members hmembers⟩
end

/-- **Equality of values whose objects repeat no name goes both ways.** -/
theorem same_comm {v w : Value} (hv : v.WellFormed) (hw : w.WellFormed) : v.same w = w.same v :=
  Bool.eq_iff_iff.2 ⟨same_symm v w hv hw, same_symm w v hw hv⟩

mutual
/-- **Equality of values is transitive.** -/
theorem same_trans : ∀ u v w : Value, u.same v = true → v.same w = true → u.same w = true
  | .null, v, w, h, h' => by
    cases v with
    | null => exact h'
    | _ => cases h
  | .bool a, v, w, h, h' => by
    cases v with
    | bool b =>
      obtain rfl : a = b := by simpa only [same, beq_iff_eq] using h
      exact h'
    | _ => cases h
  | .string a, v, w, h, h' => by
    cases v with
    | string b =>
      obtain rfl : a = b := by simpa only [same, beq_iff_eq] using h
      exact h'
    | _ => cases h
  | .number a, v, w, h, h' => by
    cases v with
    | number b =>
      cases w with
      | number c => exact Number.same_trans h h'
      | _ => cases h'
    | _ => cases h
  | .array items, v, w, h, h' => by
    cases v with
    | array others =>
      cases w with
      | array more => exact sameItems_trans items others more h h'
      | _ => cases h'
    | _ => cases h
  | .object a, v, w, h, h' => by
    cases v with
    | object b =>
      cases w with
      | object c =>
        rw [same, Bool.and_eq_true, beq_iff_eq] at h h' ⊢
        refine ⟨h.1.trans h'.1, sameMembers_iff.2 fun m hm => ?_⟩
        obtain ⟨v, hv, hmv⟩ := sameMembers_iff.1 h.2 m hm
        obtain ⟨w, hw, hvw⟩ := sameMembers_iff.1 h'.2 (m.1, v) (Members.mem_of_get? hv)
        exact ⟨w, hw, sameMembers_trans a m hm v w hmv hvw⟩
      | _ => cases h'
    | _ => cases h

theorem sameItems_trans : ∀ items others more : List Value, sameItems items others = true →
    sameItems others more = true → sameItems items more = true
  | [], others, more, h, h' => by
    cases others with
    | nil => exact h'
    | cons other others => cases h
  | item :: items, others, more, h, h' => by
    cases others with
    | nil => cases h
    | cons other others =>
      cases more with
      | nil => cases h'
      | cons last more =>
        rw [sameItems, Bool.and_eq_true] at h h' ⊢
        exact ⟨same_trans item other last h.1 h'.1, sameItems_trans items others more h.2 h'.2⟩

theorem sameMembers_trans : ∀ members : List (String × Value), ∀ m ∈ members, ∀ v w : Value,
    m.2.same v = true → v.same w = true → m.2.same w = true
  | [] => by simp
  | (_, value) :: members =>
    List.forall_mem_cons.2 ⟨fun v w h h' => same_trans value v w h h', sameMembers_trans members⟩
end

end Value

end Json

end Scaffold
