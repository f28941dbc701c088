import Scaffold.Json.Reader
import Scaffold.Proofs.Json.Equality
import Scaffold.Proofs.Number.Double
import Scaffold.Proofs.Outcome

/-!
# What is read as JSON

Whatever a reader reads has a property as soon as its parts have theirs (`Yields`), so everything
said here follows the grammar. A number that is read is not NaN, and an object takes each name only
once: what is read as a value is a proper one (`proper_of_parse`), and it nests no deeper than its
reader goes (`yields_valueWithin`).
-/

namespace Scaffold.Json

/-- What a reader reads has a property. -/
def Yields {α : Type} (p : α → Prop) (reader : Reader α) : Prop :=
  ∀ ⦃s a rest⦄, reader s = .ok (a, rest) → p a

/-! ### Numbers -/

/-- A number that is equal to itself, which NaN is not. -/
def Number.Reflexive (n : Number) : Prop := n.same n = true

theorem Number.reflexive_integer (i : Int) : (Number.integer i).Reflexive := by
  simp [Reflexive, same]

theorem Number.reflexive_double {d : Double} (h : d.isNaN = false) : (Number.double d).Reflexive :=
  Double.same_self h

theorem yields_exponentPart (negative : Bool) (significand : Nat) (start : Int) :
    Yields Number.Reflexive (exponentPart negative significand start) := by
  intro s n rest h
  unfold exponentPart at h
  split at h
  split at h
  · cases h
  · split at h
    · cases h
    simp only at h
    split at h
    · split at h
      · cases h
      · obtain ⟨rfl, -⟩ := Prod.mk.inj (Except.ok.inj h)
        exact Number.reflexive_double (Double.isNaN_ofMagnitude (Nat.zero_le _))
    · obtain ⟨d, hd, h⟩ := Outcome.bind_eq_ok.1 h
      obtain ⟨rfl, -⟩ := Prod.mk.inj (Except.ok.inj h)
      exact Number.reflexive_double (isNaN_scaled hd)

theorem yields_afterDigits (negative : Bool) (significand : Nat) (exponent : Int) :
    Yields Number.Reflexive (afterDigits negative significand exponent) := by
  intro s n rest h
  unfold afterDigits at h
  split at h
  · exact yields_exponentPart _ _ _ h
  · exact yields_exponentPart _ _ _ h
  · obtain ⟨d, hd, h⟩ := Outcome.bind_eq_ok.1 h
    obtain ⟨rfl, -⟩ := Prod.mk.inj (Except.ok.inj h)
    exact Number.reflexive_double (isNaN_scaled hd)

theorem yields_fractionPart (negative : Bool) (significand : Nat) (start : Int) :
    Yields Number.Reflexive (fractionPart negative significand start) := by
  intro s n rest h
  unfold fractionPart at h
  split at h
  split at h
  · split at h
    · exact yields_afterDigits _ _ _ h
    · split at h
      · cases h
      · exact yields_afterDigits _ _ _ h
  · split at h
    · cases h
    · exact yields_afterDigits _ _ _ h

theorem yields_afterInteger (negative : Bool) (significand : Nat) :
    Yields Number.Reflexive (afterInteger negative significand) := by
  intro s n rest h
  unfold afterInteger at h
  split at h
  · exact yields_fractionPart _ _ _ h
  · exact yields_exponentPart _ _ _ h
  · exact yields_exponentPart _ _ _ h
  · split_ifs at h <;> obtain ⟨rfl, -⟩ := Prod.mk.inj (Except.ok.inj h)
    · exact Number.reflexive_integer _
    · exact Number.reflexive_double (Double.isNaN_neg (Double.isNaN_ofInt _))
    · exact Number.reflexive_integer _

/-- **A number that is read is not NaN.** -/
theorem yields_unsignedNumber (negative : Bool) :
    Yields Number.Reflexive (unsignedNumber negative) := by
  intro s n rest h
  unfold unsignedNumber at h
  split at h
  · cases h
  · split at h
    · split at h
      · cases h
      · exact yields_afterInteger _ _ h
    · exact yields_afterInteger _ _ h
  · split at h
    · cases h
    split at h
    simp only at h
    split at h
    · exact yields_afterInteger _ _ h
    · split at h
      · exact yields_fractionPart _ _ _ h
      · exact yields_afterDigits _ _ _ h

/-! ### Containers -/

section
variable {α σ : Type} {p : α → Prop} {q : σ → Prop}

theorem yields_moreItems {item : Reader α} (hi : Yields p item) :
    ∀ fuel, Yields (fun as => ∀ a ∈ as, p a) (moreItems item fuel) := by
  intro fuel
  induction fuel with
  | zero =>
    intro s as rest h
    cases h
  | succ fuel ih =>
    intro s as rest h
    unfold moreItems at h
    split at h
    · cases h
    · obtain ⟨rfl, -⟩ := Prod.mk.inj (Except.ok.inj h)
      simp
    · split at h
      · cases h
      · cases h
      · obtain ⟨⟨x, r⟩, hx, h⟩ := Outcome.bind_eq_ok.1 h
        obtain ⟨⟨xs, r'⟩, hxs, h⟩ := Outcome.bind_eq_ok.1 h
        obtain ⟨rfl, -⟩ := Prod.mk.inj (Except.ok.inj h)
        exact List.forall_mem_cons.2 ⟨hi hx, ih hxs⟩
    · cases h

theorem yields_items {item : Reader α} (hi : Yields p item) :
    Yields (fun as => ∀ a ∈ as, p a) (items item) := by
  intro s as rest h
  unfold items at h
  split at h
  · cases h
  · obtain ⟨rfl, -⟩ := Prod.mk.inj (Except.ok.inj h)
    simp
  · obtain ⟨⟨x, r⟩, hx, h⟩ := Outcome.bind_eq_ok.1 h
    obtain ⟨⟨xs, r'⟩, hxs, h⟩ := Outcome.bind_eq_ok.1 h
    obtain ⟨rfl, -⟩ := Prod.mk.inj (Except.ok.inj h)
    exact List.forall_mem_cons.2 ⟨hi hx, yields_moreItems hi _ hxs⟩

variable {field : String → σ → Reader σ} (hf : ∀ name state, q state → Yields q (field name state))

include hf

theorem yields_member {state : σ} (hstate : q state) : Yields q (member field state) := by
  intro s a rest h
  obtain ⟨⟨name, r⟩, -, h⟩ := Outcome.bind_eq_ok.1 h
  exact hf name state hstate h

/-- What every field of an object keeps is kept by all of them. -/
theorem yields_moreMembers :
    ∀ fuel {state : σ}, q state → Yields q (moreMembers field fuel state) := by
  intro fuel
  induction fuel with
  | zero =>
    intro state _ s a rest h
    cases h
  | succ fuel ih =>
    intro state hstate s a rest h
    unfold moreMembers at h
    split at h
    · cases h
    · obtain ⟨rfl, -⟩ := Prod.mk.inj (Except.ok.inj h)
      exact hstate
    · split at h
      · cases h
      · obtain ⟨⟨x, r⟩, hx, h⟩ := Outcome.bind_eq_ok.1 h
        exact ih (yields_member hf hstate hx) h
      · cases h
      · cases h
    · cases h

theorem yields_members {start : σ} (hstart : q start) : Yields q (members field start) := by
  intro s a rest h
  unfold members at h
  split at h
  · cases h
  · obtain ⟨rfl, -⟩ := Prod.mk.inj (Except.ok.inj h)
    exact hstart
  · obtain ⟨⟨x, r⟩, hx, h⟩ := Outcome.bind_eq_ok.1 h
    exact yields_moreMembers hf _ (yields_member hf hstart hx) h
  · cases h

end

/-! ### Values -/

namespace Members

variable {name : String} {value : Value} {ms : Members}

theorem mem_insert {m : String × Value} (h : m ∈ ms.insert name value) :
    m = (name, value) ∨ m ∈ ms := by
  induction ms with
  | nil => exact .inl (List.mem_singleton.1 h)
  | cons first ms ih =>
    obtain ⟨key, old⟩ := first
    rw [insert] at h
    split at h
    · rename_i hkey
      rcases List.mem_cons.1 h with hm | hm
      · exact .inl (hkey ▸ hm)
      · exact .inr (List.mem_cons_of_mem _ hm)
    · rcases List.mem_cons.1 h with hm | hm
      · exact .inr (hm ▸ List.mem_cons_self)
      · exact (ih hm).imp_right (List.mem_cons_of_mem _)

theorem nodup_insert (h : ms.names.Nodup) : (ms.insert name value).names.Nodup := by
  by_cases hname : name ∈ ms.names
  · rwa [names_insert_of_mem hname]
  · rw [names_insert_of_not_mem hname, ← List.concat_eq_append]
    exact h.concat hname

end Members

namespace Value

theorem proper_null : null.Proper := ⟨trivial, nofun⟩

theorem proper_bool (b : Bool) : (bool b).Proper := ⟨trivial, nofun⟩

theorem proper_string (s : String) : (string s).Proper := ⟨trivial, nofun⟩

theorem proper_number {n : Number} (h : n.Reflexive) : (number n).Proper := by
  refine ⟨trivial, fun m hm => ?_⟩
  cases hm
  exact h

end Value

theorem yields_word {p : Value → Prop} {v : Value} (hv : p v) (expected : List Char) :
    Yields p (fun s => do return (v, ← word expected s)) := by
  intro s a rest h
  obtain ⟨r, -, h⟩ := Outcome.bind_eq_ok.1 h
  obtain ⟨rfl, -⟩ := Prod.mk.inj (Except.ok.inj h)
  exact hv

/-- The arrays and objects in the value are nested at most so many levels deep. -/
inductive Value.Nested : Nat → Value → Prop where
  | null {depth : Nat} : Nested depth .null
  | bool {depth : Nat} (b : Bool) : Nested depth (.bool b)
  | number {depth : Nat} (n : Number) : Nested depth (.number n)
  | string {depth : Nat} (s : String) : Nested depth (.string s)
  | array {depth : Nat} {items : List Value} (h : ∀ item ∈ items, Nested depth item) :
      Nested (depth + 1) (.array items)
  | object {depth : Nat} {members : Members} (h : ∀ m ∈ members, Nested depth m.2) :
      Nested (depth + 1) (.object members)

theorem Value.Nested.mono {v : Value} {depth depth' : Nat} (h : v.Nested depth)
    (hle : depth ≤ depth') : v.Nested depth' := by
  induction h generalizing depth' with
  | null => exact .null
  | bool b => exact .bool b
  | number n => exact .number n
  | string s => exact .string s
  | @array depth items h ih =>
    obtain ⟨k, rfl⟩ := Nat.exists_eq_add_of_le hle
    rw [Nat.add_right_comm]
    exact .array fun item hitem => ih item hitem (Nat.le_add_right _ _)
  | @object depth members h ih =>
    obtain ⟨k, rfl⟩ := Nat.exists_eq_add_of_le hle
    rw [Nat.add_right_comm]
    exact .object fun m hm => ih m hm (Nat.le_add_right _ _)

/-- A proper value that does not nest deeper than a reader goes. -/
structure Value.Fits (depth : Nat) (v : Value) : Prop where
  proper : v.Proper
  nested : v.Nested depth

/-- Members of a value that fits. -/
structure Members.Fit (depth : Nat) (ms : Members) : Prop where
  names : ms.names.Nodup
  values : ∀ m ∈ ms, m.2.Fits depth

theorem Members.Fit.insert {depth : Nat} {ms : Members} {v : Value} (h : ms.Fit depth)
    (hv : v.Fits depth) (name : String) : (ms.insert name v).Fit depth := by
  refine ⟨nodup_insert h.names, fun m hm => ?_⟩
  rcases mem_insert hm with rfl | hm
  · exact hv
  · exact h.values m hm

theorem Members.Fit.object {depth : Nat} {ms : Members} (h : ms.Fit depth) :
    (Value.object ms).Fits (depth + 1) :=
  ⟨Value.proper_object.2 ⟨h.names, fun m hm => (h.values m hm).proper⟩,
    .object fun m hm => (h.values m hm).nested⟩

/-- The reader of the value of a member. -/
def memberValue (depth : Nat) (name : String) (acc : Members) : Reader Members := fun s => do
  let (v, rest) ← valueWithin depth (← colon s)
  return (acc.insert name v, rest)

/-- Members fit where their values do. -/
theorem yields_memberValues {depth : Nat} (h : Yields (Value.Fits depth) (valueWithin depth)) :
    Yields (Members.Fit depth) (members (memberValue depth) []) := by
  refine yields_members ?_ ⟨List.nodup_nil, nofun⟩
  intro name acc hacc s ms rest hread
  obtain ⟨r, -, hread⟩ := Outcome.bind_eq_ok.1 hread
  obtain ⟨⟨v, r'⟩, hv, hread⟩ := Outcome.bind_eq_ok.1 hread
  obtain ⟨rfl, -⟩ := Prod.mk.inj (Except.ok.inj hread)
  exact hacc.insert (h hv) name

/-- A value fits where the values one level down do. -/
theorem yields_valueWithin_of {depth : Nat}
    (hd : ∀ k, depth = k + 1 → Yields (Value.Fits k) (valueWithin k)) :
    Yields (Value.Fits depth) (valueWithin depth) := by
  intro s a rest h
  unfold valueWithin at h
  split at h
  · cases h
  · exact yields_word ⟨Value.proper_null, .null⟩ _ h
  · exact yields_word ⟨Value.proper_bool true, .bool true⟩ _ h
  · exact yields_word ⟨Value.proper_bool false, .bool false⟩ _ h
  · obtain ⟨⟨text, r⟩, -, h⟩ := Outcome.bind_eq_ok.1 h
    obtain ⟨rfl, -⟩ := Prod.mk.inj (Except.ok.inj h)
    exact ⟨Value.proper_string text, .string text⟩
  · obtain ⟨⟨n, r⟩, hn, h⟩ := Outcome.bind_eq_ok.1 h
    obtain ⟨rfl, -⟩ := Prod.mk.inj (Except.ok.inj h)
    exact ⟨Value.proper_number (yields_unsignedNumber _ hn), .number n⟩
  · split at h
    · cases h
    · rename_i k
      obtain ⟨⟨vs, r⟩, hitems, h⟩ := Outcome.bind_eq_ok.1 h
      obtain ⟨rfl, -⟩ := Prod.mk.inj (Except.ok.inj h)
      have hfit := yields_items (hd k rfl) hitems
      exact ⟨Value.proper_array.2 fun v hv => (hfit v hv).proper,
        .array fun v hv => (hfit v hv).nested⟩
  · split at h
    · cases h
    · rename_i k
      obtain ⟨⟨ms, r⟩, hmembers, h⟩ := Outcome.bind_eq_ok.1 h
      obtain ⟨rfl, -⟩ := Prod.mk.inj (Except.ok.inj h)
      exact (yields_memberValues (hd k rfl) hmembers).object
  · split at h
    · obtain ⟨⟨n, r⟩, hn, h⟩ := Outcome.bind_eq_ok.1 h
      obtain ⟨rfl, -⟩ := Prod.mk.inj (Except.ok.inj h)
      exact ⟨Value.proper_number (yields_unsignedNumber _ hn), .number n⟩
    · cases h

/-- **A value that is read is a proper one**, and nests no deeper than the reader goes. -/
theorem yields_valueWithin : ∀ depth, Yields (Value.Fits depth) (valueWithin depth) := by
  intro depth
  induction depth with
  | zero => exact yields_valueWithin_of nofun
  | succ depth ih => exact yields_valueWithin_of (by rintro k ⟨⟩; exact ih)

theorem proper_of_parse {s : String} {v : Value} (h : parse s = .ok v) : v.Proper := by
  obtain ⟨⟨v', rest⟩, hv, h⟩ := Outcome.bind_eq_ok.1 h
  dsimp only at h
  split at h
  · obtain rfl := Except.ok.inj h
    exact (yields_valueWithin maxDepth hv).proper
  · cases h

end Scaffold.Json
