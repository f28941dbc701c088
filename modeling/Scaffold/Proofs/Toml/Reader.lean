import Scaffold.Proofs.Toml.Value
import Scaffold.Toml.Reader

/-!
# What is read as TOML

Integers are read only within 64 bits and date-times only if they are valid, and no table that a
document builds up takes a name twice, however its members come in: on lines of their own, between
braces, by dotted keys or by headers. So a document spells a sound table (`sound_of_parse?`).
-/

namespace Scaffold.Toml

/-! ### Tables under construction -/

/-- No table takes a name twice, and all values are sound. -/
inductive Item.Sound : Item → Prop where
  | value {v : Value} (h : v.Sound) : Sound (.value v)
  | table {origin : Origin} {members : Outline} (hn : (members.map Prod.fst).Nodup)
      (h : ∀ m ∈ members, Sound m.2) : Sound (.table origin members)
  | tables {elements : List Outline} (hn : ∀ o ∈ elements, (o.map Prod.fst).Nodup)
      (h : ∀ o ∈ elements, ∀ m ∈ o, Sound m.2) : Sound (.tables elements)

namespace Outline

/-- No name stands twice, and what the names stand for is sound. -/
structure Sound (o : Outline) : Prop where
  names : (o.map Prod.fst).Nodup
  items : ∀ m ∈ o, m.2.Sound

end Outline

theorem Item.sound_table {origin : Origin} {members : Outline} :
    (Item.table origin members).Sound ↔ Outline.Sound members := by
  constructor
  · rintro ⟨⟩
    constructor <;> assumption
  · exact fun h => .table h.names h.items

theorem Item.sound_tables {elements : List Outline} :
    (Item.tables elements).Sound ↔ ∀ o ∈ elements, Outline.Sound o := by
  constructor
  · rintro ⟨⟩
    rename_i hn h
    exact fun o ho => ⟨hn o ho, h o ho⟩
  · exact fun h => .tables (fun o ho => (h o ho).names) fun o ho => (h o ho).items

namespace Outline

section
variable {o o' : Outline} {k : String} {item : Item}

theorem sound_nil : Sound [] := ⟨List.nodup_nil, nofun⟩

theorem mem_set {m : String × Item} (h : m ∈ set k item o) : m = (k, item) ∨ m ∈ o := by
  induction o with
  | nil => exact .inl (List.mem_singleton.1 h)
  | cons first o ih =>
    obtain ⟨other, old⟩ := first
    rw [set] at h
    split at h
    · exact (List.mem_cons.1 h).imp_right (List.mem_cons_of_mem _)
    · rcases List.mem_cons.1 h with rfl | hm
      · exact .inr List.mem_cons_self
      · exact (ih hm).imp_right (List.mem_cons_of_mem _)

theorem nodup_set (h : (o.map Prod.fst).Nodup) : ((set k item o).map Prod.fst).Nodup := by
  induction o with
  | nil => exact List.nodup_singleton k
  | cons first o ih =>
    obtain ⟨other, old⟩ := first
    obtain ⟨hother, ho⟩ := List.nodup_cons.1 h
    rw [set]
    split
    · rename_i heq
      exact List.nodup_cons.2 ⟨heq ▸ hother, ho⟩
    · rename_i hne
      refine List.nodup_cons.2 ⟨fun hm => ?_, ih ho⟩
      obtain ⟨m, hm, hname⟩ := List.mem_map.1 hm
      rcases mem_set hm with rfl | hold
      · exact hne hname.symm
      · exact hother (List.mem_map.2 ⟨m, hold, hname⟩)

theorem Sound.set (h : Sound o) (hitem : item.Sound) : Sound (o.set k item) := by
  refine ⟨nodup_set h.names, fun m hm => ?_⟩
  rcases mem_set hm with rfl | hm
  · exact hitem
  · exact h.items m hm

theorem Sound.erase (h : Sound o) : Sound (erase k o) :=
  ⟨h.names.sublist (List.filter_sublist.map Prod.fst),
    fun m hm => h.items m (List.mem_of_mem_filter hm)⟩

theorem Sound.get? (h : Sound o) (hk : get? k o = some item) : item.Sound := by
  obtain ⟨before, after, rfl, -⟩ := List.lookup_eq_some_iff.1 hk
  exact h.items (k, item) (by simp)

/-- A change to a table below keeps everything sound if it keeps the table sound. -/
theorem sound_change {byDots : Bool} {f : Origin → Outline → Option Outline}
    (hf : ∀ origin o o', Sound o → f origin o = some o' → Sound o') {path : List String}
    {origin : Origin} (h : Sound o) (hc : change byDots f path origin o = some o') : Sound o' := by
  induction path generalizing o o' origin with
  | nil => exact hf origin o o' h hc
  | cons k path ih =>
    rw [change] at hc
    split at hc
    · obtain ⟨inner, hinner, hc⟩ := Option.bind_eq_some_iff.1 hc
      obtain rfl := Option.some.inj hc
      exact h.set (Item.sound_table.2 (ih sound_nil hinner))
    · cases hc
    · rename_i hk
      split at hc
      · cases hc
      · obtain ⟨inner, hinner, hc⟩ := Option.bind_eq_some_iff.1 hc
        obtain rfl := Option.some.inj hc
        exact h.set (Item.sound_table.2 (ih (Item.sound_table.1 (h.get? hk)) hinner))
    · rename_i elements hk
      have helements := Item.sound_tables.1 (h.get? hk)
      split at hc
      · cases hc
      · split at hc
        · cases hc
        · rename_i last hlast
          obtain ⟨inner, hinner, hc⟩ := Option.bind_eq_some_iff.1 hc
          obtain rfl := Option.some.inj hc
          refine h.set (Item.sound_tables.2 fun e he => ?_)
          rcases List.mem_append.1 he with he | he
          · exact helements e (List.dropLast_subset _ he)
          · obtain rfl := List.mem_singleton.1 he
            exact ih (helements last (List.mem_of_getLast? hlast)) hinner

theorem sound_addMember {path : List String} (h : Sound o) (hitem : item.Sound)
    (ha : addMember path k item o = some o') : Sound o' := by
  refine sound_change (fun origin members members' hm hadd => ?_) h ha
  split at hadd
  · cases hadd
  · split at hadd
    · cases hadd
    · obtain rfl := Option.some.inj hadd
      exact hm.set hitem

theorem sound_openTable {path : List String} (h : Sound o) (ho : openTable path k o = some o') :
    Sound o' := by
  refine sound_change (fun origin members members' hm hopen => ?_) h ho
  split at hopen
  · obtain rfl := Option.some.inj hopen
    exact hm.set (Item.sound_table.2 sound_nil)
  · rename_i hk
    obtain rfl := Option.some.inj hopen
    exact hm.erase.set (Item.sound_table.2 (Item.sound_table.1 (hm.get? hk)))
  · cases hopen

theorem sound_openElement {path : List String} (h : Sound o)
    (ho : openElement path k o = some o') : Sound o' := by
  refine sound_change (fun origin members members' hm hopen => ?_) h ho
  split at hopen
  · obtain rfl := Option.some.inj hopen
    refine hm.set (Item.sound_tables.2 fun e he => ?_)
    obtain rfl := List.mem_singleton.1 he
    exact sound_nil
  · rename_i hk
    obtain rfl := Option.some.inj hopen
    refine hm.set (Item.sound_tables.2 fun e he => ?_)
    rcases List.mem_append.1 he with he | he
    · exact Item.sound_tables.1 (hm.get? hk) e he
    · obtain rfl := List.mem_singleton.1 he
      exact sound_nil
  · cases hopen

theorem sound_addBelow {header path : List String} (h : Sound o) (hitem : item.Sound)
    (ha : addBelow header path k item o = some o') : Sound o' :=
  sound_change (fun _ _ _ hm hadd => sound_addMember hm hitem hadd) h ha

end

/-! ### Finished tables -/

theorem toTable_eq (o : Outline) : toTable o = o.map fun m => (m.1, itemValue m.2) := by
  induction o with
  | nil => rfl
  | cons m o ih => rw [toTable, ih, List.map_cons]

theorem elementValues_eq (elements : List Outline) :
    elementValues elements = elements.map fun o => .table (toTable o) := by
  induction elements with
  | nil => rfl
  | cons o elements ih => rw [elementValues, ih, List.map_cons]

theorem sound_table_toTable {o : Outline} (hn : (o.map Prod.fst).Nodup)
    (h : ∀ m ∈ o, (itemValue m.2).Sound) : (Value.table (toTable o)).Sound := by
  rw [toTable_eq]
  refine .table ?_ fun m hm => ?_
  · rwa [List.map_map]
  · obtain ⟨first, hfirst, rfl⟩ := List.mem_map.1 hm
    exact h first hfirst

theorem sound_itemValue {item : Item} (h : item.Sound) : (itemValue item).Sound := by
  induction h with
  | value h => exact h
  | table hn _ ih => exact sound_table_toTable hn ih
  | tables hn _ ih =>
    rw [itemValue, elementValues_eq]
    refine .array fun v hv => ?_
    obtain ⟨o, ho, rfl⟩ := List.mem_map.1 hv
    exact sound_table_toTable (hn o ho) (ih o ho)

theorem Sound.toTable {o : Outline} (h : Sound o) : (Value.table (toTable o)).Sound :=
  sound_table_toTable h.names fun m hm => sound_itemValue (h.items m hm)

end Outline

namespace Reader

open Lexeme

/-- What a reader reads has a property. -/
def Yields {α : Type} (p : α → Prop) (reader : List Char → Option (α × List Char)) : Prop :=
  ∀ ⦃s a rest⦄, reader s = some (a, rest) → p a

/-! ### Scalars -/

section
variable {s : List Char} {v : Value}

theorem sound_based? {base : Nat} (h : based? base s = some v) : v.Sound := by
  obtain ⟨digits, -, h⟩ := Option.bind_eq_some_iff.1 h
  dsimp only at h
  split at h
  · rename_i hrange
    obtain rfl := Option.some.inj h
    exact .integer hrange
  · cases h

theorem sound_float? {negative : Bool} (h : float? negative s = some v) : v.Sound := by
  obtain ⟨whole, -, h⟩ := Option.bind_eq_some_iff.1 h
  dsimp only at h
  split at h
  all_goals
    obtain ⟨places, -, h⟩ := Option.bind_eq_some_iff.1 h
    split at h
    all_goals
      obtain ⟨e, -, h⟩ := Option.bind_eq_some_iff.1 h
      split at h
      · obtain rfl := Option.some.inj h
        exact .float _
      · cases h

theorem sound_unsigned? {negative : Bool} (h : unsigned? negative s = some v) : v.Sound := by
  unfold unsigned? at h
  split at h
  · obtain rfl := Option.some.inj h
    exact .float _
  · obtain rfl := Option.some.inj h
    exact .float _
  · split at h
    · exact sound_float? h
    · obtain ⟨digits, -, h⟩ := Option.bind_eq_some_iff.1 h
      dsimp only at h
      generalize (if negative = true then -(number 10 digits : Int) else number 10 digits) = i at h
      split at h
      · rename_i hrange
        obtain rfl := Option.some.inj h
        exact .integer hrange
      · cases h

theorem sound_scalarValue? (h : scalarValue? s = some v) : v.Sound := by
  unfold scalarValue? at h
  split at h
  · exact sound_unsigned? h
  · exact sound_unsigned? h
  · exact sound_based? h
  · exact sound_based? h
  · exact sound_based? h
  · split at h
    · obtain rfl := Option.some.inj h
      exact .boolean true
    · obtain rfl := Option.some.inj h
      exact .boolean false
    · split at h
      · rename_i hd
        obtain rfl := Option.some.inj h
        exact .datetime (Datetime.valid_of_parse? hd)
      · exact sound_unsigned? h

theorem yields_scalar? : Yields Value.Sound scalar? := by
  intro s v rest h
  unfold scalar? at h
  dsimp only at h
  split at h
  · split at h
    · obtain ⟨w, hw, h⟩ := Option.bind_eq_some_iff.1 h
      obtain ⟨rfl, -⟩ := Prod.mk.inj (Option.some.inj h)
      exact sound_scalarValue? hw
    · obtain ⟨w, hw, h⟩ := Option.bind_eq_some_iff.1 h
      obtain ⟨rfl, -⟩ := Prod.mk.inj (Option.some.inj h)
      exact sound_scalarValue? hw
  · obtain ⟨w, hw, h⟩ := Option.bind_eq_some_iff.1 h
    obtain ⟨rfl, -⟩ := Prod.mk.inj (Option.some.inj h)
    exact sound_scalarValue? hw

end

/-! ### Values -/

/-- What is read with so much fuel is sound. -/
structure Sound (fuel : Nat) : Prop where
  value : ∀ depth, Yields Item.Sound (value fuel depth)
  items : ∀ depth, Yields (fun vs => ∀ v ∈ vs, v.Sound) (items fuel depth)
  members : ∀ depth acc, Outline.Sound acc → Yields Outline.Sound (members fuel depth acc)

theorem yields_value {fuel : Nat} (h : Sound fuel) (depth : Nat) :
    Yields Item.Sound (value (fuel + 1) depth) := by
  intro s item rest hread
  unfold value at hread
  split at hread
  · obtain ⟨⟨text, r⟩, -, hread⟩ := Option.bind_eq_some_iff.1 hread
    obtain ⟨rfl, -⟩ := Prod.mk.inj (Option.some.inj hread)
    exact .value (.string _)
  · obtain ⟨⟨text, r⟩, -, hread⟩ := Option.bind_eq_some_iff.1 hread
    obtain ⟨rfl, -⟩ := Prod.mk.inj (Option.some.inj hread)
    exact .value (.string _)
  · split at hread
    · cases hread
    · obtain ⟨⟨vs, r⟩, hvs, hread⟩ := Option.bind_eq_some_iff.1 hread
      obtain ⟨rfl, -⟩ := Prod.mk.inj (Option.some.inj hread)
      exact .value (.array (h.items _ hvs))
  · split at hread
    · cases hread
    · obtain ⟨r, -, hread⟩ := Option.bind_eq_some_iff.1 hread
      obtain ⟨⟨o, r⟩, ho, hread⟩ := Option.bind_eq_some_iff.1 hread
      obtain ⟨rfl, -⟩ := Prod.mk.inj (Option.some.inj hread)
      exact Item.sound_table.2 (h.members _ _ Outline.sound_nil ho)
  · obtain ⟨⟨v, r⟩, hv, hread⟩ := Option.bind_eq_some_iff.1 hread
    obtain ⟨rfl, -⟩ := Prod.mk.inj (Option.some.inj hread)
    exact .value (yields_scalar? hv)

theorem yields_items {fuel : Nat} (h : Sound fuel) (depth : Nat) :
    Yields (fun vs => ∀ v ∈ vs, v.Sound) (items (fuel + 1) depth) := by
  intro s vs rest hread
  unfold items at hread
  obtain ⟨r, -, hread⟩ := Option.bind_eq_some_iff.1 hread
  dsimp only at hread
  split at hread
  · obtain ⟨rfl, -⟩ := Prod.mk.inj (Option.some.inj hread)
    nofun
  · obtain ⟨⟨item, r⟩, hitem, hread⟩ := Option.bind_eq_some_iff.1 hread
    have hv := Outline.sound_itemValue (h.value depth hitem)
    obtain ⟨r, -, hread⟩ := Option.bind_eq_some_iff.1 hread
    dsimp only at hread
    split at hread
    · obtain ⟨⟨more, r⟩, hmore, hread⟩ := Option.bind_eq_some_iff.1 hread
      obtain ⟨rfl, -⟩ := Prod.mk.inj (Option.some.inj hread)
      exact List.forall_mem_cons.2 ⟨hv, h.items depth hmore⟩
    · obtain ⟨rfl, -⟩ := Prod.mk.inj (Option.some.inj hread)
      exact List.forall_mem_singleton.2 hv
    · cases hread

theorem yields_members {fuel : Nat} (h : Sound fuel) (depth : Nat) {acc : Outline}
    (hacc : acc.Sound) : Yields Outline.Sound (members (fuel + 1) depth acc) := by
  intro s o rest hread
  unfold members at hread
  split at hread
  · obtain ⟨rfl, -⟩ := Prod.mk.inj (Option.some.inj hread)
    exact hacc
  · obtain ⟨⟨path, k, r⟩, -, hread⟩ := Option.bind_eq_some_iff.1 hread
    dsimp only at hread
    split at hread
    · obtain ⟨⟨item, r⟩, hitem, hread⟩ := Option.bind_eq_some_iff.1 hread
      obtain ⟨acc', hadd, hread⟩ := Option.bind_eq_some_iff.1 hread
      have hacc' := Outline.sound_addMember hacc (h.value depth hitem) hadd
      obtain ⟨r, -, hread⟩ := Option.bind_eq_some_iff.1 hread
      split at hread
      · obtain ⟨r, -, hread⟩ := Option.bind_eq_some_iff.1 hread
        exact h.members depth acc' hacc' hread
      · obtain ⟨rfl, -⟩ := Prod.mk.inj (Option.some.inj hread)
        exact hacc'
      · cases hread
    · cases hread

theorem sound (fuel : Nat) : Sound fuel := by
  induction fuel with
  | zero => exact ⟨fun _ => nofun, fun _ => nofun, fun _ _ _ => nofun⟩
  | succ fuel ih => exact ⟨yields_value ih, yields_items ih, fun depth _ => yields_members ih depth⟩

/-! ### Documents -/

theorem sound_line? {s rest : List Char} {path : List String} {k : String} {item : Item}
    (h : line? s = some (path, k, item, rest)) : item.Sound := by
  obtain ⟨⟨path', k', r⟩, -, h⟩ := Option.bind_eq_some_iff.1 h
  dsimp only at h
  split at h
  · obtain ⟨⟨item', r⟩, hitem, h⟩ := Option.bind_eq_some_iff.1 h
    simp only [Option.pure_def, Option.some.injEq, Prod.mk.injEq] at h
    obtain ⟨-, -, rfl, -⟩ := h
    exact (sound _).value maxDepth hitem
  · cases h

/-- The lines of a document keep the tables sound that were read before them. -/
theorem sound_lines {fuel : Nat} {header : List String} {o o' : Outline} {s : List Char}
    (h : o.Sound) (hread : lines fuel header o s = some o') : o'.Sound := by
  induction fuel generalizing header o s with
  | zero => cases hread
  | succ fuel ih =>
    unfold lines at hread
    obtain ⟨s₁, -, hread⟩ := Option.bind_eq_some_iff.1 hread
    split at hread
    · obtain rfl := Option.some.inj hread
      exact h
    · obtain ⟨⟨path, k, r⟩, -, hread⟩ := Option.bind_eq_some_iff.1 hread
      dsimp only at hread
      split at hread
      · obtain ⟨o₁, ho, hread⟩ := Option.bind_eq_some_iff.1 hread
        obtain ⟨r, -, hread⟩ := Option.bind_eq_some_iff.1 hread
        exact ih (Outline.sound_openElement h ho) hread
      · cases hread
    · obtain ⟨⟨path, k, r⟩, -, hread⟩ := Option.bind_eq_some_iff.1 hread
      dsimp only at hread
      split at hread
      · obtain ⟨o₁, ho, hread⟩ := Option.bind_eq_some_iff.1 hread
        obtain ⟨r, -, hread⟩ := Option.bind_eq_some_iff.1 hread
        exact ih (Outline.sound_openTable h ho) hread
      · cases hread
    · obtain ⟨⟨path, k, item, r⟩, hline, hread⟩ := Option.bind_eq_some_iff.1 hread
      obtain ⟨o₁, ho, hread⟩ := Option.bind_eq_some_iff.1 hread
      obtain ⟨r, -, hread⟩ := Option.bind_eq_some_iff.1 hread
      exact ih (Outline.sound_addBelow h (sound_line? hline) ho) hread

/-- **A document spells a sound table.** -/
theorem sound_of_parse? {s : String} {t : Table} (h : parse? s = some t) :
    (Value.table t).Sound := by
  obtain ⟨o, ho, h⟩ := Option.bind_eq_some_iff.1 h
  obtain rfl := Option.some.inj h
  exact (sound_lines Outline.sound_nil ho).toTable

end Reader
end Scaffold.Toml
