import Scaffold.Proofs.Json.Pretty

/-!
# Records that are read

A record has a property as soon as each of its fields keeps it, whether the fields are given by name
or in order (`yields_record`). And a record that is printed with its fields by name is read back
field by field (`reads_record`), as long as each field reads what is printed for it.
-/

namespace Scaffold.Json

variable {α β σ : Type}

/-! ### What is read -/

section
variable {p : α → Prop} {q : σ → Prop} {fields : List (Field σ)} {state : σ}

theorem yields_mismatch (wanted : String) : Yields p (mismatch wanted) := by
  intro s a rest h
  unfold mismatch at h
  split at h
  · cases h
  · obtain ⟨_, -, h⟩ := Outcome.bind_eq_ok.1 h
    cases h
  · obtain ⟨_, -, h⟩ := Outcome.bind_eq_ok.1 h
    cases h
  · obtain ⟨_, -, h⟩ := Outcome.bind_eq_ok.1 h
    cases h
  · obtain ⟨_, -, h⟩ := Outcome.bind_eq_ok.1 h
    cases h
  · obtain ⟨_, -, h⟩ := Outcome.bind_eq_ok.1 h
    cases h
  · cases h
  · cases h
  · split at h
    · obtain ⟨_, -, h⟩ := Outcome.bind_eq_ok.1 h
      cases h
    · cases h

theorem yields_optional {reader : Reader α} (h : Yields p reader) :
    Yields (fun a? => ∀ a, a? = some a → p a) (optional reader) := by
  intro s a? rest hread
  unfold optional at hread
  split at hread
  · obtain ⟨_, -, hread⟩ := Outcome.bind_eq_ok.1 hread
    obtain ⟨rfl, -⟩ := Prod.mk.inj (Except.ok.inj hread)
    exact nofun
  · obtain ⟨⟨a, r⟩, ha, hread⟩ := Outcome.bind_eq_ok.1 hread
    obtain ⟨rfl, -⟩ := Prod.mk.inj (Except.ok.inj hread)
    intro a' heq
    obtain rfl := Option.some.inj heq
    exact h ha

theorem yields_list {item : Reader α} (h : Yields p item) :
    Yields (fun as => ∀ a ∈ as, p a) (list item) := by
  intro s as rest hread
  unfold list at hread
  split at hread
  · exact yields_items h hread
  · exact yields_mismatch (p := fun as => ∀ a ∈ as, p a) _ hread

/-- The values of an object that is read fit. -/
theorem yields_objectWithin (depth : Nat) : Yields (Members.Fit depth) (objectWithin depth) := by
  intro s ms rest hread
  unfold objectWithin at hread
  split at hread
  · exact yields_memberValues (yields_valueWithin depth) hread
  · exact yields_mismatch _ hread

/-- What a field makes of what it reads. -/
theorem yields_map {reader : Reader α} {r : β → Prop} (f : α → β) (h : Yields p reader)
    (hf : ∀ a, p a → r (f a)) :
    Yields r fun s => do
      let (a, rest) ← reader s
      return (f a, rest) := by
  intro s b rest hread
  obtain ⟨⟨a, rest'⟩, ha, hread⟩ := Outcome.bind_eq_ok.1 hread
  obtain ⟨rfl, -⟩ := Prod.mk.inj (Except.ok.inj hread)
  exact hf a (h ha)

theorem yields_recordMember (hfields : ∀ f ∈ fields, ∀ state, q state → Yields q (f.read state))
    (name : String) (hstate : q state) : Yields q (recordMember fields name state) := by
  intro s a rest hread
  unfold recordMember at hread
  split at hread
  · obtain ⟨_, -, hread⟩ := Outcome.bind_eq_ok.1 hread
    obtain ⟨_, -, hread⟩ := Outcome.bind_eq_ok.1 hread
    obtain ⟨rfl, -⟩ := Prod.mk.inj (Except.ok.inj hread)
    exact hstate
  · rename_i f hf
    split at hread
    · cases hread
    · obtain ⟨_, -, hread⟩ := Outcome.bind_eq_ok.1 hread
      exact hfields f (List.mem_of_find?_eq_some hf) state hstate hread

theorem yields_recordItems (wanted : String) (count : Nat)
    (hfields : ∀ f ∈ fields, ∀ state, q state → Yields q (f.read state)) (hstate : q state) :
    Yields q (recordItems wanted count fields state) := by
  induction fields generalizing count state with
  | nil =>
    intro s a rest hread
    obtain ⟨_, -, hread⟩ := Outcome.bind_eq_ok.1 hread
    obtain ⟨rfl, -⟩ := Prod.mk.inj (Except.ok.inj hread)
    exact hstate
  | cons f fields ih =>
    obtain ⟨hfirst, hmore⟩ := List.forall_mem_cons.1 hfields
    intro s a rest hread
    obtain ⟨next?, -, hread⟩ := Outcome.bind_eq_ok.1 hread
    split at hread
    · obtain ⟨⟨state', r⟩, hf, hread⟩ := Outcome.bind_eq_ok.1 hread
      exact ih (count + 1) hmore (hfirst state hstate hf) hread
    · split at hread
      · exact ih count hmore hstate hread
      · cases hread

/-- **A record has a property that its fields keep.** -/
theorem yields_record (name : String)
    (hfields : ∀ f ∈ fields, ∀ state, q state → Yields q (f.read state)) (hstate : q state) :
    Yields q (record name fields state) := by
  intro s a rest hread
  unfold record at hread
  dsimp only at hread
  split at hread
  · exact yields_recordItems _ 0 hfields hstate hread
  · exact yields_members (fun name state hq => yields_recordMember hfields name hq) hstate hread
  · exact yields_mismatch _ hread

end

/-! ### What is read back -/

section
variable {reader : Reader α} {spelled : List Char} {a : α} {level : Nat}

theorem reads_text (level : Nat) (s : String) :
    Reads text (prettyAt level (.string s)).toList s := by
  have hpasses : PassesSpace text := by
    intro s
    unfold text
    rw [skipSpace_skipSpace]
  rw [prettyAt, toList_stringText]
  refine .of hpasses (by decide) (by decide) fun rest _ => ?_
  rw [List.append_assoc, text, skipSpace_cons (by decide)]
  exact string_escaped s rest

/-- An object is not spelled like `null`. -/
theorem head?_object (level : Nat) (ms : Members) :
    (prettyAt level (.object ms)).toList.head? = some '\x7b' := by
  rw [prettyAt, block]
  split <;> simp

/-- What is spelled like an object is read as one, where it may be missing too. -/
theorem Reads.optional {ms : Members} (h : Reads reader (prettyAt level (.object ms)).toList a) :
    Reads (optional reader) (prettyAt level (.object ms)).toList (some a) := by
  have hhead := head?_object level ms
  generalize (prettyAt level (.object ms)).toList = spelled at h hhead
  refine ⟨h.begins, fun pad rest hpad hrest => ?_⟩
  have hskip := h.skipSpace_text hpad rest
  have hread := h.read [] rest nofun hrest
  obtain ⟨c, s, rfl, -, -⟩ := h.begins
  obtain rfl : c = '\x7b' := Option.some.inj hhead
  rw [List.nil_append, List.cons_append] at hread
  rw [Json.optional, hskip, List.cons_append]
  simp [hread, bind, Except.bind, pure, Except.pure]

/-- The items of an array are read by the reader of an item. -/
theorem reads_list {items : List Value} {as : List α}
    (h : List.Forall₂ (fun v a => Reads reader (prettyAt (level + 1) v).toList a) items as) :
    Reads (list reader) (prettyAt level (.array items)).toList as := by
  have hpasses : PassesSpace (list reader) := by
    intro s
    unfold list
    rw [skipSpace_skipSpace]
  refine .of_opened (c := '[') hpasses (by decide) (by decide) fun rest => ?_
  have htexts : List.Forall₂ (fun text a => Reads reader text.toList a)
      (prettyItems (level + 1) items) as := by
    rwa [prettyItems_eq, List.forall₂_map_left_iff]
  obtain ⟨body, hbody, hread⟩ := items_block htexts level rest
  refine ⟨body, by rw [prettyAt, hbody], ?_⟩
  rw [list, skipSpace_cons (by decide)]
  exact hread

/-- Members are read back where their values are. -/
theorem reads_objectWithin {depth : Nat} {ms : Members} (h : ms.Fit depth)
    (hl : (Value.object ms).Legible) (level : Nat) :
    Reads (objectWithin depth) (prettyAt level (.object ms)).toList ms := by
  have hpasses : PassesSpace (objectWithin depth) := by
    intro s
    unfold objectWithin
    rw [skipSpace_skipSpace]
  have hchain : Chain (memberValue depth) (level + 1) [] ms ms :=
    chain_memberValue h.names fun m hm => reads_prettyAt (h.values m hm).nested
      (h.values m hm).proper.names (Value.legible_object.1 hl m hm) _
  refine .of_opened (c := '\x7b') hpasses (by decide) (by decide) fun rest => ?_
  obtain ⟨body, hbody, hread⟩ := members_block hchain rest
  refine ⟨body, hbody, ?_⟩
  rw [objectWithin, skipSpace_cons (by decide)]
  exact hread

/-- What a field makes of what it reads back. -/
theorem Reads.map (h : Reads reader spelled a) (f : α → β) :
    Reads (fun s => do
      let (a, rest) ← reader s
      return (f a, rest)) spelled (f a) := by
  refine ⟨h.begins, fun pad rest hpad hrest => ?_⟩
  simp only [bind, Except.bind, h.read pad rest hpad hrest]
  rfl

end

section
variable {fields : List (Field σ)} {start state last : σ} {level : Nat} {name : String}
  {v : Value} {ms : Members}

/-- A field that has not been read is read from its member. -/
theorem chain_recordMember {f : Field σ} (hf : fields.find? (·.name == name) = some f)
    (hset : f.isSet start = false) (hread : Reads (f.read start) (prettyAt level v).toList state)
    (hmore : Chain (recordMember fields) level state ms last) :
    Chain (recordMember fields) level start ((name, v) :: ms) last := by
  refine .cons (fun rest hrest => ?_) hmore
  have hvalue := hread.read [' '] rest isPad_space hrest
  rw [List.singleton_append] at hvalue
  rw [recordMember, hf]
  dsimp only
  rw [hset, if_neg Bool.false_ne_true, behindColon, colon_cons]
  exact hvalue

/-- **A record is read back from its members.** -/
theorem reads_record (name : String) (h : Chain (recordMember fields) (level + 1) start ms last) :
    Reads (record name fields start) (prettyAt level (.object ms)).toList last := by
  have hpasses : PassesSpace (record name fields start) := by
    intro s
    unfold record
    rw [skipSpace_skipSpace]
  refine .of_opened (c := '\x7b') hpasses (by decide) (by decide) fun rest => ?_
  obtain ⟨body, hbody, hread⟩ := members_block h rest
  refine ⟨body, hbody, ?_⟩
  rw [record, skipSpace_cons (by decide)]
  exact hread

end

end Scaffold.Json
