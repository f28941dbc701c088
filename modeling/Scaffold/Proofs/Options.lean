import Scaffold.FileOptions
import Scaffold.Proofs.Outcome
import Scaffold.Proofs.Text

/-!
# Options that are read back

Every option is read back from its written form, array strategies as far as they were read before
(`ArrayStrategy.parse_text`). So overrides are laid over options as over the members that the options
were read from (`layer_eq_ofMembers`), and laid over them a second time they change nothing
(`layer_again`).
-/

namespace Scaffold

namespace ArrayStrategy

theorem parse_text_key {field : List Char} (hne : field ≠ []) (ht : Text.trim field = field) :
    parse (text (.key (String.ofList field))) = .ok (.key (String.ofList field)) := by
  have htext : (text (.key (String.ofList field))).toList =
      ['k', 'e', 'y', '<'] ++ (field ++ ['>']) := by
    simp [text]
  have htrim : Text.trimmed (text (.key (String.ofList field))) =
      text (.key (String.ofList field)) := by
    rw [Text.trimmed, Text.trim_eq_self, String.ofList_toList]
    · rw [htext]
      show ∀ c ∈ some 'k', Text.isBlank c = false
      exact fun c hc => Option.some.inj hc ▸ rfl
    · rw [htext, ← List.append_assoc, List.getLast?_concat]
      exact fun c hc => Option.some.inj hc ▸ rfl
  have hfield : field? (text (.key (String.ofList field))).toList = some field := by
    rw [htext, field?, Text.stripStart?_append]
    simp only [bind, Option.bind, Text.stripEnd?_append, ht]
    simp [hne]
  have hhead : (text (.key (String.ofList field))).toList.head? = some 'k' := by rw [htext]; rfl
  rw [parse, htrim]
  generalize text (.key (String.ofList field)) = s at hfield hhead ⊢
  split
  · exact absurd hhead (by decide)
  · exact absurd hhead (by decide)
  · exact absurd hhead (by decide)
  · exact absurd hhead (by decide)
  · rw [hfield]

/-- A strategy that was read is read back from its written form. -/
theorem parse_text {s : String} {a : ArrayStrategy} (h : parse s = .ok a) :
    parse a.text = .ok a := by
  rw [parse] at h
  split at h
  · obtain rfl := Except.ok.inj h
    rfl
  · obtain rfl := Except.ok.inj h
    rfl
  · obtain rfl := Except.ok.inj h
    rfl
  · obtain rfl := Except.ok.inj h
    rfl
  · cases hfield : field? (Text.trimmed s).toList with
    | none => simp [hfield] at h
    | some field =>
      simp only [hfield] at h
      obtain rfl := Except.ok.inj h
      obtain ⟨rest, -, hrest⟩ := Option.bind_eq_some_iff.1 hfield
      obtain ⟨inner, -, hinner⟩ := Option.bind_eq_some_iff.1 hrest
      dsimp only at hinner
      split at hinner
      · cases hinner
      · rename_i hne
        obtain rfl := Option.some.inj hinner
        exact parse_text_key (by simpa using hne) (Text.trim_trim inner)

end ArrayStrategy

namespace Json.Members

variable {name : String} {ms a b : Members}

theorem get?_insertAll_of_not_mem (h : name ∉ ms.names) (a : Members) :
    (a.insertAll ms).get? name = a.get? name := by
  induction ms generalizing a with
  | nil => rfl
  | cons m ms ih =>
    obtain ⟨key, value⟩ := m
    obtain ⟨hkey, hms⟩ := not_or.1 (fun hm => h (List.mem_cons.2 hm))
    exact (ih hms (a.insert key value)).trans (get?_insert_of_ne a value hkey)

/-- A name that is among the inserted members has the same value whatever stood there. -/
theorem get?_insertAll_of_mem (h : name ∈ ms.names) (a b : Members) :
    (a.insertAll ms).get? name = (b.insertAll ms).get? name := by
  induction ms generalizing a b with
  | nil => cases h
  | cons m ms ih =>
    obtain ⟨key, value⟩ := m
    by_cases hms : name ∈ names ms
    · exact ih hms _ _
    · obtain rfl : name = key := (List.mem_cons.1 h).resolve_right hms
      have hlast := fun c : Members => get?_insertAll_of_not_mem hms (c.insert name value)
      exact ((hlast a).trans (get?_insert_self a name value)).trans
        ((hlast b).trans (get?_insert_self b name value)).symm

end Json.Members

namespace Options

/-! ### Written forms -/

@[simp] theorem decodeOptional_optional (s? : Option String) :
    decodeOptional (optional s?) = .ok s? := by
  cases s? <;> rfl

@[simp] theorem decodeStrings_strings (ss : List String) : decodeStrings (strings ss) = .ok ss := by
  show (ss.map Json.Value.string).mapM decodeString = .ok ss
  induction ss with
  | nil => rfl
  | cons s ss ih => simp [List.mapM_cons, ih, decodeString, bind, Except.bind, pure, Except.pure]

@[simp] theorem decodeAppend_name (s : AppendStrategy) : decodeAppend (.string s.name) = .ok s := by
  cases s <;> rfl

@[simp] theorem decodeConvention_name (c : Convention) :
    decodeConvention (.string c.name) = .ok c := by
  cases c <;> rfl

/-- An array strategy that was read is read back. -/
theorem decodeArrays_text {v : Json.Value} {a : ArrayStrategy} (h : decodeArrays v = .ok a) :
    decodeArrays (.string a.text) = .ok a := by
  obtain ⟨s, -, h⟩ := Outcome.bind_eq_ok.1 h
  split at h
  · rename_i hparse
    obtain rfl := Except.ok.inj h
    rw [decodeArrays, decodeString]
    simp only [bind, Except.bind, ArrayStrategy.parse_text hparse]
    rfl
  · cases h

/-! ### Reading options -/

/-- The members give the options, field by field. -/
structure Decodes (ms : Json.Members) (o : Options) : Prop where
  commentSyntax :
    field ms "commentSyntax" decodeOptional default.commentSyntax = .ok o.commentSyntax
  startMarker : field ms "startRegionMarker" decodeString default.startMarker = .ok o.startMarker
  endMarker : field ms "endRegionMarker" decodeString default.endMarker = .ok o.endMarker
  optionMarker : field ms "optionMarker" decodeString default.optionMarker = .ok o.optionMarker
  annotate : field ms "annotate" decodeBool default.annotate = .ok o.annotate
  annotationTemplate : field ms "annotationTemplate" decodeOptional default.annotationTemplate =
    .ok o.annotationTemplate
  appendStrategy : field ms "appendStrategy" decodeAppend default.appendStrategy =
    .ok o.appendStrategy
  arrayStrategy : field ms "arrayAppendStrategy" decodeArrays default.arrayStrategy =
    .ok o.arrayStrategy
  processors : field ms "processors" decodeStrings default.processors = .ok o.processors
  appenders : field ms "appenders" decodeStrings default.appenders = .ok o.appenders
  format : field ms "format" decodeOptional default.format = .ok o.format
  folderNaming : field ms "folderNaming" decodeConvention default.folderNaming = .ok o.folderNaming
  fileNaming : field ms "fileNaming" decodeConvention default.fileNaming = .ok o.fileNaming

theorem ofMembers_eq_ok {ms : Json.Members} {o : Options} :
    ofMembers ms = .ok o ↔ Decodes ms o := by
  constructor
  · intro h
    obtain ⟨_, h1, h⟩ := Outcome.bind_eq_ok.1 h
    obtain ⟨_, h2, h⟩ := Outcome.bind_eq_ok.1 h
    obtain ⟨_, h3, h⟩ := Outcome.bind_eq_ok.1 h
    obtain ⟨_, h4, h⟩ := Outcome.bind_eq_ok.1 h
    obtain ⟨_, h5, h⟩ := Outcome.bind_eq_ok.1 h
    obtain ⟨_, h6, h⟩ := Outcome.bind_eq_ok.1 h
    obtain ⟨_, h7, h⟩ := Outcome.bind_eq_ok.1 h
    obtain ⟨_, h8, h⟩ := Outcome.bind_eq_ok.1 h
    obtain ⟨_, h9, h⟩ := Outcome.bind_eq_ok.1 h
    obtain ⟨_, h10, h⟩ := Outcome.bind_eq_ok.1 h
    obtain ⟨_, h11, h⟩ := Outcome.bind_eq_ok.1 h
    obtain ⟨_, h12, h⟩ := Outcome.bind_eq_ok.1 h
    obtain ⟨_, h13, h⟩ := Outcome.bind_eq_ok.1 h
    obtain rfl := Except.ok.inj h
    exact ⟨h1, h2, h3, h4, h5, h6, h7, h8, h9, h10, h11, h12, h13⟩
  · rintro ⟨h1, h2, h3, h4, h5, h6, h7, h8, h9, h10, h11, h12, h13⟩
    simp only [ofMembers, h1, h2, h3, h4, h5, h6, h7, h8, h9, h10, h11, h12, h13, bind, Except.bind]
    rfl

/-- An array strategy that was read is read back, as is the one that holds by default. -/
theorem Decodes.arrays_again {ms : Json.Members} {o : Options} (h : Decodes ms o) :
    decodeArrays (.string o.arrayStrategy.text) = .ok o.arrayStrategy := by
  have harrays := h.arrayStrategy
  rw [field] at harrays
  split at harrays
  · exact decodeArrays_text harrays
  · rw [← Except.ok.inj harrays]
    rfl

/-- A field that overrides give is read from them whatever they are laid over, and another one is
read back from its written form. -/
theorem field_insertAll {α : Type} {a : Json.Members} (o : Options) {name : String}
    {decode : Json.Value → Decoded α} {fallback x : α} {v : Json.Value}
    (ha : field a name decode fallback = .ok x) (ho : o.toMembers.get? name = some v)
    (hv : decode v = .ok x) (ms : Json.Members) :
    field (o.toMembers.insertAll ms) name decode fallback =
      field (a.insertAll ms) name decode fallback := by
  by_cases hname : name ∈ ms.names
  · rw [field, field, Json.Members.get?_insertAll_of_mem hname o.toMembers a]
  · have hstays : field (a.insertAll ms) name decode fallback = field a name decode fallback := by
      rw [field, field, Json.Members.get?_insertAll_of_not_mem hname]
    rw [hstays, ha, field, Json.Members.get?_insertAll_of_not_mem hname, ho]
    exact hv

/-- **Overrides are laid over options as over the members that the options were read from**: that
the options are written and read back meanwhile is not seen. -/
theorem layer_eq_ofMembers {a : Json.Members} {o : Options} (h : ofMembers a = .ok o)
    (ms : Json.Members) : o.layer ms = ofMembers (a.insertAll ms) := by
  rw [layer]
  split
  · rename_i hempty
    rw [List.isEmpty_iff.1 hempty]
    exact h.symm
  · have hd := ofMembers_eq_ok.1 h
    simp only [ofMembers, field_insertAll o hd.commentSyntax rfl (by simp),
      field_insertAll o hd.startMarker rfl rfl, field_insertAll o hd.endMarker rfl rfl,
      field_insertAll o hd.optionMarker rfl rfl, field_insertAll o hd.annotate rfl rfl,
      field_insertAll o hd.annotationTemplate rfl (by simp),
      field_insertAll o hd.appendStrategy rfl (by simp),
      field_insertAll o hd.arrayStrategy rfl hd.arrays_again,
      field_insertAll o hd.processors rfl (by simp), field_insertAll o hd.appenders rfl (by simp),
      field_insertAll o hd.format rfl (by simp), field_insertAll o hd.folderNaming rfl (by simp),
      field_insertAll o hd.fileNaming rfl (by simp)]

/-- The names of the options. -/
def names : List String := default.toMembers.names

/-- Options are read from the members with their names, and from no others. -/
theorem ofMembers_congr {a b : Json.Members} (h : ∀ name ∈ names, a.get? name = b.get? name) :
    ofMembers a = ofMembers b := by
  have hfield : ∀ name ∈ names, ∀ {α : Type} (decode : Json.Value → Decoded α) (fallback : α),
      field a name decode fallback = field b name decode fallback := by
    intro name hname α decode fallback
    rw [field, field, h name hname]
  simp only [names, default, toMembers, Json.Members.names, List.map_cons, List.map_nil,
    List.forall_mem_cons] at hfield
  obtain ⟨h1, h2, h3, h4, h5, h6, h7, h8, h9, h10, h11, h12, h13, -⟩ := hfield
  simp only [ofMembers, h1, h2, h3, h4, h5, h6, h7, h8, h9, h10, h11, h12, h13]

/-- **Overrides that are laid over options again change nothing.** -/
theorem layer_again {o o' : Options} {overrides : Json.Members} (h : o.layer overrides = .ok o') :
    o'.layer overrides = .ok o' := by
  have hlayer := h
  rw [layer] at hlayer
  split at hlayer
  · obtain rfl := Except.ok.inj hlayer
    exact h
  · rw [layer_eq_ofMembers hlayer, ← hlayer]
    refine ofMembers_congr fun name _ => ?_
    by_cases hname : name ∈ overrides.names
    · exact Json.Members.get?_insertAll_of_mem hname _ _
    · exact Json.Members.get?_insertAll_of_not_mem hname _

theorem withRuntime_again {o o' : Options} {overrides : Json.Members}
    (h : o.withRuntime overrides = .ok o') : o'.withRuntime overrides = .ok o' :=
  Outcome.mapError_eq_ok.2 (layer_again (Outcome.mapError_eq_ok.1 h))

end Options

end Scaffold
