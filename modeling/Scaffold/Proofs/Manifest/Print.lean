import Scaffold.Manifest
import Scaffold.Proofs.Json.Record
import Scaffold.Proofs.Parameters

/-!
# Manifests that are printed

A manifest that is printed is read back as it was (`parse_print`), with the options of its template
and the parameters of its records, as long as these fit in a document below it (`Manifest.Fits`) and
their numbers are read back (`Manifest.Legible`). A manifest that was read fits (`fits_of_parse`).
-/

namespace Scaffold

open Json

/-! ### What a document holds -/

/-- The parameters of the record stand in order, and they fit into the document below the record. -/
structure Identity.Fits (i : Identity) : Prop where
  ordered : i.parameters.Ordered
  values : ∀ p ∈ i.parameters, p.2.Fits (maxDepth - 4)

/-- The options of the template fit into the document below the template. -/
def TreeTemplate.Fits (t : TreeTemplate) : Prop :=
  ∀ options, t.options? = some options → Members.Fit (maxDepth - 3) options

/-- All that the manifest holds fits into a document. -/
structure Manifest.Fits (m : Manifest) : Prop where
  template : ∀ t, m.template? = some t → t.Fits
  records : ∀ i ∈ m.records, i.Fits

/-- All numbers of the parameters are read back. -/
def Identity.Legible (i : Identity) : Prop := (Value.object i.parameters).Legible

/-- All numbers of the options are read back. -/
def TreeTemplate.Legible (t : TreeTemplate) : Prop :=
  ∀ options, t.options? = some options → (Value.object options).Legible

/-- All numbers in the manifest are read back. -/
structure Manifest.Legible (m : Manifest) : Prop where
  template : ∀ t, m.template? = some t → t.Legible
  records : ∀ i ∈ m.records, i.Legible

/-- Parameters in order have different names. -/
theorem Identity.Fits.members {i : Identity} (h : i.Fits) :
    Members.Fit (maxDepth - 4) i.parameters := by
  refine ⟨?_, h.values⟩
  rw [Members.names, List.Nodup, List.pairwise_map]
  exact h.ordered.imp fun hlt => ne_of_lt hlt

namespace Manifest

/-! ### What is read -/

/-- The options that a draft of a template has been given fit. -/
def TemplateDraft.Fits (d : TemplateDraft) : Prop :=
  ∀ options, d.options? = some (some options) → Members.Fit (maxDepth - 3) options

/-- The parameters that a draft of a record has been given are in order and fit. -/
def RecordDraft.Fits (d : RecordDraft) : Prop :=
  ∀ ps, d.parameters? = some ps → ps.Ordered ∧ ∀ p ∈ ps, p.2.Fits (maxDepth - 4)

/-- What a draft of a manifest has been given fits. -/
structure Draft.Fits (d : Draft) : Prop where
  template : ∀ t, d.template? = some (some t) → t.Fits
  records : ∀ is, d.records? = some is → ∀ i ∈ is, i.Fits

theorem yields_true {α : Type} (reader : Reader α) : Yields (fun _ => True) reader :=
  fun _ _ _ _ => trivial

theorem yields_readTemplate : Yields TreeTemplate.Fits readTemplate := by
  have hfields : ∀ f ∈ templateFields, ∀ d : TemplateDraft, d.Fits →
      Yields TemplateDraft.Fits (f.read d) := by
    refine List.forall_mem_cons.2 ⟨?_, List.forall_mem_cons.2 ⟨?_, List.forall_mem_singleton.2 ?_⟩⟩
    · exact fun d hd => yields_map (fun v => { d with name? := some v }) (yields_true text)
        fun _ _ => hd
    · exact fun d hd => yields_map (fun v => { d with version? := some v }) (yields_true text)
        fun _ _ => hd
    · intro d hd
      refine yields_map (fun v => { d with options? := some v })
        (yields_optional (yields_objectWithin (maxDepth - 3))) fun v hv => ?_
      intro options heq
      exact hv options (Option.some.inj heq)
  intro s t rest h
  obtain ⟨⟨d, r⟩, hd, h⟩ := Outcome.bind_eq_ok.1 h
  obtain ⟨name, -, h⟩ := Outcome.bind_eq_ok.1 h
  obtain ⟨version, -, h⟩ := Outcome.bind_eq_ok.1 h
  obtain ⟨rfl, -⟩ := Prod.mk.inj (Except.ok.inj h)
  have hfits : d.Fits := yields_record _ hfields (by rintro _ ⟨⟩) hd
  intro options heq
  refine hfits options ?_
  cases hoptions : d.options? with
  | none =>
    rw [hoptions] at heq
    cases heq
  | some options? =>
    rw [hoptions] at heq
    exact congrArg some heq

theorem yields_readRecord : Yields Identity.Fits readRecord := by
  have hfields : ∀ f ∈ recordFields, ∀ d : RecordDraft, d.Fits →
      Yields RecordDraft.Fits (f.read d) := by
    refine List.forall_mem_cons.2 ⟨?_, List.forall_mem_cons.2 ⟨?_, List.forall_mem_cons.2 ⟨?_,
      List.forall_mem_singleton.2 ?_⟩⟩⟩
    · exact fun d hd => yields_map (fun v => { d with path? := some v })
        (yields_true text) fun _ _ => hd
    · exact fun d hd => yields_map (fun v => { d with template? := some v })
        (yields_true text) fun _ _ => hd
    · exact fun d hd => yields_map (fun v => { d with version? := some v })
        (yields_true text) fun _ _ => hd
    · intro d hd
      refine yields_map (fun v => { d with parameters? := some (.ofPairs v) })
        (yields_objectWithin (maxDepth - 4)) fun v hv => ?_
      intro ps heq
      obtain rfl := Option.some.inj heq
      exact ⟨Parameters.ordered_ofPairs v, fun p hp => hv.values p (Parameters.mem_ofPairs hp)⟩
  intro s i rest h
  obtain ⟨⟨d, r⟩, hd, h⟩ := Outcome.bind_eq_ok.1 h
  obtain ⟨path, -, h⟩ := Outcome.bind_eq_ok.1 h
  obtain ⟨template, -, h⟩ := Outcome.bind_eq_ok.1 h
  obtain ⟨version, -, h⟩ := Outcome.bind_eq_ok.1 h
  obtain ⟨rfl, -⟩ := Prod.mk.inj (Except.ok.inj h)
  have hfits : d.Fits := yields_record _ hfields (by rintro _ ⟨⟩) hd
  cases hps : d.parameters? with
  | none => exact ⟨List.Pairwise.nil, nofun⟩
  | some ps =>
    obtain ⟨hordered, hvalues⟩ := hfits ps hps
    exact ⟨hordered, hvalues⟩

/-- **A manifest that is read fits into a document.** -/
theorem fits_of_parse {s : String} {m : Manifest} (h : parse s = .ok m) : m.Fits := by
  have hfields : ∀ f ∈ fields, ∀ d : Draft, d.Fits → Yields Draft.Fits (f.read d) := by
    refine List.forall_mem_cons.2 ⟨?_, List.forall_mem_singleton.2 ?_⟩
    · intro d hd
      refine yields_map (fun v => { d with template? := some v })
        (yields_optional yields_readTemplate) fun t? ht => ?_
      exact ⟨fun t heq => ht t (Option.some.inj heq), hd.records⟩
    · intro d hd
      refine yields_map (fun v => { d with records? := some v }) (yields_list yields_readRecord)
        fun is his => ?_
      exact ⟨hd.template, fun is' heq => Option.some.inj heq ▸ his⟩
  obtain ⟨⟨m', rest⟩, hread, h⟩ := Outcome.bind_eq_ok.1 h
  dsimp only at h
  split at h
  · obtain rfl := Except.ok.inj h
    obtain ⟨⟨d, r⟩, hd, hread⟩ := Outcome.bind_eq_ok.1 hread
    obtain ⟨rfl, -⟩ := Prod.mk.inj (Except.ok.inj hread)
    have hfits : d.Fits := yields_record _ hfields ⟨by rintro _ ⟨⟩, by rintro _ ⟨⟩⟩ hd
    refine ⟨fun t ht => hfits.template t ?_, fun i hi => ?_⟩
    · cases htemplate : d.template? with
      | none => simp [htemplate] at ht
      | some t? => simpa [htemplate] using ht
    · cases hrecords : d.records? with
      | none => simp [hrecords] at hi
      | some is => exact hfits.records is hrecords i (by simpa [hrecords] using hi)
  · cases h

/-! ### What is read back -/

/-- A template is read back from its object. -/
theorem reads_readTemplate {t : TreeTemplate} (h : t.Fits) (hl : t.Legible) (level : Nat) :
    Reads readTemplate (prettyAt level t.toJson).toList t := by
  obtain ⟨name, version, options?⟩ := t
  have hread : Reads (Json.record "ManifestTemplate" templateFields ⟨none, none, none⟩)
      (prettyAt level (TreeTemplate.mk name version options?).toJson).toList
      ⟨some name, some version, options?.map some⟩ := by
    refine reads_record _ ?_
    refine chain_recordMember rfl rfl ((reads_text _ name).map fun v =>
      TemplateDraft.mk (some v) none none) ?_
    refine chain_recordMember rfl rfl ((reads_text _ version).map fun v =>
      TemplateDraft.mk (some name) (some v) none) ?_
    cases options? with
    | none => exact .nil _
    | some options =>
      have hoptions := (reads_objectWithin (h options rfl) (hl options rfl) (level + 1)).optional
      exact chain_recordMember rfl rfl (hoptions.map fun v =>
        TemplateDraft.mk (some name) (some version) (some v)) (.nil _)
  refine ⟨hread.begins, fun pad rest hpad hrest => ?_⟩
  rw [readTemplate]
  simp only [bind, Except.bind, hread.read pad rest hpad hrest]
  cases options? <;> rfl

/-- A record is read back from its object. -/
theorem reads_readRecord {i : Identity} (h : i.Fits) (hl : i.Legible) (level : Nat) :
    Reads readRecord (prettyAt level i.toRecord).toList i := by
  obtain ⟨⟨template, version, path⟩, ps⟩ := i
  have hps : Parameters.ofPairs ps = ps := @Parameters.foldl_insert ps [] h.ordered
  have hread : Reads (Json.record "AppliedRecord" recordFields ⟨none, none, none, none⟩)
      (prettyAt level (Identity.mk ⟨template, version, path⟩ ps).toRecord).toList
      ⟨some path, some template, some version, some ps⟩ := by
    refine reads_record _ ?_
    refine chain_recordMember rfl rfl ((reads_text _ path).map fun v =>
      RecordDraft.mk (some v) none none none) ?_
    refine chain_recordMember rfl rfl ((reads_text _ template).map fun v =>
      RecordDraft.mk (some path) (some v) none none) ?_
    refine chain_recordMember rfl rfl ((reads_text _ version).map fun v =>
      RecordDraft.mk (some path) (some template) (some v) none) ?_
    have hmembers := (reads_objectWithin h.members hl (level + 1)).map fun v =>
      RecordDraft.mk (some path) (some template) (some version) (some (.ofPairs v))
    refine chain_recordMember rfl rfl hmembers ?_
    rw [hps]
    exact .nil _
  refine ⟨hread.begins, fun pad rest hpad hrest => ?_⟩
  rw [readRecord]
  simp only [bind, Except.bind, hread.read pad rest hpad hrest]
  rfl

/-- A manifest is read back from its object. -/
theorem reads_reader {m : Manifest} (h : m.Fits) (hl : m.Legible) :
    Reads reader (prettyAt 0 m.toJson).toList m := by
  obtain ⟨template?, records⟩ := m
  have hrecords : ∀ level, Reads (list readRecord)
      (prettyAt level (.array (records.map Identity.toRecord))).toList records := by
    intro level
    refine reads_list ?_
    rw [List.forall₂_map_left_iff, List.forall₂_same]
    exact fun i hi => reads_readRecord (h.records i hi) (hl.records i hi) _
  have hread : Reads (Json.record "Manifest" fields ⟨none, none⟩)
      (prettyAt 0 (Manifest.mk template? records).toJson).toList
      ⟨template?.map some, some records⟩ := by
    refine reads_record _ ?_
    cases template? with
    | none =>
      exact chain_recordMember rfl rfl ((hrecords _).map fun v => Draft.mk none (some v)) (.nil _)
    | some t =>
      have htemplate := reads_readTemplate (h.template t rfl) (hl.template t rfl) 1
      refine chain_recordMember rfl rfl (htemplate.optional.map fun v => Draft.mk (some v) none) ?_
      exact chain_recordMember rfl rfl
        ((hrecords _).map fun v => Draft.mk (some (some t)) (some v)) (.nil _)
  refine ⟨hread.begins, fun pad rest hpad hrest => ?_⟩
  rw [reader]
  simp only [bind, Except.bind, hread.read pad rest hpad hrest]
  cases template? <;> rfl

/-- **A manifest that is printed is read back.** -/
theorem parse_print {m : Manifest} (h : m.Fits) (hl : m.Legible) : parse m.print = .ok m := by
  have hread := (reads_reader h hl).read [] ['\n'] nofun (by rintro c ⟨⟩; decide)
  have htext : m.print.toList = [] ++ ((prettyAt 0 m.toJson).toList ++ ['\n']) := by
    simp [print, Value.pretty]
  rw [parse, document, htext]
  simp only [bind, Except.bind, hread]
  rfl

end Manifest

end Scaffold
