import Scaffold.CommandLine.KeyValue
import Scaffold.Proofs.Merge.Text
import Scaffold.Proofs.Region.Decoded
import Scaffold.Proofs.UnitName

/-!
# Which applications are recognised

What the command line accepts as the name of a unit and as parameters is more than what a header
keeps. A block is recognised as what it was made from if and only if no line feed stands in the
pieces of the unit's name or in the name of a parameter, no blank stands where a header trims the
pieces, and no colon stands in the name of a parameter (`recognised_iff`).
-/

namespace Scaffold

/-! ### What the command line accepts -/

namespace CommandLine

/-- The name of a parameter has no blanks at its ends. -/
theorem trim_name_of_parseKeyValue {s : String} {p : String × Json.Value}
    (h : parseKeyValue s = .ok p) : Text.trim p.1.toList = p.1.toList := by
  rw [parseKeyValue] at h
  split at h
  · cases h
  · simp only at h
    split at h
    · cases h
    · obtain rfl := Except.ok.inj h
      rw [String.toList_ofList]
      exact Text.trim_trim _

theorem trim_name_of_mapM {args : List String} {pairs : List (String × Json.Value)}
    (h : args.mapM parseKeyValue = .ok pairs) :
    ∀ p ∈ pairs, Text.trim p.1.toList = p.1.toList := by
  induction args generalizing pairs with
  | nil =>
    obtain rfl : [] = pairs := Except.ok.inj h
    simp
  | cons arg args ih =>
    rw [List.mapM_cons] at h
    cases harg : parseKeyValue arg with
    | error e =>
      rw [harg] at h
      cases h
    | ok p =>
      cases hargs : args.mapM parseKeyValue with
      | error e =>
        rw [harg, hargs] at h
        cases h
      | ok ps =>
        rw [harg, hargs] at h
        obtain rfl : p :: ps = pairs := Except.ok.inj h
        exact List.forall_mem_cons.2 ⟨trim_name_of_parseKeyValue harg, ih hargs⟩

end CommandLine

/-- What is left to ask of an application that the command line accepts, for a header to keep it. -/
structure Identity.FitsHeader (i : Identity) : Prop where
  template : '\n' ∉ i.unit.template.toList ∧
    Text.trimStart i.unit.template.toList = i.unit.template.toList
  version : '\n' ∉ i.unit.version.toList ∧
    Text.trimEnd i.unit.version.toList = i.unit.version.toList
  part : '\n' ∉ i.unit.part.toList ∧ Text.trim i.unit.part.toList = i.unit.part.toList
  names : ∀ p ∈ i.parameters, '\n' ∉ p.1.toList ∧ ':' ∉ p.1.toList

/-- An accepted application with readable values fits a header if it is safe in one. -/
theorem Identity.headerSafe_iff_fitsHeader {s : String} {u : UnitName}
    (hu : UnitName.parse? s = some u) {args : List String} {pairs : List (String × Json.Value)}
    (ha : args.mapM CommandLine.parseKeyValue = .ok pairs)
    (hv : (Parameters.ofPairs pairs).Readable) :
    (⟨u, .ofPairs pairs⟩ : Identity).HeaderSafe ↔ (⟨u, .ofPairs pairs⟩ : Identity).FitsHeader := by
  obtain ⟨htemplate, ⟨hversion, hat⟩, hpart, -⟩ := (UnitName.text_of_parse? hu).2
  constructor
  · intro h
    exact ⟨h.unit.template.2, ⟨h.unit.version.2.1, h.unit.version.2.2.1⟩, h.unit.part.2,
      fun p hp => ⟨(h.names p hp).1, (h.names p hp).2.2⟩⟩
  · intro h
    refine ⟨⟨⟨htemplate, h.template⟩, ⟨hversion, h.version.1, h.version.2, hat⟩, ⟨hpart, h.part⟩⟩,
      fun p hp => ?_, hv, Parameters.ordered_ofPairs pairs⟩
    obtain ⟨hline, hcolon⟩ := h.names p hp
    exact ⟨hline, CommandLine.trim_name_of_mapM ha p (Parameters.mem_ofPairs hp), hcolon⟩

namespace Merge

open Region

/-! ### Recognising a block -/

variable {render : Template.Renderer}

/-- The block of an application is found again: its text has one region, which comes from the unit
and was applied with the same parameters, and a merge of the same content into it leaves it as it
is. -/
def Recognised (render : Template.Renderer) (o : Options) (d : Delimiters) (i : Identity)
    (content : String) : Prop :=
  ∃ b r, Block.make d i o.annotationTemplate content render = .ok b ∧ scan d b = .ok [r] ∧
    r.matchesUnit i.unit = true ∧ r.identity?.map (·.parameters) = some i.parameters ∧
    text ⟨some b, content, i, d, o⟩ render = .ok (some b)

/-- The block of a safe identity is recognised. -/
theorem recognised_of_headerSafe {o : Options} {d : Delimiters} (hd : d.Safe)
    (hannotate : o.annotate = true) (htemplate : o.annotationTemplate = none) {i : Identity}
    (hi : i.HeaderSafe) {content : String} (hc : NoMarkers d content.toList) :
    Recognised render o d i content := by
  have hfill := Place.fill_alone d i.unit i content
  obtain ⟨rs, hs, hrs⟩ := (Place.alone d i.unit).shows hd hi hc hfill
  obtain ⟨r, rfl⟩ : ∃ r, rs = [r] := by
    refine List.length_eq_one_iff.1 ?_
    rw [← List.length_map, hrs]
    rfl
  have hr : entry (Block.usual d i content).toList r = Block.entryOf i content :=
    List.singleton_inj.1 hrs
  have hidentity : r.identity? = some i := congrArg Region.Entry.identity? hr
  refine ⟨Block.usual d i content, r, ?_, hs, ?_, ?_, ?_⟩
  · rw [htemplate]
    rfl
  · simp [Region.matchesUnit, hidentity]
  · simp [hidentity]
  · have hann : Annotates ⟨some (Block.usual d i content), content, i, d, o⟩ :=
      ⟨hannotate, htemplate, hd, hi⟩
    exact text_eq_self hann hc (Place.alone d i.unit) rfl hfill

/-- A block that is recognised comes from an identity that a header keeps. -/
theorem safe_of_recognised {o : Options} {d : Delimiters} {i : Identity} {content : String}
    (h : Recognised render o d i content) :
    i.unit.HeaderSafe ∧ ∀ p ∈ i.parameters, Identity.NameSafe p.1.toList := by
  obtain ⟨b, r, -, hs, hmatch, hparameters, -⟩ := h
  obtain ⟨j, hj, hunit⟩ := (Option.any_eq_true _ _).1 hmatch
  rw [hj, Option.map_some] at hparameters
  obtain ⟨hsafe, hnames, -⟩ := safe_of_scan hs List.mem_cons_self hj
  rw [← beq_iff_eq.1 hunit, ← Option.some.inj hparameters]
  exact ⟨hsafe, hnames⟩

/-- **An application that the command line accepts is recognised if and only if it fits a
header.** -/
theorem recognised_iff {s : String} {u : UnitName} (hu : UnitName.parse? s = some u)
    {args : List String} {pairs : List (String × Json.Value)}
    (ha : args.mapM CommandLine.parseKeyValue = .ok pairs)
    (hv : (Parameters.ofPairs pairs).Readable) {o : Options} (hcomment : o.commentSyntax = none)
    (hstart : o.startMarker = Options.default.startMarker)
    (hstop : o.endMarker = Options.default.endMarker) (hannotate : o.annotate = true)
    (htemplate : o.annotationTemplate = none) {path : Path} {content : String}
    (hc : NoMarkers (.ofOptions o path) content.toList) :
    Recognised render o (.ofOptions o path) ⟨u, .ofPairs pairs⟩ content ↔
      (⟨u, .ofPairs pairs⟩ : Identity).FitsHeader := by
  have hd := Delimiters.safe_ofOptions hcomment hstart hstop path
  rw [← Identity.headerSafe_iff_fitsHeader hu ha hv]
  constructor
  · intro h
    obtain ⟨hunit, hnames⟩ := safe_of_recognised h
    exact ⟨hunit, hnames, hv, Parameters.ordered_ofPairs pairs⟩
  · intro h
    exact recognised_of_headerSafe hd hannotate htemplate h hc

/-- A colon in the name of a parameter decides it. -/
theorem recognised_of_name_without_colon :
    Recognised Template.render .default (.ofOptions .default ⟨"a.ts"⟩)
        ⟨⟨"react", "1.0.0", "component"⟩, .ofPairs [("ab", CommandLine.valueOf "1")]⟩ "x" ∧
      ¬ Recognised Template.render .default (.ofOptions .default ⟨"a.ts"⟩)
        ⟨⟨"react", "1.0.0", "component"⟩, .ofPairs [("a:b", CommandLine.valueOf "1")]⟩ "x" := by
  have hu : UnitName.parse? "react@1.0.0:component" = some ⟨"react", "1.0.0", "component"⟩ := by
    decide
  have hone : Json.parse (CommandLine.valueOf "1").compact = .ok (CommandLine.valueOf "1") := rfl
  have hv : ∀ name, (Parameters.ofPairs [(name, CommandLine.valueOf "1")]).Readable := by
    intro name p hp
    obtain rfl := List.mem_singleton.1 hp
    exact hone
  have hc : NoMarkers (.ofOptions .default ⟨"a.ts"⟩) "x".toList := by decide +kernel
  constructor
  · have ha : ["ab=1"].mapM CommandLine.parseKeyValue = .ok [("ab", CommandLine.valueOf "1")] :=
      rfl
    refine (recognised_iff hu ha (hv _) rfl rfl rfl rfl rfl hc).2 ⟨?_, ?_, ?_, fun p hp => ?_⟩
    · decide
    · decide
    · decide
    · obtain rfl := List.mem_singleton.1 hp
      decide
  · have ha : ["a:b=1"].mapM CommandLine.parseKeyValue = .ok [("a:b", CommandLine.valueOf "1")] :=
      rfl
    intro h
    have hfits := (recognised_iff hu ha (hv _) rfl rfl rfl rfl rfl hc).1 h
    exact (hfits.names _ (List.mem_singleton_self _)).2 (by decide)

end Merge

end Scaffold
