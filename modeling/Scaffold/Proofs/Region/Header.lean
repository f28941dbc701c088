import Mathlib.Data.List.Forall2
import Scaffold.Region.Header
import Scaffold.Proofs.Comment
import Scaffold.Proofs.Json.Compact
import Scaffold.Proofs.Parameters

/-!
# Headers say what was written

A header keeps an identity whose pieces stand on one line, have no blanks where a header trims
them and hold no mark at which a header is parted (`Identity.HeaderSafe`). Such an identity is
read off its own header (`Identity.ofHeader?_headerRows`), and what a header gives is always such
an identity, parameter values aside (`Identity.safe_of_ofHeader?`).
-/

namespace Scaffold

/-- A text as a line with its line feed. -/
def Text.row (s : String) : List Char := s.toList ++ ['\n']

theorem Text.isFullLine_row {s : String} (h : '\n' ∉ s.toList) : Text.IsFullLine (Text.row s) :=
  ⟨s.toList, h, rfl⟩

/-- A comment line gives back its text without the blanks around it. -/
theorem Comment.strip?_row {c : Comment} (hc : c.Proper) (text : String) :
    c.strip? (Text.row (c.wrap text)) = some (Text.trim text.toList) := by
  have hb : ∀ x ∈ [], Text.isBlank x := by simp
  have := Comment.strip?_wrap hc text hb Text.blank_lineFeed
  rwa [List.nil_append] at this

namespace Identity

/-! ### What a header can keep -/

/-- A template's name: something on one line that begins with no blank. -/
def TemplateSafe (s : List Char) : Prop := s ≠ [] ∧ '\n' ∉ s ∧ Text.trimStart s = s

/-- A version: something on one line that ends with no blank and has no `@`. -/
def VersionSafe (s : List Char) : Prop := s ≠ [] ∧ '\n' ∉ s ∧ Text.trimEnd s = s ∧ '@' ∉ s

/-- A part's name: something on one line without blanks at its ends. -/
def PartSafe (s : List Char) : Prop := s ≠ [] ∧ '\n' ∉ s ∧ Text.trim s = s

/-- A parameter's name: one line without blanks at its ends and without colons. -/
def NameSafe (s : List Char) : Prop := '\n' ∉ s ∧ Text.trim s = s ∧ ':' ∉ s

instance (s : List Char) : Decidable (TemplateSafe s) := inferInstanceAs (Decidable (_ ∧ _))

instance (s : List Char) : Decidable (VersionSafe s) := inferInstanceAs (Decidable (_ ∧ _))

instance (s : List Char) : Decidable (PartSafe s) := inferInstanceAs (Decidable (_ ∧ _))

instance (s : List Char) : Decidable (NameSafe s) := inferInstanceAs (Decidable (_ ∧ _))

end Identity

/-- The name of a unit is one that a header keeps. -/
structure UnitName.HeaderSafe (u : UnitName) : Prop where
  template : Identity.TemplateSafe u.template.toList
  version : Identity.VersionSafe u.version.toList
  part : Identity.PartSafe u.part.toList

instance (u : UnitName) : Decidable u.HeaderSafe :=
  decidable_of_iff (Identity.TemplateSafe u.template.toList ∧
      Identity.VersionSafe u.version.toList ∧ Identity.PartSafe u.part.toList)
    ⟨fun ⟨t, v, p⟩ => ⟨t, v, p⟩, fun ⟨t, v, p⟩ => ⟨t, v, p⟩⟩

/-- Every value is what reading its own text gives. -/
def Parameters.Readable (ps : Parameters) : Prop := ∀ p ∈ ps, Json.parse p.2.compact = .ok p.2

/-- An identity that a header keeps: the pieces of its unit's name and the names of its
parameters are safe, and the values of its parameters are read back from their texts. The
parameters stand in their order, as all parameters do (`Parameters.ordered_ofPairs`). -/
structure Identity.HeaderSafe (i : Identity) : Prop where
  unit : i.unit.HeaderSafe
  names : ∀ p ∈ i.parameters, NameSafe p.1.toList
  values : i.parameters.Readable
  ordered : i.parameters.Ordered

/-- An identity without parameters is safe if its unit is. -/
theorem UnitName.HeaderSafe.identity {u : UnitName} (h : u.HeaderSafe) :
    (⟨u, []⟩ : Identity).HeaderSafe :=
  ⟨h, by simp, by simp [Parameters.Readable], List.Pairwise.nil⟩

namespace Identity

/-! ### Reading what was written -/

theorem trim_templateLine {t v : List Char} (ht : TemplateSafe t) (hv : VersionSafe v) :
    Text.trim (t ++ '@' :: v) = t ++ '@' :: v := by
  obtain ⟨c, t, rfl⟩ := List.exists_cons_of_ne_nil ht.1
  refine Text.trim_eq_self (fun d hd => ?_) (fun d hd => ?_)
  · refine Text.head?_trimStart (c :: t) d ?_
    rw [ht.2.2]
    simpa using hd
  · have hl := Text.getLast?_dropEndWhile Text.isBlank v
    rw [show Text.dropEndWhile Text.isBlank v = v from hv.2.2.1] at hl
    refine hl d ?_
    rwa [List.append_cons, List.getLast?_append_of_ne_nil _ hv.1] at hd

theorem templateOf?_append {t v : List Char} (ht : TemplateSafe t) (hv : VersionSafe v) :
    templateOf? (t ++ '@' :: v) = some (t, v) := by
  simp [templateOf?, Text.splitLast?_append t hv.2.2.2, ht.1, hv.1]

theorem trim_templateText {u : UnitName} (hu : u.HeaderSafe) :
    Text.trim ("template: " ++ u.template ++ "@" ++ u.version).toList =
      "template:".toList ++ ([' '] ++ (u.template.toList ++ '@' :: u.version.toList)) := by
  rw [Text.trim_eq_self]
  · simp
  · simp [Text.isBlank]
  · intro c hc
    have hl := Text.getLast?_trim (u.template.toList ++ '@' :: u.version.toList)
    rw [trim_templateLine hu.template hu.version] at hl
    refine hl c ?_
    have he : ("template: " ++ u.template ++ "@" ++ u.version).toList =
        "template: ".toList ++ (u.template.toList ++ '@' :: u.version.toList) := by simp
    rwa [he, List.getLast?_append_of_ne_nil _ (by simp)] at hc

theorem trim_partText {u : UnitName} (hu : u.HeaderSafe) :
    Text.trim ("partial: " ++ u.part).toList = "partial:".toList ++ ([' '] ++ u.part.toList) := by
  rw [Text.trim_eq_self]
  · simp
  · simp [Text.isBlank]
  · intro c hc
    have hl := Text.getLast?_trim u.part.toList
    rw [hu.part.2.2] at hl
    refine hl c ?_
    rwa [String.toList_append, List.getLast?_append_of_ne_nil _ hu.part.1] at hc

theorem trim_parameterText (name : String) (value : Json.Value) :
    Text.trim (parameterText name value).toList =
      "param ".toList ++ (name.toList ++ ':' :: Text.trimEnd (' ' :: value.compact.toList)) := by
  have htext : (parameterText name value).toList =
      ("param ".toList ++ name.toList ++ [':']) ++ (' ' :: value.compact.toList) := by
    simp [parameterText]
  have hcolon : ∀ c ∈ ("param ".toList ++ name.toList ++ [':']).getLast?,
      Text.isBlank c = false := by
    intro c hc
    rw [List.getLast?_append_of_ne_nil _ (by simp)] at hc
    obtain rfl : ':' = c := by simpa using hc
    rfl
  rw [Text.trim, htext, Text.trimStart_eq_self (by simp [Text.isBlank]), Text.trimEnd_append hcolon]
  simp

theorem add?_template (d : Draft) {u : UnitName} (hu : u.HeaderSafe) :
    d.add? (Text.trim ("template: " ++ u.template ++ "@" ++ u.version).toList) =
      some ⟨some (u.template.toList, u.version.toList), d.part?, d.parameters⟩ := by
  rw [trim_templateText hu, Draft.add?, Text.stripStart?_append]
  simp only
  rw [Text.trim_append_left Text.blank_space, trim_templateLine hu.template hu.version,
    templateOf?_append hu.template hu.version]
  rfl

theorem add?_part (d : Draft) {u : UnitName} (hu : u.HeaderSafe) :
    d.add? (Text.trim ("partial: " ++ u.part).toList) =
      some ⟨d.template?, some u.part.toList, d.parameters⟩ := by
  have hno : Text.stripStart? "template:".toList ("partial:".toList ++ ([' '] ++ u.part.toList)) =
      none := rfl
  rw [trim_partText hu, Draft.add?, hno]
  simp only
  rw [Text.stripStart?_append]
  simp only
  rw [Text.trim_append_left Text.blank_space, hu.part.2.2]

theorem parameterOf?_append {name : String} (hn : NameSafe name.toList) (value : Json.Value) :
    parameterOf? (name.toList ++ ':' :: Text.trimEnd (' ' :: value.compact.toList)) =
      (Json.parse value.compact).toOption.map fun v => (name, v) := by
  have ht : Text.trim (Text.trimEnd (' ' :: value.compact.toList)) = value.compact.toList := by
    rw [Text.trim_trimEnd]
    conv_rhs => rw [← value.trim_compact]
    exact Text.trim_append_left Text.blank_space _
  have hd : Json.document Json.value value.compact.toList = Json.parse value.compact := rfl
  simp only [parameterOf?, Text.splitFirst?_append hn.2.2, Option.bind_eq_bind, Option.bind_some, ht,
    hd, hn.2.1, String.ofList_toList]
  cases Json.parse value.compact <;> rfl

/-- The line of a parameter is read if its value is. -/
theorem add?_parameter (d : Draft) {name : String} (hn : NameSafe name.toList)
    (value : Json.Value) :
    d.add? (Text.trim (parameterText name value).toList) =
      (Json.parse value.compact).toOption.map fun v =>
        ⟨d.template?, d.part?, d.parameters.insert name v⟩ := by
  have hno : ∀ s, Text.stripStart? "template:".toList ("param ".toList ++ s) = none ∧
      Text.stripStart? "partial:".toList ("param ".toList ++ s) = none := fun s => ⟨rfl, rfl⟩
  rw [trim_parameterText, Draft.add?, (hno _).1]
  simp only
  rw [(hno _).2]
  simp only
  rw [Text.stripStart?_append]
  simp only
  rw [parameterOf?_append hn, Option.map_map]
  rfl

/-- The words that begin the lines of headers. -/
def keywords : List String := ["template:", "partial:", "param "]

/-- The lines of a header begin with keywords. -/
theorem keyword_of_mem_headerTexts {i : Identity} (hi : i.HeaderSafe) {text : String}
    (h : text ∈ i.headerTexts) : ∃ k ∈ keywords, k.toList <+: Text.trim text.toList := by
  rcases List.mem_cons.1 h with rfl | h
  · exact ⟨"template:", by simp [keywords], _, (trim_templateText hi.unit).symm⟩
  rcases List.mem_cons.1 h with rfl | h
  · exact ⟨"partial:", by simp [keywords], _, (trim_partText hi.unit).symm⟩
  · obtain ⟨p, hp, rfl⟩ := List.mem_map.1 h
    exact ⟨"param ", by simp [keywords], _, (trim_parameterText p.1 p.2).symm⟩

/-- The lines of a header hold no line feeds. -/
theorem lineFeed_not_mem_headerTexts {i : Identity} (hu : i.unit.HeaderSafe)
    (hn : ∀ p ∈ i.parameters, NameSafe p.1.toList) {text : String} (h : text ∈ i.headerTexts) :
    '\n' ∉ text.toList := by
  rcases List.mem_cons.1 h with rfl | h
  · have ht := hu.template.2.1
    have hv := hu.version.2.1
    simp [ht, hv]
  rcases List.mem_cons.1 h with rfl | h
  · have hp := hu.part.2.1
    simp [hp]
  · obtain ⟨p, hp, rfl⟩ := List.mem_map.1 h
    have hn := (hn p hp).1
    have hv := p.2.lineFeed_not_mem_compact
    simp [parameterText, hn, hv]

/-- The lines of a header are comment lines. -/
theorem headerLines_eq (c : Comment) (i : Identity) :
    i.headerLines c = i.headerTexts.map c.wrap := by
  simp only [headerLines, Comment.opening_append_closing]

/-- The lines of a header. -/
def headerRows (c : Comment) (i : Identity) : List (List Char) := (i.headerLines c).map Text.row

theorem mem_headerRows {c : Comment} {i : Identity} {line : List Char} :
    line ∈ headerRows c i ↔ ∃ text ∈ i.headerTexts, Text.row (c.wrap text) = line := by
  simp [headerRows, headerLines_eq]

theorem addAll?_row {c : Comment} (hc : c.Proper) (d : Draft) (text : String)
    (rest : List (List Char)) :
    d.addAll? c (Text.row (c.wrap text) :: rest) =
      (d.add? (Text.trim text.toList)).bind fun e => e.addAll? c rest := by
  rw [Draft.addAll?, Comment.strip?_row hc]
  rfl

theorem addAll?_parameters {c : Comment} (hc : c.Proper) {ps : Parameters}
    (hn : ∀ p ∈ ps, NameSafe p.1.toList) (hv : ps.Readable) (d : Draft) :
    d.addAll? c (ps.map fun p => Text.row (c.wrap (parameterText p.1 p.2))) =
      some ⟨d.template?, d.part?, ps.foldl (fun acc p => Parameters.insert p.1 p.2 acc)
        d.parameters⟩ := by
  induction ps generalizing d with
  | nil => rfl
  | cons p ps ih =>
    obtain ⟨hp, hps⟩ := List.forall_mem_cons.1 hn
    have hvp := hv p List.mem_cons_self
    have hvs : Parameters.Readable ps := fun q hq => hv q (List.mem_cons_of_mem _ hq)
    rw [List.map_cons, addAll?_row hc, add?_parameter d hp, hvp]
    exact ih hps hvs _

/-- The first two lines of a header name the unit, and the others are its parameters. -/
theorem addAll?_headerRows {c : Comment} (hc : c.Proper) {i : Identity} (hu : i.unit.HeaderSafe) :
    Draft.empty.addAll? c (headerRows c i) =
      Draft.addAll? c
        ⟨some (i.unit.template.toList, i.unit.version.toList), some i.unit.part.toList, []⟩
        (i.parameters.map fun p => Text.row (c.wrap (parameterText p.1 p.2))) := by
  have hrows : headerRows c i =
      Text.row (c.wrap ("template: " ++ i.unit.template ++ "@" ++ i.unit.version)) ::
        Text.row (c.wrap ("partial: " ++ i.unit.part)) ::
          i.parameters.map fun p => Text.row (c.wrap (parameterText p.1 p.2)) := by
    simp [headerRows, headerLines_eq, headerTexts]
  rw [hrows, addAll?_row hc, add?_template _ hu, Option.bind_some, addAll?_row hc,
    add?_part _ hu, Option.bind_some]
  rfl

/-- An identity that is safe in a header is what its header says. -/
theorem ofHeader?_headerRows {c : Comment} (hc : c.Proper) {i : Identity} (hi : i.HeaderSafe) :
    ofHeader? c (headerRows c i) = some i := by
  have hordered : ([] ++ i.parameters : Parameters).Ordered := hi.ordered
  rw [ofHeader?, addAll?_headerRows hc hi.unit, addAll?_parameters hc hi.names hi.values,
    Parameters.foldl_insert hordered]
  simp [Draft.finish?, hi.unit.part.1]

/-! ### What headers give -/

/-- A template and its version are parted where both are safe. -/
theorem safe_of_templateOf? {s t v : List Char} (hn : '\n' ∉ s)
    (h : templateOf? (Text.trim s) = some (t, v)) : TemplateSafe t ∧ VersionSafe v := by
  obtain ⟨⟨t', v'⟩, hs, h⟩ := Option.bind_eq_some_iff.1 h
  obtain ⟨hcut, hat⟩ := Text.splitLast?_eq_some hs
  have hmem : ∀ c, c ∈ t' ∨ c ∈ v' → c ∈ s := fun c hc => by
    refine Text.mem_of_mem_trim ?_
    rw [hcut]
    rcases hc with hc | hc <;> simp [hc]
  simp only at h
  split at h
  · cases h
  · rename_i he
    obtain ⟨rfl, rfl⟩ := Prod.mk.inj (Option.some.inj h)
    simp only [Bool.or_eq_true, List.isEmpty_iff, not_or] at he
    refine ⟨⟨he.1, fun hm => hn (hmem _ (Or.inl hm)), ?_⟩,
      ⟨he.2, fun hm => hn (hmem _ (Or.inr hm)), ?_, hat⟩⟩
    · refine Text.trimStart_eq_self fun c hc => Text.head?_trim s c ?_
      rw [hcut, List.head?_append_of_ne_nil _ he.1]
      exact hc
    · refine Text.dropEndWhile_eq_self fun c hc => Text.getLast?_trim s c ?_
      rw [hcut, List.append_cons, List.getLast?_append_of_ne_nil _ he.2]
      exact hc

/-- A parameter's name is parted from its value where it is safe. -/
theorem safe_of_parameterOf? {s : List Char} {name : String} {value : Json.Value} (hn : '\n' ∉ s)
    (h : parameterOf? s = some (name, value)) : NameSafe name.toList := by
  obtain ⟨⟨before, after⟩, hs, h⟩ := Option.bind_eq_some_iff.1 h
  obtain ⟨hcut, hcolon⟩ := Text.splitFirst?_eq_some hs
  simp only at h
  split at h
  · obtain ⟨rfl, -⟩ := Prod.mk.inj (Option.some.inj h)
    have hmem : ∀ c ∈ Text.trim before, c ∈ before := fun c => Text.mem_of_mem_trim
    rw [NameSafe, String.toList_ofList]
    refine ⟨fun hm => hn ?_, Text.trim_trim before, fun hm => hcolon (hmem _ hm)⟩
    rw [hcut]
    exact List.mem_append_left _ (hmem _ hm)
  · cases h

/-- What the lines of a header have said so far is safe. -/
structure Draft.Safe (d : Draft) : Prop where
  template : ∀ t ∈ d.template?, TemplateSafe t.1 ∧ VersionSafe t.2
  part : ∀ p ∈ d.part?, '\n' ∉ p ∧ Text.trim p = p
  names : ∀ p ∈ d.parameters, NameSafe p.1.toList
  ordered : d.parameters.Ordered

/-- One more line keeps a draft safe. -/
theorem Draft.Safe.add? {d e : Draft} (hd : d.Safe) {text : List Char} (hn : '\n' ∉ text)
    (h : d.add? text = some e) : e.Safe := by
  have hrest : ∀ {opener rest}, Text.stripStart? opener text = some rest → '\n' ∉ rest :=
    fun h hm => hn (Text.stripStart?_eq_some.1 h ▸ List.mem_append_right _ hm)
  rw [Draft.add?] at h
  split at h
  · rename_i rest hr
    obtain ⟨⟨t, v⟩, ht, rfl⟩ := Option.map_eq_some_iff.1 h
    refine ⟨fun t' ht' => ?_, hd.part, hd.names, hd.ordered⟩
    obtain rfl : (t, v) = t' := Option.some.inj ht'
    exact safe_of_templateOf? (hrest hr) ht
  split at h
  · rename_i rest hr
    obtain rfl := Option.some.inj h
    refine ⟨hd.template, fun p hp => ?_, hd.names, hd.ordered⟩
    obtain rfl : Text.trim rest = p := Option.some.inj hp
    exact ⟨fun hm => hrest hr (Text.mem_of_mem_trim hm), Text.trim_trim rest⟩
  split at h
  · rename_i rest hr
    obtain ⟨⟨name, value⟩, hp, rfl⟩ := Option.map_eq_some_iff.1 h
    have hname := safe_of_parameterOf? (hrest hr) hp
    refine ⟨hd.template, hd.part, fun q hq => ?_, Parameters.ordered_insert hd.ordered _ _⟩
    rcases Parameters.mem_insert hq with rfl | hq
    · exact hname
    · exact hd.names q hq
  · cases h

/-- Any number of lines keep a draft safe. -/
theorem Draft.Safe.addAll? {c : Comment} {ls : List (List Char)} (hls : ∀ l ∈ ls, Text.IsLine l)
    {d e : Draft} (hd : d.Safe) (h : d.addAll? c ls = some e) : e.Safe := by
  induction ls generalizing d with
  | nil => exact Option.some.inj h ▸ hd
  | cons l ls ih =>
    obtain ⟨hl, hls⟩ := List.forall_mem_cons.1 hls
    obtain ⟨text, ht, h⟩ := Option.bind_eq_some_iff.1 h
    obtain ⟨d', hd', h⟩ := Option.bind_eq_some_iff.1 h
    have hn : '\n' ∉ text := fun hm => hl.lineFeed_not_mem_trim (Comment.mem_of_strip? ht _ hm)
    exact ih hls (hd.add? hn hd') h

/-- The identity that a header gives is safe, as far as its names go. -/
theorem safe_of_ofHeader? {c : Comment} {ls : List (List Char)} (hls : ∀ l ∈ ls, Text.IsLine l)
    {i : Identity} (h : ofHeader? c ls = some i) :
    i.unit.HeaderSafe ∧ (∀ p ∈ i.parameters, NameSafe p.1.toList) ∧ i.parameters.Ordered := by
  obtain ⟨d, hd, h⟩ := Option.bind_eq_some_iff.1 h
  have hsafe : d.Safe := by
    have he : Draft.empty.Safe := ⟨by simp [Draft.empty], by simp [Draft.empty],
      by simp [Draft.empty], List.Pairwise.nil⟩
    exact he.addAll? hls hd
  obtain ⟨⟨t, v⟩, ht, h⟩ := Option.bind_eq_some_iff.1 h
  obtain ⟨p, hp, h⟩ := Option.bind_eq_some_iff.1 h
  split at h
  · cases h
  · rename_i hne
    obtain rfl := Option.some.inj h
    obtain ⟨htemplate, hversion⟩ := hsafe.template _ ht
    obtain ⟨hline, htrim⟩ := hsafe.part _ hp
    refine ⟨⟨?_, ?_, ?_⟩, hsafe.names, hsafe.ordered⟩
    · simpa using htemplate
    · simpa using hversion
    · simpa [PartSafe] using ⟨by simpa using hne, hline, htrim⟩

/-! ### Which identities a header keeps -/

/-- The lines of the header, as they stand in a text, are read as the identity. -/
def Decodes (c : Comment) (i : Identity) : Prop :=
  ofHeader? c (Text.lines (headerRows c i).flatten) = some i

/-- Names without line feeds leave the lines of a header lines. -/
theorem lines_headerRows {c : Comment} (hc : c.Proper) {i : Identity} (hu : i.unit.HeaderSafe)
    (hn : ∀ p ∈ i.parameters, NameSafe p.1.toList) :
    Text.lines (headerRows c i).flatten = headerRows c i := by
  have hfull : ∀ l ∈ headerRows c i, Text.IsFullLine l := by
    intro l hl
    obtain ⟨text, htext, rfl⟩ := mem_headerRows.1 hl
    refine Text.isFullLine_row (Comment.lineFeed_not_mem_wrap hc ?_)
    exact lineFeed_not_mem_headerTexts hu hn htext
  have hlines := Text.lines_flatten_append hfull []
  simpa [show Text.lines [] = [] from rfl] using hlines

/-- The lines of parameters are read only if the values are, and give the names with the values
that were read. -/
theorem exists_of_addAll?_parameters {c : Comment} (hc : c.Proper) {ps : Parameters}
    (hn : ∀ p ∈ ps, NameSafe p.1.toList) {d e : Draft}
    (h : d.addAll? c (ps.map fun p => Text.row (c.wrap (parameterText p.1 p.2))) = some e) :
    ∃ qs : Parameters,
      List.Forall₂ (fun p q => p.1 = q.1 ∧ Json.parse p.2.compact = .ok q.2) ps qs ∧
      e = ⟨d.template?, d.part?, qs.foldl (fun acc q => Parameters.insert q.1 q.2 acc)
        d.parameters⟩ := by
  induction ps generalizing d with
  | nil =>
    obtain rfl : d = e := Option.some.inj h
    exact ⟨[], .nil, rfl⟩
  | cons p ps ih =>
    obtain ⟨hp, hps⟩ := List.forall_mem_cons.1 hn
    rw [List.map_cons, addAll?_row hc, add?_parameter d hp] at h
    cases hv : Json.parse p.2.compact with
    | error =>
      rw [hv] at h
      cases h
    | ok v =>
      rw [hv] at h
      obtain ⟨qs, hqs, rfl⟩ := ih hps h
      exact ⟨(p.1, v) :: qs, .cons ⟨rfl, hv⟩ hqs, rfl⟩

/-- **A header keeps the safe identities, and no others.** -/
theorem decodes_iff {c : Comment} (hc : c.Proper) {i : Identity} :
    i.Decodes c ↔ i.HeaderSafe := by
  constructor
  · intro h
    obtain ⟨hu, hn, ho⟩ := safe_of_ofHeader? (fun l hl => Text.isLine_of_mem_lines hl) h
    refine ⟨hu, hn, ?_, ho⟩
    rw [Decodes, lines_headerRows hc hu hn] at h
    obtain ⟨e, he, hfinish⟩ := Option.bind_eq_some_iff.1 h
    rw [addAll?_headerRows hc hu] at he
    obtain ⟨qs, hqs, rfl⟩ := exists_of_addAll?_parameters hc hn he
    -- the values that were read stand behind the same names
    have hnames : i.parameters.map (·.1) = qs.map (·.1) := by
      rw [← List.forall₂_eq_eq_eq, List.forall₂_map_left_iff, List.forall₂_map_right_iff]
      exact hqs.imp fun p q hpq => hpq.1
    have hordered : ([] ++ qs : Parameters).Ordered := by
      refine List.pairwise_map.1 ?_
      rw [List.nil_append, ← hnames]
      exact List.pairwise_map.2 ho
    rw [Parameters.foldl_insert hordered, List.nil_append] at hfinish
    have hsame : qs = i.parameters := by
      simp only [Draft.finish?, Option.bind_eq_bind, Option.bind_some] at hfinish
      split at hfinish
      · cases hfinish
      · rw [← Option.some.inj hfinish]
    rw [hsame] at hqs
    exact fun p hp => (List.forall₂_same.1 hqs p hp).2
  · intro h
    rw [Decodes, lines_headerRows hc h.unit h.names]
    exact ofHeader?_headerRows hc h

end Identity

end Scaffold
