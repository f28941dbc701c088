import Mathlib.Data.List.Forall2
import Scaffold.Region.Header
import Scaffold.Proofs.Text

/-!
# What the lines of headers say

Each line of a header is a comment that says one thing: which template, which part, or the value
of a parameter (`Field`, `Field.SaidBy`). Lines are a header of an identity if all of them say
something and the last of what they say about each thing is what the identity has (`IsHeader`).
Reading lines gives the identity of which they are a header, and nothing where there is none
(`ofHeader?_eq_some`).
-/

namespace Scaffold

/-- The end of a comment line says nothing. -/
theorem Comment.strip?_dropEndWhile (c : Comment) (line : List Char) :
    c.strip? (Text.dropEndWhile Text.isLineEnd line) = c.strip? line := by
  obtain ⟨t, ht, hline⟩ := Text.exists_dropEndWhile_append Text.isLineEnd line
  have htrim : Text.trim line = Text.trim (Text.dropEndWhile Text.isLineEnd line) := by
    conv_lhs => rw [hline]
    exact Text.trim_append_right (fun x hx => Text.isBlank_of_isLineEnd (ht x hx)) _
  rw [strip?, strip?, htrim]

namespace Identity

/-! ### Fields -/

/-- What a line of a header can say. -/
inductive Field where
  | template (name version : List Char)
  | part (name : List Char)
  | parameter (name : String) (value : Json.Value)

/-- The text of a comment says this. A template and its version are parted by the last `@`, the
name and the value of a parameter by the first colon. -/
def Field.SaidBy : Field → List Char → Prop
  | .template name version, text => ∃ rest, text = "template:".toList ++ rest ∧
      Text.trim rest = name ++ '@' :: version ∧ '@' ∉ version ∧ name ≠ [] ∧ version ≠ []
  | .part name, text => ∃ rest, text = "partial:".toList ++ rest ∧ name = Text.trim rest
  | .parameter name value, text => ∃ before rest,
      text = "param ".toList ++ (before ++ ':' :: rest) ∧ ':' ∉ before ∧
        name = String.ofList (Text.trim before) ∧
        Json.parse (String.ofList (Text.trim rest)) = .ok value

/-- The line is a comment that says this. Its line end does not count. -/
def Field.OnLine (c : Comment) (line : List Char) (f : Field) : Prop :=
  ∃ text, c.strip? (Text.dropEndWhile Text.isLineEnd line) = some text ∧ f.SaidBy text

/-- The template and the version that a field is about. -/
def Field.template? : Field → Option (List Char × List Char)
  | .template name version => some (name, version)
  | _ => none

/-- The part that a field is about. -/
def Field.part? : Field → Option (List Char)
  | .part name => some name
  | _ => none

/-- The parameter that a field is about, and its value. -/
def Field.parameter? : Field → Option (String × Json.Value)
  | .parameter name value => some (name, value)
  | _ => none

/-- What the fields say amounts to the identity. A field takes the place of earlier ones about the
same thing. A template and a part have to be named. -/
structure Amounts (fields : List Field) (i : Identity) : Prop where
  template : (fields.filterMap Field.template?).getLast? =
    some (i.unit.template.toList, i.unit.version.toList)
  part : (fields.filterMap Field.part?).getLast? = some i.unit.part.toList
  named : i.unit.part.toList ≠ []
  parameters : i.parameters = Parameters.ofPairs (fields.filterMap Field.parameter?)

/-- The lines are a header of the identity. -/
def IsHeader (c : Comment) (lines : List (List Char)) (i : Identity) : Prop :=
  ∃ fields, List.Forall₂ (Field.OnLine c) lines fields ∧ Amounts fields i

/-! ### Reading one line -/

theorem templateOf?_eq_some {s name version : List Char} :
    templateOf? s = some (name, version) ↔
      s = name ++ '@' :: version ∧ '@' ∉ version ∧ name ≠ [] ∧ version ≠ [] := by
  constructor
  · intro h
    obtain ⟨⟨n, v⟩, hs, h⟩ := Option.bind_eq_some_iff.1 h
    obtain ⟨hcut, hat⟩ := Text.splitLast?_eq_some hs
    simp only at h
    split at h
    · cases h
    · rename_i hne
      obtain ⟨rfl, rfl⟩ := Prod.mk.inj (Option.some.inj h)
      simp only [Bool.or_eq_true, List.isEmpty_iff, not_or] at hne
      exact ⟨hcut, hat, hne⟩
  · rintro ⟨rfl, hat, hname, hversion⟩
    simp [templateOf?, Text.splitLast?_append name hat, hname, hversion]

theorem parameterOf?_eq_some {s : List Char} {name : String} {value : Json.Value} :
    parameterOf? s = some (name, value) ↔ ∃ before rest, s = before ++ ':' :: rest ∧
      ':' ∉ before ∧ name = String.ofList (Text.trim before) ∧
      Json.parse (String.ofList (Text.trim rest)) = .ok value := by
  have hparse : ∀ rest, Json.parse (String.ofList rest) = Json.document Json.value rest := by
    intro rest
    rw [Json.parse, String.toList_ofList]
  constructor
  · intro h
    obtain ⟨⟨before, rest⟩, hs, h⟩ := Option.bind_eq_some_iff.1 h
    obtain ⟨hcut, hcolon⟩ := Text.splitFirst?_eq_some hs
    simp only at h
    split at h
    · rename_i v hv
      obtain ⟨rfl, rfl⟩ := Prod.mk.inj (Option.some.inj h)
      exact ⟨before, rest, hcut, hcolon, rfl, (hparse _).trans hv⟩
    · cases h
  · rintro ⟨before, rest, rfl, hcolon, rfl, hv⟩
    rw [hparse] at hv
    simp [parameterOf?, Text.splitFirst?_append hcolon, hv]

/-- The draft behind one more field. -/
def Draft.say (d : Draft) : Field → Draft
  | .template name version => ⟨some (name, version), d.part?, d.parameters⟩
  | .part name => ⟨d.template?, some name, d.parameters⟩
  | .parameter name value => ⟨d.template?, d.part?, d.parameters.insert name value⟩

/-- A line that is read says something. -/
theorem Draft.exists_saidBy_of_add? {d e : Draft} {text : List Char} (h : d.add? text = some e) :
    ∃ f : Field, f.SaidBy text ∧ e = d.say f := by
  rw [Draft.add?] at h
  split at h
  · rename_i rest hr
    obtain ⟨⟨name, version⟩, ht, rfl⟩ := Option.map_eq_some_iff.1 h
    exact ⟨.template name version,
      ⟨rest, Text.stripStart?_eq_some.1 hr, templateOf?_eq_some.1 ht⟩, rfl⟩
  split at h
  · rename_i rest hr
    exact ⟨.part (Text.trim rest), ⟨rest, Text.stripStart?_eq_some.1 hr, rfl⟩,
      (Option.some.inj h).symm⟩
  split at h
  · rename_i rest hr
    obtain ⟨⟨name, value⟩, hp, rfl⟩ := Option.map_eq_some_iff.1 h
    obtain ⟨before, after, rfl, hparts⟩ := parameterOf?_eq_some.1 hp
    exact ⟨.parameter name value, ⟨before, after, Text.stripStart?_eq_some.1 hr, hparts⟩, rfl⟩
  · cases h

/-- What a line says is read. -/
theorem Draft.add?_of_saidBy (d : Draft) {f : Field} {text : List Char} (hf : f.SaidBy text) :
    d.add? text = some (d.say f) := by
  cases f with
  | template name version =>
    obtain ⟨rest, rfl, ht⟩ := hf
    rw [add?, Text.stripStart?_append]
    simp only
    rw [templateOf?_eq_some.2 ht]
    rfl
  | part name =>
    obtain ⟨rest, rfl, rfl⟩ := hf
    have htemplate : Text.stripStart? "template:".toList ("partial:".toList ++ rest) = none := rfl
    rw [add?, htemplate]
    simp only
    rw [Text.stripStart?_append]
    rfl
  | parameter name value =>
    obtain ⟨before, rest, rfl, hp⟩ := hf
    have htemplate : Text.stripStart? "template:".toList
        ("param ".toList ++ (before ++ ':' :: rest)) = none := rfl
    have hpart : Text.stripStart? "partial:".toList
        ("param ".toList ++ (before ++ ':' :: rest)) = none := rfl
    rw [add?, htemplate]
    simp only
    rw [hpart]
    simp only
    rw [Text.stripStart?_append]
    simp only
    rw [parameterOf?_eq_some.2 ⟨before, rest, rfl, hp⟩]
    rfl

/-- A line is read if its text says something, and then as that. -/
theorem Draft.add?_eq_some {d e : Draft} {text : List Char} :
    d.add? text = some e ↔ ∃ f : Field, f.SaidBy text ∧ e = d.say f := by
  refine ⟨Draft.exists_saidBy_of_add?, ?_⟩
  rintro ⟨f, hf, rfl⟩
  exact d.add?_of_saidBy hf

/-! ### Reading lines -/

/-- Lines are read if each says something, and then as what they say one by one. -/
theorem Draft.addAll?_eq_some {c : Comment} {lines : List (List Char)} {d e : Draft} :
    d.addAll? c lines = some e ↔
      ∃ fields, List.Forall₂ (Field.OnLine c) lines fields ∧ e = fields.foldl Draft.say d := by
  induction lines generalizing d with
  | nil =>
    simp [addAll?, eq_comm]
  | cons line lines ih =>
    constructor
    · intro h
      obtain ⟨text, htext, h⟩ := Option.bind_eq_some_iff.1 h
      obtain ⟨d', hd', h⟩ := Option.bind_eq_some_iff.1 h
      obtain ⟨f, hf, rfl⟩ := Draft.add?_eq_some.1 hd'
      obtain ⟨fields, hfields, rfl⟩ := ih.1 h
      rw [← Comment.strip?_dropEndWhile] at htext
      exact ⟨f :: fields, .cons ⟨text, htext, hf⟩ hfields, rfl⟩
    · rintro ⟨fields, hfields, rfl⟩
      cases hfields with
      | cons hline hfields =>
        obtain ⟨text, htext, hf⟩ := hline
        rw [Comment.strip?_dropEndWhile] at htext
        have hadd : d.add? text = some (d.say _) := Draft.add?_eq_some.2 ⟨_, hf, rfl⟩
        simp only [addAll?, htext, Option.bind_eq_bind, Option.bind_some, hadd]
        exact ih.2 ⟨_, hfields, rfl⟩

theorem template?_foldl_say (fields : List Field) (d : Draft) :
    (fields.foldl Draft.say d).template? =
      (fields.filterMap Field.template?).getLast?.or d.template? := by
  induction fields generalizing d with
  | nil => rfl
  | cons f fields ih =>
    rw [List.foldl_cons, ih]
    cases f <;> simp [Draft.say, List.filterMap_cons, Field.template?, List.getLast?_cons]

theorem part?_foldl_say (fields : List Field) (d : Draft) :
    (fields.foldl Draft.say d).part? = (fields.filterMap Field.part?).getLast?.or d.part? := by
  induction fields generalizing d with
  | nil => rfl
  | cons f fields ih =>
    rw [List.foldl_cons, ih]
    cases f <;> simp [Draft.say, List.filterMap_cons, Field.part?, List.getLast?_cons]

theorem parameters_foldl_say (fields : List Field) (d : Draft) :
    (fields.foldl Draft.say d).parameters =
      (fields.filterMap Field.parameter?).foldl
        (fun acc p => Parameters.insert p.1 p.2 acc) d.parameters := by
  induction fields generalizing d with
  | nil => rfl
  | cons f fields ih =>
    rw [List.foldl_cons, ih]
    cases f <;> simp [Draft.say, List.filterMap_cons, Field.parameter?]

/-- A draft amounts to an identity that it names. -/
theorem Draft.finish?_eq_some {d : Draft} {i : Identity} :
    d.finish? = some i ↔ d.template? = some (i.unit.template.toList, i.unit.version.toList) ∧
      d.part? = some i.unit.part.toList ∧ i.unit.part.toList ≠ [] ∧
      i.parameters = d.parameters := by
  constructor
  · intro h
    obtain ⟨⟨t, v⟩, ht, h⟩ := Option.bind_eq_some_iff.1 h
    obtain ⟨p, hp, h⟩ := Option.bind_eq_some_iff.1 h
    split at h
    · cases h
    · rename_i hne
      obtain rfl := Option.some.inj h
      simpa [ht, hp] using hne
  · rintro ⟨ht, hp, hne, hparameters⟩
    simp [finish?, ht, hp, hne, ← hparameters]

/-- **Lines are read as the identity of which they are a header**, and as none if there is no
such identity. -/
theorem ofHeader?_eq_some {c : Comment} {lines : List (List Char)} {i : Identity} :
    ofHeader? c lines = some i ↔ IsHeader c lines i := by
  have hfinish : ∀ fields : List Field,
      (fields.foldl Draft.say .empty).finish? = some i ↔ Amounts fields i := by
    intro fields
    rw [Draft.finish?_eq_some, template?_foldl_say, part?_foldl_say, parameters_foldl_say]
    simp only [Draft.empty, Option.or_none]
    constructor
    · rintro ⟨htemplate, hpart, hne, hparameters⟩
      exact ⟨htemplate, hpart, hne, hparameters⟩
    · rintro ⟨htemplate, hpart, hne, hparameters⟩
      exact ⟨htemplate, hpart, hne, hparameters⟩
  constructor
  · intro h
    obtain ⟨d, hd, h⟩ := Option.bind_eq_some_iff.1 h
    obtain ⟨fields, hfields, rfl⟩ := Draft.addAll?_eq_some.1 hd
    exact ⟨fields, hfields, (hfinish fields).1 h⟩
  · rintro ⟨fields, hfields, hi⟩
    refine Option.bind_eq_some_iff.2 ⟨_, Draft.addAll?_eq_some.2 ⟨fields, hfields, rfl⟩, ?_⟩
    exact (hfinish fields).2 hi

end Identity

end Scaffold
