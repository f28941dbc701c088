import Scaffold.Comment
import Scaffold.Identity
import Scaffold.Json.Printer
import Scaffold.Json.Reader

/-!
# Headers of regions

A region begins with comment lines that say which unit it comes from and with which
parameters it was applied: one line for the template, one for the part, and one for each
parameter. `Identity.headerLines` writes these lines and `Identity.ofHeader?` reads them.
-/

namespace Scaffold

namespace Identity

/-! ### Writing -/

/-- The text of a parameter's line. -/
def parameterText (name : String) (value : Json.Value) : String :=
  "param " ++ name ++ ": " ++ value.compact

/-- The texts of the lines of a header. -/
def headerTexts (i : Identity) : List String :=
  ("template: " ++ i.unit.template ++ "@" ++ i.unit.version) ::
    ("partial: " ++ i.unit.part) ::
    i.parameters.map fun (name, value) => parameterText name value

/-- The lines of a header, as comments. -/
def headerLines (c : Comment) (i : Identity) : List String :=
  i.headerTexts.map fun text => c.opening ++ text ++ c.closing

/-! ### Reading -/

/-- What the lines of a header have said so far. -/
structure Draft where
  template? : Option (List Char × List Char)
  part? : Option (List Char)
  parameters : Parameters
deriving Inhabited

/-- The draft before the first line. -/
def Draft.empty : Draft := ⟨none, none, []⟩

/-- A template and its version, which are parted by the last `@`. -/
def templateOf? (s : List Char) : Option (List Char × List Char) := do
  let (template, version) ← Text.splitLast? '@' s
  if template.isEmpty || version.isEmpty then none else some (template, version)

/-- The name and the value of a parameter, which are parted by the first colon. -/
def parameterOf? (s : List Char) : Option (String × Json.Value) := do
  let (name, value) ← Text.splitFirst? ':' s
  match Json.document Json.value (Text.trim value) with
  | .ok v => some (String.ofList (Text.trim name), v)
  | .error _ => none

/-- The draft behind one more line with this text. A line that says the same as an earlier
one replaces it. -/
def Draft.add? (d : Draft) (text : List Char) : Option Draft :=
  match Text.stripStart? "template:".toList text with
  | some rest => (templateOf? (Text.trim rest)).map fun t => ⟨some t, d.part?, d.parameters⟩
  | none =>
    match Text.stripStart? "partial:".toList text with
    | some rest => some ⟨d.template?, some (Text.trim rest), d.parameters⟩
    | none =>
      match Text.stripStart? "param ".toList text with
      | some rest =>
        (parameterOf? rest).map fun (name, value) =>
          ⟨d.template?, d.part?, d.parameters.insert name value⟩
      | none => none

/-- The draft behind more lines, all of which have to be comments. -/
def Draft.addAll? (c : Comment) : Draft → List (List Char) → Option Draft
  | d, [] => some d
  | d, line :: rest => do addAll? c (← d.add? (← c.strip? line)) rest

/-- The identity that a draft amounts to. A template and a part have to be named. -/
def Draft.finish? (d : Draft) : Option Identity := do
  let (template, version) ← d.template?
  let part ← d.part?
  if part.isEmpty then none
  else some ⟨⟨String.ofList template, String.ofList version, String.ofList part⟩, d.parameters⟩

/-- The identity that the lines of a header give. -/
def ofHeader? (c : Comment) (lines : List (List Char)) : Option Identity := do
  (← Draft.empty.addAll? c lines).finish?

end Identity
end Scaffold
