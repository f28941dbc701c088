import Scaffold.Text.Split

/-!
# Unit names

A unit is one part of a template at one version. Its name is written
`template@version:part`. The part begins behind the last colon, and the version
behind the last `@` before that colon.
-/

namespace Scaffold

/-- The name of a unit. -/
structure UnitName where
  template : String
  version : String
  part : String
deriving DecidableEq, Inhabited

namespace UnitName

/-- The written form of a name. -/
def text (u : UnitName) : String := u.template ++ "@" ++ u.version ++ ":" ++ u.part

/-- The name that a text is the written form of. All three of its pieces hold something. -/
def parse? (s : String) : Option UnitName := do
  let (identity, part) ← Text.splitLast? ':' s.toList
  let (template, version) ← Text.splitLast? '@' identity
  if template.isEmpty || version.isEmpty || part.isEmpty then none
  else some ⟨String.ofList template, String.ofList version, String.ofList part⟩

/-- What is said of a text that is no unit name. -/
def refusal (s : String) : String := "expected `template@version:partial`, got `" ++ s ++ "`"

end UnitName
end Scaffold
