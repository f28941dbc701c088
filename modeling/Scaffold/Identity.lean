import Scaffold.Parameters
import Scaffold.UnitName

/-!
# Identities

What generated content comes from: a unit and the parameters that it was applied with.
-/

namespace Scaffold

/-- The application of a unit: which one, and with which parameters. -/
structure Identity where
  unit : UnitName
  parameters : Parameters
deriving Inhabited

/-- Equality of identities. -/
def Identity.same (i j : Identity) : Bool := i.unit == j.unit && i.parameters.same j.parameters

end Scaffold
