/-!
# Why a template cannot be rendered
-/

namespace Scaffold.Template

/-- The kind of a fault in a template or of its rendering. -/
inductive Fault where
  | undefinedValue
  | invalidSyntax
  | badEscape
  | unknownFilter
  | unknownFunction
  | unknownMethod
  | unknownTest
  | invalidOperation
  | missingArgument
  | tooManyArguments
  | cannotUnpack
deriving DecidableEq, Inhabited

/-- The name of a kind of faults. -/
def Fault.name : Fault → String
  | .undefinedValue => "undefined value"
  | .invalidSyntax => "syntax error"
  | .badEscape => "bad string escape"
  | .unknownFilter => "unknown filter"
  | .unknownFunction => "unknown function"
  | .unknownMethod => "unknown method"
  | .unknownTest => "unknown test"
  | .invalidOperation => "invalid operation"
  | .missingArgument => "missing argument"
  | .tooManyArguments => "too many arguments"
  | .cannotUnpack => "cannot unpack"

end Scaffold.Template
