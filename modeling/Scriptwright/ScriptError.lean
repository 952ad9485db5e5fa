import Scriptwright.Binding

/-!
# What can be wrong with the parts of a script

Errors of assembly: a name that cannot be bound, a value that does not fit its
mode, a fragment that does not exist or cannot be put in order.  Each carries
what its message needs.
-/

namespace Scriptwright

/-- Why a script cannot be put together. -/
inductive ScriptError where
  | invalidIdentifier (name : Text)
  | reservedWord (name : Text)
  | duplicateBinding (name : Text)
  | modeMismatch (name : Text) (mode : BindingMode) (found : Text)
  | invalidRegexFlags (name flags : Text)
  | unknownFragment (name : Text)
  | unknownPattern (name : Text)
  | unresolvedDependency (fragment dependency : Text)
  | dependencyCycle (cycle : List Text)
deriving DecidableEq

namespace ScriptError

/-- A text between apostrophes. -/
def quoted (t : Text) : Text := '\'' :: t ++ ['\'']

/-- The wording of an error. -/
def message : ScriptError → Text
  | invalidIdentifier name => quoted name ++ " is not a valid identifier".toList
  | reservedWord name =>
      quoted name ++ " is a reserved word and cannot be used as a binding name".toList
  | duplicateBinding name => quoted name ++ " is already bound in this script".toList
  | modeMismatch name mode found =>
      "binding ".toList ++ quoted name ++ " uses ".toList ++ mode.name ++
        " mode but its value is a ".toList ++ found
  | invalidRegexFlags name flags =>
      "invalid regex flags ".toList ++ quoted flags ++ " for ".toList ++ quoted name
  | unknownFragment name => "unknown fragment ".toList ++ quoted name
  | unknownPattern name => "unknown regex pattern ".toList ++ quoted name
  | unresolvedDependency fragment dependency =>
      "fragment ".toList ++ quoted fragment ++ " depends on ".toList ++ quoted dependency ++
        ", which is neither a fragment nor a known built-in".toList
  | dependencyCycle cycle =>
      "fragment dependency cycle: ".toList ++ Text.join " -> ".toList cycle

end ScriptError

end Scriptwright
