import Scriptwright.Literal.Render
import Scriptwright.Number.Read

/-!
# Binding modes

How the value of a binding becomes the text of its initializer.  Text mode takes
any value and renders it as a literal.  Number and truth-value mode take a value
of that kind, or a text that spells one out.  Raw mode puts a text into the
script as it stands, on the caller's word that it is safe there.
-/

namespace Scriptwright

/-- How a value becomes the text of its initializer. -/
inductive BindingMode where
  | text
  | raw
  | number
  | boolean
deriving DecidableEq

namespace BindingMode

/-- The name of a mode. -/
def name : BindingMode → Text
  | text => "string".toList
  | raw => "raw".toList
  | number => "number".toList
  | boolean => "boolean".toList

/-- The mode of a name. -/
def ofName? (t : Text) : Option BindingMode :=
  if t = "string".toList then some text
  else if t = "raw".toList then some raw
  else if t = "number".toList then some number
  else if t = "boolean".toList ∨ t = "bool".toList then some boolean
  else none

/-- The wording for a name that no mode has. -/
def unknownMessage (t : Text) : Text :=
  "unknown escape mode '".toList ++ t ++ "' (expected string, raw, number, or boolean)".toList

/-- The finite number a text spells out, with blanks around it allowed. -/
def finiteNumber? (t : Text) : Option Binary64 :=
  (Binary64.read? (Text.trim t)).filter (·.isFinite)

/-- The initializer of a value in a mode, if the mode takes the value. -/
def initializer? : BindingMode → Value → Option Text
  | text, v => some (Literal.render v)
  | raw, .text t => some t
  | raw, v => some (Literal.render v)
  | number, .number n => some n.format
  | number, .text t => (finiteNumber? t).map Binary64.format
  | number, _ => none
  | boolean, .bool b => some (Literal.renderBool b)
  | boolean, .text t => if t = "true".toList ∨ t = "false".toList then some t else none
  | boolean, _ => none

end BindingMode

end Scriptwright
