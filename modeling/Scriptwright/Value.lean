import Scriptwright.Number.Binary64
import Scriptwright.Text.NameMap

/-!
# Values a script can be given

A `Value` is what a caller binds to a name of a script: the missing value, a
truth value, a number, a text, a list, or a map with text keys.  Maps list their
entries in ascending order of the keys (`Value.ofEntries` puts them there), so a
map has one form and one text.
-/

namespace Scriptwright

/-- A value that has a literal form. -/
inductive Value where
  | null
  | bool (b : Bool)
  | number (n : Binary64)
  | text (t : Text)
  | list (items : List Value)
  | map (entries : List (Text × Value))
deriving Inhabited

namespace Value

/-- Short name of what kind of value it is, for messages. -/
def kind : Value → Text
  | null => "null".toList
  | bool _ => "boolean".toList
  | number _ => "number".toList
  | text _ => "string".toList
  | list _ => "list".toList
  | map _ => "map".toList

/-- Whether a value is the missing one. -/
def isNull : Value → Bool
  | null => true
  | _ => false

/-- The text of a text. -/
def asText? : Value → Option Text
  | text t => some t
  | _ => none

/-- The map with the given entries; of several with one key the last counts. -/
def ofEntries (entries : List (Text × Value)) : Value :=
  .map (NameMap.insertMany .empty entries).entries

end Value

end Scriptwright
