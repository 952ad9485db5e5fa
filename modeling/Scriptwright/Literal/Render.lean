import Scriptwright.Literal.Escape
import Scriptwright.Number.Format
import Scriptwright.Value

/-!
# The literal text of a value

`render` is the one way a value enters a script: a text in double quotes, a
number by its shortest digits, a list between square brackets, a map between
braces with its keys in quotes.
-/

namespace Scriptwright

namespace Literal

/-- The text of a truth value. -/
def renderBool (b : Bool) : Text := if b then "true".toList else "false".toList

/-- Items between square brackets. -/
def brackets (items : List Text) : Text := '[' :: Text.join [',', ' '] items ++ [']']

/-- Entries between braces; without any, the braces stand together. -/
def braces (entries : List Text) : Text :=
  if entries.isEmpty then ['{', '}']
  else '{' :: ' ' :: Text.join [',', ' '] entries ++ [' ', '}']

mutual

/-- The literal of a value. -/
def render : Value → Text
  | .null => "null".toList
  | .bool b => renderBool b
  | .number n => n.format
  | .text t => quote t
  | .list items => brackets (renderItems items)
  | .map entries => braces (renderEntries entries)

/-- The literals of the items of a list. -/
def renderItems : List Value → List Text
  | [] => []
  | item :: rest => render item :: renderItems rest

/-- The entries of a map, each a quoted key and the literal of its value. -/
def renderEntries : List (Text × Value) → List Text
  | [] => []
  | (key, value) :: rest => (quote key ++ ':' :: ' ' :: render value) :: renderEntries rest

end

/-- A list of texts as an array literal. -/
def renderTexts (items : List Text) : Text := brackets (items.map quote)

end Literal

end Scriptwright
