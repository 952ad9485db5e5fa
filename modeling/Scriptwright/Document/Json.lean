import Scriptwright.Document.Basic
import Scriptwright.Number.Format

/-!
# Structured data as JSON text

`Document.json` writes data over several lines, each level of nesting indented by
two more spaces.  A list or table without entries stands on one line.  Texts are
written between double quotes, with short escapes where there are any and
`\u00HH` for the other control characters; everything else stands for itself.
-/

namespace Scriptwright

namespace Document

/-- One character of a text in JSON. -/
def jsonChar (c : Char) : Text :=
  if c = '"' then ['\\', '"']
  else if c = '\\' then ['\\', '\\']
  else if c = '\n' then ['\\', 'n']
  else if c = '\r' then ['\\', 'r']
  else if c = '\t' then ['\\', 't']
  else if c = '\x08' then ['\\', 'b']
  else if c = '\x0C' then ['\\', 'f']
  else if c.toNat < 32 then
    ['\\', 'u', '0', '0', Nat.digitChar (c.toNat / 16), Nat.digitChar (c.toNat % 16)]
  else [c]

/-- A text in JSON. -/
def jsonText (t : Text) : Text := '"' :: t.flatMap jsonChar ++ ['"']

/-- A new line at a level of nesting. -/
def newLine (level : Nat) : Text := '\n' :: List.replicate (2 * level) ' '

/-- Entries between brackets, each on a line of its own. -/
def jsonBlock (opener closer : Char) (level : Nat) (entries : List Text) : Text :=
  if entries.isEmpty then [opener, closer]
  else
    opener :: Text.join [','] (entries.map (newLine (level + 1) ++ ·)) ++ newLine level ++ [closer]

mutual

/-- Data at a level of nesting. -/
def jsonAt (level : Nat) : Document → Text
  | .null => "null".toList
  | .bool b => if b then "true".toList else "false".toList
  | .integer n => if n < 0 then '-' :: Text.ofNat n.natAbs else Text.ofNat n.natAbs
  | .real n => n.format
  | .text t => jsonText t
  | .list items => jsonBlock '[' ']' level (jsonItems (level + 1) items)
  | .table entries => jsonBlock '{' '}' level (jsonEntries (level + 1) entries)

/-- The items of a list. -/
def jsonItems (level : Nat) : List Document → List Text
  | [] => []
  | item :: rest => jsonAt level item :: jsonItems level rest

/-- The entries of a table. -/
def jsonEntries (level : Nat) : List (Text × Document) → List Text
  | [] => []
  | (key, value) :: rest =>
      (jsonText key ++ ':' :: ' ' :: jsonAt level value) :: jsonEntries level rest

end

/-- Data as JSON text. -/
def json (d : Document) : Text := jsonAt 0 d

end Document

end Scriptwright
