import Scriptwright.Document.Toml.Scalar
import Scriptwright.Document.Toml.Table

/-!
# Values of a settings file

A value is a string, a scalar, an array or an inline table.  An array may go over
several lines, with comments, and end in a comma; an inline table may not.  The
readers of arrays and inline tables are given the reader of what lies inside, so
`takeValue?` is a recursion on how deep values may still go.
-/

namespace Scriptwright

namespace Toml

/-- The items of an array up to its closing bracket. -/
def takeItems? (inner : Text → Option (Document × Text)) (fuel : Nat) (t : Text) :
    Option (List Document × Text) :=
  match fuel with
  | 0 => none
  | fuel + 1 =>
      match skipLines t with
      | ']' :: rest => some ([], rest)
      | t =>
          (inner t).bind fun (item, rest) =>
            match skipLines rest with
            | ',' :: rest =>
                (takeItems? inner fuel rest).map fun (items, rest) => (item :: items, rest)
            | ']' :: rest => some ([item], rest)
            | _ => none

/-- A key, an equals sign, a value, and the blanks around each. -/
def takeAssignment? (inner : Text → Option (Document × Text)) (t : Text) :
    Option ((Key × Document) × Text) :=
  (takeKey? t).bind fun (key, rest) =>
    (takeChar? '=' rest).bind fun rest =>
      (inner (skipSpace rest)).map fun (d, rest) => ((key, d), skipSpace rest)

/-- The fields of an inline table, at least one, up to its closing brace. -/
def takeFields? (inner : Text → Option (Document × Text)) (fuel : Nat) (t : Text) :
    Option (List (Key × Document) × Text) :=
  match fuel with
  | 0 => none
  | fuel + 1 =>
      (takeAssignment? inner t).bind fun (field, rest) =>
        match rest with
        | ',' :: rest =>
            (takeFields? inner fuel rest).map fun (fields, rest) => (field :: fields, rest)
        | '}' :: rest => some ([field], rest)
        | _ => none

/-- An inline table from behind its opening brace. -/
def takeInlineTable? (inner : Text → Option (Document × Text)) (t : Text) :
    Option (Document × Text) :=
  match skipSpace t with
  | '}' :: rest => some (.table [], rest)
  | t =>
      (takeFields? inner t.length t).bind fun (fields, rest) =>
        (setAll? [] fields).map fun entries => (.table (documentsOf entries), rest)

/-- A value in which so many others may lie one in the other. -/
def takeValueWithin? (depth : Nat) (t : Text) : Option (Document × Text) :=
  match depth, t with
  | depth + 1, '[' :: rest =>
      (takeItems? (takeValueWithin? depth) (rest.length + 1) rest).map fun (items, rest) =>
        (.list items, rest)
  | depth + 1, '{' :: rest => takeInlineTable? (takeValueWithin? depth) rest
  | _, t =>
      match t with
      | '"' :: _ | '\'' :: _ => (takeString? t).map fun (content, rest) => (.text content, rest)
      | t => takeScalar? t

/-- A value. -/
def takeValue? (t : Text) : Option (Document × Text) := takeValueWithin? deepest t

end Toml

end Scriptwright
