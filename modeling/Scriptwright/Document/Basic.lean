import Scriptwright.Number.Binary64

/-!
# Structured data

Settings are read from structured data and reports are written as such: the
missing value, truth values, whole and other numbers, texts, lists and tables.
The readers below answer `none` for data of another shape.

A record may be given as a table, where keys that no field has are passed over,
or as the list of its fields in order of declaration, of which any number at the
end may be left out.  Whether the list may be longer than the record is for the
format to say (`Surplus`).
-/

namespace Scriptwright

/-- Structured data. -/
inductive Document where
  | null
  | bool (b : Bool)
  | integer (n : Int)
  | real (n : Binary64)
  | text (t : Text)
  | list (items : List Document)
  | table (entries : List (Text × Document))
deriving Inhabited

/-- What becomes of the items of a list that are more than the fields of the record it gives. -/
inductive Surplus where
  | refused
  | passedOver
deriving DecidableEq

namespace Document

/-- A truth value. -/
def readBool : Document → Option Bool
  | bool b => some b
  | _ => none

/-- A natural number of at most 64 bits. -/
def readNatural : Document → Option Nat
  | integer n => if 0 ≤ n ∧ n ≤ 18446744073709551615 then some n.toNat else none
  | _ => none

/-- A text. -/
def readText : Document → Option Text
  | text t => some t
  | _ => none

/-- A name that stands for itself: a text, or the only key of a table with nothing behind it. -/
def readChoice : Document → Option Text
  | text t => some t
  | table [(t, null)] => some t
  | _ => none

/-- A list whose items are all of one kind. -/
def readList {α : Type} (read : Document → Option α) : Document → Option (List α)
  | list items => items.mapM read
  | _ => none

/-- Something that may be missing. -/
def readOptional {α : Type} (read : Document → Option α) : Document → Option (Option α)
  | null => some none
  | d => (read d).map some

/-- The fields of a record, with those that are missing left out. -/
def readRecord (surplus : Surplus) (fields : List String) :
    Document → Option (List (Text × Document))
  | table entries => some entries
  | list items =>
      if surplus = .passedOver ∨ items.length ≤ fields.length then
        some ((fields.map String.toList).zip items)
      else none
  | _ => none

/-- A field of a record, with what stands for it if it is missing. -/
def field {α : Type} (record : List (Text × Document)) (name : String)
    (read : Document → Option α) (missing : Option α) : Option α :=
  match record.lookup name.toList with
  | some d => read d
  | none => missing

end Document

end Scriptwright
