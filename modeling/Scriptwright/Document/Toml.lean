import Scriptwright.Document.Toml.Value

/-!
# Settings files

A settings file is written in TOML: assignments of values to keys, one a line,
grouped in sections by the headers of the tables they belong to.  A file is read
in two steps: `takeSections?` divides it into sections, and `Section.addTo?`
fills the tables section by section.  A file that breaks a rule of either step is
unreadable as a whole.  A byte order mark at its front does not count.
-/

namespace Scriptwright

namespace Toml

/-- What the assignments of a section belong to. -/
inductive Header where
  /-- The table of the whole file, before the first header. -/
  | top
  /-- A table. -/
  | table (key : Key)
  /-- A new table at the end of a list of tables. -/
  | tables (key : Key)

/-- A header and the assignments below it. -/
structure Section where
  header : Header
  assignments : List (Key × Document)

/-- Fills the tables of a file with a section. -/
def Section.addTo? (entries : Entries) (s : Section) : Option Entries :=
  match s.header with
  | .top => setAll? entries s.assignments
  | .table key => stateTable? key s.assignments entries
  | .tables key => addTable? key s.assignments entries

/-- The assignments up to the next header or the end of the file. -/
def takeAssignments? (fuel : Nat) (t : Text) : Option (List (Key × Document) × Text) :=
  match fuel with
  | 0 => none
  | fuel + 1 =>
      match skipLines t with
      | [] => some ([], [])
      | '[' :: rest => some ([], '[' :: rest)
      | t =>
          (takeAssignment? takeValue? t).bind fun (assignment, rest) =>
            (takeLineEnd? rest).bind fun rest =>
              (takeAssignments? fuel rest).map fun (assignments, rest) =>
                (assignment :: assignments, rest)

/-- A header. -/
def takeHeader? : Text → Option (Header × Text)
  | '[' :: '[' :: rest =>
      (takeKey? rest).bind fun (key, rest) =>
        (Text.dropFront? [']', ']'] rest).map fun rest => (.tables key, rest)
  | '[' :: rest =>
      (takeKey? rest).bind fun (key, rest) =>
        (Text.dropFront? [']'] rest).map fun rest => (.table key, rest)
  | _ => none

/-- The sections that have a header, up to the end of the file. -/
def takeSections? (fuel : Nat) (t : Text) : Option (List Section) :=
  match fuel, t with
  | 0, _ => none
  | _, [] => some []
  | fuel + 1, t =>
      (takeHeader? t).bind fun (header, rest) =>
        (takeLineEnd? rest).bind fun rest =>
          (takeAssignments? (rest.length + 1) rest).bind fun (assignments, rest) =>
            (takeSections? fuel rest).map fun sections => ⟨header, assignments⟩ :: sections

/-- A text without a byte order mark at its front. -/
def dropMark (t : Text) : Text := (Text.dropFront? ['\uFEFF'] t).getD t

/-- The table a settings file describes. -/
def read? (t : Text) : Option Document :=
  let t := dropMark t
  (takeAssignments? (t.length + 1) t).bind fun (assignments, rest) =>
    (takeSections? (rest.length + 1) rest).bind fun sections =>
      ((⟨.top, assignments⟩ :: sections).foldlM Section.addTo? []).map fun entries =>
        .table (documentsOf entries)

end Toml

end Scriptwright
