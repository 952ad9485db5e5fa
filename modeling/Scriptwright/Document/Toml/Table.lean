import Scriptwright.Document.Basic
import Scriptwright.Document.Toml.Lexical

/-!
# How a settings file fills its tables

Tables come into being in three ways, and which way decides what may be done with
them later (`Origin`): a table that is *stated* has a header of its own or stands
between braces, one that is *passed* lies on the way of a header to a table
inside it, one that is *dotted* lies on the way of a key with several parts.

* A header may state a table that was passed, but no other that is there already.
* A key may go through every table but a stated one, and what it sets must lie in
  a dotted table, or right in the table of the section it belongs to.
* A header in double brackets adds a table to a list of tables; on every way
  through such a list its last table is meant.
* Nothing is set twice.
-/

namespace Scriptwright

namespace Toml

/-- How a table came into being. -/
inductive Origin where
  | stated
  | passed
  | dotted
deriving DecidableEq

/-- What stands under a name while a file is read. -/
inductive Node where
  /-- A value, to which nothing can be added. -/
  | value (d : Document)
  /-- A table. -/
  | table (origin : Origin) (entries : List (Text × Node))
  /-- A list of tables, of which the latest is still open. -/
  | tables (earlier : List Document) (latest : List (Text × Node))

/-- What a table holds. -/
abbrev Entries := List (Text × Node)

mutual

/-- What a node says, however it came into being. -/
def Node.toDocument : Node → Document
  | .value d => d
  | .table _ entries => .table (documentsOf entries)
  | .tables earlier latest => .list (earlier ++ [.table (documentsOf latest)])

/-- What the entries of a table say. -/
def documentsOf : List (Text × Node) → List (Text × Document)
  | [] => []
  | (name, node) :: rest => (name, node.toDocument) :: documentsOf rest

end

/-- Puts a node in the place of what stands under a name. -/
def replaceAt (name : Text) (node : Node) (entries : Entries) : Entries :=
  entries.map fun entry => if entry.1 = name then (name, node) else entry

/-- Changes the table at the end of a path that begins in a table of the given origin.  Tables that
are missing on the way are made; those on the way must be such as may be entered. -/
def changeAt? (made : Origin) (mayEnter : Origin → Bool)
    (change : Origin → Entries → Option Entries) (origin : Origin) (path : List Text)
    (entries : Entries) : Option Entries :=
  match path with
  | [] => change origin entries
  | name :: path =>
      match entries.lookup name with
      | none =>
          (changeAt? made mayEnter change made path []).map fun inner =>
            entries ++ [(name, .table made inner)]
      | some (.value _) => none
      | some (.table origin inner) =>
          if mayEnter origin then
            (changeAt? made mayEnter change origin path inner).map fun inner =>
              replaceAt name (.table origin inner) entries
          else none
      | some (.tables earlier latest) =>
          (changeAt? made mayEnter change .stated path latest).map fun latest =>
            replaceAt name (.tables earlier latest) entries

/-- Sets a key in a stated table. -/
def set? (entries : Entries) (key : Key) (d : Document) : Option Entries :=
  changeAt? .dotted (· != .stated)
    (fun origin inner =>
      if (key.path.isEmpty || origin = .dotted) && (inner.lookup key.name).isNone then
        some (inner ++ [(key.name, .value d)])
      else none)
    .stated key.path entries

/-- Sets several keys in a stated table, one after the other. -/
def setAll? (entries : Entries) (assignments : List (Key × Document)) : Option Entries :=
  assignments.foldlM (fun entries assignment => set? entries assignment.1 assignment.2) entries

/-- The table that lies under the path of a key, changed by way of a header. -/
def changeByHeader? (key : Key) (change : Entries → Option Entries) (entries : Entries) :
    Option Entries :=
  changeAt? .passed (fun _ => true) (fun _ inner => change inner) .stated key.path entries

/-- States a table and sets keys in it. -/
def stateTable? (key : Key) (assignments : List (Key × Document)) (entries : Entries) :
    Option Entries :=
  changeByHeader? key (fun inner =>
    match inner.lookup key.name with
    | none =>
        (setAll? [] assignments).map fun table => inner ++ [(key.name, .table .stated table)]
    | some (.table .passed table) =>
        (setAll? table assignments).map fun table =>
          replaceAt key.name (.table .stated table) inner
    | some _ => none) entries

/-- Adds a table to a list of tables and sets keys in it. -/
def addTable? (key : Key) (assignments : List (Key × Document)) (entries : Entries) :
    Option Entries :=
  changeByHeader? key (fun inner =>
    (setAll? [] assignments).bind fun table =>
      match inner.lookup key.name with
      | none => some (inner ++ [(key.name, .tables [] table)])
      | some (.tables earlier latest) =>
          some (replaceAt key.name
            (.tables (earlier ++ [.table (documentsOf latest)]) table) inner)
      | some _ => none) entries

end Toml

end Scriptwright
