import Scriptwright.Fragment.Order
import Scriptwright.ScriptError
import Scriptwright.Text.NameMap

/-!
# Fragments and their libraries

A fragment is a piece of code that other code calls, with the names it needs.
A library holds fragments by name.  Three questions are asked of it about a
selection of names: in what order the selected fragments must stand
(`resolveOrder`), which fragments are needed altogether (`withDependencies`),
and what code all of those make (`render`).  A dependency that the library does
not hold is none of its business: it is expected to be a built-in.
-/

namespace Scriptwright

/-- A reusable piece of code, with the fragments or built-ins it needs. -/
structure Fragment where
  code : Text
  dependencies : List Text
deriving DecidableEq

namespace Fragment

/-- A fragment that needs nothing. -/
def ofCode (code : Text) : Fragment := ⟨code, []⟩

/-- Adds dependencies in order, without repetition. -/
def dependsOn (f : Fragment) (names : List Text) : Fragment :=
  { f with
    dependencies := names.foldl (fun deps name => if name ∈ deps then deps else deps ++ [name])
      f.dependencies }

end Fragment

/-- Fragments by name. -/
abbrev Library := NameMap Fragment

namespace Library

/-- The dependencies of a name; a name without a fragment has none. -/
def dependencies (library : Library) (name : Text) : List Text :=
  match library.find? name with
  | some fragment => fragment.dependencies
  | none => []

/-- A list without the later copies of its members. -/
def dedup (names : List Text) : List Text :=
  names.foldl (fun seen name => if name ∈ seen then seen else seen ++ [name]) []

/-- The first name that the library does not hold. -/
def firstUnknown? (library : Library) (names : List Text) : Option Text :=
  names.find? fun name => !library.contains name

/-- The fragments of some names, in order. -/
def fragments (library : Library) (names : List Text) : List (Text × Fragment) :=
  names.filterMap fun name => (library.find? name).map fun fragment => (name, fragment)

/-- The selected fragments, each once and after those it depends on.  A dependency that is not
selected is not pulled in. -/
def resolveOrder (library : Library) (selected : List Text) :
    Except ScriptError (List (Text × Fragment)) :=
  match library.firstUnknown? selected with
  | some name => .error (.unknownFragment name)
  | none =>
      match Graph.ordered library.dependencies (dedup selected) with
      | .error cycle => .error (.dependencyCycle cycle)
      | .ok names => .ok (library.fragments names)

/-- The selected names, in order, and every name of the library they depend on, directly or through
others. -/
def withDependencies (library : Library) (selected : List Text) : Except ScriptError (List Text) :=
  match library.firstUnknown? selected with
  | some name => .error (.unknownFragment name)
  | none => .ok (Graph.reachable library.dependencies library.names selected)

/-- The selected fragments and all they depend on, in order. -/
def closure (library : Library) (selected : List Text) :
    Except ScriptError (List (Text × Fragment)) :=
  match library.withDependencies selected with
  | .error e => .error e
  | .ok names => library.resolveOrder names

/-- The code of fragments, with an empty line between neighbours. -/
def code (fragments : List (Text × Fragment)) : Text :=
  Text.join ['\n', '\n'] (fragments.map fun entry => entry.2.code)

/-- The code of the selected fragments and all they depend on. -/
def render (library : Library) (selected : List Text) : Except ScriptError Text :=
  (library.closure selected).map code

end Library

end Scriptwright
