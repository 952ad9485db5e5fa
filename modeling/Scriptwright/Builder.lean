import Scriptwright.Catalog
import Scriptwright.Fragment.Standard
import Scriptwright.Literal.Declaration
import Scriptwright.Script.Layout
import Scriptwright.Validator

/-!
# Building a script

A `Builder` gathers what a script is made of: bindings of values and regular
expressions, fragments, and blocks of the main body.  Each step adds one part or
is refused with the reason, so that a builder never holds a name twice.  The
names taken are the handle, the bindings and the selected fragments
(`Builder.taken`).

`build` puts the parts together: fragments and all they depend on, dependencies
first, then the bindings and the body in the order of the steps.  It is refused
if the handle is no identifier, if the fragments cannot be put in order, or if a
fragment that was pulled in as a dependency has a name that is taken or needs
something that does not exist.

A sequence of `Step`s is carried out by `Builder.applyAll`.
-/

namespace Scriptwright

/-- A block of the main body: as written, or guarded by a handler that sees the exception `e`. -/
inductive Block where
  | plain (code : Text)
  | guarded (body handler : Text)
deriving DecidableEq

namespace Block

/-- The handler of a guarded block that brings none. -/
def defaultHandler : Text :=
  ("return JSON.stringify(\x7b success: false, " ++
    "error: String(e && e.message ? e.message : e) \x7d);").toList

/-- The code of a block. -/
def text : Block → Text
  | plain code => code
  | guarded body handler =>
      "try \x7b\n".toList ++ Layout.indent body ++ "\n\x7d catch (e) \x7b\n".toList ++
        Layout.indent handler ++ "\n\x7d".toList

end Block

/-- The parts of a script. -/
structure Builder where
  settings : BuilderSettings
  library : Library
  /-- Fragments asked for, in order. -/
  selected : List Text
  /-- Bindings, in order. -/
  declarations : List Declaration
  /-- Blocks of the main body, in order. -/
  body : List Block

namespace Builder

/-- Nothing but the frame, over the standard library. -/
def ofSettings (settings : BuilderSettings) : Builder :=
  ⟨settings, Library.standard, [], [], []⟩

/-- The names that are taken. -/
def taken (b : Builder) : List Text :=
  b.settings.handle :: b.declarations.map (·.name) ++ b.selected

/-- Why a name cannot be bound. -/
def refusal? (b : Builder) (name : Text) : Option ScriptError :=
  if !isIdentifier name then some (.invalidIdentifier name)
  else if isReserved name then some (.reservedWord name)
  else if name ∈ b.taken then some (.duplicateBinding name)
  else none

/-- Adds a binding. -/
def declare (b : Builder) (name initializer : Text) : Builder :=
  { b with declarations := b.declarations ++ [⟨name, initializer⟩] }

/-- Binds a name to a value, rendered according to a mode. -/
def addVariable (b : Builder) (name : Text) (value : Value) (mode : BindingMode) :
    Except ScriptError Builder :=
  match b.refusal? name with
  | some e => .error e
  | none =>
      match mode.initializer? value with
      | none => .error (.modeMismatch name mode value.kind)
      | some initializer => .ok (b.declare name initializer)

/-- The flags a regular expression may have. -/
def regexFlags : Text := "dgimsuy".toList

/-- Whether flags are known and none is repeated. -/
def flagsAllowed : Text → Bool
  | [] => true
  | flag :: rest => regexFlags.contains flag && !rest.contains flag && flagsAllowed rest

/-- The initializer of a regular expression, from the content of its literal. -/
def regexInitializer (content flags : Text) : Text :=
  let more := if flags.isEmpty then [] else ", \"".toList ++ flags ++ ['"']
  "new RegExp(\"".toList ++ content ++ '"' :: more ++ [')']

/-- Binds a name to a regular expression, given by the content of its literal. -/
def addRegex (b : Builder) (name content flags : Text) : Except ScriptError Builder :=
  match b.refusal? name with
  | some e => .error e
  | none =>
      if flagsAllowed flags then .ok (b.declare name (regexInitializer content flags))
      else .error (.invalidRegexFlags name flags)

/-- Binds a regular expression that is written as the content of a literal already. -/
def addRegexPattern (b : Builder) (name pattern flags : Text) : Except ScriptError Builder :=
  b.addRegex name (Literal.sealContent pattern) flags

/-- Binds a regular expression as its engine should see it. -/
def addRegexSource (b : Builder) (name pattern flags : Text) : Except ScriptError Builder :=
  b.addRegex name (Literal.escape pattern) flags

/-- Binds an entry of the catalog. -/
def addCatalogPattern (b : Builder) (name entry : Text) : Except ScriptError Builder :=
  match Catalog.find? entry with
  | none => .error (.unknownPattern entry)
  | some e => b.addRegexSource name e.pattern e.flags

/-- Puts a fragment into the library under a name and selects it. -/
def addFunction (b : Builder) (name : Text) (fragment : Fragment) : Except ScriptError Builder :=
  match b.refusal? name with
  | some e => .error e
  | none =>
      .ok { b with library := b.library.insert name fragment, selected := b.selected ++ [name] }

/-- Selects a fragment of the library.  Selecting it again changes nothing. -/
def addFragment (b : Builder) (name : Text) : Except ScriptError Builder :=
  if name ∈ b.selected then .ok b
  else if !b.library.contains name then .error (.unknownFragment name)
  else
    match b.refusal? name with
    | some e => .error e
    | none => .ok { b with selected := b.selected ++ [name] }

/-- Adds a block to the main body. -/
def addBlock (b : Builder) (block : Block) : Builder := { b with body := b.body ++ [block] }

/-- Adds code to the main body as written. -/
def addCode (b : Builder) (code : Text) : Builder := b.addBlock (.plain code)

/-- Adds guarded code to the main body, with the default handler unless one is given. -/
def addTryCatch (b : Builder) (body : Text) (handler : Option Text) : Builder :=
  b.addBlock (.guarded body (handler.getD Block.defaultHandler))

/-- Goes on with another library. -/
def withLibrary (b : Builder) (library : Library) : Builder := { b with library := library }

/-- What is wrong with a fragment that is to be emitted: it was not asked for and its name is taken,
or it needs something that does not exist. -/
def offence? (b : Builder) (name : Text) (fragment : Fragment) : Option ScriptError :=
  if name ∉ b.selected ∧ name ∈ b.taken then some (.duplicateBinding name)
  else
    (fragment.dependencies.find? fun dep =>
      !b.library.contains dep && !b.settings.symbols.contains dep).map
        (ScriptError.unresolvedDependency name)

/-- The fragments of the script, in order. -/
def orderedFragments (b : Builder) : Except ScriptError (List (Text × Fragment)) :=
  if b.selected.isEmpty then .ok []
  else
    match b.library.closure b.selected with
    | .error e => .error e
    | .ok ordered =>
        match ordered.findSome? fun (name, fragment) => b.offence? name fragment with
        | some e => .error e
        | none => .ok ordered

/-- The script. -/
def build (b : Builder) : Except ScriptError Text :=
  if !isIdentifier b.settings.handle then .error (.invalidIdentifier b.settings.handle)
  else
    match b.orderedFragments with
    | .error e => .error e
    | .ok ordered =>
        .ok (Layout.assemble b.settings [Library.code ordered,
          Text.join ['\n'] (b.declarations.map Declaration.line),
          Text.join ['\n', '\n'] (b.body.map Block.text)])

/-- The script and the report on it. -/
def buildChecked (b : Builder) (v : Validator) : Except ScriptError (Text × Report) :=
  b.build.map fun script => (script, v.validate script)

/-- One step of building. -/
inductive Step where
  | variable (name : Text) (value : Value) (mode : BindingMode)
  | regexPattern (name pattern flags : Text)
  | regexSource (name pattern flags : Text)
  | catalog (name entry : Text)
  | function (name : Text) (fragment : Fragment)
  | fragment (name : Text)
  | code (code : Text)
  | tryCatch (body : Text) (handler : Option Text)
  | library (library : Library)

/-- Carries out a step. -/
def apply (b : Builder) : Step → Except ScriptError Builder
  | .variable name value mode => b.addVariable name value mode
  | .regexPattern name pattern flags => b.addRegexPattern name pattern flags
  | .regexSource name pattern flags => b.addRegexSource name pattern flags
  | .catalog name entry => b.addCatalogPattern name entry
  | .function name fragment => b.addFunction name fragment
  | .fragment name => b.addFragment name
  | .code code => .ok (b.addCode code)
  | .tryCatch body handler => .ok (b.addTryCatch body handler)
  | .library library => .ok (b.withLibrary library)

/-- Carries out steps in order, up to the first that is refused. -/
def applyAll (b : Builder) : List Step → Except ScriptError Builder
  | [] => .ok b
  | step :: rest =>
      match b.apply step with
      | .error e => .error e
      | .ok b => b.applyAll rest

end Builder

end Scriptwright
