import Scriptwright.Builder
import Scriptwright.CommandLine.Arguments
import Scriptwright.CommandLine.BindingSpec
import Scriptwright.Document.Json
import Scriptwright.Document.Report
import Scriptwright.Document.Settings
import Scriptwright.Document.Toml

/-!
# Carrying out a command

`CommandLine.run` carries out a command against the files of an environment.  It
loads the settings first, from the file that was named or else from the default
file if there is one, and answers with the text for each output and whether the
script under test was accepted, or with the reason it could not be done.
-/

namespace Scriptwright

namespace CommandLine

/-- What there is at a path. -/
inductive FileContent where
  | absent
  | unreadable
  | text (t : Text)
deriving DecidableEq

/-- The files and the standard input a command works on. -/
structure Environment where
  file : Text → FileContent
  input : Text
  /-- Where settings are looked for if no file is named. -/
  defaultConfig : Text

/-- Why a command could not be done. -/
inductive RunFailure where
  | configUnreadable (path : Text)
  | configMalformed (path : Text)
  | inputUnreadable (path : Text)
  | binding (fault : BindingSpec.Fault)
  | script (e : ScriptError)
deriving DecidableEq

/-- The wording of a failure. -/
def RunFailure.message : RunFailure → Text
  | configUnreadable path => "Failed to read config file ".toList ++ path
  | configMalformed path => "Failed to parse config file ".toList ++ path
  | inputUnreadable path => "Failed to read ".toList ++ path
  | binding fault => fault.message
  | script e => e.message

/-- What a command prints, and whether the script under test was accepted. -/
structure Outcome where
  accepted : Bool
  output : Text
  errorOutput : Text
deriving DecidableEq

/-- Output of a command that tests nothing. -/
def printed (output : Text) : Outcome := ⟨true, output, []⟩

/-- The settings of a file. -/
def loadFile (env : Environment) (path : Text) : Except RunFailure Settings :=
  match env.file path with
  | .text t =>
      match (Toml.read? t).bind (Settings.ofDocument? .passedOver) with
      | some settings => .ok settings
      | none => .error (.configMalformed path)
  | _ => .error (.configUnreadable path)

/-- The settings of the named file, or of the default file, or the defaults. -/
def loadSettings (env : Environment) (named : Option Text) : Except RunFailure Settings :=
  match named with
  | some path => loadFile env path
  | none =>
      match env.file env.defaultConfig with
      | .absent => .ok {}
      | _ => loadFile env env.defaultConfig

/-- The text of a file, or of the standard input for a dash. -/
def readInput (env : Environment) (path : Text) : Except RunFailure Text :=
  if path = ['-'] then .ok env.input
  else
    match env.file path with
    | .text t => .ok t
    | _ => .error (.inputUnreadable path)

/-- Text with a line end. -/
def asLine (t : Text) : Text := t ++ ['\n']

/-- Several lines, each with its end. -/
def asLines (lines : List Text) : Text := lines.flatMap asLine

/-- Checks a script. -/
def runValidate (v : Validator) (quick json : Bool) (script : Text) : Outcome :=
  if quick then
    let report := v.quick script
    let output :=
      if json then asLine report.toDocument.json
      else if report.valid then "quick check passed\n".toList
      else asLines report.issues
    ⟨report.valid, output, []⟩
  else
    let report := v.validate script
    ⟨report.valid, if json then asLine report.toDocument.json else report.describe, []⟩

/-- Escapes a value. -/
def runEscape (search format : Bool) (value : Text) : Outcome :=
  let content := if search then Literal.escapeSearch value else Literal.escape value
  printed (asLine (if format then '"' :: content ++ ['"'] else content))

/-- The line on a fragment in the list of all fragments. -/
def fragmentLine (entry : Text × Fragment) : Text :=
  let needs := Text.join [',', ' '] entry.2.dependencies
  if needs.isEmpty then entry.1
  else Text.padRight 18 entry.1 ++ " depends on: ".toList ++ needs

/-- Lists all fragments, or shows the named ones with all they need. -/
def runFragments (code : Bool) (names : List Text) : Except RunFailure Outcome :=
  let library := Library.standard
  if names.isEmpty then .ok (printed (asLines (library.entries.map fragmentLine)))
  else
    match library.closure names with
    | .error e => .error (.script e)
    | .ok ordered =>
        .ok (printed (if code then asLine (Library.code ordered)
          else asLines (ordered.map Prod.fst)))

/-- The line on an entry of the catalog. -/
def catalogLine (e : CatalogEntry) : Text :=
  Text.padRight 20 e.name ++ " /".toList ++ e.pattern ++ ['/'] ++ e.flags ++ "  ".toList ++
    e.description

/-- Adds a binding given on the command line. -/
def addBinding (b : Builder) (spec : Text) : Except RunFailure Builder :=
  match BindingSpec.parse spec with
  | .error fault => .error (.binding fault)
  | .ok s =>
      match b.addVariable s.name (.text s.value) s.mode with
      | .error e => .error (.script e)
      | .ok b => .ok b

/-- Selects a fragment named on the command line. -/
def addFragment (b : Builder) (name : Text) : Except RunFailure Builder :=
  match b.addFragment name with
  | .error e => .error (.script e)
  | .ok b => .ok b

/-- Adds the body from a file. -/
def addBody (env : Environment) (guarded : Bool) (b : Builder) (path : Text) :
    Except RunFailure Builder :=
  match readInput env path with
  | .error e => .error e
  | .ok t =>
      .ok (if guarded then b.addTryCatch (Text.trimEnd t) none else b.addCode (Text.trimEnd t))

/-- Builds a script and checks it. -/
def runBuild (env : Environment) (settings : Settings) (bindings fragments : List Text)
    (body : Option Text) (guarded : Bool) : Except RunFailure Outcome := do
  let b ← bindings.foldlM addBinding (Builder.ofSettings settings.builder)
  let b ← fragments.foldlM addFragment b
  let b ← body.toList.foldlM (addBody env guarded) b
  match b.buildChecked (Validator.ofSettings settings.validator) with
  | .error e => throw (.script e)
  | .ok (script, report) =>
      return ⟨report.valid, script, if report.isClean then [] else report.describe⟩

/-- Carries out a command with its settings. -/
def runCommand (env : Environment) (settings : Settings) : Command → Except RunFailure Outcome
  | .validate quick json file =>
      match readInput env file with
      | .error e => .error e
      | .ok script => .ok (runValidate (Validator.ofSettings settings.validator) quick json script)
  | .escape search format value => .ok (runEscape search format value)
  | .fragments code names => runFragments code names
  | .patterns => .ok (printed (asLines (Catalog.entries.map catalogLine)))
  | .build bindings fragments body guarded =>
      runBuild env settings bindings fragments body guarded

/-- The files an invocation may read, given where settings are looked for by default. -/
def pathsOf (defaultConfig : Text) (i : Invocation) : List Text :=
  let inputs :=
    match i.command with
    | .validate _ _ file => [file]
    | .build _ _ body _ => body.toList
    | _ => []
  i.config.getD defaultConfig :: inputs

/-- Carries out an invocation. -/
def run (env : Environment) (i : Invocation) : Except RunFailure Outcome :=
  match loadSettings env i.config with
  | .error e => .error e
  | .ok settings => runCommand env settings i.command

end CommandLine

end Scriptwright
