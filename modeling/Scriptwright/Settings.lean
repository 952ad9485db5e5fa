import Scriptwright.Script.Symbols

/-!
# Settings

What a user may choose: how strictly a script is checked, how the builder frames
it, and when it may be handed to the interpreter.  Every setting has a default,
so no settings at all are a valid choice.
-/

namespace Scriptwright

/-- Helpers whose absence the quick check counts as fatal. -/
def defaultCriticalHelpers : List Text :=
  ["getRecord", "findDatabase", "safeGet", "isGroup", "recordSummary", "successResult",
    "errorResult"].map String.toList

/-- How a script is checked. -/
structure ValidatorSettings where
  /-- Loop bodies nested deeper than this draw a suggestion. -/
  maxLoopDepth : Nat := 2
  /-- Names known besides those of the host. -/
  extraBuiltins : List Text := []
  /-- Names the quick check wants defined if they are called. -/
  criticalHelpers : List Text := defaultCriticalHelpers
  /-- Whether the names of the host are known. -/
  hostBuiltins : Bool := true
deriving DecidableEq

/-- How a script is framed. -/
structure BuilderSettings where
  /-- The application the script talks to. -/
  application : Text := "DEVONthink".toList
  /-- The name of its handle in the script. -/
  handle : Text := "app".toList
  /-- Names that fragments may depend on without there being such fragments. -/
  extraBuiltins : List Text := []
deriving DecidableEq

/-- When a script may run. -/
structure RunnerSettings where
  /-- Run scripts without checking them. -/
  skipValidation : Bool := false
  /-- Let warnings keep a script from running too. -/
  blockOnWarnings : Bool := false
deriving DecidableEq

/-- All settings together. -/
structure Settings where
  validator : ValidatorSettings := {}
  builder : BuilderSettings := {}
  runner : RunnerSettings := {}
deriving DecidableEq

/-- The names a script may use without defining them. -/
def ValidatorSettings.symbols (s : ValidatorSettings) : NameSet :=
  (if s.hostBuiltins then Symbols.host else .empty).addMany s.extraBuiltins

/-- The names a fragment may depend on without there being such fragments. -/
def BuilderSettings.symbols (s : BuilderSettings) : NameSet :=
  Symbols.host.addMany s.extraBuiltins

/-- The default frame around another application. -/
def BuilderSettings.forApplication (application : Text) : BuilderSettings :=
  { application := application }

end Scriptwright
