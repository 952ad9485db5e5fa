import Scriptwright.Text.Basic

/-!
# Findings

A finding says what is wrong with a script, how severe it is, of which category,
and, when that is known, on which line.
-/

namespace Scriptwright

/-- How severe a finding is: an error keeps a script from running, a warning does not. -/
inductive Severity where
  | error
  | warning
deriving DecidableEq

/-- What a finding is about: text that does not parse, a literal whose boundary looks corrupted, a
construct the dialect lacks, or one that runs injected code. -/
inductive Category where
  | grammar
  | escaping
  | compatibility
  | security
deriving DecidableEq

/-- The name of a severity. -/
def Severity.name : Severity → Text
  | .error => "error".toList
  | .warning => "warning".toList

/-- The severity of a name. -/
def Severity.ofName? (name : Text) : Option Severity :=
  [Severity.error, .warning].find? fun s => s.name = name

/-- The name of a category. -/
def Category.name : Category → Text
  | .grammar => "syntax".toList
  | .escaping => "escaping".toList
  | .compatibility => "compatibility".toList
  | .security => "security".toList

/-- The category of a name. -/
def Category.ofName? (name : Text) : Option Category :=
  [Category.grammar, .escaping, .compatibility, .security].find? fun c => c.name = name

/-- One diagnostic. -/
structure Finding where
  severity : Severity
  category : Category
  message : Text
  line : Option Nat
deriving DecidableEq

namespace Finding

/-- Whether a finding keeps a script from running. -/
def isError (f : Finding) : Bool := f.severity = .error

/-- The text of a finding on one line. -/
def describe (f : Finding) : Text :=
  let place :=
    match f.line with
    | some line => " line ".toList ++ Text.ofNat line
    | none => []
  f.severity.name ++ " [".toList ++ f.category.name ++ "]".toList ++ place ++ ": ".toList ++
    f.message

end Finding

end Scriptwright
