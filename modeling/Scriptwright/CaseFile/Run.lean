import Scriptwright.CaseFile.Parse
import Scriptwright.Validator

/-!
# Running the cases of a file

A case passes if the verdict on its script is the expected one and every
expectation is met; the first that is not is reported.  A `Summary` counts the
outcomes and keeps those that need a look.
-/

namespace Scriptwright

/-- The outcome of a case: passed, failed with what was expected and what came instead, or not a
proper case. -/
inductive CaseOutcome where
  | pass
  | fail (expected actual : Text)
  | error (message : Text)
deriving DecidableEq

/-- Whether a case passed. -/
def CaseOutcome.isPass (o : CaseOutcome) : Bool := o = .pass

/-- Runs a case. -/
def TestCase.run (c : TestCase) (v : Validator) : CaseOutcome :=
  if Text.allBlank c.script then .error "case has no script".toList
  else
    let report := v.validate c.script
    if report.valid ≠ c.expectValid then
      .fail (if c.expectValid then "valid".toList else "invalid".toList) report.describe
    else
      match c.expectations.find? fun e => !e.isMetBy report with
      | some e => .fail e.describe report.describe
      | none => .pass

/-- A case that did not pass. -/
structure CaseFailure where
  name : Text
  line : Nat
  outcome : CaseOutcome
deriving DecidableEq

/-- The counts of the outcomes of several cases. -/
structure Summary where
  passed : Nat
  failed : Nat
  errors : Nat
  failures : List CaseFailure
deriving DecidableEq

namespace Summary

/-- Before the first case. -/
def empty : Summary := ⟨0, 0, 0, []⟩

/-- Counts an outcome. -/
def record (s : Summary) (name : Text) (line : Nat) (outcome : CaseOutcome) : Summary :=
  match outcome with
  | .pass => { s with passed := s.passed + 1 }
  | .fail _ _ =>
      { s with failed := s.failed + 1, failures := s.failures ++ [⟨name, line, outcome⟩] }
  | .error _ =>
      { s with errors := s.errors + 1, failures := s.failures ++ [⟨name, line, outcome⟩] }

/-- Number of cases. -/
def total (s : Summary) : Nat := s.passed + s.failed + s.errors

/-- Whether every case passed. -/
def allPassed (s : Summary) : Bool := s.failed == 0 && s.errors == 0

/-- A rule across the page. -/
def ruler : Text := List.replicate 60 '═' ++ ['\n']

/-- The lines on an outcome. -/
def describeOutcome : CaseOutcome → Text
  | .pass => []
  | .fail expected actual =>
      "    expected: ".toList ++ expected ++ ['\n'] ++
        (Text.lines actual).flatMap fun line => "    | ".toList ++ line ++ ['\n']
  | .error message => "    error: ".toList ++ message ++ ['\n']

/-- The lines on a case that did not pass. -/
def describeFailure (f : CaseFailure) : Text :=
  "\n  ".toList ++ f.name ++ " (line ".toList ++ Text.ofNat f.line ++ ")\n".toList ++
    describeOutcome f.outcome

/-- The summary as lines of text. -/
def describe (s : Summary) : Text :=
  '\n' :: ruler ++ "Validator cases: ".toList ++ Text.ofNat s.total ++ " total\n".toList ++
    "  ✓ ".toList ++ Text.ofNat s.passed ++ " passed  ✗ ".toList ++ Text.ofNat s.failed ++
    " failed  ⚠ ".toList ++ Text.ofNat s.errors ++ " errors\n".toList ++
    s.failures.flatMap describeFailure ++ ruler

/-- Runs cases in order. -/
def ofCases (v : Validator) (cases : List TestCase) : Summary :=
  cases.foldl (fun s c => s.record c.name c.line (c.run v)) empty

end Summary

end Scriptwright
