import Scriptwright.Validator

/-!
# The gate in front of the interpreter

The interpreter lies outside this library; here it is any function of a script in
any monad.  A `Runner` validates a script and hands it over only if nothing
blocks it.  `rejection?` is the whole decision: it is made before the interpreter
is touched, and `run_of_rejection` and `run_of_passed` say that this is all `run`
does with it.
-/

namespace Scriptwright

/-- Why running a script gave no result: it was blocked, or the interpreter failed. -/
inductive RunError where
  | rejected (report : Report)
  | interpreter (message : Text)
deriving DecidableEq

namespace RunError

/-- The wording of an error. -/
def message : RunError → Text
  | rejected report =>
      let first :=
        match report.findings with
        | f :: _ => ": ".toList ++ f.describe
        | [] => []
      "validation failed (".toList ++ report.counts ++ ')' :: first
  | interpreter message => "interpreter error: ".toList ++ message

end RunError

/-- A check in front of an interpreter. -/
structure Runner where
  settings : RunnerSettings
  validator : Validator

namespace Runner

/-- Whether a report keeps a script from running. -/
def blocks (r : Runner) (report : Report) : Bool :=
  !report.valid || (r.settings.blockOnWarnings && !report.warnings.isEmpty)

/-- The report that keeps a script from running. -/
def rejection? (r : Runner) (script : Text) : Option Report :=
  if r.settings.skipValidation then none
  else
    let report := r.validator.validate script
    if r.blocks report then some report else none

/-- Runs a script unless it is rejected. -/
def run {m : Type → Type} [Monad m] {α : Type} (r : Runner)
    (interpret : Text → m (Except RunError α)) (script : Text) : m (Except RunError α) :=
  match r.rejection? script with
  | some report => pure (.error (.rejected report))
  | none => interpret script

variable {m : Type → Type} [Monad m] {α : Type}

theorem run_of_rejection {r : Runner} {script : Text} {report : Report}
    (interpret : Text → m (Except RunError α)) (h : r.rejection? script = some report) :
    r.run interpret script = pure (.error (.rejected report)) := by
  simp [run, h]

theorem run_of_passed {r : Runner} {script : Text}
    (interpret : Text → m (Except RunError α)) (h : r.rejection? script = none) :
    r.run interpret script = interpret script := by
  simp [run, h]

end Runner

end Scriptwright
