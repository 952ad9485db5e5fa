import Scriptwright.Proofs.FindingKinds
import Scriptwright.Runner

/-!
# What reaches the interpreter

The gate decides from the flag of a report, not from its findings; that the two say
the same is the work of the checks (`Runner.blocks_validate`).  To see how often the
interpreter is called and on what, it is given a `Runner.logged` interpreter, which
writes down every script it is handed.

**The gate is sound** (`Runner.run_logged`): a script that is held back never reaches
the interpreter and its outcome is the report; every other script reaches it once
and unchanged, and what the interpreter makes of it is the outcome.  A script is
held back (`Runner.HoldsBack`) for errors, or for warnings if these block, and never
for a suggestion.
-/

namespace Scriptwright

namespace Runner

variable {m : Type → Type} [Monad m] {α : Type}

/-- An interpreter that writes down the scripts it is handed, the last one last. -/
def logged (interpret : Text → m (Except RunError α)) (script : Text) :
    StateT (List Text) m (Except RunError α) := fun handed => do
  let outcome ← interpret script
  pure (outcome, handed ++ [script])

/-- Whether a script is kept from the interpreter: it is to be checked, and the report has an error,
or a warning where these block. -/
def HoldsBack (r : Runner) (script : Text) : Prop :=
  let findings := (r.validator.validate script).findings
  r.settings.skipValidation = false ∧
    ((∃ f ∈ findings, f.severity = .error) ∨
      r.settings.blockOnWarnings = true ∧ ∃ f ∈ findings, f.severity = .warning)

instance (r : Runner) (script : Text) : Decidable (r.HoldsBack script) := by
  unfold HoldsBack
  infer_instance

/-- **The flag of a report is in step with its findings.** -/
theorem blocks_validate (r : Runner) (script : Text) :
    r.blocks (r.validator.validate script) = true ↔
      (∃ f ∈ (r.validator.validate script).findings, f.severity = .error) ∨
        r.settings.blockOnWarnings = true ∧
          ∃ f ∈ (r.validator.validate script).findings, f.severity = .warning := by
  have herrors : (r.validator.validate script).errors.isEmpty = false ↔
      ∃ f ∈ (r.validator.validate script).findings, f.severity = .error := by
    rw [List.isEmpty_eq_false_iff_exists_mem]
    exact exists_congr fun f => Validator.mem_errors_iff
  have hwarnings : (r.validator.validate script).warnings.isEmpty = false ↔
      ∃ f ∈ (r.validator.validate script).findings, f.severity = .warning := by
    rw [List.isEmpty_eq_false_iff_exists_mem]
    exact exists_congr fun f => Validator.mem_warnings_iff
  rw [blocks, Validator.valid_validate, Bool.or_eq_true, Bool.and_eq_true, Bool.not_eq_true',
    Bool.not_eq_true', herrors, hwarnings]

/-- A script is rejected exactly if it is held back, and then with its report. -/
theorem rejection?_eq (r : Runner) (script : Text) :
    r.rejection? script =
      if r.HoldsBack script then some (r.validator.validate script) else none := by
  rw [rejection?]
  cases hskip : r.settings.skipValidation with
  | true => simp [HoldsBack, hskip]
  | false =>
      by_cases hblocks : r.blocks (r.validator.validate script) = true
      · simp [HoldsBack, hskip, hblocks, (blocks_validate r script).1 hblocks]
      · have hpasses := mt (blocks_validate r script).2 hblocks
        simp only [HoldsBack, hskip, hpasses, hblocks, Bool.false_eq_true, and_false, if_false]

/-- **The gate is sound.**  A script that is held back gets its report and never reaches the
interpreter; any other reaches it once, as it is, and the outcome is the interpreter's.  Advice
makes no difference to the decision. -/
theorem run_logged (r : Runner) (interpret : Text → m (Except RunError α)) (script : Text)
    (handed : List Text) :
    r.run interpret script =
        (if r.HoldsBack script then pure (.error (.rejected (r.validator.validate script)))
          else interpret script) ∧
      (r.run (logged interpret) script).run handed =
        (if r.HoldsBack script then
          pure (.error (.rejected (r.validator.validate script)), handed)
        else do
          let outcome ← interpret script
          pure (outcome, handed ++ [script])) ∧
      ∀ (report : Report) (suggestions : List Text),
        r.blocks { report with suggestions := suggestions } = r.blocks report := by
  have hrejection := rejection?_eq r script
  by_cases hheld : r.HoldsBack script
  · rw [if_pos hheld] at hrejection ⊢
    rw [if_pos hheld, run_of_rejection interpret hrejection, run_of_rejection _ hrejection]
    exact ⟨rfl, rfl, fun _ _ => rfl⟩
  · rw [if_neg hheld] at hrejection ⊢
    rw [if_neg hheld, run_of_passed interpret hrejection, run_of_passed _ hrejection]
    exact ⟨rfl, rfl, fun _ _ => rfl⟩

end Runner

end Scriptwright
