import Scriptwright.Report
import Scriptwright.Script.Calls
import Scriptwright.Script.Delimiters
import Scriptwright.Script.LoopShape
import Scriptwright.Script.Rules
import Scriptwright.Script.Scan
import Scriptwright.Settings

/-!
# Checking a script

`Validator.validate` runs every check on a script and collects what they find in
a report; it never fails.  The checks come in a fixed order: structure (brackets,
open literals), dangerous calls, constructs the dialect lacks, escaping, common
mistakes, and last the suggestions about speed.  All but the escaping rules look
at the code with literals and comments blanked out.

`Validator.quick` runs only the checks for what always breaks a script, and lists
issues as plain texts.

* `valid_validate` — a report is valid exactly if it has no errors;
* `errors_validate` and `warnings_validate` — the two lists are the findings of
  `findings`, in order, divided by severity.
-/

namespace Scriptwright

/-- A check of scripts: its settings, and the names that need no definition. -/
structure Validator where
  settings : ValidatorSettings
  symbols : NameSet

namespace Validator

/-- The check that some settings describe. -/
def ofSettings (settings : ValidatorSettings) : Validator := ⟨settings, settings.symbols⟩

/-- The check with default settings. -/
def default : Validator := ofSettings {}

/-- What an open literal is called. -/
def openLiteralName : LiteralKind → Text
  | .template => "template literal".toList
  | .regex => "regex literal".toList
  | .single | .double => "string literal".toList

/-- A literal that the script leaves open.  One cut off by a bare line feed is left to the escaping
checks. -/
def openLiteral? (l : ScriptLiteral) : Option Finding :=
  if l.terminated || l.rawNewline then none
  else some ⟨.error, .grammar, "Unterminated ".toList ++ openLiteralName l.kind, some l.line⟩

/-- Brackets pair up and literals end. -/
def structureFindings (s : Stripped) : List Finding :=
  (Delimiters.check s.code).toList ++ s.literals.filterMap openLiteral?

/-- A finding at the first literal of a kind. -/
def literalFinding (severity : Severity) (category : Category) (message : String)
    (concerned : ScriptLiteral → Bool) (s : Stripped) : List Finding :=
  ((s.literals.find? concerned).map fun l =>
    ⟨severity, category, message.toList, some l.line⟩ : Option Finding).toList

/-- A template that interpolates. -/
def interpolationFinding (s : Stripped) : List Finding :=
  literalFinding .error .compatibility
    "Template literal interpolation is not supported; concatenate strings instead"
    (fun l => l.kind = .template && l.hasInterpolation) s

/-- Constructs the dialect lacks. -/
def dialectFindings (s : Stripped) : List Finding :=
  Rules.checkAll Rules.dialect s.code ++ interpolationFinding s ++
    (Rules.objectReturn.check s.code).toList

/-- A string cut off by a bare line feed. -/
def rawNewlineFinding (s : Stripped) : List Finding :=
  literalFinding .warning .escaping "Unescaped newline inside a string literal; use \\n"
    (fun l => l.rawNewline) s

/-- An interpolation mark in a plain string. -/
def strayMarkFinding (s : Stripped) : List Finding :=
  literalFinding .warning .escaping
    "'$\x7b' inside a plain string is not interpolated; a value was probably never substituted"
    (fun l => l.isQuoted && l.hasInterpolation) s

/-- Signs of escaping gone wrong. -/
def escapingFindings (script : Text) (s : Stripped) : List Finding :=
  Rules.checkAll Rules.escaping script ++ rawNewlineFinding s ++ strayMarkFinding s

/-- The error of a call of something that is not defined. -/
def missing (call : Call) : Finding :=
  ⟨.error, .compatibility,
    "Function '".toList ++ call.name ++ "' is called but not defined".toList, some call.line⟩

/-- Uninitialised values and calls of functions that nobody defines. -/
def mistakeFindings (v : Validator) (s : Stripped) : List Finding :=
  (Rules.undefinedWord.check s.code).toList ++ (Calls.undefined s.code v.symbols).map missing

/-- All findings of a script, in the order of the checks. -/
def findings (v : Validator) (script : Text) : List Finding :=
  let s := strip script
  structureFindings s ++ Rules.checkAll Rules.dangerous s.code ++ dialectFindings s ++
    escapingFindings script s ++ mistakeFindings v s

/-- Advice on loops nested too deeply. -/
def depthSuggestion (limit : Nat) (shape : LoopShape) : List Text :=
  if limit < shape.maxDepth then
    let place :=
      match shape.deepestLine with
      | some line => " (line ".toList ++ Text.ofNat line ++ [')']
      | none => []
    ["Loops nested ".toList ++ Text.ofNat shape.maxDepth ++ " deep".toList ++ place ++
      "; the application bridge is slow per call, consider flattening".toList]
  else []

/-- Advice on strings built up in a loop. -/
def concatSuggestion (shape : LoopShape) : List Text :=
  match shape.concatLine with
  | some line =>
      ["String concatenation inside a loop (line ".toList ++ Text.ofNat line ++
        "); collect parts in an array and join()".toList]
  | none => []

/-- Advice on calls that load a whole collection. -/
def bulkSuggestion (code : Text) : List Text :=
  match Pattern.find? Rules.bulkCall code with
  | some p =>
      ["Bulk collection call (line ".toList ++ Text.ofNat p.line ++
        ") loads every item; narrow with search() or whose()".toList]
  | none => []

/-- All suggestions about a script. -/
def suggestions (v : Validator) (script : Text) : List Text :=
  let code := (strip script).code
  let shape := LoopShape.ofCode code
  depthSuggestion v.settings.maxLoopDepth shape ++ concatSuggestion shape ++ bulkSuggestion code

/-- The report on a script. -/
def validate (v : Validator) (script : Text) : Report :=
  (Report.empty.addAll (v.findings script)).suggestAll (v.suggestions script)

theorem errors_suggestAll (r : Report) (texts : List Text) :
    (r.suggestAll texts).errors = r.errors ∧ (r.suggestAll texts).warnings = r.warnings ∧
      (r.suggestAll texts).valid = r.valid := by
  induction texts generalizing r with
  | nil => exact ⟨rfl, rfl, rfl⟩
  | cons t texts ih =>
      have h := ih (r.suggest t)
      simp only [Report.suggestAll, List.foldl_cons] at h ⊢
      have same : (r.suggest t).errors = r.errors ∧ (r.suggest t).warnings = r.warnings ∧
          (r.suggest t).valid = r.valid := by
        unfold Report.suggest; split <;> exact ⟨rfl, rfl, rfl⟩
      exact ⟨h.1.trans same.1, h.2.1.trans same.2.1, h.2.2.trans same.2.2⟩

theorem errors_validate (v : Validator) (script : Text) :
    (v.validate script).errors = (v.findings script).filter (·.isError) := by
  rw [validate, (errors_suggestAll _ _).1, Report.addAll_eq]; rfl

theorem warnings_validate (v : Validator) (script : Text) :
    (v.validate script).warnings = (v.findings script).filter (!·.isError) := by
  rw [validate, (errors_suggestAll _ _).2.1, Report.addAll_eq]; rfl

theorem valid_validate (v : Validator) (script : Text) :
    (v.validate script).valid = (v.validate script).errors.isEmpty := by
  rw [errors_validate, validate, (errors_suggestAll _ _).2.2, Report.addAll_eq]
  induction v.findings script with
  | nil => rfl
  | cons f fs ih => cases h : f.isError <;> simp_all [Report.empty]

/-- The issue of a critical helper that is called but not defined. -/
def missingHelper (call : Call) : Text :=
  "Helper '".toList ++ call.name ++ "' is called but not defined (line ".toList ++
    Text.ofNat call.line ++ [')']

/-- The issues the quick check finds. -/
def quickIssues (v : Validator) (script : Text) : List Text :=
  let code := (strip script).code
  let defined := Calls.definedNames code
  let helpers := (Calls.free code).filter fun call =>
    v.settings.criticalHelpers.contains call.name && !defined.contains call.name
  (if Text.includes ['$', '{'] script then
    ["Contains '$\x7b', template interpolation is not supported".toList] else []) ++
  (if Text.includes "console.".toList code then
    ["Contains console output, which corrupts the result".toList] else []) ++
  (if Rules.objectReturn.matchesText code then
    ["Returns an object literal directly; wrap it in JSON.stringify()".toList] else []) ++
  helpers.map missingHelper

/-- The quick check of a script. -/
def quick (v : Validator) (script : Text) : QuickReport := .ofIssues (v.quickIssues script)

end Validator

end Scriptwright
