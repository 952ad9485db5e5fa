import Scriptwright.Finding

/-!
# Reports

A report collects what a check of a script found: errors, warnings, and
suggestions, which are advice and never count against a script.  `add` puts a
finding in the list of its severity and turns `valid` off for an error, so a
report that grew from `Report.empty` is valid exactly if it has no errors
(`addAll_eq`).  The flag is kept as a field of its own because a report can
also be read from outside, where it says what it says.
-/

namespace Scriptwright

/-- The outcome of a full check. -/
structure Report where
  valid : Bool
  errors : List Finding
  warnings : List Finding
  suggestions : List Text
deriving DecidableEq

namespace Report

/-- The report of a script with nothing to remark. -/
def empty : Report := ⟨true, [], [], []⟩

/-- Puts a finding in the list of its severity. -/
def add (r : Report) (f : Finding) : Report :=
  match f.severity with
  | .error => { r with valid := false, errors := r.errors ++ [f] }
  | .warning => { r with warnings := r.warnings ++ [f] }

/-- Puts several findings in, in order. -/
def addAll (r : Report) (fs : List Finding) : Report := fs.foldl add r

/-- Adds a suggestion unless it is there already. -/
def suggest (r : Report) (suggestion : Text) : Report :=
  if suggestion ∈ r.suggestions then r
  else { r with suggestions := r.suggestions ++ [suggestion] }

/-- Adds several suggestions, in order. -/
def suggestAll (r : Report) (suggestions : List Text) : Report := suggestions.foldl suggest r

/-- All findings, the errors first. -/
def findings (r : Report) : List Finding := r.errors ++ r.warnings

/-- Whether there is nothing at all to remark. -/
def isClean (r : Report) : Bool :=
  r.errors.isEmpty && r.warnings.isEmpty && r.suggestions.isEmpty

/-- Whether some finding is of the category. -/
def hasCategory (r : Report) (category : Category) : Bool :=
  r.findings.any fun f => f.category = category

/-- Whether some error mentions the text. -/
def hasErrorWith (r : Report) (needle : Text) : Bool :=
  r.errors.any fun f => Text.includes needle f.message

/-- The numbers of errors and warnings, for a headline. -/
def counts (r : Report) : Text :=
  Text.ofNat r.errors.length ++ " errors, ".toList ++ Text.ofNat r.warnings.length ++
    " warnings".toList

/-- The report as lines of text, each with its end. -/
def describe (r : Report) : Text :=
  if r.isClean then "script is valid, no findings\n".toList
  else
    let verdict := if r.valid then "valid".toList else "invalid".toList
    let headline := "script is ".toList ++ verdict ++ " (".toList ++ r.counts ++ ", ".toList ++
      Text.ofNat r.suggestions.length ++ " suggestions)\n".toList
    let remarks := r.findings.flatMap fun f => "  ".toList ++ f.describe ++ ['\n']
    let advice := r.suggestions.flatMap fun s => "  suggestion: ".toList ++ s ++ ['\n']
    headline ++ remarks ++ advice

/-- What several findings add: the errors and the others each go to their list in order, and one
error is enough to turn `valid` off. -/
theorem addAll_eq (r : Report) (fs : List Finding) :
    r.addAll fs =
      { r with
        valid := r.valid && !fs.any (·.isError)
        errors := r.errors ++ fs.filter (·.isError)
        warnings := r.warnings ++ fs.filter (!·.isError) } := by
  induction fs generalizing r with
  | nil => simp [addAll]
  | cons f fs ih =>
      have h := ih (r.add f)
      simp only [addAll, List.foldl_cons] at h ⊢
      rw [h]
      cases hs : f.severity <;> simp [add, Finding.isError, hs]

end Report

/-- The outcome of the quick check: its issues, as texts. -/
structure QuickReport where
  valid : Bool
  issues : List Text
deriving DecidableEq

/-- A quick report is valid if there are no issues. -/
def QuickReport.ofIssues (issues : List Text) : QuickReport := ⟨issues.isEmpty, issues⟩

end Scriptwright
