import Scriptwright.Validator

/-!
# Which check a finding comes from

A finding carries the severity and the category of the rule or check that made
it.  Read backwards: **only the check of the structure has findings about the
grammar** (`Validator.mem_structureFindings`), and **what the checks of the
escaping find are warnings about the escaping**
(`Validator.warns_of_mem_escapingFindings`).  A report divides its findings by
severity and by nothing else (`Validator.mem_errors_iff`,
`Validator.mem_warnings_iff`).

All findings but those about missing functions come from the brackets, from a
literal, or from a rule (`Validator.Source`), each of which has few wordings.
-/

namespace Scriptwright

/-- A finding of a rule has the kind of the rule. -/
theorem Rule.kind_of_mem_check {r : Rule} {t : Text} {f : Finding} (hf : f ∈ (r.check t).toList) :
    f.severity = r.severity ∧ f.category = r.category := by
  obtain ⟨p, -, rfl⟩ := Option.map_eq_some_iff.1 (Option.mem_toList.1 hf)
  exact ⟨rfl, rfl⟩

/-- A finding of several rules has the kind of one of them. -/
theorem Rules.kind_of_mem_checkAll {rules : List Rule} {t : Text} {f : Finding}
    (hf : f ∈ Rules.checkAll rules t) :
    ∃ r ∈ rules, f.severity = r.severity ∧ f.category = r.category := by
  obtain ⟨r, hr, hcheck⟩ := List.mem_filterMap.1 hf
  exact ⟨r, hr, Rule.kind_of_mem_check (Option.mem_toList.2 hcheck)⟩

namespace Validator

/-- A finding about a literal has the kind of its check. -/
theorem kind_of_mem_literalFinding {severity : Severity} {category : Category} {message : String}
    {concerned : ScriptLiteral → Bool} {s : Stripped} {f : Finding}
    (hf : f ∈ literalFinding severity category message concerned s) :
    f.severity = severity ∧ f.category = category := by
  obtain ⟨l, -, rfl⟩ := Option.map_eq_some_iff.1 (Option.mem_toList.1 hf)
  exact ⟨rfl, rfl⟩

/-- Only the check of the structure has findings about the grammar. -/
theorem mem_structureFindings {v : Validator} {script : Text} {f : Finding}
    (hf : f ∈ v.findings script) (hcategory : f.category = .grammar) :
    f ∈ structureFindings (strip script) := by
  have hrules {rules : List Rule} (hnone : ∀ r ∈ rules, r.category ≠ .grammar) {t : Text} :
      f ∉ Rules.checkAll rules t := by
    intro hmem
    obtain ⟨r, hr, -, heq⟩ := Rules.kind_of_mem_checkAll hmem
    exact hnone r hr (heq.symm.trans hcategory)
  have hdangerous : ∀ r ∈ Rules.dangerous, r.category ≠ .grammar := by decide
  have hdialect : ∀ r ∈ Rules.dialect, r.category ≠ .grammar := by decide
  have hescaping : ∀ r ∈ Rules.escaping, r.category ≠ .grammar := by decide
  simp only [findings, dialectFindings, escapingFindings, mistakeFindings, List.mem_append,
    hrules hdangerous, hrules hdialect, hrules hescaping, false_or, or_false] at hf
  rcases hf with ((hf | (hf | hf)) | (hf | hf)) | hf | hf
  · exact hf
  · cases (kind_of_mem_literalFinding hf).2.symm.trans hcategory
  · cases (Rule.kind_of_mem_check hf).2.symm.trans hcategory
  · cases (kind_of_mem_literalFinding hf).2.symm.trans hcategory
  · cases (kind_of_mem_literalFinding hf).2.symm.trans hcategory
  · cases (Rule.kind_of_mem_check hf).2.symm.trans hcategory
  · obtain ⟨call, -, rfl⟩ := List.mem_map.1 hf
    cases hcategory

/-- What the checks of the escaping find are warnings about the escaping. -/
theorem warns_of_mem_escapingFindings {script : Text} {s : Stripped} {f : Finding}
    (hf : f ∈ escapingFindings script s) : f.severity = .warning ∧ f.category = .escaping := by
  have hrules : ∀ r ∈ Rules.escaping, r.severity = .warning ∧ r.category = .escaping := by decide
  simp only [escapingFindings, List.mem_append] at hf
  rcases hf with (hf | hf) | hf
  · obtain ⟨r, hr, hseverity, hcategory⟩ := Rules.kind_of_mem_checkAll hf
    rw [hseverity, hcategory]
    exact hrules r hr
  · exact kind_of_mem_literalFinding hf
  · exact kind_of_mem_literalFinding hf

/-- What a report holds was found. -/
theorem mem_findings_of_mem_validate {v : Validator} {script : Text} {f : Finding}
    (hf : f ∈ (v.validate script).findings) : f ∈ v.findings script := by
  rw [Report.findings, errors_validate, warnings_validate] at hf
  rcases List.mem_append.1 hf with hf | hf
  · exact (List.mem_filter.1 hf).1
  · exact (List.mem_filter.1 hf).1

/-- The errors of a report are its findings of that severity. -/
theorem mem_errors_iff {v : Validator} {script : Text} {f : Finding} :
    f ∈ (v.validate script).errors ↔ f ∈ (v.validate script).findings ∧ f.severity = .error := by
  simp only [Report.findings, errors_validate, warnings_validate, List.mem_append, List.mem_filter]
  cases hseverity : f.severity <;> simp [Finding.isError, hseverity]

/-- And its warnings are those of the other. -/
theorem mem_warnings_iff {v : Validator} {script : Text} {f : Finding} :
    f ∈ (v.validate script).warnings ↔
      f ∈ (v.validate script).findings ∧ f.severity = .warning := by
  simp only [Report.findings, errors_validate, warnings_validate, List.mem_append, List.mem_filter]
  cases hseverity : f.severity <;> simp [Finding.isError, hseverity]

/-! ## Sources of findings -/

/-- What a wording begins with that is about brackets, an open literal, a literal over two lines, a
missing function, or an interpolation mark in a plain string. -/
def otherHeads : List Char := ['M', 'U', 'F', '\'']

end Validator

end Scriptwright
