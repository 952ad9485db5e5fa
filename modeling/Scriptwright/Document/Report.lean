import Scriptwright.Document.Basic
import Scriptwright.Report

/-!
# Reports as structured data

Findings and reports are records; the line of a finding is left out when it is
not known.  A category or severity is read from its name, which may also stand as
the only key of a table.
-/

namespace Scriptwright

namespace Finding

/-- A finding as data. -/
def toDocument (f : Finding) : Document :=
  let line :=
    match f.line with
    | some line => [("line".toList, Document.integer line)]
    | none => []
  .table ([("type".toList, .text f.category.name), ("message".toList, .text f.message)] ++ line ++
    [("severity".toList, .text f.severity.name)])

/-- A finding from data. -/
def ofDocument? (d : Document) : Option Finding := do
  let record ← d.readRecord .refused ["type", "message", "line", "severity"]
  let category ← Document.field record "type"
    (fun d => d.readChoice.bind Category.ofName?) none
  let message ← Document.field record "message" Document.readText none
  let line ← Document.field record "line" (Document.readOptional Document.readNatural) (some none)
  let severity ← Document.field record "severity"
    (fun d => d.readChoice.bind Severity.ofName?) none
  return ⟨severity, category, message, line⟩

end Finding

namespace Report

/-- A report as data. -/
def toDocument (r : Report) : Document :=
  .table [("valid".toList, .bool r.valid),
    ("errors".toList, .list (r.errors.map Finding.toDocument)),
    ("warnings".toList, .list (r.warnings.map Finding.toDocument)),
    ("suggestions".toList, .list (r.suggestions.map Document.text))]

/-- A report from data; whether it is valid is taken as it says. -/
def ofDocument? (d : Document) : Option Report := do
  let record ← d.readRecord .refused ["valid", "errors", "warnings", "suggestions"]
  let valid ← Document.field record "valid" Document.readBool none
  let errors ← Document.field record "errors" (Document.readList Finding.ofDocument?) none
  let warnings ← Document.field record "warnings" (Document.readList Finding.ofDocument?) none
  let suggestions ← Document.field record "suggestions"
    (Document.readList Document.readText) none
  return ⟨valid, errors, warnings, suggestions⟩

end Report

/-- A quick report as data. -/
def QuickReport.toDocument (q : QuickReport) : Document :=
  .table [("valid".toList, .bool q.valid), ("issues".toList, .list (q.issues.map Document.text))]

end Scriptwright
