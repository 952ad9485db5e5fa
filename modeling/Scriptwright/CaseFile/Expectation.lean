import Scriptwright.Report
import Scriptwright.Text.CharClass

/-!
# Expectations about a report

One line of a case file states that a report has, or with an exclamation mark in
front has not, a finding of a severity and category whose message mentions a
text, or a suggestion that mentions one:

    error: compatibility: Arrow functions
    !suggestion: Bulk
-/

namespace Scriptwright

/-- What a report is expected to contain. -/
inductive Expected where
  | finding (severity : Severity) (category mention : Text)
  | suggestion (mention : Text)
deriving DecidableEq

/-- What a report is expected to contain, or not to contain. -/
structure Expectation where
  negated : Bool
  expected : Expected
deriving DecidableEq

namespace Expectation

/-- The category and the text to be mentioned, divided by a colon; without one there is only a
category. -/
def categoryAndMention (t : Text) : Text × Text :=
  match Text.breakOnce? ':' t with
  | some (category, mention) => (Text.trim category, Text.trim mention)
  | none => (t, [])

/-- What a line without its exclamation mark expects. -/
def expected? (line : Text) : Option Expected :=
  match Text.breakOnce? ':' line with
  | none => none
  | some (head, rest) =>
      let rest := Text.trim rest
      if Text.trim head = "suggestion".toList then some (.suggestion rest)
      else
        (Severity.ofName? (Text.trim head)).map fun severity =>
          .finding severity (categoryAndMention rest).1 (categoryAndMention rest).2

/-- The expectation a line states. -/
def ofLine? (line : Text) : Option Expectation :=
  match Text.trim line with
  | '!' :: rest => (expected? (Text.trimStart rest)).map fun e => ⟨true, e⟩
  | line => (expected? line).map fun e => ⟨false, e⟩

/-- Whether a report contains what is named. -/
def foundIn (report : Report) : Expected → Bool
  | .finding severity category mention =>
      report.findings.any fun f =>
        f.severity = severity && f.category.name = category && Text.includes mention f.message
  | .suggestion mention => report.suggestions.any fun s => Text.includes mention s

/-- Whether a report meets the expectation. -/
def isMetBy (e : Expectation) (report : Report) : Bool := foundIn report e.expected != e.negated

/-- What is expected, in words. -/
def describeExpected : Expected → Text
  | .finding severity category mention =>
      severity.name ++ ": ".toList ++ category ++ ": ".toList ++ mention
  | .suggestion mention => "suggestion: ".toList ++ mention

/-- The expectation in words. -/
def describe (e : Expectation) : Text :=
  if e.negated then "no ".toList ++ describeExpected e.expected else describeExpected e.expected

end Expectation

end Scriptwright
