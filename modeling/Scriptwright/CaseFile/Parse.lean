import Scriptwright.CaseFile.Expectation

/-!
# Case files

A case file lists scripts with what a check should say of them.  A case has a
header with its name, optionally a line that says whether the script is valid, a
line of three dashes, the script, three dashes again, the expectations, and a
line of three equals signs:

    # test: arrow_function
    # expect: invalid
    ---
    var f = function () { return [1].map((x) => x); };
    ---
    error: compatibility: Arrow functions
    ===

Lines before a header are passed over, lines among the expectations that state
none as well, and a part that is not closed runs to the end of the file.
-/

namespace Scriptwright

/-- A script with what a check should say of it. -/
structure TestCase where
  name : Text
  /-- The line of the header, counted from 1. -/
  line : Nat
  script : Text
  expectValid : Bool
  expectations : List Expectation
deriving DecidableEq

namespace TestCase

/-- What a line says after the given words, blanks around it left out. -/
def after? (words : String) (line : Text) : Option Text :=
  (Text.dropFront? words.toList (Text.trim line)).map Text.trim

/-- Whether a line consists of the given mark. -/
def isMark (mark : String) (line : Text) : Bool := Text.trim line = mark.toList

/-- The lines up to a mark, and those behind it. -/
def splitAtMark (mark : String) (lines : List Text) : List Text × List Text :=
  (lines.takeWhile (!isMark mark ·), (lines.dropWhile (!isMark mark ·)).drop 1)

/-- Whether the script is expected to be valid, and the lines behind the one that says so. -/
def splitVerdict : List Text → Bool × List Text
  | [] => (true, [])
  | line :: rest =>
      match after? "# expect:" line with
      | some verdict => (verdict ≠ "invalid".toList, rest)
      | none => (true, line :: rest)

/-- The case whose header is the line before these, and the lines behind the case. -/
def ofLines (name : Text) (number : Nat) (lines : List Text) : TestCase × List Text :=
  let (expectValid, lines) := splitVerdict lines
  let (_, lines) := splitAtMark "---" lines
  let (script, lines) := splitAtMark "---" lines
  let (expectations, lines) := splitAtMark "===" lines
  (⟨name, number, Text.join ['\n'] script, expectValid,
    expectations.filterMap Expectation.ofLine?⟩, lines)

theorem splitAtMark_length (mark : String) (lines : List Text) :
    (splitAtMark mark lines).2.length ≤ lines.length := by
  simp only [splitAtMark, List.length_drop]
  have := (List.dropWhile_sublist (l := lines) (!isMark mark ·)).length_le
  omega

theorem splitVerdict_length (lines : List Text) :
    (splitVerdict lines).2.length ≤ lines.length := by
  unfold splitVerdict
  split
  · simp
  · split <;> simp

theorem ofLines_length (name : Text) (number : Nat) (lines : List Text) :
    (ofLines name number lines).2.length ≤ lines.length := by
  let head := splitAtMark "---" (splitVerdict lines).2
  let script := splitAtMark "---" head.2
  calc (ofLines name number lines).2.length
      ≤ script.2.length := splitAtMark_length "===" script.2
    _ ≤ head.2.length := splitAtMark_length "---" head.2
    _ ≤ (splitVerdict lines).2.length := splitAtMark_length "---" _
    _ ≤ lines.length := splitVerdict_length lines

/-- The cases in some lines, of which the first has the given number. -/
def parseLines (number : Nat) (lines : List Text) : List TestCase :=
  match lines with
  | [] => []
  | line :: rest =>
      match after? "# test:" line with
      | none => parseLines (number + 1) rest
      | some name =>
          (ofLines name number rest).1 ::
            parseLines (number + 1 + (rest.length - (ofLines name number rest).2.length))
              (ofLines name number rest).2
termination_by lines.length
decreasing_by
  · simp
  · have := ofLines_length name number rest
    simp only [List.length_cons]; omega

/-- The cases of a file. -/
def parse (content : Text) : List TestCase := parseLines 1 (Text.lines content)

end TestCase

end Scriptwright
