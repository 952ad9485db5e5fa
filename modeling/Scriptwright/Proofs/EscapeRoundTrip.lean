import Scriptwright.Literal.Escape
import Scriptwright.Literal.Read

/-!
# What the escaper writes, the reader reads back

`Literal.escape` and the literal reader were written apart: one is a table of
characters, the other a machine with ten forms of escape sequence.  They meet in
one fact about single characters, `escapeChar_written`: a character is dropped
(NUL), stands for itself and is harmless between quotes of either kind, or is
written as a backslash and a sequence that `readEscape` turns back into just that
character, **whatever text follows**.

From there the reader walks over an escaped text character by character
(`readBody_escape_append`) and stops at the first bare quote after it.

* `read_escaped` — between quotes of either kind an escaped text reads back as
  the text without its NULs, and the reader takes exactly the bytes of the
  literal.
* `escape_eq_iff` — two texts are escaped alike exactly if they differ in NULs at
  most.
-/

namespace Scriptwright

namespace Text

/-- A text with every NUL left out. -/
def withoutNul (t : Text) : Text := t.filter (· != '\x00')

theorem withoutNul_cons_nul (t : Text) : withoutNul ('\x00' :: t) = withoutNul t := by
  simp [withoutNul]

theorem withoutNul_cons_of_ne {c : Char} (h : c ≠ '\x00') (t : Text) :
    withoutNul (c :: t) = c :: withoutNul t := by
  simp [withoutNul, h]

end Text

namespace Literal

/-- A text between quotes of a given kind, escaped. -/
def enclose (mark : Char) (t : Text) : Text := mark :: escape t ++ [mark]

theorem quote_eq_enclose (t : Text) : quote t = enclose '"' t := rfl

/-- Stepping over a character that is neither a quote of the literal, a line end nor a backslash. -/
theorem readBody_plain {total : Nat} {mark c : Char} {t value behind : Text}
    (hmark : c ≠ mark) (hline : isLineTerminator c = false) (hback : c ≠ '\\')
    (h : readBody total mark t = .ok (value, behind)) :
    readBody total mark (c :: t) = .ok (c :: value, behind) := by
  rw [readBody]
  simp [hmark, hline, hback, h]

/-- Stepping over an escape sequence. -/
theorem readBody_sequence {total : Nat} {mark : Char} {t after decoded value behind : Text}
    (hmark : mark ≠ '\\') (hescape : readEscape t = .ok (decoded, after))
    (h : readBody total mark after = .ok (value, behind)) :
    readBody total mark ('\\' :: t) = .ok (decoded ++ value, behind) := by
  have hline : isLineTerminator '\\' = false := by decide
  rw [readBody]
  simp only [Ne.symm hmark, hline, Bool.false_eq_true, if_false, if_true]
  split
  next heq => rw [hescape] at heq; cases heq
  next heq =>
    rw [hescape] at heq
    cases heq
    simp [h]

/-- The sequence of a line separator is read as that separator: four digits are taken, no more. -/
theorem readEscape_separator (t : Text) :
    readEscape ('u' :: '2' :: '0' :: '2' :: '8' :: t) = .ok (['\u2028'], t) ∧
      readEscape ('u' :: '2' :: '0' :: '2' :: '9' :: t) = .ok (['\u2029'], t) := by
  constructor <;> rfl

/-- The ways to write a character between quotes of either kind: it is dropped, it stands for
itself, or a backslash begins a sequence that reads back as the character before any further
text. -/
inductive WrittenAs (c : Char) : Text → Prop where
  | dropped (hnul : c = '\x00') : WrittenAs c []
  | plain (hnul : c ≠ '\x00') (hdouble : c ≠ '"') (hsingle : c ≠ '\'') (hback : c ≠ '\\')
      (hline : isLineTerminator c = false) : WrittenAs c [c]
  | sequence (e : Text) (hnul : c ≠ '\x00')
      (hread : ∀ t, readEscape (e ++ t) = .ok ([c], t)) : WrittenAs c ('\\' :: e)

/-- **Escaping knows only these ways.** -/
theorem escapeChar_written (c : Char) : WrittenAs c (escapeChar c) := by
  by_cases h1 : c = '\\'
  · subst h1; exact .sequence ['\\'] (by decide) fun t => rfl
  by_cases h2 : c = '"'
  · subst h2; exact .sequence ['"'] (by decide) fun t => rfl
  by_cases h3 : c = '\''
  · subst h3; exact .sequence ['\''] (by decide) fun t => rfl
  by_cases h4 : c = '\n'
  · subst h4; exact .sequence ['n'] (by decide) fun t => rfl
  by_cases h5 : c = '\r'
  · subst h5; exact .sequence ['r'] (by decide) fun t => rfl
  by_cases h6 : c = '\t'
  · subst h6; exact .sequence ['t'] (by decide) fun t => rfl
  by_cases h7 : c = '\x0C'
  · subst h7; exact .sequence ['f'] (by decide) fun t => rfl
  by_cases h8 : c = '\x0B'
  · subst h8; exact .sequence ['v'] (by decide) fun t => rfl
  by_cases h9 : c = '\u2028'
  · subst h9; exact .sequence "u2028".toList (by decide) fun t => (readEscape_separator t).1
  by_cases h10 : c = '\u2029'
  · subst h10; exact .sequence "u2029".toList (by decide) fun t => (readEscape_separator t).2
  by_cases h11 : c = '\x00'
  · subst h11; exact .dropped rfl
  · have hself : escapeChar c = [c] := by
      simp [escapeChar, h1, h2, h3, h4, h5, h6, h7, h8, h9, h10, h11]
    have hline : isLineTerminator c = false := by simp [isLineTerminator, h4, h5, h9, h10]
    rw [hself]
    exact .plain h11 h2 h3 h1 hline

/-- **Reading over an escaped text.**  Whatever the reader makes of the text behind it, in front of
that it puts the escaped text without its NULs. -/
theorem readBody_escape_append {total : Nat} {mark : Char} (hmark : mark = '"' ∨ mark = '\'')
    (s : Text) {t value behind : Text} (h : readBody total mark t = .ok (value, behind)) :
    readBody total mark (escape s ++ t) = .ok (Text.withoutNul s ++ value, behind) := by
  have hback : mark ≠ '\\' := by rcases hmark with rfl | rfl <;> decide
  induction s with
  | nil => exact h
  | cons c s ih =>
      rw [escape_cons, List.append_assoc]
      generalize escapeChar c = w, escapeChar_written c = hw
      cases hw with
      | dropped hnul =>
          have hdrop : Text.withoutNul (c :: s) = Text.withoutNul s := by
            simp [Text.withoutNul, hnul]
          rw [hdrop]
          exact ih
      | plain hnul hdouble hsingle hbackslash hline =>
          have hkeep : Text.withoutNul (c :: s) = c :: Text.withoutNul s := by
            simp [Text.withoutNul, hnul]
          have hne : c ≠ mark := by rcases hmark with rfl | rfl <;> assumption
          rw [hkeep]
          exact readBody_plain hne hline hbackslash ih
      | sequence e hnul hread =>
          have hkeep : Text.withoutNul (c :: s) = [c] ++ Text.withoutNul s := by
            simp [Text.withoutNul, hnul]
          rw [hkeep, List.cons_append, List.append_assoc]
          exact readBody_sequence hback (hread _) ih

/-- The reader splits an escaped text between quotes off whatever follows it. -/
theorem split_enclose {mark : Char} (hmark : mark = '"' ∨ mark = '\'') (s rest : Text) :
    split? (enclose mark s ++ rest) = .ok (Text.withoutNul s, rest) := by
  have hend (total : Nat) : readBody total mark (mark :: rest) = .ok ([], rest) := by
    rw [readBody]; simp
  have hshape : enclose mark s ++ rest = mark :: (escape s ++ mark :: rest) := by
    simp [enclose]
  rw [hshape, split?, if_pos hmark, readBody_escape_append hmark s (hend _), List.append_nil]

/-- **Round trip in any context.**  An escaped text between double or single quotes, before any
further text, reads back as the text without its NULs; the reader takes the literal and not a byte
more. -/
theorem read_escaped (s rest : Text) :
    read? (quote s ++ rest) = .ok (Text.withoutNul s, Text.byteLength (quote s)) ∧
      read? (enclose '\'' s ++ rest) = .ok (Text.withoutNul s, Text.byteLength (enclose '\'' s)) := by
  have taken (mark : Char) (hmark : mark = '"' ∨ mark = '\'') :
      read? (enclose mark s ++ rest) = .ok (Text.withoutNul s, Text.byteLength (enclose mark s)) := by
    rw [read?, split_enclose hmark s rest, Text.byteLength_append]
    simp
  rw [quote_eq_enclose]
  exact ⟨taken '"' (.inl rfl), taken '\'' (.inr rfl)⟩

/-- What escaping drops is the NULs and nothing else. -/
theorem escape_withoutNul (t : Text) : escape (Text.withoutNul t) = escape t := by
  have hnul : escapeChar '\x00' = [] := by decide
  induction t with
  | nil => rfl
  | cons c t ih =>
      by_cases hc : c = '\x00'
      · subst hc
        rw [Text.withoutNul_cons_nul, escape_cons, hnul, List.nil_append, ih]
      · rw [Text.withoutNul_cons_of_ne hc, escape_cons, escape_cons, ih]

/-- **Texts are escaped alike exactly if they are the same but for NULs.** -/
theorem escape_eq_iff {s t : Text} :
    escape s = escape t ↔ Text.withoutNul s = Text.withoutNul t := by
  constructor
  · intro h
    have hsplit := split_enclose (.inl rfl) s []
    rw [enclose, h, ← enclose, split_enclose (.inl rfl) t []] at hsplit
    exact (Prod.mk.inj (Except.ok.inj hsplit)).1.symm
  · intro h
    rw [← escape_withoutNul s, ← escape_withoutNul t, h]

end Literal

end Scriptwright
