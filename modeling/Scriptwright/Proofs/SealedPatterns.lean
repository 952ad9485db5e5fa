import Scriptwright.Builder
import Scriptwright.Proofs.SealedReading

/-!
# What sealing leaves as it is

Sealing walks through a text in steps of one character or of a backslash and the
character behind it, the same steps in which a text is sealed (`Literal.Sealed`).
It changes something only where a step is loose: a bare quote, a line end or a NUL,
or a backslash with nothing behind it that it could escape.  A sealed text without
line ends and NULs has no such step, and whatever sealing makes has none.  So these
texts are exactly the ones that sealing leaves as they are
(`sealContent_eq_self_iff`).

Escaped text is one of them, since outside escape sequences escaping and sealing
differ in five characters only, and these become escape sequences.  Hence
**sealing is needed once, and not at all after escaping** (`sealing_settles`): a
regular expression as its engine sees it, and the same one already escaped, make
the same step of building.
-/

namespace Scriptwright

namespace Literal

theorem sealChar_of_ne_quote {c : Char} (hquote : c ≠ '"') (hkeep : isEscapable c = true) :
    sealChar c = [c] := by
  obtain ⟨hline, hnul⟩ := isEscapable_iff.1 hkeep
  simp only [isLineTerminator, Bool.or_eq_false_iff, beq_eq_false_iff_ne] at hline
  simp [sealChar, hquote, hnul, hline]

theorem sealContent_plain {c : Char} (hslash : c ≠ '\\') (t : Text) :
    sealContent (c :: t) = sealChar c ++ sealContent t := by
  apply sealContent.eq_4
  · intro heq
    exact absurd heq hslash
  · intro next rest heq
    exact absurd heq hslash

/-- A sealed text without line ends and NULs has nothing to be closed. -/
theorem Sealed.sealContent_eq {t : Text} (h : Sealed t) (hclean : ∀ c ∈ t, isEscapable c = true) :
    sealContent t = t := by
  induction h with
  | nil => rfl
  | @plain c t hquote hslash _ _ ih =>
      have hhead : isEscapable c = true := hclean c List.mem_cons_self
      have hrest : sealContent t = t := ih fun d hd => hclean d (List.mem_cons_of_mem _ hd)
      rw [sealContent_plain hslash, sealChar_of_ne_quote hquote hhead, hrest]
      rfl
  | @escaped c t _ _ ih =>
      have hnext : isEscapable c = true := hclean c (by simp)
      have hrest : sealContent t = t := ih fun d hd => hclean d (by simp [hd])
      rw [sealContent, if_pos hnext, hrest]

/-- **Sealing leaves exactly the sealed texts as they are**, those without line ends and NULs. -/
theorem sealContent_eq_self_iff {t : Text} :
    sealContent t = t ↔ Sealed t ∧ ∀ c ∈ t, isEscapable c = true := by
  constructor
  · intro h
    have hsealed : Sealed (sealContent t) := sealed_sealContent t
    have hclean : ∀ c ∈ sealContent t, isEscapable c = true :=
      fun c hc => isEscapable_of_mem_sealContent hc
    rw [h] at hsealed hclean
    exact ⟨hsealed, hclean⟩
  · intro h
    exact h.1.sealContent_eq h.2

/-- The characters that escaping replaces and sealing does not. -/
def escapedOnly : List Char := ['\\', '\'', '\t', '\x0C', '\x0B']

theorem escapeChar_eq_sealChar {c : Char} (h : c ∉ escapedOnly) : escapeChar c = sealChar c := by
  simp only [escapedOnly, List.mem_cons, List.not_mem_nil, or_false, not_or] at h
  simp [escapeChar, sealChar, h]

theorem isEscapable_of_mem_escape {t : Text} {d : Char} (h : d ∈ escape t) :
    isEscapable d = true := by
  obtain ⟨c, -, hd⟩ := List.mem_flatMap.1 h
  by_cases hown : c ∈ escapedOnly
  · have hpairs : ∀ c ∈ escapedOnly, ∀ d ∈ escapeChar c, isEscapable d = true := by decide
    exact hpairs c hown d hd
  · rw [escapeChar_eq_sealChar hown] at hd
    exact isEscapable_of_mem_sealChar hd

/-- **Sealing settles.**  Escaped text and sealed text are left as they are by sealing.  So a regular
expression that is given as its engine sees it, and one that is given escaped as the content of a
literal, are refused for the same reason or make the same builder, and every further step and the
script are the same. -/
theorem sealing_settles (pattern : Text) :
    sealContent (escape pattern) = escape pattern ∧
      sealContent (sealContent pattern) = sealContent pattern ∧
        ∀ (b : Builder) (name flags : Text),
          b.addRegexSource name pattern flags = b.addRegexPattern name (escape pattern) flags ∧
            ∀ steps : List Builder.Step,
              (b.applyAll (.regexSource name pattern flags :: steps)).bind Builder.build =
                (b.applyAll (.regexPattern name (escape pattern) flags :: steps)).bind
                  Builder.build := by
  have hescaped : sealContent (escape pattern) = escape pattern :=
    (sealed_escape pattern).sealContent_eq fun c hc => isEscapable_of_mem_escape hc
  have hsealed : sealContent (sealContent pattern) = sealContent pattern :=
    (sealed_sealContent pattern).sealContent_eq fun c hc => isEscapable_of_mem_sealContent hc
  refine ⟨hescaped, hsealed, fun b name flags => ?_⟩
  have hstep : b.addRegexSource name pattern flags =
      b.addRegexPattern name (escape pattern) flags := by
    rw [Builder.addRegexSource, Builder.addRegexPattern, hescaped]
  refine ⟨hstep, fun steps => ?_⟩
  simp only [Builder.applyAll, Builder.apply, hstep]

/-- Sealing keeps the escape sequence, escaping does not; both close the backslash before NUL. -/
example :
    let pattern : Text := "\\d\\\x00\"".toList
    sealContent pattern = "\\d\\\\\\\"".toList ∧ escape pattern = "\\\\d\\\\\\\"".toList := by
  decide

end Literal

end Scriptwright
