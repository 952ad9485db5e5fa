import Scriptwright.Proofs.BracketBalance
import Scriptwright.Proofs.PaddedPatterns
import Scriptwright.Validator

/-!
# Brackets, loops and advice do not notice a blank more between quotes

The walk over the brackets passes quotes and blanks by.  The walk over the loops
goes from token to token; a blank more is one token more, which it passes by as
well, except that it looks behind a plus sign for the first token that is no
blank, and that is the quote itself in either code
(`LoopShape.Walk.appendsString_padded`).

Hence **the first problem with the brackets, the shape of the loops and the
advice on speed are indifferent** (`Delimiters.indifferent_problem?`,
`LoopShape.indifferent_ofCode`, `Validator.indifferent_advice`).
-/

namespace Scriptwright

namespace Delimiters

/-- Other characters than brackets and line feeds are passed by. -/
theorem walk_pass {c : Char} (hbracket : isBracket c = false) (hfeed : c ≠ '\n')
    (opened : List (Char × Nat)) (line : Nat) (rest : Text) :
    walk opened line (c :: rest) = walk opened line rest := by
  simp only [isBracket, Bool.or_eq_false_iff, Option.isSome_eq_false_iff,
    Option.isNone_iff_eq_none] at hbracket
  rw [walk, if_neg hfeed, hbracket.1, hbracket.2]
  rfl

/-- **The first problem with the brackets.** -/
theorem indifferent_problem? : Indifferent problem? := by
  intro front u _
  have hquote : isBracket '"' = false := by decide
  have hspace : isBracket ' ' = false := by decide
  have hwalk (opened : List (Char × Nat)) (line : Nat) :
      walk opened line (front ++ '"' :: ' ' :: u) = walk opened line (front ++ '"' :: u) := by
    induction front generalizing opened line with
    | nil =>
        rw [List.nil_append, List.nil_append, walk_pass hquote (by decide),
          walk_pass hspace (by decide), walk_pass hquote (by decide)]
    | cons c front ih => simp only [List.cons_append, walk, ih]
  exact hwalk [] 1

theorem indifferent_check : Indifferent check := indifferent_problem?.comp _

end Delimiters

namespace LoopShape

/-- Tokens that are the same but for one blank more behind a quote in the first list. -/
def BlankMore (long short : List Token) : Prop :=
  ∃ tokens more, long = tokens ++ .mark '"' :: .mark ' ' :: more ∧
    short = tokens ++ .mark '"' :: more

theorem BlankMore.append {long short : List Token} (h : BlankMore long short)
    (front : List Token) : BlankMore (front ++ long) (front ++ short) := by
  obtain ⟨tokens, more, rfl, rfl⟩ := h
  exact ⟨front ++ tokens, more, (List.append_assoc _ _ _).symm, (List.append_assoc _ _ _).symm⟩

/-- The tokens of the two codes are the same but for one blank. -/
theorem blankMore_tokensFrom (before : Option Char) (current : Option (Bool × Text))
    (front u : Text) :
    BlankMore (tokensFrom before current (front ++ '"' :: ' ' :: u))
      (tokensFrom before current (front ++ '"' :: u)) := by
  induction front generalizing before current with
  | nil =>
      have hbehind : tokensFrom (some ' ') none u = tokensFrom (some '"') none u := by
        cases u <;> rfl
      have hquote : BlankMore (.mark '"' :: .mark ' ' :: tokensFrom (some ' ') none u)
          (.mark '"' :: tokensFrom (some '"') none u) := by
        rw [hbehind]
        exact ⟨[], _, rfl, rfl⟩
      cases current with
      | none => exact hquote
      | some word => exact hquote.append [.word word.1 word.2.reverse]
  | cons c front ih =>
      rw [List.cons_append, List.cons_append]
      cases current with
      | none =>
          rw [tokensFrom, tokensFrom]
          split
          · exact ih _ _
          · exact (ih (some c) none).append [.mark c]
      | some word =>
          rw [tokensFrom, tokensFrom]
          split
          · exact ih _ _
          · exact (ih (some c) none).append [.word word.1 word.2.reverse, .mark c]

namespace Walk

/-- What stands behind a plus sign and blanks is the same. -/
theorem appendsString_padded (tokens more : List Token) :
    appendsString (tokens ++ .mark '"' :: .mark ' ' :: more) =
      appendsString (tokens ++ .mark '"' :: more) := by
  cases tokens with
  | nil => rfl
  | cons token tokens =>
      cases token with
      | word afterPoint name => rfl
      | mark c =>
          rw [List.cons_append, List.cons_append]
          by_cases hc : c = '='
          · subst hc
            have hquote (rest : List Token) :
                (Token.mark '"' :: rest).dropWhile Token.isBlank = .mark '"' :: rest := rfl
            rw [appendsString, appendsString, List.dropWhile_append, List.dropWhile_append, hquote,
              hquote]
            cases tokens.dropWhile Token.isBlank with
            | nil => rfl
            | cons first rest => cases first <;> rfl
          · have hother (rest : List Token) : appendsString (.mark c :: rest) = false := by
              unfold appendsString
              split
              next heq => exact absurd (Token.mark.inj (List.cons.inj heq).1) hc
              next => rfl
            rw [hother, hother]

theorem readMark_congr (w : Walk) (c : Char) {rest rest' : List Token}
    (h : appendsString rest = appendsString rest') : w.readMark c rest = w.readMark c rest' := by
  simp only [readMark, readPlus, h]

/-- One blank more behind a quote changes nothing about the walk. -/
theorem run_padded (w : Walk) (tokens more : List Token) :
    w.run (tokens ++ .mark '"' :: .mark ' ' :: more) = w.run (tokens ++ .mark '"' :: more) := by
  induction tokens generalizing w with
  | nil => rfl
  | cons token tokens ih =>
      cases token with
      | word afterPoint name => exact ih _
      | mark c =>
          rw [List.cons_append, List.cons_append, run, run,
            readMark_congr w c (appendsString_padded tokens more)]
          exact ih _

end Walk

/-- **The shape of the loops.** -/
theorem indifferent_ofCode : Indifferent ofCode := by
  intro front u _
  obtain ⟨tokens', more, hlong, hshort⟩ := blankMore_tokensFrom none none front u
  rw [ofCode, ofCode, tokens, tokens, hlong, hshort, Walk.run_padded]

end LoopShape

namespace Validator

/-- The advice on a code. -/
def advice (v : Validator) (code : Text) : List Text :=
  depthSuggestion v.settings.maxLoopDepth (LoopShape.ofCode code) ++
    concatSuggestion (LoopShape.ofCode code) ++ bulkSuggestion code

theorem suggestions_eq (v : Validator) (script : Text) :
    v.suggestions script = v.advice (strip script).code := rfl

theorem indifferent_bulkSuggestion : Indifferent bulkSuggestion := by
  have hblind : ∀ pattern ∈ Rules.bulkCall, pattern.blind = true ∧ pattern.staysOut = true := by
    decide +kernel
  have hfind := Pattern.indifferent_find? (fun pattern hp => (hblind pattern hp).1)
    fun pattern hp => (hblind pattern hp).2
  intro front u hu
  have hlines := hfind front u hu
  dsimp only at hlines
  rw [bulkSuggestion, bulkSuggestion]
  generalize Pattern.find? Rules.bulkCall (front ++ '"' :: ' ' :: u) = long at hlines ⊢
  generalize Pattern.find? Rules.bulkCall (front ++ '"' :: u) = short at hlines ⊢
  cases long with
  | none =>
      cases short with
      | none => rfl
      | some q => cases hlines
  | some p =>
      cases short with
      | none => cases hlines
      | some q =>
          have hline : p.line = q.line := Option.some.inj hlines
          dsimp only
          rw [hline]

/-- **The advice on speed.** -/
theorem indifferent_advice (v : Validator) : Indifferent v.advice := by
  intro front u hu
  rw [advice, advice, LoopShape.indifferent_ofCode front u hu,
    indifferent_bulkSuggestion front u hu]

end Validator

end Scriptwright
