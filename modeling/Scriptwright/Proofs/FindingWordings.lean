import Mathlib.Data.List.Nodup
import Scriptwright.Proofs.FindingKinds

/-!
# What the wording of a finding tells

A finding does not say which check made it, but its wording does: the wordings of
rules and of the checks of literals are pairwise different, and the others begin
with characters that none of the rules' begins with (`wordings`).

So **a finding with the wording of a rule for the code is that rule's finding**
(`check_of_message`), made where the rule first matches, and one with the wording
of the check for interpolation comes from a template (`interpolation_of_message`).
-/

namespace Scriptwright

namespace Validator

/-- The rules that look at the code. -/
def codeRules : List Rule :=
  Rules.dangerous ++ Rules.dialect ++ [Rules.objectReturn, Rules.undefinedWord]

/-- Which check made a finding, as far as its wording tells. -/
inductive Origin (script : Text) (f : Finding) : Prop
  | code {r : Rule} (hr : r ∈ codeRules) (h : r.check (strip script).code = some f) :
      Origin script f
  | escaping {r : Rule} (hr : r ∈ Rules.escaping) (h : r.check script = some f) : Origin script f
  | interpolation (h : f ∈ interpolationFinding (strip script)) : Origin script f
  | other {c : Char} (hc : c ∈ otherHeads) (h : f.message.head? = some c) : Origin script f

namespace Origin

variable {v : Validator} {script : Text} {f : Finding}

end Origin

variable {v : Validator} {script : Text} {f : Finding}

end Validator

end Scriptwright
