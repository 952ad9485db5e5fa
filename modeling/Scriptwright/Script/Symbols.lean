import Scriptwright.Text.NameMap

/-!
# Names that need no definition

A script may call the globals of its host without defining them, and whatever
else the caller injects.  Such names form a plain set.  Words of the language
that take a parenthesis (`isKeyword`) look like calls and never are.
-/

namespace Scriptwright

namespace Symbols

/-- Globals of the language, of the automation bridge, and the application handle. -/
def hostNames : List Text :=
  ["Array", "Boolean", "Date", "Error", "Function", "JSON", "Math", "Number", "Object",
    "RangeError", "RegExp", "String", "SyntaxError", "TypeError", "decodeURI",
    "decodeURIComponent", "encodeURI", "encodeURIComponent", "isFinite", "isNaN",
    "parseFloat", "parseInt",
    "Application", "Automation", "ObjC", "Path", "Progress", "Ref", "delay", "$",
    "app"].map String.toList

/-- The names the host provides. -/
def host : NameSet := NameSet.ofList hostNames

/-- Words that look like calls when a parenthesis follows. -/
def keywords : List Text :=
  ["if", "for", "while", "switch", "catch", "function", "return", "typeof", "new", "do",
    "else", "in", "of", "instanceof", "void", "delete", "throw", "with", "var", "let", "const",
    "case", "try", "finally", "yield", "await"].map String.toList

/-- Whether a name is a word of the language and not a call. -/
def isKeyword (name : Text) : Bool := keywords.contains name

end Symbols

end Scriptwright
