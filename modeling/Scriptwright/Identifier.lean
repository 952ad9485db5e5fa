import Scriptwright.Text.Basic

/-!
# Names a script may bind

An identifier is a letter of ASCII, an underscore or a dollar sign, followed by
any number of those and of decimal digits.  Reserved words are identifiers that
no binding may use; that is asked separately (`isReserved`), since the word list
is the dialect's and the shape is the lexer's.
-/

namespace Scriptwright

/-- A character an identifier may begin with. -/
def opensName (c : Char) : Bool := c.isAlpha || c == '_' || c == '$'

/-- A character an identifier may go on with. -/
def extendsName (c : Char) : Bool := c.isAlphanum || c == '_' || c == '$'

/-- Whether a text is an identifier. -/
def isIdentifier : Text → Bool
  | [] => false
  | c :: rest => opensName c && rest.all extendsName

/-- Words that cannot be bound. -/
def reservedWords : List Text :=
  ["break", "case", "catch", "class", "const", "continue", "debugger", "default", "delete",
    "do", "else", "enum", "export", "extends", "false", "finally", "for", "function", "if",
    "implements", "import", "in", "instanceof", "interface", "let", "new", "null", "package",
    "private", "protected", "public", "return", "static", "super", "switch", "this", "throw",
    "true", "try", "typeof", "var", "void", "while", "with", "yield", "await", "arguments",
    "eval", "undefined", "NaN", "Infinity"].map String.toList

/-- Whether a text is a reserved word. -/
def isReserved (name : Text) : Bool := reservedWords.contains name

/-- Whether a text may name a binding. -/
def isBindable (name : Text) : Bool := isIdentifier name && !isReserved name

end Scriptwright
