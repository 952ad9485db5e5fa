import Scriptwright.Finding
import Scriptwright.Script.Pattern

/-!
# Pattern rules

A rule reports a script once, at the line where its pattern first matches.  The
tables below group the rules by what they guard against; each list is in the
order in which its findings appear in a report.
-/

namespace Scriptwright

/-- A pattern that a script should not match. -/
structure Rule where
  severity : Severity
  category : Category
  patterns : List Pattern
  message : Text

namespace Rule

/-- The finding of a rule on a text. -/
def check (r : Rule) (t : Text) : Option Finding :=
  (Pattern.find? r.patterns t).map fun p => ⟨r.severity, r.category, r.message, some p.line⟩

/-- Whether a text matches a rule. -/
def matchesText (r : Rule) (t : Text) : Bool := (Pattern.find? r.patterns t).isSome

end Rule

namespace Rules

/-- The findings of several rules on a text. -/
def checkAll (rules : List Rule) (t : Text) : List Finding := rules.filterMap fun r => r.check t

/-- A call: what is called begins at a word boundary, and a parenthesis follows it. -/
def callOf (callee : Pattern) : Pattern := .wordEdge :: (callee ++ [.blanks, .char '('])

/-- A name, taken as a whole, and what follows it. -/
def nameThen (following : Pattern) : Pattern :=
  .one opensName :: .run extendsCallName :: following

/-- Code run from text, timers, document injection, and output that breaks the result channel. -/
def dangerous : List Rule := [
  ⟨.error, .security, [callOf [.word "eval"]],
    "eval() executes arbitrary code and is not allowed".toList⟩,
  ⟨.error, .security,
    [callOf [.word "new", .one isBlank, .blanks, .word "Function"]],
    "new Function() compiles code at runtime and is not allowed".toList⟩,
  ⟨.error, .security,
    [callOf [.word "setTimeout"], callOf [.word "setInterval"]],
    "setTimeout/setInterval schedule dynamic code and are not allowed".toList⟩,
  ⟨.error, .security,
    [[.word ".innerHTML", .blanks, .char '='], [.word ".outerHTML", .blanks, .char '=']],
    "Assigning innerHTML/outerHTML is an injection sink".toList⟩,
  ⟨.error, .security,
    [callOf [.word "document.write"], callOf [.word "document.writeln"]],
    "document.write() is an injection sink".toList⟩,
  ⟨.error, .compatibility,
    [callOf [.word "console.", .one Char.isAlpha, .run Char.isAlpha]],
    "console output corrupts the result channel; return data instead of logging it".toList⟩,
  ⟨.error, .compatibility, [[.wordEdge, .word "debugger", .wordEdge]],
    "debugger statements halt the interpreter".toList⟩]

/-- What may follow the three points of spread and rest. -/
def opensOperand (c : Char) : Bool := opensName c || c == '[' || c == '{' || c == '('

/-- A character that may stand before the keyword of a class. -/
def endsBeforeClass (c : Char) : Bool := !(c == '.' || isWord c || c == '$')

/-- A character before an equals sign that leaves it an assignment. -/
def endsBeforeAssignment (c : Char) : Bool := !(c == '=' || c == '!' || c == '<' || c == '>')

/-- A declaration with a pattern in place of the name. -/
def destructuring (keyword : String) : Pattern :=
  [.wordEdge, .word keyword, .blanks, .one fun c => c == '{' || c == '[']

/-- An object literal that begins with a lone name. -/
def shorthand : Pattern :=
  .blanks :: .char '{' :: .blanks :: nameThen [.blanks, .one fun c => c == ',' || c == '\x7d']

/-- The keyword of a class and the name behind it. -/
def classHead : Pattern := .word "class" :: .one isBlank :: .blanks :: nameThen []

/-- Constructs that the dialect does not have. -/
def dialect : List Rule := [
  ⟨.error, .compatibility, [[.word "=>"]],
    "Arrow functions are not supported; use function expressions".toList⟩,
  ⟨.error, .compatibility, [[.word "...", .blanks, .one opensOperand]],
    "Spread and rest syntax is not supported".toList⟩,
  ⟨.error, .compatibility, [destructuring "var", destructuring "let", destructuring "const"],
    "Destructuring assignment is not supported".toList⟩,
  ⟨.error, .compatibility,
    [.textStart :: classHead, .one endsBeforeClass :: classHead],
    "Class declarations are not supported; use functions".toList⟩,
  ⟨.error, .compatibility,
    [.one endsBeforeAssignment :: .char '=' :: shorthand, .wordEdge :: .word "return" :: shorthand],
    "Object property shorthand is not supported; write key: value".toList⟩]

/-- An object literal right behind `return`. -/
def objectReturn : Rule :=
  ⟨.error, .compatibility, [[.wordEdge, .word "return", .blanks, .char '{']],
    ("Returning an object literal directly is not supported; " ++
      "return JSON.stringify(\x7b...\x7d) instead").toList⟩

/-- A call of `split` whose argument, between the given quotes, holds two backslashes in a row. -/
def splitArgument (quote : Char) : Pattern :=
  [.word ".split(", .blanks, .char quote, .runWith (fun c => c != quote && c != '\n') ['\\', '\\'],
    .char quote]

/-- Signs of escaping gone wrong, looked for in the script itself. -/
def escaping : List Rule := [
  ⟨.warning, .escaping, [[.word "\\\\\\"]],
    "Three or more consecutive backslashes; check for double escaping".toList⟩,
  ⟨.warning, .escaping, [splitArgument '"', splitArgument '\''],
    "Complex escaping inside split(); prefer a regex literal or a named pattern".toList⟩]

/-- The word `undefined`. -/
def undefinedWord : Rule :=
  ⟨.warning, .compatibility, [[.wordEdge, .word "undefined", .wordEdge]],
    "Literal 'undefined' used; prefer null or a typeof check".toList⟩

/-- A call that loads a whole collection. -/
def bulkCall : List Pattern :=
  [".records", ".contents", ".everyItem", ".allRecords"].map fun member =>
    [.word member, .blanks, .char '(', .blanks, .char ')']

end Rules

end Scriptwright
