import Scriptwright.Script.Pattern
import Scriptwright.Script.Symbols

/-!
# Calls of functions that nobody defines

A *free call* is a name with a parenthesis behind it that is neither a member
(`a.name(`), nor a keyword, nor the name in a function declaration.  A name is
*defined* if the code declares a function of that name, assigns a function to
it, or has it as a parameter; definitions count everywhere in the script.
`undefined` lists the free calls that are neither defined nor known beforehand,
each name once, at its first call.

The analysis is a heuristic: a function reached through a variable that was not
assigned a function expression is reported although it exists.  It runs on code
with literals and comments blanked out.
-/

namespace Scriptwright

/-- A name called as a free function, and the line of its first call. -/
structure Call where
  name : Text
  line : Nat
deriving DecidableEq

namespace Calls

/-- Reads a name between two patterns. -/
def readNamed (lead tail : Pattern) (p : Place) : Option (Text × Place) :=
  (lead.match? p).bind fun p =>
    (takeName? p).bind fun (name, p) =>
      (tail.match? p).map fun p => (name, p)

/-- A function declaration: the keyword, a name, an opening parenthesis. -/
def readDeclared (p : Place) : Option (Text × Place) :=
  readNamed (.wordEdge :: .word "function" :: Pattern.someBlanks) [.blanks, .char '('] p

/-- A declaration keyword, a name, and the function assigned to it. -/
def readAssigned (p : Place) : Option (Text × Place) :=
  ["var", "let", "const"].findSome? fun keyword =>
    readNamed (.wordEdge :: .word keyword :: Pattern.someBlanks)
      [.blanks, .char '=', .blanks, .word "function", .wordEdge] p

/-- The text between the parentheses that follow the keyword of a function. -/
def readParameters (p : Place) : Option (Text × Place) :=
  (Pattern.match? [.wordEdge, .word "function", .wordEdge, .run (· != '('), .char '('] p).bind
    fun p => (Pattern.match? [.run (· != ')'), .char ')'] p).map fun behind =>
      (p.after.takeWhile (· != ')'), behind)

/-- The plain names in a list of parameters. -/
def parameterNames (parameters : Text) : List Text :=
  ((parameters.splitOn ',').map Text.trim).filter fun name =>
    !name.isEmpty && name.all isNameChar

/-- Every name a code defines as a function or parameter, in no particular order. -/
def definedNames (code : Text) : List Text :=
  (occurrences readDeclared code).map Prod.snd ++
    (occurrences readAssigned code).map Prod.snd ++
      (occurrences readParameters code).flatMap fun found => parameterNames found.2

/-- A name with an opening parenthesis behind it. -/
def readCall (p : Place) : Option (Text × Place) := readNamed [] [.blanks, .char '('] p

/-- Whether a text, given with the last character first, ends in the keyword of a function, and
that keyword is a whole word. -/
def endsInFunction (reversed : Text) : Bool :=
  match Text.dropFront? "function".toList.reverse reversed with
  | some before => !before.head?.any isNameChar
  | none => false

/-- Whether a name called at a place is free: it is not the rest of a longer word, no member, no
name of a declaration and no keyword. -/
def isFreeAt (p : Place) (name : Text) : Bool :=
  let trimmed := p.before.dropWhile isBlank
  !p.before.head?.any isNameChar && trimmed.head? != some '.' && !endsInFunction trimmed &&
    !Symbols.isKeyword name

/-- Keeps the first call of every name. -/
def firstCalls (seen : List Text) : List Call → List Call
  | [] => []
  | call :: rest =>
      if call.name ∈ seen then firstCalls seen rest
      else call :: firstCalls (call.name :: seen) rest

/-- All free calls of a code, in order. -/
def allFree (code : Text) : List Call :=
  ((occurrences readCall code).filter fun found => isFreeAt found.1 found.2).map fun found =>
    ⟨found.2, found.1.line⟩

/-- The free calls of a code, the first of each name. -/
def free (code : Text) : List Call := firstCalls [] (allFree code)

/-- The free calls whose names are neither defined in the code nor known beforehand. -/
def undefined (code : Text) (known : NameSet) : List Call :=
  let defined := definedNames code
  (free code).filter fun call => !defined.contains call.name && !known.contains call.name

end Calls

end Scriptwright
