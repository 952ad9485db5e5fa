import Scriptwright.Text.CharClass

/-!
# The shape of loops

How deeply the bodies of loops are nested in a code, and whether a string is
built up inside one.  The code is cut into words and single characters
(`tokens`); a walk over them keeps the stack of open braces, each marked as the
body of a loop or not.  A brace opens a loop body if it comes right after `do`
or right after the parenthesis that closes the header of a `for` or `while`.
Bodies without braces do not count.
-/

namespace Scriptwright

namespace LoopShape

/-- A word of code, with whether a point stands right before it, or any other single character. -/
inductive Token where
  | word (afterPoint : Bool) (name : Text)
  | mark (c : Char)
deriving DecidableEq

/-- Whether a token is a blank. -/
def Token.isBlank : Token → Bool
  | mark c => Scriptwright.isBlank c
  | word _ _ => false

/-- A character that begins a word. -/
def beginsWord (c : Char) : Bool := isAlphabetic c || c == '_' || c == '$'

/-- Cuts code into tokens.  `before` is the character before the first one, `current` the word
being read, its last character first, with whether a point stands before it. -/
def tokensFrom (before : Option Char) (current : Option (Bool × Text)) : Text → List Token
  | [] =>
      match current with
      | some (afterPoint, word) => [.word afterPoint word.reverse]
      | none => []
  | c :: rest =>
      match current with
      | some (afterPoint, word) =>
          if isNameChar c then tokensFrom (some c) (some (afterPoint, c :: word)) rest
          else .word afterPoint word.reverse :: .mark c :: tokensFrom (some c) none rest
      | none =>
          if beginsWord c then tokensFrom (some c) (some (before == some '.', [c])) rest
          else .mark c :: tokensFrom (some c) none rest

/-- The tokens of a code. -/
def tokens (code : Text) : List Token := tokensFrom none none code

end LoopShape

/-- What a walk over the loops of a code finds. -/
structure LoopShape where
  /-- The greatest number of loop bodies around one place. -/
  maxDepth : Nat
  /-- The line on which that number is first reached. -/
  deepestLine : Option Nat
  /-- The line of the first `+=` with a string inside a loop body. -/
  concatLine : Option Nat
deriving DecidableEq

namespace LoopShape

/-- The state of the walk. -/
structure Walk where
  /-- For each open brace, the innermost first, whether it opened a loop body. -/
  braces : List Bool
  /-- Number of open parentheses. -/
  parens : Nat
  /-- Number of parentheses around the loop header that is being read. -/
  header : Option Nat
  /-- A loop word was read whose header has not begun. -/
  awaitingHeader : Bool
  /-- A loop body may begin here. -/
  awaitingBody : Bool
  line : Nat
  shape : LoopShape
deriving DecidableEq

namespace Walk

/-- Before the first token. -/
def start : Walk := ⟨[], 0, none, false, false, 1, ⟨0, none, none⟩⟩

/-- Number of loop bodies that are open. -/
def depth (w : Walk) : Nat := w.braces.count true

/-- What follows a plus sign: an equals sign and, after optional blanks, a quote. -/
def appendsString : List Token → Bool
  | .mark '=' :: rest =>
      match rest.dropWhile Token.isBlank with
      | .mark c :: _ => c == '"' || c == '\''
      | _ => false
  | _ => false

/-- A character other than a blank between a loop's header and a brace: no body begins here,
unless a header is being read. -/
def settle (w : Walk) : Walk :=
  if w.header.isNone then { w with awaitingBody := false } else w

/-- A word. -/
def readWord (w : Walk) (afterPoint : Bool) (name : Text) : Walk :=
  let w := { w with awaitingBody := false }
  if afterPoint then w
  else if name = "for".toList ∨ name = "while".toList then { w with awaitingHeader := true }
  else if name = "do".toList then { w with awaitingBody := true }
  else w

/-- An opening parenthesis; it begins the header that is awaited. -/
def openParen (w : Walk) : Walk :=
  let w :=
    if w.awaitingHeader ∧ w.header = none then
      { w with header := some w.parens, awaitingHeader := false }
    else w
  { w with parens := w.parens + 1 }

/-- A closing parenthesis; if it ends the header, a body may begin. -/
def closeParen (w : Walk) : Walk :=
  let w := { w with parens := w.parens - 1 }
  if w.header = some w.parens then { w with header := none, awaitingBody := true } else w

/-- An opening brace. -/
def openBrace (w : Walk) : Walk :=
  let isLoop := w.awaitingBody
  let w := { w with braces := isLoop :: w.braces, awaitingBody := false }
  if isLoop ∧ w.shape.maxDepth < w.depth then
    { w with shape := { w.shape with maxDepth := w.depth, deepestLine := some w.line } }
  else w

/-- A closing brace. -/
def closeBrace (w : Walk) : Walk := { w with braces := w.braces.tail }

/-- A plus sign, with the tokens behind it. -/
def readPlus (w : Walk) (rest : List Token) : Walk :=
  if 0 < w.depth ∧ w.shape.concatLine = none ∧ appendsString rest then
    { w with shape := { w.shape with concatLine := some w.line } }
  else w

/-- A single character, with the tokens behind it. -/
def readMark (w : Walk) (c : Char) (rest : List Token) : Walk :=
  if c = '\n' then { w with line := w.line + 1 }
  else if c = '(' then w.openParen.settle
  else if c = ')' then w.closeParen
  else if c = '{' then w.openBrace
  else if c = '}' then w.closeBrace.settle
  else if c = '+' then (w.readPlus rest).settle
  else if isBlank c then w
  else w.settle

/-- Walks over the rest of the tokens. -/
def run (w : Walk) : List Token → Walk
  | [] => w
  | .word afterPoint name :: rest => (w.readWord afterPoint name).run rest
  | .mark c :: rest => (w.readMark c rest).run rest

end Walk

/-- The shape of the loops of a code. -/
def ofCode (code : Text) : LoopShape := (Walk.start.run (tokens code)).shape

end LoopShape

end Scriptwright
