import Scriptwright.Text.CharClass

/-!
# Scanning a script

Most checks look for words, and a word inside a string or a comment is not the
word they look for.  `strip` blanks the contents of string, template and regular
expression literals and of comments.  It keeps the delimiters of literals and
every line feed, so the blanked text, called the *code*, has the characters of
the script at their own places and lines.  The literals themselves are recorded
on the way.

The scanner reads one character at a time, looking one character ahead.  It
stands in a *region*: in code, inside a literal, or inside a comment.  Each step
emits exactly one character of code, the character read or a blank.

* A quoted string ends at its quote, or, left open, before a bare line feed; a
  backslash takes the next character along, whatever it is.
* A template ends at its back quote only.
* A regular expression ends at a slash outside a bracketed class or, left open,
  before any line feed.
* Whether a slash begins a regular expression is decided by the code before it
  (`regexAllowed`): not where an operand has just ended.
-/

namespace Scriptwright

/-- What delimits a literal. -/
inductive LiteralKind where
  | single
  | double
  | template
  | regex
deriving DecidableEq

namespace LiteralKind

/-- The character at either end of a literal. -/
def delimiter : LiteralKind → Char
  | single => '\''
  | double => '"'
  | template => '\x60'
  | regex => '/'

/-- Whether a literal is a string between quotes. -/
def isQuoted : LiteralKind → Bool
  | single | double => true
  | template | regex => false

/-- The name of a kind of literal. -/
def name : LiteralKind → Text
  | single => "single".toList
  | double => "double".toList
  | template => "template".toList
  | regex => "regex".toList

end LiteralKind

/-- A literal of a script, with its escapes left as written. -/
structure ScriptLiteral where
  kind : LiteralKind
  /-- The line of the opening delimiter. -/
  line : Nat
  /-- The text between the delimiters. -/
  content : Text
  /-- A bare line feed cut a quoted string off. -/
  rawNewline : Bool
  /-- The closing delimiter was found. -/
  terminated : Bool
deriving DecidableEq

namespace ScriptLiteral

/-- Whether the content holds the mark of an interpolation, a dollar sign with a brace. -/
def hasInterpolation (l : ScriptLiteral) : Bool := Text.includes ['$', '{'] l.content

/-- Whether the literal is a string between quotes. -/
def isQuoted (l : ScriptLiteral) : Bool := l.kind.isQuoted

end ScriptLiteral

namespace Scan

/-- A literal whose closing delimiter has not been reached: what was read of its content, the last
character first, and what the next character's meaning depends on. -/
structure OpenLiteral where
  kind : LiteralKind
  line : Nat
  reversed : Text
  /-- A backslash came right before. -/
  escaped : Bool
  /-- The place is inside a bracketed class of a regular expression. -/
  inClass : Bool
deriving DecidableEq

/-- Where the scanner stands. -/
inductive Region where
  | code
  | literal (l : OpenLiteral)
  | lineComment
  /-- Between the two characters that open a block comment. -/
  | blockOpening
  | blockComment
  /-- Between the two characters that close a block comment. -/
  | blockClosing
deriving DecidableEq

/-- What the scanner knows after some characters. -/
structure State where
  region : Region
  line : Nat
  /-- The code so far, the last character first. -/
  codeReversed : Text
  /-- The literals so far, the last one first. -/
  found : List ScriptLiteral
deriving DecidableEq

/-- Before the first character. -/
def State.start : State := ⟨.code, 1, [], []⟩

/-- Characters after which a slash begins a regular expression. -/
def regexPreceders : Text := "(,=:[!&|?\x7b\x7d;+-*%<>~^".toList

/-- Words after which a slash begins a regular expression. -/
def regexKeywords : List Text :=
  ["return", "typeof", "case", "in", "of", "void", "delete", "throw"].map String.toList

/-- Whether a slash after this code, given with the last character first, begins a regular
expression.  A doubled plus or minus ends an operand, a single one does not. -/
def regexAllowed (codeReversed : Text) : Bool :=
  match codeReversed.dropWhile isBlank with
  | [] => true
  | last :: before =>
      if last = '+' ∨ last = '-' then before.head? != some last
      else if regexPreceders.contains last then true
      else if isNameChar last then
        regexKeywords.contains ((last :: before).takeWhile isNameChar).reverse
      else false

/-- The literal that a delimiter opens. -/
def opened (kind : LiteralKind) (line : Nat) : OpenLiteral := ⟨kind, line, [], false, false⟩

/-- A literal that ends here. -/
def OpenLiteral.ended (l : OpenLiteral) (rawNewline terminated : Bool) : ScriptLiteral :=
  ⟨l.kind, l.line, l.reversed.reverse, rawNewline, terminated⟩

/-- Emits a character of code and goes on in a region. -/
def State.emit (s : State) (c : Char) (region : Region) : State :=
  { s with
    region := region
    line := if c = '\n' then s.line + 1 else s.line
    codeReversed := c :: s.codeReversed }

/-- A character's blank: a line feed stays, everything else becomes a space. -/
def blankOf (c : Char) : Char := if c = '\n' then '\n' else ' '

/-- Records a literal. -/
def State.record (s : State) (l : ScriptLiteral) : State := { s with found := l :: s.found }

/-- One character in code. -/
def State.readCode (s : State) (c : Char) (next : Option Char) : State :=
  if c = '"' then s.emit c (.literal (opened .double s.line))
  else if c = '\'' then s.emit c (.literal (opened .single s.line))
  else if c = '\x60' then s.emit c (.literal (opened .template s.line))
  else if c = '/' then
    if next = some '/' then s.emit ' ' .lineComment
    else if next = some '*' then s.emit ' ' .blockOpening
    else if regexAllowed s.codeReversed then s.emit c (.literal (opened .regex s.line))
    else s.emit c .code
  else s.emit c .code

/-- One character that belongs to the content of a literal. -/
def State.readContent (s : State) (l : OpenLiteral) (c : Char) (escaped : Bool) : State :=
  let inClass :=
    if l.escaped ∨ l.kind ≠ .regex then l.inClass
    else if c = '[' then true
    else if c = ']' then false
    else l.inClass
  s.emit (blankOf c)
    (.literal { l with reversed := c :: l.reversed, escaped := escaped, inClass := inClass })

/-- One character in a literal. -/
def State.readLiteral (s : State) (l : OpenLiteral) (c : Char) : State :=
  if c = '\n' ∧ l.kind = .regex then (s.record (l.ended false false)).emit c .code
  else if l.escaped then s.readContent l c false
  else if c = '\\' then s.readContent l c true
  else if c = l.kind.delimiter ∧ l.inClass = false then
    (s.record (l.ended false true)).emit c .code
  else if c = '\n' ∧ l.kind.isQuoted then (s.record (l.ended true false)).emit c .code
  else s.readContent l c false

/-- One character of a script, with the character behind it. -/
def State.step (s : State) (c : Char) (next : Option Char) : State :=
  match s.region with
  | .code => s.readCode c next
  | .literal l => s.readLiteral l c
  | .lineComment => if c = '\n' then s.emit c .code else s.emit ' ' .lineComment
  | .blockOpening => s.emit (blankOf c) .blockComment
  | .blockComment =>
      if c = '*' ∧ next = some '/' then s.emit ' ' .blockClosing
      else s.emit (blankOf c) .blockComment
  | .blockClosing => s.emit (blankOf c) .code

/-- Reads a text that another text follows, of which `next` is the first character. -/
def State.readBefore (next : Option Char) : State → Text → State
  | s, [] => s
  | s, c :: rest => readBefore next (s.step c (rest.head?.or next)) rest

/-- Reads a text to its end. -/
def State.read (s : State) (t : Text) : State := s.readBefore none t

/-- The literals in order; one still open at the end of the text counts as not terminated. -/
def State.literals (s : State) : List ScriptLiteral :=
  match s.region with
  | .literal l => (l.ended false false :: s.found).reverse
  | _ => s.found.reverse

/-- Outside every literal and comment. -/
def State.isOutside (s : State) : Bool := s.region = .code

theorem State.readBefore_append (next : Option Char) (s : State) (t u : Text) :
    s.readBefore next (t ++ u) = (s.readBefore (u.head?.or next) t).readBefore next u := by
  induction t generalizing s with
  | nil => rfl
  | cons c t ih =>
      simp only [List.cons_append, readBefore, ih]
      cases t <;> simp

end Scan

/-- A script with literal contents and comments blanked out, and its literals. -/
structure Stripped where
  code : Text
  literals : List ScriptLiteral
deriving DecidableEq

/-- What the scanner knows at the end of a script. -/
def scan (script : Text) : Scan.State := Scan.State.start.read script

/-- Blanks literals and comments. -/
def strip (script : Text) : Stripped :=
  ⟨(scan script).codeReversed.reverse, (scan script).literals⟩

end Scriptwright
