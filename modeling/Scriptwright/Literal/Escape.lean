import Scriptwright.Text.CharClass

/-!
# Writing text as the content of a literal

Three ways to put text between the quotes of a string literal.

* `escape` writes any text character by character: a backslash and both quotes
  get a backslash before them, line ends and the other control blanks become
  their short escapes, the two Unicode line separators become `\u2028` and
  `\u2029`, and a NUL is left out.
* `escapeSearch` is for text that lands in the application's search grammar:
  each of `( ) [ ] * ?` first gets a backslash of that grammar, then the whole
  is escaped.
* `sealContent` takes text that is written as the content of a literal already and
  closes its loose ends: an escape sequence passes as it stands, a bare quote or
  line end is escaped, and a backslash that would swallow a line end or the
  closing quote is doubled.

`escape_cons` says that `escape` works character by character; it is what makes
statements about it inductions on the text.
-/

namespace Scriptwright

namespace Literal

/-- How one character stands in the content of a literal. -/
def escapeChar (c : Char) : Text :=
  if c = '\\' then ['\\', '\\']
  else if c = '"' then ['\\', '"']
  else if c = '\'' then ['\\', '\'']
  else if c = '\n' then ['\\', 'n']
  else if c = '\r' then ['\\', 'r']
  else if c = '\t' then ['\\', 't']
  else if c = '\x0C' then ['\\', 'f']
  else if c = '\x0B' then ['\\', 'v']
  else if c = '\u2028' then ['\\', 'u', '2', '0', '2', '8']
  else if c = '\u2029' then ['\\', 'u', '2', '0', '2', '9']
  else if c = '\x00' then []
  else [c]

/-- Any text as the content of a literal. -/
def escape (t : Text) : Text := t.flatMap escapeChar

/-- Escaping goes character by character. -/
theorem escape_cons (c : Char) (t : Text) : escape (c :: t) = escapeChar c ++ escape t := by
  simp [escape]

/-- A text that may be missing; the missing one is empty. -/
def escapeOptional (t : Option Text) : Text := (t.map escape).getD []

/-- A text between double quotes. -/
def quote (t : Text) : Text := '"' :: escape t ++ ['"']

/-- Characters with a meaning in the search grammar. -/
def isSearchSpecial (c : Char) : Bool := "()[]*?".toList.contains c

/-- A text as the search grammar takes it literally. -/
def protectSearch (t : Text) : Text :=
  t.flatMap fun c => if isSearchSpecial c then ['\\', c] else [c]

/-- A search text as the content of a literal. -/
def escapeSearch (t : Text) : Text := escape (protectSearch t)

/-- How a character outside escape sequences stands in sealed text. -/
def sealChar (c : Char) : Text :=
  if c = '"' then ['\\', '"']
  else if c = '\n' then ['\\', 'n']
  else if c = '\r' then ['\\', 'r']
  else if c = '\u2028' then ['\\', 'u', '2', '0', '2', '8']
  else if c = '\u2029' then ['\\', 'u', '2', '0', '2', '9']
  else if c = '\x00' then []
  else [c]

/-- Whether a backslash before this character begins an escape sequence worth keeping. -/
def isEscapable (c : Char) : Bool := !isLineTerminator c && c != '\x00'

/-- Content of a literal with its loose ends closed. -/
def sealContent : Text → Text
  | [] => []
  | '\\' :: [] => ['\\', '\\']
  | '\\' :: next :: rest =>
      if isEscapable next then '\\' :: next :: sealContent rest
      else '\\' :: '\\' :: sealContent (next :: rest)
  | c :: rest => sealChar c ++ sealContent rest

end Literal

end Scriptwright
