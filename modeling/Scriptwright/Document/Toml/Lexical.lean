import Scriptwright.Text.Basic

/-!
# Blanks, strings and keys of a settings file

The smallest pieces of TOML.  Each reader takes one piece off the front of a text
and answers with it and the text behind it, or with `none`.

A string stands on one line between quotes, which let escape sequences in, or
between apostrophes, which do not.  Three quotes or three apostrophes enclose a
string over several lines: a line end right behind the opening ones does not
count, up to two quotes may stand inside and right before the closing ones, and
between quotes a backslash at the end of a line takes away all blanks and line
ends up to the next character.
-/

namespace Scriptwright

namespace Toml

/-- A blank within a line. -/
def isSpace (c : Char) : Bool := c == ' ' || c == '\t'

/-- A text without the blanks at its front. -/
def skipSpace (t : Text) : Text := t.dropWhile isSpace

/-- A character that may not stand in a comment or string: a control character but the
tabulator. -/
def isControl (c : Char) : Bool := (c.toNat < 32 && c != '\t') || c.toNat == 127

/-- Takes a comment off, if there is one. -/
def skipComment (t : Text) : Text :=
  match t with
  | '#' :: rest => rest.dropWhile (!isControl ·)
  | t => t

/-- Takes a line's end off. -/
def takeNewline? : Text → Option Text
  | '\n' :: rest => some rest
  | '\r' :: '\n' :: rest => some rest
  | _ => none

/-- Takes the end of a line off: blanks, a comment, and a line end or the end of the file. -/
def takeLineEnd? (t : Text) : Option Text :=
  match skipComment (skipSpace t) with
  | [] => some []
  | t => takeNewline? t

/-- Takes at most so many lines off that hold nothing but blanks and comments, and the blanks in
front of what follows. -/
def skipLinesWithin (most : Nat) (t : Text) : Text :=
  match most with
  | 0 => t
  | most + 1 =>
      match takeLineEnd? t with
      | some rest => skipLinesWithin most rest
      | none => skipSpace t

/-- Takes blanks, comments and line ends off, as far as they go. -/
def skipLines (t : Text) : Text := skipLinesWithin t.length t

/-- Takes blanks and line ends off, as far as they go. -/
def skipWhite : Text → Text
  | '\n' :: rest => skipWhite rest
  | '\r' :: '\n' :: rest => skipWhite rest
  | c :: rest => if isSpace c then skipWhite rest else c :: rest
  | [] => []

/-- The value of hexadecimal digits. -/
def hexCode? : Text → Option Nat
  | [] => none
  | digits =>
      digits.foldl (fun value c =>
        value.bind fun value =>
          if c.isDigit then some (16 * value + (c.toNat - 48))
          else if 'a' ≤ c ∧ c ≤ 'f' then some (16 * value + (c.toNat - 87))
          else if 'A' ≤ c ∧ c ≤ 'F' then some (16 * value + (c.toNat - 55))
          else none) (some 0)

/-- The character of a given number of hexadecimal digits at the front. -/
def takeCodePoint? (count : Nat) (t : Text) : Option (Char × Text) :=
  if t.length < count then none
  else
    (hexCode? (t.take count)).bind fun code =>
      if h : code.isValidChar then some (Char.ofNatAux code h, t.drop count) else none

/-- What an escape sequence behind its backslash stands for. -/
def takeEscape? : Text → Option (Char × Text)
  | 'b' :: rest => some ('\x08', rest)
  | 't' :: rest => some ('\t', rest)
  | 'n' :: rest => some ('\n', rest)
  | 'f' :: rest => some ('\x0C', rest)
  | 'r' :: rest => some ('\r', rest)
  | '"' :: rest => some ('"', rest)
  | '\\' :: rest => some ('\\', rest)
  | 'u' :: rest => takeCodePoint? 4 rest
  | 'U' :: rest => takeCodePoint? 8 rest
  | _ => none

/-- The content of a string on one line, up to its closing quote. -/
def takeQuoted? (fuel : Nat) (t : Text) : Option (Text × Text) :=
  match fuel, t with
  | fuel + 1, c :: rest =>
      if c = '"' then some ([], rest)
      else if c = '\\' then
        (takeEscape? rest).bind fun (c, rest) =>
          (takeQuoted? fuel rest).map fun (content, rest) => (c :: content, rest)
      else if isControl c then none
      else (takeQuoted? fuel rest).map fun (content, rest) => (c :: content, rest)
  | _, _ => none

/-- The content of a string on one line, up to its closing apostrophe. -/
def takeLiteral? (t : Text) : Option (Text × Text) :=
  (Text.breakOnce? '\'' t).bind fun (content, rest) =>
    if content.any isControl then none else some (content, rest)

/-- A string on one line. -/
def takeLineString? : Text → Option (Text × Text)
  | '"' :: rest => takeQuoted? (rest.length + 1) rest
  | '\'' :: rest => takeLiteral? rest
  | _ => none

/-- The quotes at the front, of which three in a row close a string over several lines; those
before the last three, at most two, belong to the string. -/
def takeClosing? (quote : Char) (t : Text) : Option (Text × Text) :=
  let count := (t.takeWhile (· == quote)).length
  if count < 3 then none
  else
    let inside := min 2 (count - 3)
    some (List.replicate inside quote, t.drop (inside + 3))

/-- The content of a string over several lines, up to its closing quotes or apostrophes. -/
def takeBlock? (quote : Char) (fuel : Nat) (t : Text) : Option (Text × Text) :=
  match fuel with
  | 0 => none
  | fuel + 1 =>
      match takeClosing? quote t, takeNewline? t, t with
      | some (inside, rest), _, _ => some (inside, rest)
      | none, some rest, _ =>
          (takeBlock? quote fuel rest).map fun (content, rest) => ('\n' :: content, rest)
      | none, none, '\\' :: rest =>
          if quote = '"' then
            match takeNewline? (skipSpace rest) with
            | some rest => takeBlock? quote fuel (skipWhite rest)
            | none =>
                (takeEscape? rest).bind fun (c, rest) =>
                  (takeBlock? quote fuel rest).map fun (content, rest) => (c :: content, rest)
          else (takeBlock? quote fuel rest).map fun (content, rest) => ('\\' :: content, rest)
      | none, none, c :: rest =>
          if isControl c then none
          else (takeBlock? quote fuel rest).map fun (content, rest) => (c :: content, rest)
      | none, none, [] => none

/-- The content of a string over several lines, from behind its opening quotes. -/
def takeBlockString? (quote : Char) (t : Text) : Option (Text × Text) :=
  let t := (takeNewline? t).getD t
  takeBlock? quote (t.length + 1) t

/-- A string of any form. -/
def takeString? : Text → Option (Text × Text)
  | '"' :: '"' :: '"' :: rest => takeBlockString? '"' rest
  | '\'' :: '\'' :: '\'' :: rest => takeBlockString? '\'' rest
  | t => takeLineString? t

/-- A key: where the table lies that has it, and its name there. -/
structure Key where
  path : List Text
  name : Text

/-- A character of a bare key. -/
def isBareKey (c : Char) : Bool := c.isAlphanum || c == '_' || c == '-'

/-- One part of a key. -/
def takeKeyPart? (t : Text) : Option (Text × Text) :=
  match t with
  | '"' :: _ | '\'' :: _ => takeLineString? t
  | t =>
      if (t.takeWhile isBareKey).isEmpty then none
      else some (t.takeWhile isBareKey, t.dropWhile isBareKey)

/-- A key of at most so many parts, joined by points, and the blanks around it. -/
def takeKeyWithin? (most : Nat) (t : Text) : Option (Key × Text) :=
  match most with
  | 0 => none
  | most + 1 =>
      (takeKeyPart? (skipSpace t)).bind fun (part, rest) =>
        match skipSpace rest with
        | '.' :: rest =>
            (takeKeyWithin? most rest).map fun (key, rest) => (⟨part :: key.path, key.name⟩, rest)
        | rest => some (⟨[], part⟩, rest)

/-- The most parts a key may have, and the most values that may lie one in the other. -/
def deepest : Nat := 79

/-- A key and the blanks around it. -/
def takeKey? (t : Text) : Option (Key × Text) := takeKeyWithin? deepest t

end Toml

end Scriptwright
