import Scriptwright.Text.Basic
import Scriptwright.Text.CharRanges

/-!
# Character classes

Three families of characters decide how a script is read.

* *Blanks* (`isBlank`) are the characters with the Unicode property White_Space;
  trimming and every "optional space" of a pattern use this class.
* *Name characters* (`isNameChar`) are the letters and numbers of any script
  with the underscore and the dollar sign; words of a script are runs of them.
* *Word characters* (`isWord`) are what a word boundary separates: letters,
  marks, decimal digits, connecting punctuation and the two joiners.

A word character need not be a name character (a combining mark) nor the other
way round (a fraction, the dollar sign), so the two are never exchanged.  They
also follow different versions of the standard: name characters version 17, word
characters version 16, for which the letters, marks and digits that version 17
added are nothing in particular yet (`isUnknownToWords`).
On ASCII both come down to letters and digits: `isAlphabetic_ascii` and
`isWord_ascii`.
-/

namespace Scriptwright

namespace CharRanges

/-- Whether a code point lies in one of the ranges. -/
def covers (ranges : List (Nat × Nat)) (n : Nat) : Bool :=
  ranges.any fun range => range.1 ≤ n && n ≤ range.2

end CharRanges

/-- White space in the Unicode sense. -/
def isBlank (c : Char) : Bool :=
  let n := c.toNat
  (9 ≤ n && n ≤ 13) || n == 0x20 || n == 0x85 || n == 0xA0 || n == 0x1680 ||
    (0x2000 ≤ n && n ≤ 0x200A) || n == 0x2028 || n == 0x2029 || n == 0x202F || n == 0x205F ||
    n == 0x3000

/-- A letter in the wide sense of the Unicode property Alphabetic. -/
def isAlphabetic (c : Char) : Bool :=
  if c.toNat < 128 then c.isAlpha else CharRanges.covers CharRanges.alphabetic c.toNat

/-- A decimal digit of any script. -/
def isDecimalDigit (c : Char) : Bool :=
  if c.toNat < 128 then c.isDigit else CharRanges.covers CharRanges.decimalDigits c.toNat

/-- A number of any kind: decimal digit, letter number, fraction and the like. -/
def isNumeric (c : Char) : Bool :=
  isDecimalDigit c || (128 ≤ c.toNat && CharRanges.covers CharRanges.otherNumbers c.toNat)

/-- A combining mark; ASCII has none. -/
def isMark (c : Char) : Bool := 128 ≤ c.toNat && CharRanges.covers CharRanges.marks c.toNat

/-- Punctuation that connects words; the underscore is the one in ASCII. -/
def isConnector (c : Char) : Bool :=
  c == '_' || (128 ≤ c.toNat && CharRanges.covers CharRanges.connectors c.toNat)

/-- One of the two joiners, which print nothing and tie their neighbours together. -/
def isJoiner (c : Char) : Bool := c.toNat == 0x200C || c.toNat == 0x200D

/-- A letter or number of any script. -/
def isAlphanumeric (c : Char) : Bool := isAlphabetic c || isNumeric c

/-- A character a script may have inside a name. -/
def isNameChar (c : Char) : Bool := isAlphanumeric c || c == '_' || c == '$'

/-- A letter, mark or digit too recent to count as a word character. -/
def isUnknownToWords (c : Char) : Bool :=
  128 ≤ c.toNat && CharRanges.covers CharRanges.sinceVersion17 c.toNat

/-- A character on the inner side of a word boundary. -/
def isWord (c : Char) : Bool :=
  !isUnknownToWords c &&
    (isAlphabetic c || isMark c || isDecimalDigit c || isConnector c || isJoiner c)

/-- A character that ends a line inside a literal. -/
def isLineTerminator (c : Char) : Bool :=
  c == '\n' || c == '\r' || c == '\u2028' || c == '\u2029'

namespace Text

/-- A text without the blanks at its beginning. -/
def trimStart (t : Text) : Text := t.dropWhile isBlank

/-- A text without the blanks at its end. -/
def trimEnd (t : Text) : Text := (t.reverse.dropWhile isBlank).reverse

/-- A text without the blanks at either end. -/
def trim (t : Text) : Text := trimEnd (trimStart t)

/-- Whether a text holds nothing but blanks. -/
def allBlank (t : Text) : Bool := t.all isBlank

end Text

end Scriptwright
