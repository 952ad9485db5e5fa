import Scriptwright.Text.CharClass

/-!
# Reading a string literal back

`Literal.read?` takes the string literal at the front of a text, decodes it, and
says how many bytes of the text it took.  Between the quotes stand plain
characters, none of them a line end, and escape sequences:

* `\n \r \t \b \f \v \0` for the control characters they name;
* `\` before a line end for nothing at all (a carriage return takes the line
  feed after it along);
* `\xHH`, `\uHHHH` and `\u{…}` for a code point, where a high surrogate needs
  `\uHHHH` with a low surrogate right behind it and a lone low one is refused;
* `\` before any other character for that character.

`readEscape` reads one sequence and `readBody` the characters up to the closing
quote; `readEscape_length` is why that ends.
-/

namespace Scriptwright

/-- Why a text cannot be read as a literal, or a script has no such declaration. -/
inductive LiteralError where
  | noQuote
  | lineEnd (offset : Nat)
  | hexDigits (count : Nat)
  | codePoint (value : Nat)
  | loneSurrogate
  | openBraces
  | emptyBraces
  | strayDigit
  | overflow
  | unterminated
  | undeclared (name : Text)
  | continued (name : Text)
deriving DecidableEq

namespace LiteralError

/-- The wording of an error. -/
def message : LiteralError → Text
  | noQuote => "literal must start with a quote".toList
  | lineEnd offset => "raw line terminator at byte ".toList ++ Text.ofNat offset
  | hexDigits count => "expected ".toList ++ Text.ofNat count ++ " hex digits".toList
  | codePoint value => "invalid code point 0x".toList ++ Nat.toDigits 16 value
  | loneSurrogate => "unpaired high surrogate".toList
  | openBraces => "unterminated \\u\x7b...\x7d".toList
  | emptyBraces => "cannot parse integer from empty string".toList
  | strayDigit => "invalid digit found in string".toList
  | overflow => "number too large to fit in target type".toList
  | unterminated => "unterminated string literal".toList
  | undeclared name => "no declaration of '".toList ++ name ++ ['\'']
  | continued name =>
      "declaration of '".toList ++ name ++ "' continues past its literal".toList

end LiteralError

namespace Literal

/-- The value of a hexadecimal digit of either case. -/
def hexDigit? (c : Char) : Option Nat :=
  if '0' ≤ c ∧ c ≤ '9' then some (c.toNat - 48)
  else if 'a' ≤ c ∧ c ≤ 'f' then some (c.toNat - 87)
  else if 'A' ≤ c ∧ c ≤ 'F' then some (c.toNat - 55)
  else none

/-- The value of exactly `count` hexadecimal digits at the front, after those read before. -/
def takeHex (wanted : Nat) : Nat → Nat → Text → Except LiteralError (Nat × Text)
  | 0, value, t => .ok (value, t)
  | _ + 1, _, [] => .error (.hexDigits wanted)
  | count + 1, value, c :: rest =>
      match hexDigit? c with
      | some digit => takeHex wanted count (16 * value + digit) rest
      | none => .error (.hexDigits wanted)

/-- The value of hexadecimal digits, which must stay below `2 ^ 32`. -/
def hexValue (value : Nat) : Text → Except LiteralError Nat
  | [] => .ok value
  | c :: rest =>
      match hexDigit? c with
      | none => .error .strayDigit
      | some digit =>
          if Nat.pow 2 28 ≤ value then .error .overflow else hexValue (16 * value + digit) rest

/-- The value of what stands between braces: hexadecimal digits, at least one, behind an optional
plus sign. -/
def bracedValue : Text → Except LiteralError Nat
  | [] => .error .emptyBraces
  | ['+'] => .error .strayDigit
  | '+' :: digits => hexValue 0 digits
  | digits => hexValue 0 digits

/-- The character of a code point. -/
def charOf (code : Nat) : Except LiteralError Char :=
  if code < 0xD800 ∨ (0xE000 ≤ code ∧ code < 0x110000) then .ok (Char.ofNat code)
  else .error (.codePoint code)

/-- The character a code unit begins, with the low surrogate that a high one needs taken off the
text behind it. -/
def takeUnit (code : Nat) (t : Text) : Except LiteralError (Char × Text) :=
  if 0xD800 ≤ code ∧ code < 0xDC00 then
    match t with
    | '\\' :: 'u' :: rest =>
        match takeHex 4 4 0 rest with
        | .error e => .error e
        | .ok (low, rest) =>
            if 0xDC00 ≤ low ∧ low < 0xE000 then
              match charOf (0x10000 + (code - 0xD800) * 1024 + (low - 0xDC00)) with
              | .error e => .error e
              | .ok c => .ok (c, rest)
            else .error .loneSurrogate
    | _ => .error .loneSurrogate
  else
    match charOf code with
    | .error e => .error e
    | .ok c => .ok (c, t)

/-- What a one-letter escape stands for. -/
def shortEscape (c : Char) : Char :=
  if c = 'n' then '\n'
  else if c = 'r' then '\r'
  else if c = 't' then '\t'
  else if c = 'b' then '\x08'
  else if c = 'f' then '\x0C'
  else if c = 'v' then '\x0B'
  else if c = '0' then '\x00'
  else c

/-- Reads what follows a backslash: the characters it stands for, and the text behind it. -/
def readEscape : Text → Except LiteralError (Text × Text)
  | [] => .error .unterminated
  | '\r' :: '\n' :: rest => .ok ([], rest)
  | 'x' :: rest =>
      match takeHex 2 2 0 rest with
      | .error e => .error e
      | .ok (code, rest) =>
          match charOf code with
          | .error e => .error e
          | .ok c => .ok ([c], rest)
  | 'u' :: '{' :: rest =>
      match Text.breakOnce? '}' rest with
      | none => .error .openBraces
      | some (digits, rest) =>
          match bracedValue digits with
          | .error e => .error e
          | .ok code =>
              match takeUnit code rest with
              | .error e => .error e
              | .ok (c, rest) => .ok ([c], rest)
  | 'u' :: rest =>
      match takeHex 4 4 0 rest with
      | .error e => .error e
      | .ok (code, rest) =>
          match takeUnit code rest with
          | .error e => .error e
          | .ok (c, rest) => .ok ([c], rest)
  | c :: rest => if isLineTerminator c then .ok ([], rest) else .ok ([shortEscape c], rest)

theorem takeHex_length {wanted count value : Nat} {t rest : Text} {n : Nat}
    (h : takeHex wanted count value t = .ok (n, rest)) : rest.length ≤ t.length := by
  induction count generalizing value t with
  | zero => simp only [takeHex, Except.ok.injEq, Prod.mk.injEq] at h; simp [h.2]
  | succ count ih =>
      cases t with
      | nil => simp [takeHex] at h
      | cons c t =>
          simp only [takeHex] at h
          split at h
          · have := ih h; simp only [List.length_cons]; omega
          · cases h

theorem takeUnit_length {code : Nat} {t rest : Text} {c : Char}
    (h : takeUnit code t = .ok (c, rest)) : rest.length ≤ t.length := by
  unfold takeUnit at h
  split at h
  · split at h
    · split at h
      · cases h
      next heq =>
        split at h
        · split at h
          · cases h
          · cases h
            have := takeHex_length heq
            simp only [List.length_cons]; omega
        · cases h
    · cases h
  · split at h
    · cases h
    · cases h; exact Nat.le_refl _

theorem breakOnce?_length {mark : Char} {t head tail : Text}
    (h : Text.breakOnce? mark t = some (head, tail)) : tail.length < t.length := by
  induction t generalizing head with
  | nil => simp [Text.breakOnce?] at h
  | cons c t ih =>
      rw [Text.breakOnce?] at h
      split at h
      · cases h; simp
      · obtain ⟨⟨head', tail'⟩, h1, h2⟩ := Option.map_eq_some_iff.1 h
        cases h2
        have := ih h1
        simp only [List.length_cons]; omega

/-- What follows an escape sequence is shorter than the text the sequence stands in. -/
theorem readEscape_length {t decoded rest : Text} (h : readEscape t = .ok (decoded, rest)) :
    rest.length < t.length := by
  unfold readEscape at h
  split at h
  · cases h
  · cases h; simp only [List.length_cons]; omega
  · split at h
    · cases h
    next heq =>
      split at h
      · cases h
      · cases h
        have := takeHex_length heq
        simp only [List.length_cons]; omega
  · split at h
    · cases h
    next heq =>
      split at h
      · cases h
      · split at h
        · cases h
        next hunit =>
          cases h
          have h1 := breakOnce?_length heq
          have h2 := takeUnit_length hunit
          simp only [List.length_cons]; omega
  · split at h
    · cases h
    next heq =>
      split at h
      · cases h
      next hunit =>
        cases h
        have h1 := takeHex_length heq
        have h2 := takeUnit_length hunit
        simp only [List.length_cons]; omega
  · split at h <;> cases h <;> simp

/-- Reads up to the closing quote: the decoded characters, and the text behind the quote.  `total`
is the length in bytes of the whole text, from which the place of an error is counted. -/
def readBody (total : Nat) (quote : Char) (t : Text) : Except LiteralError (Text × Text) :=
  match t with
  | [] => .error .unterminated
  | c :: rest =>
      if c = quote then .ok ([], rest)
      else if isLineTerminator c then .error (.lineEnd (total - Text.byteLength (c :: rest)))
      else if c = '\\' then
        match _h : readEscape rest with
        | .error e => .error e
        | .ok (decoded, after) =>
            match readBody total quote after with
            | .error e => .error e
            | .ok (value, behind) => .ok (decoded ++ value, behind)
      else
        match readBody total quote rest with
        | .error e => .error e
        | .ok (value, behind) => .ok (c :: value, behind)
termination_by t.length
decreasing_by
  · have := readEscape_length _h; simp only [List.length_cons]; omega
  · simp

/-- The string literal at the front of a text, decoded, and the text behind it. -/
def split? (t : Text) : Except LiteralError (Text × Text) :=
  match t with
  | c :: rest =>
      if c = '"' ∨ c = '\'' then readBody (Text.byteLength t) c rest else .error .noQuote
  | [] => .error .noQuote

/-- The string literal at the front of a text: its value, and the bytes it takes with its
quotes. -/
def read? (t : Text) : Except LiteralError (Text × Nat) :=
  match split? t with
  | .error e => .error e
  | .ok (value, behind) => .ok (value, Text.byteLength t - Text.byteLength behind)

end Literal

end Scriptwright
