import Mathlib.Data.List.Forall2
import Mathlib.Data.Nat.Digits.Defs
import Scriptwright.Literal.Read

/-!
# The grammar of string literals

What a string literal is can be said without a reader.  It is a quote, items, and the
same quote again.  An item is a character that is neither that quote nor a
backslash nor a line end, or a backslash and an escape sequence
(`Literal.Sequence`):

* a letter that names a control character, or `0`;
* `x` and two hexadecimal digits;
* `u` and a code, of four hexadecimal digits or of one or more between braces; if
  the code is a high surrogate, another `\u` with the four digits of a low one
  follows (`Literal.Completes`), and a low surrogate alone is no character;
* a line end, where a carriage return and a line feed count as one;
* any other character, for itself.

Each item denotes a text, and the literal denotes these one after the other
(`Literal.IsLiteral`).

There is one form more, which the dialect does not have and its reader takes: a plus
sign before the digits between braces.  Every part of the grammar carries along
whether it has such a sign; without it (`false`) the grammar is that of the dialect.
-/

namespace Scriptwright

namespace Literal

/-! ## Numbers in base sixteen -/

/-- A hexadecimal digit of either case, and its value. -/
def IsHexDigit (c : Char) (value : Nat) : Prop :=
  value < 16 ∧ (c = Nat.digitChar value ∨ c = (Nat.digitChar value).toUpper)

/-- Hexadecimal digits, and the number they spell. -/
def SpellsHex (digits : Text) (n : Nat) : Prop :=
  ∃ values, List.Forall₂ IsHexDigit digits values ∧ n = Nat.ofDigits 16 values.reverse

theorem hexDigit?_eq_some_iff {c : Char} {value : Nat} :
    hexDigit? c = some value ↔ IsHexDigit c value := by
  constructor
  · intro h
    -- The ranges of the reader, each with the code point of its first digit.
    have hranges : (value < 10 ∧ c.toNat = value + 48) ∨ (10 ≤ value ∧ value < 16 ∧
        (c.toNat = value + 87 ∨ c.toNat = value + 55)) := by
      unfold hexDigit? at h
      simp only [Char.le_def, UInt32.le_iff_toNat_le] at h
      have hcode : c.val.toNat = c.toNat := rfl
      have hdigit : '0'.val.toNat = 48 ∧ '9'.val.toNat = 57 := ⟨rfl, rfl⟩
      have hsmall : 'a'.val.toNat = 97 ∧ 'f'.val.toNat = 102 := ⟨rfl, rfl⟩
      have hlarge : 'A'.val.toNat = 65 ∧ 'F'.val.toNat = 70 := ⟨rfl, rfl⟩
      split at h
      · obtain rfl := Option.some.inj h
        omega
      split at h
      · obtain rfl := Option.some.inj h
        omega
      split at h
      · obtain rfl := Option.some.inj h
        omega
      · cases h
    have hchars : (∀ n < 10, Char.ofNat (n + 48) = Nat.digitChar n) ∧
        ∀ n < 16, 10 ≤ n → Char.ofNat (n + 87) = Nat.digitChar n ∧
          Char.ofNat (n + 55) = (Nat.digitChar n).toUpper := by decide
    rw [IsHexDigit, ← Char.ofNat_toNat c]
    rcases hranges with ⟨hvalue, hcode⟩ | ⟨hlow, hvalue, hcode | hcode⟩
    · rw [hcode]
      exact ⟨by omega, .inl (hchars.1 value hvalue)⟩
    · rw [hcode]
      exact ⟨hvalue, .inl (hchars.2 value hvalue hlow).1⟩
    · rw [hcode]
      exact ⟨hvalue, .inr (hchars.2 value hvalue hlow).2⟩
  · rintro ⟨hvalue, hc⟩
    have hread : ∀ n < 16, hexDigit? (Nat.digitChar n) = some n ∧
        hexDigit? (Nat.digitChar n).toUpper = some n := by decide
    rcases hc with rfl | rfl
    · exact (hread value hvalue).1
    · exact (hread value hvalue).2

variable {c : Char} {digits : Text} {n : Nat}

theorem spellsHex_nil_iff : SpellsHex [] n ↔ n = 0 := by
  simp [SpellsHex]

/-- The first digit counts sixteen times for each digit behind it. -/
theorem spellsHex_cons_iff : SpellsHex (c :: digits) n ↔
    ∃ value m, IsHexDigit c value ∧ SpellsHex digits m ∧ n = 16 ^ digits.length * value + m := by
  constructor
  · rintro ⟨values, hvalues, rfl⟩
    cases hvalues with
    | cons hc hdigits =>
        refine ⟨_, _, hc, ⟨_, hdigits, rfl⟩, ?_⟩
        rw [List.reverse_cons, Nat.ofDigits_append, Nat.ofDigits_singleton, List.length_reverse,
          hdigits.length_eq, Nat.add_comm]
  · rintro ⟨value, m, hc, ⟨values, hvalues, rfl⟩, rfl⟩
    refine ⟨value :: values, .cons hc hvalues, ?_⟩
    rw [List.reverse_cons, Nat.ofDigits_append, Nat.ofDigits_singleton, List.length_reverse,
      hvalues.length_eq, Nat.add_comm]

/-- So many digits spell a number below that power of sixteen. -/
theorem SpellsHex.lt (h : SpellsHex digits n) : n < 16 ^ digits.length := by
  induction digits generalizing n with
  | nil => simp [spellsHex_nil_iff.1 h]
  | cons c digits ih =>
      obtain ⟨value, m, hc, hdigits, rfl⟩ := spellsHex_cons_iff.1 h
      have hm := ih hdigits
      have hvalue : value + 1 ≤ 16 := hc.1
      calc 16 ^ digits.length * value + m
          < 16 ^ digits.length * (value + 1) := by rw [Nat.mul_add_one]; omega
        _ ≤ 16 ^ digits.length * 16 := Nat.mul_le_mul_left _ hvalue
        _ = 16 ^ (c :: digits).length := by rw [List.length_cons, Nat.pow_succ]

theorem SpellsHex.isHexDigit (h : SpellsHex digits n) (hc : c ∈ digits) :
    ∃ value, IsHexDigit c value := by
  induction digits generalizing n with
  | nil => cases hc
  | cons d digits ih =>
      obtain ⟨value, m, hd, hdigits, -⟩ := spellsHex_cons_iff.1 h
      rcases List.mem_cons.1 hc with rfl | hc
      · exact ⟨value, hd⟩
      · exact ih hdigits hc

/-- What is no hexadecimal digit is not among digits. -/
theorem SpellsHex.not_mem (h : SpellsHex digits n) (hc : hexDigit? c = none) : c ∉ digits := by
  intro hmem
  obtain ⟨value, hvalue⟩ := h.isHexDigit hmem
  rw [hexDigit?_eq_some_iff.2 hvalue] at hc
  cases hc

/-! ## Escape sequences -/

/-- The sign before the digits between braces, if there is one. -/
def sign (plus : Bool) : Text := if plus then ['+'] else []

/-- A code behind `\u`: four digits, or one or more between braces. -/
inductive Code : Bool → Text → Nat → Prop where
  | four {digits : Text} {n : Nat} (h : SpellsHex digits n) (hlength : digits.length = 4) :
      Code false digits n
  | braced (plus : Bool) {digits : Text} {n : Nat} (h : SpellsHex digits n) (hsome : digits ≠ []) :
      Code plus ('{' :: (sign plus ++ digits ++ ['\x7d'])) n

/-- What stands behind a code, and the character of both: nothing behind a code point that is no
surrogate, and a low surrogate behind a high one. -/
inductive Completes (n : Nat) : Text → Char → Prop where
  | alone (hn : n.isValidChar) : Completes n [] (Char.ofNat n)
  | paired {digits : Text} {low : Nat} (hhigh : 0xD800 ≤ n ∧ n < 0xDC00) (h : SpellsHex digits low)
      (hlength : digits.length = 4) (hlow : 0xDC00 ≤ low ∧ low < 0xE000) :
      Completes n ('\\' :: 'u' :: digits)
        (Char.ofNat (0x10000 + (n - 0xD800) * 0x400 + (low - 0xDC00)))

/-- The control characters that have a name, with the names. -/
def controls : List (Char × Char) :=
  [('n', '\n'), ('r', '\r'), ('t', '\t'), ('b', '\x08'), ('f', '\x0C'), ('v', '\x0B'),
    ('0', '\x00')]

/-- The line ends. -/
def lineEnds : List Text := [['\n'], ['\r'], ['\r', '\n'], ['\u2028'], ['\u2029']]

/-- What may stand behind a backslash, and what it denotes. -/
inductive Sequence : Bool → Text → Text → Prop where
  | control {name c : Char} (h : (name, c) ∈ controls) : Sequence false [name] [c]
  | byte {digits : Text} {n : Nat} (h : SpellsHex digits n) (hlength : digits.length = 2) :
      Sequence false ('x' :: digits) [Char.ofNat n]
  | code {plus : Bool} {code rest : Text} {n : Nat} {c : Char} (h : Code plus code n)
      (hrest : Completes n rest c) : Sequence plus ('u' :: (code ++ rest)) [c]
  | lineEnd {e : Text} (h : e ∈ lineEnds) : Sequence false e []
  | other {c : Char} (hx : c ≠ 'x') (hu : c ≠ 'u') (hline : isLineTerminator c = false)
      (hcontrol : ∀ d, (c, d) ∉ controls) : Sequence false [c] [c]

/-! ## Literals -/

/-- An item between quotes of a kind, and what it denotes. -/
inductive Item (mark : Char) : Bool → Text → Text → Prop where
  | plain {c : Char} (hmark : c ≠ mark) (hback : c ≠ '\\') (hline : isLineTerminator c = false) :
      Item mark false [c] [c]
  | escaped {plus : Bool} {e value : Text} (h : Sequence plus e value) :
      Item mark plus ('\\' :: e) value

/-- Items one after the other; what they denote is put together likewise. -/
inductive Items (mark : Char) : Bool → Text → Text → Prop where
  | nil : Items mark false [] []
  | cons {plus more : Bool} {t value u values : Text} (first : Item mark plus t value)
      (rest : Items mark more u values) : Items mark (plus || more) (t ++ u) (value ++ values)

/-- A string literal, and the text it denotes. -/
def IsLiteral (plus : Bool) (literal value : Text) : Prop :=
  ∃ mark body, (mark = '"' ∨ mark = '\'') ∧ literal = mark :: body ++ [mark] ∧
    Items mark plus body value

/-- A text begins with a literal that denotes a value and takes so many bytes. -/
def BeginsWithLiteral (plus : Bool) (src value : Text) (used : Nat) : Prop :=
  ∃ literal behind, src = literal ++ behind ∧ IsLiteral plus literal value ∧
    used = Text.byteLength literal

end Literal

end Scriptwright
