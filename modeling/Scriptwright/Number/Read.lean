import Scriptwright.Number.Binary64

/-!
# Reading a number

`Binary64.read?` accepts a sign, then either one of the words `inf`, `infinity`,
`nan` in any mixture of cases, or decimal digits with at most one point among or
around them and an optional power of ten.  At least one digit is needed, and
nothing may follow.  A decimal is rounded to the nearest double.
-/

namespace Scriptwright

/-- The value of a run of decimal digits. -/
def digitsValue (digits : Text) : Nat := Nat.ofDigitChars 10 digits 0

/-- Takes a sign off the front; without one the text counts as positive. -/
def takeSign : Text → Bool × Text
  | '-' :: rest => (true, rest)
  | '+' :: rest => (false, rest)
  | t => (false, t)

/-- An integer made of digits with an optional sign, and nothing else. -/
def readExponent? (t : Text) : Option Int :=
  let (negative, digits) := takeSign t
  if digits.isEmpty || !digits.all Char.isDigit then none
  else if negative then some (-(digitsValue digits : Int)) else some (digitsValue digits)

namespace Decimal

/-- Digits with an optional point and an optional power of ten, and nothing else. -/
def read? (t : Text) : Option Decimal :=
  let whole := t.takeWhile Char.isDigit
  let rest := t.dropWhile Char.isDigit
  let (fraction, rest) :=
    match rest with
    | '.' :: rest => (rest.takeWhile Char.isDigit, rest.dropWhile Char.isDigit)
    | _ => ([], rest)
  if whole.isEmpty && fraction.isEmpty then none
  else
    let plain : Decimal := ⟨digitsValue (whole ++ fraction), -(fraction.length : Int)⟩
    match rest with
    | [] => some plain
    | c :: power =>
        if c = 'e' ∨ c = 'E' then
          (readExponent? power).map fun e => ⟨plain.digits, plain.exponent + e⟩
        else none

end Decimal

namespace Binary64

/-- The number a text stands for. -/
def read? (t : Text) : Option Binary64 :=
  let (negative, magnitude) := takeSign t
  let word := magnitude.map Char.toLower
  if word = "inf".toList ∨ word = "infinity".toList then some (infinite negative)
  else if word = "nan".toList then some nan
  else (Decimal.read? magnitude).map (ofDecimal negative)

end Binary64

end Scriptwright
