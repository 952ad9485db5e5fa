import Scriptwright.Number.Shortest

/-!
# Number text

How a number is written in a script: `NaN`, `Infinity`, `-Infinity`, and `0` for
both zeros; every other number by its shortest digits, positionally from
`0.000001` up to but not including `10 ^ 21`, and beyond that with a power of
ten whose sign is always written (`1e+21`, `1.5e-7`).
-/

namespace Scriptwright

namespace Decimal

/-- Positional notation: all places up to the last digit, with a point if needed. -/
def positional (d : Decimal) : Text :=
  let digits := d.text
  if 0 ≤ d.exponent then digits ++ List.replicate d.exponent.toNat '0'
  else
    let places := (-d.exponent).toNat
    if places < digits.length then
      digits.take (digits.length - places) ++ '.' :: digits.drop (digits.length - places)
    else '0' :: '.' :: (List.replicate (places - digits.length) '0' ++ digits)

/-- Notation with a power of ten: one digit before the point, the others after it. -/
def scientific (d : Decimal) : Text :=
  let digits := d.text
  let power : Int := d.exponent + (digits.length : Int) - 1
  let mantissa := if digits.length ≤ 1 then digits else digits.take 1 ++ '.' :: digits.drop 1
  mantissa ++ 'e' :: (if power < 0 then '-' else '+') :: Text.ofNat power.natAbs

end Decimal

namespace Binary64

/-- Whether a number is written positionally: its magnitude is at least the double nearest to one
millionth and less than `10 ^ 21`. -/
def isPositional (x : Binary64) : Bool :=
  decide (unitsAt (rankOfDecimal ⟨1, -6⟩) ≤ x.units) &&
    decide (x.units < Nat.pow 10 21 * unitsInOne)

/-- The text of a number. -/
def format (x : Binary64) : Text :=
  if x.isNaN then "NaN".toList
  else if x.isInfinite then (if x.negative then "-Infinity".toList else "Infinity".toList)
  else if x.rank = 0 then ['0']
  else
    let digits := if x.isPositional then x.shortest.positional else x.shortest.scientific
    if x.negative then '-' :: digits else digits

end Binary64

end Scriptwright
