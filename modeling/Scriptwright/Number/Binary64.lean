import Scriptwright.Text.Basic

/-!
# Double-precision numbers, exactly

A number of the script language is a double: 64 bits.  No floating-point
arithmetic is used here; everything about a double is said in natural numbers.

The 63 bits below the sign are the *rank* of the magnitude: ranks count the
magnitudes upwards from zero, so the order of magnitudes is the order of ranks.
Every finite magnitude is a whole number of *units* of `2 ^ (-1074)`, and
`unitsAt` gives that number.  In the other direction `nearestRank` rounds an
exact quotient of units to the nearest magnitude, a tie going to the even rank;
a magnitude too large for any finite double gets the rank of infinity.
-/

namespace Scriptwright

/-- A double, given by its bits. -/
structure Binary64 where
  bits : BitVec 64
deriving DecidableEq

/-- The decimal number `digits * 10 ^ exponent`. -/
structure Decimal where
  digits : Nat
  exponent : Int
deriving DecidableEq

/-- A decimal with its exponent cut off where nothing changes any more: with more than four hundred
places before the point every decimal is infinite as a double, with as many zeros behind it every
one is zero. -/
def Decimal.bounded (d : Decimal) : Decimal :=
  ⟨d.digits, max (min d.exponent 400) (-(400 + ((Text.ofNat d.digits).length : Int)))⟩

namespace Binary64

/-- The units in the number one. -/
def unitsInOne : Nat := Nat.pow 2 1074

/-- The ranks from one power of two up to the next. -/
def binade : Nat := Nat.pow 2 52

/-- The value of the sign bit, the highest of the 64. -/
def signBit : Nat := Nat.pow 2 63

/-- The rank of the infinite magnitude; greater ranks are not numbers. -/
def infinityRank : Nat := 2047 * binade

/-- The sign bit. -/
def negative (x : Binary64) : Bool := decide (signBit ≤ x.bits.toNat)

/-- The bits below the sign. -/
def rank (x : Binary64) : Nat := x.bits.toNat % signBit

/-- Not a number. -/
def isNaN (x : Binary64) : Bool := decide (infinityRank < x.rank)

/-- Infinite, of either sign. -/
def isInfinite (x : Binary64) : Bool := decide (x.rank = infinityRank)

/-- Neither infinite nor without a value. -/
def isFinite (x : Binary64) : Bool := decide (x.rank < infinityRank)

/-- The magnitude of a rank, counted in units of `2 ^ (-1074)`. -/
def unitsAt (rank : Nat) : Nat :=
  if rank < binade then rank else (binade + rank % binade) * Nat.pow 2 (rank / binade - 1)

/-- The magnitude of a finite double, counted in units of `2 ^ (-1074)`. -/
def units (x : Binary64) : Nat := unitsAt x.rank

/-- The double of a sign and a rank. -/
def ofRank (negative : Bool) (rank : Nat) : Binary64 :=
  ⟨BitVec.ofNat 64 ((if negative then signBit else 0) + rank)⟩

/-- A quotient of natural numbers rounded to the nearest one, a tie going to the even one. -/
def roundQuotient (num den : Nat) : Nat :=
  let quotient := num / den
  let rest := num % den
  if 2 * rest < den then quotient
  else if den < 2 * rest then quotient + 1
  else quotient + quotient % 2

/-- The rank nearest to the magnitude of `num / den` units: the quotient is rounded to 53
significant bits, and a carry into the next power of two is a carry into the next rank. -/
def nearestRank (num den : Nat) : Nat :=
  let shift := Nat.log2 (num / den) - 52
  min infinityRank (shift * binade + roundQuotient num (den * Nat.pow 2 shift))

/-- The rank nearest to a decimal. -/
def rankOfDecimal (d : Decimal) : Nat :=
  if 0 ≤ d.exponent then nearestRank (d.digits * Nat.pow 10 d.exponent.toNat * unitsInOne) 1
  else nearestRank (d.digits * unitsInOne) (Nat.pow 10 (-d.exponent).toNat)

/-- The double nearest to a decimal with a sign. -/
def ofDecimal (negative : Bool) (d : Decimal) : Binary64 :=
  ofRank negative (rankOfDecimal d.bounded)

/-- The double nearest to an integer. -/
def ofInt (n : Int) : Binary64 := ofDecimal (decide (n < 0)) ⟨n.natAbs, 0⟩

/-- A number without a value. -/
def nan : Binary64 := ofRank false (infinityRank + binade / 2)

/-- The infinite number of a sign. -/
def infinite (negative : Bool) : Binary64 := ofRank negative infinityRank

end Binary64

end Scriptwright
