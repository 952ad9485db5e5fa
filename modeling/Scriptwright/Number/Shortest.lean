import Scriptwright.Number.Binary64

/-!
# The shortest decimal that reads back

A finite double is written with the fewest decimal digits that read back as the
same double, and among those with the digits nearest to its value.  For one,
two, … seventeen digits the two neighbours of the value on that decimal grid are
tried; the first grid with a hit wins, of two hits the nearer one, and of two
equally near the greater.  Whether a candidate is a hit is decided by rounding
it, so nothing here depends on the shape of the interval of numbers that round
to a double.  Should no grid have a hit, the exact decimal expansion is taken;
the result reads back in either case.
-/

namespace Scriptwright

namespace Decimal

/-- The same number without zeros at the end of its digits. -/
def reduce (d : Decimal) : Decimal :=
  if _h : d.digits ≠ 0 ∧ d.digits % 10 = 0 then reduce ⟨d.digits / 10, d.exponent + 1⟩
  else d
termination_by d.digits
decreasing_by omega

/-- The text of the digits. -/
def text (d : Decimal) : Text := Text.ofNat d.digits

end Decimal

namespace Binary64

/-- The place of the leading decimal digit of a magnitude: its power of ten. -/
def leadingPlace (units : Nat) : Int :=
  let whole := units / unitsInOne
  if whole ≠ 0 then ((Text.ofNat whole).length : Int) - 1
  else
    match (List.range 400).find? fun j => decide (unitsInOne ≤ units * Nat.pow 10 (j + 1)) with
    | some j => -((j : Int) + 1)
    | none => -400

/-- The magnitude in steps of `10 ^ place`, as a quotient of natural numbers. -/
def stepsAt (units : Nat) (place : Int) : Nat × Nat :=
  if 0 ≤ place then (units, unitsInOne * Nat.pow 10 place.toNat)
  else (units * Nat.pow 10 (-place).toNat, unitsInOne)

/-- The neighbour of a magnitude on the grid of `10 ^ place` that reads back as it, if one does;
of two the nearer, of two equally near the greater. -/
def neighbour? (rank : Nat) (place : Int) : Option Decimal :=
  let (num, den) := stepsAt (unitsAt rank) place
  let below : Decimal := ⟨num / den, place⟩
  let above : Decimal := ⟨num / den + 1, place⟩
  match decide (rankOfDecimal below = rank), decide (rankOfDecimal above = rank) with
  | true, true => if 2 * (num % den) < den then some below else some above
  | true, false => some below
  | false, true => some above
  | false, false => none

/-- The exact decimal expansion of a magnitude. -/
def exactDecimal (units : Nat) : Decimal := ⟨units * Nat.pow 5 1074, -1074⟩

/-- The shortest decimal that reads back as the magnitude of a rank. -/
def shortestAt (rank : Nat) : Decimal :=
  let top := leadingPlace (unitsAt rank)
  let hit := (List.range 17).findSome? fun (n : Nat) => neighbour? rank (top - (n : Int))
  (hit.getD (exactDecimal (unitsAt rank))).reduce

/-- The shortest decimal that reads back as the magnitude of a double. -/
def shortest (x : Binary64) : Decimal := shortestAt x.rank

end Binary64

end Scriptwright
