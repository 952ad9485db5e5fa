import Mathlib.Algebra.Order.Archimedean.Basic
import Mathlib.Algebra.Order.Field.Power
import Mathlib.Algebra.Ring.Parity
import Mathlib.Data.Rat.Floor
import Mathlib.Tactic.Linarith
import Mathlib.Tactic.NormNum
import Mathlib.Tactic.Positivity
import Mathlib.Tactic.Ring
import Scriptwright.Number.Binary64

/-!
# Rounding to the nearest double

Rounding is computed with ranks and units in natural numbers.  Here it is said what
it should be, in exact rational numbers, and that it is.

The magnitudes of the doubles are the units of the ranks up to that of infinity,
which stands where the next power of two would be (`unitsAt_step`: within a power of
two, units go up in equal steps; `strictMono_unitsAt`).  A rank is *nearest* to a
magnitude if no other rank is nearer, and is even where another is as near
(`IsNearestRank`).  At most one rank is (`IsNearestRank.unique`), and a rank is if the
magnitude lies between the points half-way to the neighbours
(`IsHalfwayHeld.isNearestRank`).

* `isNearestRank_nearestRank` — the computed rank of a quotient is the nearest one;
* `rankOfDecimal_congr`, `rankOfDecimal_bounded` — the rank of a decimal depends on
  its value alone, and cutting its exponent off does not change it;
* `roundsTo_of_isNearestRank` — a finite double with the nearest rank and the right
  sign is the one that a number **rounds to**, to the nearest with ties to even
  (`RoundsTo`);
* `RoundsTo.value_unique` — and but for the sign of zero there is only one, since
  between two doubles whose last bits are zero there is a third one.
-/

namespace Scriptwright

namespace Binary64

/-! ## The units of the ranks -/

/-- The number of ranks between a power of two and the next. -/
theorem binade_eq : binade = 4503599627370496 := rfl

/-- The least pattern of bits that has the sign. -/
theorem signBit_eq : signBit = 9223372036854775808 := rfl

/-- Within a power of two the units go up in equal steps, up to the next power of two. -/
theorem unitsAt_step {shift m : ℕ} (hm : m ≤ 2 * binade) (hlow : shift = 0 ∨ binade ≤ m) :
    unitsAt (shift * binade + m) = m * 2 ^ shift := by
  have hpow (k : ℕ) : Nat.pow 2 k = 2 ^ k := rfl
  have hpos : 0 < binade := by decide
  rcases Nat.lt_or_ge m binade with hsmall | hlarge
  · obtain rfl : shift = 0 := by omega
    rw [Nat.zero_mul, Nat.zero_add, unitsAt, if_pos hsmall, Nat.pow_zero, Nat.mul_one]
  obtain ⟨k, rfl⟩ : ∃ k, m = binade + k := ⟨m - binade, by omega⟩
  have hrank : shift * binade + (binade + k) = k + binade * (shift + 1) := by ring
  rw [unitsAt, if_neg (by omega), hpow, hrank, Nat.add_mul_div_left _ _ hpos,
    Nat.add_mul_mod_self_left]
  rcases Nat.lt_or_ge k binade with hk | hk
  · rw [Nat.mod_eq_of_lt hk, Nat.div_eq_of_lt hk, Nat.zero_add, Nat.add_sub_cancel]
  · -- The carry into the next power of two.
    obtain rfl : k = binade := by omega
    rw [Nat.mod_self, Nat.div_self hpos, Nat.add_zero, Nat.add_comm 1, Nat.add_sub_cancel,
      Nat.pow_succ]
    ring

/-- Every rank is so many steps within a power of two. -/
theorem exists_step (r : ℕ) :
    ∃ shift m, r = shift * binade + m ∧ m < 2 * binade ∧ (shift = 0 ∨ binade ≤ m) := by
  refine ⟨r / binade - 1, r - (r / binade - 1) * binade, ?_⟩
  rw [binade_eq]
  omega

/-- **A greater rank has more units.** -/
theorem strictMono_unitsAt : StrictMono unitsAt := by
  refine strictMono_nat_of_lt_succ fun r => ?_
  obtain ⟨shift, m, rfl, hm, hlow⟩ := exists_step r
  have hnext : shift * binade + m + 1 = shift * binade + (m + 1) := by ring
  rw [hnext, unitsAt_step hm.le hlow, unitsAt_step hm (by omega)]
  exact Nat.mul_lt_mul_of_pos_right (Nat.lt_succ_self m) (by positivity)

/-- Units grow with the rank. -/
theorem unitsAt_lt {r s : ℕ} (h : r < s) : (unitsAt r : ℚ) < unitsAt s := by
  exact_mod_cast strictMono_unitsAt h

/-- They do not shrink where the rank does not. -/
theorem unitsAt_le {r s : ℕ} (h : r ≤ s) : (unitsAt r : ℚ) ≤ unitsAt s := by
  exact_mod_cast strictMono_unitsAt.monotone h

/-- Zero is the double of rank zero. -/
theorem unitsAt_zero : unitsAt 0 = 0 := rfl

/-- What the rank of infinity would count as, if it were a number: the next power of two. -/
theorem unitsAt_infinityRank : unitsAt infinityRank = binade * 2 ^ 2046 := by
  have hrank : infinityRank = 2046 * binade + binade := by
    unfold infinityRank
    omega
  rw [hrank, unitsAt_step (by omega) (.inr le_rfl)]

/-- The units of the rank after so many steps, and those after one step more. -/
theorem unitsAt_next {shift m : ℕ} (hm : m ≤ 2 * binade) (hlow : shift = 0 ∨ binade ≤ m) :
    (m + 1) * 2 ^ shift ≤ unitsAt (shift * binade + m + 1) := by
  have hpos : 0 < binade := by decide
  rcases hm.lt_or_eq with hless | rfl
  · have hrank : shift * binade + m + 1 = shift * binade + (m + 1) := by ring
    rw [hrank, unitsAt_step hless (by omega)]
  · have hrank : shift * binade + 2 * binade + 1 = (shift + 1) * binade + (binade + 1) := by ring
    rw [hrank, unitsAt_step (by omega) (.inr (by omega)), Nat.pow_succ, ← mul_assoc, mul_right_comm]
    exact Nat.mul_le_mul_right _ (by omega)

/-! ## The nearest rank -/

/-- A rank is nearest to a magnitude, counted in units: no other is nearer, and if another is as
near, this one is even.  Infinity counts as the next power of two. -/
structure IsNearestRank (q : ℚ) (r : ℕ) : Prop where
  le_infinity : r ≤ infinityRank
  nearest : ∀ s ≤ infinityRank, |q - unitsAt r| ≤ |q - unitsAt s|
  even : ∀ s ≤ infinityRank, s ≠ r → |q - unitsAt r| = |q - unitsAt s| → Even r

/-- Of two numbers as far from a third, what is between them is nearer. -/
theorem nearer_inside {q a b c : ℚ} (hsame : |q - a| = |q - c|) (hfirst : a < b)
    (hsecond : b < c) : |q - b| < |q - a| := by
  have hhalf : q - a = -(q - c) := by
    rcases abs_eq_abs.1 hsame with h | h
    · linarith
    · exact h
  rw [abs_of_pos (show 0 < q - a by linarith), abs_lt]
  constructor <;> linarith

/-- Half-way between two even ranks there is a third one, which is nearer. -/
theorem IsNearestRank.not_below {q : ℚ} {r s : ℕ} (hr : IsNearestRank q r)
    (hs : IsNearestRank q s) : ¬ r < s := by
  intro hlt
  have hsame : |q - unitsAt r| = |q - unitsAt s| :=
    le_antisymm (hr.nearest s hs.le_infinity) (hs.nearest r hr.le_infinity)
  obtain ⟨i, hi⟩ := hr.even s hs.le_infinity hlt.ne' hsame
  obtain ⟨j, hj⟩ := hs.even r hr.le_infinity hlt.ne hsame.symm
  have hfirst : (unitsAt r : ℚ) < unitsAt (r + 1) := unitsAt_lt (Nat.lt_succ_self r)
  have hsecond : (unitsAt (r + 1) : ℚ) < unitsAt s := unitsAt_lt (by omega)
  exact absurd (hr.nearest (r + 1) (hlt.trans_le hs.le_infinity))
    (not_le.2 (nearer_inside hsame hfirst hsecond))

/-- **At most one rank is nearest.** -/
theorem IsNearestRank.unique {q : ℚ} {r s : ℕ} (hr : IsNearestRank q r) (hs : IsNearestRank q s) :
    r = s :=
  le_antisymm (Nat.not_lt.1 (hs.not_below hr)) (Nat.not_lt.1 (hr.not_below hs))

/-- A magnitude between the points half-way from a rank to its neighbours; those points themselves
belong to the even rank. -/
structure IsHalfwayHeld (q : ℚ) (r : ℕ) : Prop where
  lower : ∀ s, s + 1 = r → (unitsAt s + unitsAt r : ℚ) ≤ 2 * q
  upper : 2 * q ≤ (unitsAt r + unitsAt (r + 1) : ℚ)
  even : (∃ s, s + 1 = r ∧ (unitsAt s + unitsAt r : ℚ) = 2 * q) ∨
    2 * q = (unitsAt r + unitsAt (r + 1) : ℚ) → Even r

/-- A lower rank is not as near, unless it is the next one and the magnitude is half-way. -/
theorem nearer_than_lower {q : ℚ} {r s : ℕ} (hs : s < r)
    (hlower : ∀ t, t + 1 = r → (unitsAt t + unitsAt r : ℚ) ≤ 2 * q) :
    |q - unitsAt r| ≤ |q - unitsAt s| ∧ (|q - unitsAt r| = |q - unitsAt s| →
      ∃ t, t + 1 = r ∧ (unitsAt t + unitsAt r : ℚ) = 2 * q) := by
  obtain ⟨t, rfl⟩ : ∃ t, r = t + 1 := ⟨r - 1, by omega⟩
  have hnext := hlower t rfl
  have hst : (unitsAt s : ℚ) ≤ unitsAt t := unitsAt_le (by omega)
  have htr : (unitsAt t : ℚ) < unitsAt (t + 1) := unitsAt_lt (Nat.lt_succ_self t)
  have hfar : |q - unitsAt s| = q - unitsAt s := abs_of_nonneg (by linarith)
  rw [hfar]
  constructor
  · rw [abs_le]
    constructor <;> linarith
  · intro hsame
    refine ⟨t, rfl, ?_⟩
    rcases abs_cases (q - unitsAt (t + 1)) with ⟨h, -⟩ | ⟨h, -⟩ <;> linarith

/-- A higher rank is not as near, unless the magnitude is half-way to the next one. -/
theorem nearer_than_higher {q : ℚ} {r s : ℕ} (hs : r < s)
    (hupper : 2 * q ≤ (unitsAt r + unitsAt (r + 1) : ℚ)) :
    |q - unitsAt r| ≤ |q - unitsAt s| ∧ (|q - unitsAt r| = |q - unitsAt s| →
      2 * q = (unitsAt r + unitsAt (r + 1) : ℚ)) := by
  have hst : (unitsAt (r + 1) : ℚ) ≤ unitsAt s := unitsAt_le hs
  have hrt : (unitsAt r : ℚ) < unitsAt (r + 1) := unitsAt_lt (Nat.lt_succ_self r)
  have hfar : |q - unitsAt s| = -(q - unitsAt s) := abs_of_nonpos (by linarith)
  rw [hfar]
  constructor
  · rw [abs_le]
    constructor <;> linarith
  · intro hsame
    rcases abs_cases (q - unitsAt r) with ⟨h, -⟩ | ⟨h, -⟩ <;> linarith

/-- **A rank between whose half-way points a magnitude lies is nearest to it.** -/
theorem IsHalfwayHeld.isNearestRank {q : ℚ} {r : ℕ} (h : IsHalfwayHeld q r)
    (hr : r ≤ infinityRank) : IsNearestRank q r := by
  refine ⟨hr, fun s _ => ?_, fun s _ hne hsame => ?_⟩
  · rcases lt_trichotomy s r with hs | rfl | hs
    · exact (nearer_than_lower hs h.lower).1
    · exact le_rfl
    · exact (nearer_than_higher hs h.upper).1
  · rcases lt_or_gt_of_ne hne with hs | hs
    · exact h.even (.inl ((nearer_than_lower hs h.lower).2 hsame))
    · exact h.even (.inr ((nearer_than_higher hs h.upper).2 hsame))

/-- Infinity is nearest to what is not below the point half-way to it. -/
theorem isNearestRank_infinityRank {q : ℚ}
    (h : (unitsAt (infinityRank - 1) + unitsAt infinityRank : ℚ) ≤ 2 * q) :
    IsNearestRank q infinityRank := by
  have hlower : ∀ t, t + 1 = infinityRank → (unitsAt t + unitsAt infinityRank : ℚ) ≤ 2 * q := by
    intro t ht
    obtain rfl : t = infinityRank - 1 := by omega
    exact h
  refine ⟨le_rfl, fun s hs => ?_, fun _ _ _ _ => by decide⟩
  rcases hs.lt_or_eq with hs | rfl
  · exact (nearer_than_lower hs hlower).1
  · exact le_rfl

/-- Zero is nearest to what is less than half a unit. -/
theorem isNearestRank_zero {q : ℚ} (h : q < 1 / 2) : IsNearestRank q 0 := by
  have hone : unitsAt 1 = 1 := rfl
  refine IsHalfwayHeld.isNearestRank ⟨fun s hs => ?_, ?_, fun _ => ⟨0, rfl⟩⟩ (Nat.zero_le _)
  · omega
  · rw [Nat.zero_add, hone, unitsAt_zero]
    push_cast
    linarith

/-- The units of a rank are nearest to themselves. -/
theorem isNearestRank_unitsAt {r : ℕ} (hr : r ≤ infinityRank) : IsNearestRank (unitsAt r) r := by
  refine ⟨hr, fun s _ => ?_, fun s _ hne hsame => ?_⟩
  · rw [sub_self, abs_zero]
    exact abs_nonneg _
  · rw [sub_self, abs_zero, eq_comm, abs_eq_zero, sub_eq_zero] at hsame
    exact absurd (strictMono_unitsAt.injective (by exact_mod_cast hsame)).symm hne

/-! ## Rounding a quotient -/

/-- A natural number that a number rounds to: no more than a half away, and even if it is just a
half. -/
structure RoundsToNat (q : ℚ) (m : ℕ) : Prop where
  lower : (m : ℚ) - 1 / 2 ≤ q
  upper : q ≤ m + 1 / 2
  even : q = m - 1 / 2 ∨ q = m + 1 / 2 → Even m

/-- What is less than a natural number is not rounded beyond it. -/
theorem RoundsToNat.le_of_lt {q : ℚ} {m n : ℕ} (h : RoundsToNat q m) (hq : q < n) : m ≤ n := by
  have hlower := h.lower
  have hless : (m : ℚ) < (n + 1 : ℕ) := by
    push_cast
    linarith
  have hnat : m < n + 1 := by exact_mod_cast hless
  omega

/-- What is not less than a natural number is not rounded below it. -/
theorem RoundsToNat.ge_of_le {q : ℚ} {m n : ℕ} (h : RoundsToNat q m) (hq : (n : ℚ) ≤ q) :
    n ≤ m := by
  have hupper := h.upper
  have hless : (n : ℚ) < (m + 1 : ℕ) := by
    push_cast
    linarith
  have hnat : n < m + 1 := by exact_mod_cast hless
  omega

/-- Less than a half above a natural number rounds down. -/
theorem roundsToNat_down {n : ℕ} {part : ℚ} (hlow : 0 ≤ part) (hhigh : part < 1 / 2) :
    RoundsToNat (n + part) n := by
  refine ⟨by linarith, by linarith, fun h => ?_⟩
  rcases h with h | h <;> linarith

/-- More than a half above it rounds up. -/
theorem roundsToNat_up {n : ℕ} {part : ℚ} (hlow : 1 / 2 < part) (hhigh : part < 1) :
    RoundsToNat (n + part) (n + 1) := by
  have hcast : ((n + 1 : ℕ) : ℚ) = n + 1 := by push_cast; rfl
  refine ⟨by linarith, by linarith, fun h => ?_⟩
  rcases h with h | h <;> linarith

/-- Just half-way the even one of both neighbours is taken. -/
theorem roundsToNat_half (n : ℕ) : RoundsToNat (n + 1 / 2) (n + n % 2) := by
  have heven : Even (n + n % 2) := by
    rw [Nat.even_iff]
    omega
  rcases Nat.mod_two_eq_zero_or_one n with h | h
  · rw [h, Nat.add_zero] at heven ⊢
    exact ⟨by linarith, by linarith, fun _ => heven⟩
  · rw [h] at heven ⊢
    have hcast : ((n + 1 : ℕ) : ℚ) = n + 1 := by push_cast; rfl
    exact ⟨by linarith, by linarith, fun _ => heven⟩

/-- **A quotient is rounded** to the nearest natural number, a half to the even one. -/
theorem roundsToNat_roundQuotient (num : ℕ) {den : ℕ} (hden : 0 < den) :
    RoundsToNat (num / den) (roundQuotient num den) := by
  have hpos : (0 : ℚ) < den := by exact_mod_cast hden
  obtain ⟨part, hpart⟩ : ∃ part : ℚ, part = ((num % den : ℕ) : ℚ) / den := ⟨_, rfl⟩
  have hrest : ((num % den : ℕ) : ℚ) = part * den := by rw [hpart, div_mul_cancel₀ _ hpos.ne']
  have hquotient : (num / den : ℚ) = (num / den : ℕ) + part := by
    have hsplit : (num : ℚ) = den * (num / den : ℕ) + (num % den : ℕ) := by
      exact_mod_cast (Nat.div_add_mod num den).symm
    rw [div_eq_iff hpos.ne', hsplit, hrest]
    ring
  have hnonneg : 0 ≤ part := by
    rw [hpart]
    positivity
  have hless : part < 1 := by
    have hmod : ((num % den : ℕ) : ℚ) < den := by exact_mod_cast Nat.mod_lt num hden
    nlinarith
  rw [hquotient]
  unfold roundQuotient
  dsimp only
  split_ifs with hdown hup
  · have hcast : 2 * ((num % den : ℕ) : ℚ) < den := by exact_mod_cast hdown
    exact roundsToNat_down hnonneg (by nlinarith)
  · have hcast : (den : ℚ) < 2 * ((num % den : ℕ) : ℚ) := by exact_mod_cast hup
    exact roundsToNat_up (by nlinarith) hless
  · have hcast : 2 * ((num % den : ℕ) : ℚ) = den := by
      exact_mod_cast (show 2 * (num % den) = den by omega)
    have hhalf : part = 1 / 2 := by nlinarith
    rw [hhalf]
    exact roundsToNat_half _

/-- The power of two in which a quotient lies: divided by it, the quotient is less than `2 ^ 53`, and
not less than `2 ^ 52` unless the power is the least one. -/
theorem scaled_bounds (num : ℕ) {den : ℕ} (hden : 0 < den) :
    let shift := Nat.log2 (num / den) - 52
    (num / den : ℚ) < 2 * binade * 2 ^ shift ∧
      (shift = 0 ∨ (binade * 2 ^ shift : ℚ) ≤ num / den) := by
  intro shift
  have hpos : (0 : ℚ) < den := by exact_mod_cast hden
  have hbinade : binade = 2 ^ 52 := rfl
  constructor
  · have hlog : num / den < 2 ^ (Nat.log2 (num / den) + 1) := Nat.lt_log2_self
    have hpow : 2 ^ (Nat.log2 (num / den) + 1) ≤ 2 * binade * 2 ^ shift := by
      rw [hbinade, ← Nat.pow_succ', ← Nat.pow_add]
      exact Nat.pow_le_pow_right (by decide) (by omega)
    have hless : num < 2 * binade * 2 ^ shift * den :=
      (Nat.div_lt_iff_lt_mul hden).1 (hlog.trans_le hpow)
    rw [div_lt_iff₀ hpos]
    exact_mod_cast hless
  · rcases Nat.eq_zero_or_pos shift with hzero | hshift
    · exact .inl hzero
    · refine .inr ?_
      have hne : num / den ≠ 0 := by
        intro h
        have hnone : shift = 0 := by simp [shift, h]
        omega
      have hpow : binade * 2 ^ shift = 2 ^ Nat.log2 (num / den) := by
        rw [hbinade, ← Nat.pow_add]
        congr 1
        omega
      have hle : binade * 2 ^ shift * den ≤ num := by
        rw [hpow]
        exact (Nat.le_div_iff_mul_le hden).1 (Nat.log2_self_le hne)
      rw [le_div_iff₀ hpos]
      exact_mod_cast hle

/-- The rank before one of `m` steps is a step below, or the rank is at the beginning of its power of
two. -/
theorem unitsAt_before {shift m s : ℕ} (hm : m ≤ 2 * binade) (hlow : shift = 0 ∨ binade ≤ m)
    (hs : s + 1 = shift * binade + m) :
    (unitsAt s : ℚ) = (m - 1) * 2 ^ shift ∨
      ((unitsAt s : ℚ) < m * 2 ^ shift ∧ shift ≠ 0 ∧ m = binade) := by
  by_cases hfirst : shift = 0 ∨ binade < m
  · refine .inl ?_
    obtain ⟨k, rfl⟩ : ∃ k, m = k + 1 := ⟨m - 1, by rcases hfirst with rfl | h <;> omega⟩
    have hrank : s = shift * binade + k := by omega
    rw [hrank, unitsAt_step (by omega) (by omega)]
    push_cast
    ring
  · rw [not_or, not_lt] at hfirst
    have hbegin : m = binade := le_antisymm hfirst.2 (hlow.resolve_left hfirst.1)
    have hless : unitsAt s < m * 2 ^ shift := by
      rw [← unitsAt_step hm hlow]
      exact strictMono_unitsAt (by omega)
    exact .inr ⟨by exact_mod_cast hless, hfirst.1, hbegin⟩

/-- A magnitude in a power of two lies between the half-way points of the rank that its rounded
steps give. -/
theorem isHalfwayHeld_of_steps {q : ℚ} {shift m : ℕ} (hround : RoundsToNat (q / 2 ^ shift) m)
    (hless : q < 2 * binade * 2 ^ shift)
    (hlow : shift = 0 ∨ (binade * 2 ^ shift : ℚ) ≤ q) :
    IsHalfwayHeld q (shift * binade + m) := by
  have hpow : (0 : ℚ) < 2 ^ shift := by positivity
  have hbinade : Even binade := by decide
  obtain ⟨y, hy⟩ : ∃ y, y = q / 2 ^ shift := ⟨_, rfl⟩
  obtain rfl : q = y * 2 ^ shift := by rw [hy, div_mul_cancel₀ _ hpow.ne']
  rw [mul_div_cancel_right₀ _ hpow.ne'] at hround
  have hyless : y < (2 * binade : ℕ) := by
    push_cast
    exact lt_of_mul_lt_mul_right hless hpow.le
  have hylow : shift = 0 ∨ (binade : ℚ) ≤ y :=
    hlow.imp_right fun h => le_of_mul_le_mul_right h hpow
  have hupper := hround.upper
  have hlower := hround.lower
  have hm : m ≤ 2 * binade := hround.le_of_lt hyless
  have hmlow : shift = 0 ∨ binade ≤ m := hylow.imp_right hround.ge_of_le
  have hheld : (unitsAt (shift * binade + m) : ℚ) = m * 2 ^ shift := by
    rw [unitsAt_step hm hmlow]
    push_cast
    rfl
  have hnext : ((m + 1) * 2 ^ shift : ℚ) ≤ unitsAt (shift * binade + m + 1) := by
    exact_mod_cast unitsAt_next hm hmlow
  have hbefore : ∀ s, s + 1 = shift * binade + m →
      (unitsAt s : ℚ) = (m - 1) * 2 ^ shift ∨
        (unitsAt s : ℚ) < m * 2 ^ shift ∧ (m : ℚ) ≤ y := by
    intro s hs
    refine (unitsAt_before hm hmlow hs).imp_right fun ⟨hunits, hshift, hbegin⟩ => ⟨hunits, ?_⟩
    rw [hbegin]
    exact hylow.resolve_left hshift
  refine ⟨fun s hs => ?_, ?_, fun h => ?_⟩
  · rw [hheld]
    rcases hbefore s hs with h | ⟨h, hym⟩
    · rw [h]
      nlinarith
    · nlinarith
  · rw [hheld]
    nlinarith
  · refine (hbinade.mul_left shift).add (hround.even ?_)
    rw [hheld] at h
    rcases h with ⟨s, hs, hsame⟩ | hsame
    · refine .inl ?_
      rcases hbefore s hs with hunits | ⟨hunits, hym⟩
      · rw [hunits] at hsame
        nlinarith
      · nlinarith
    · refine .inr (le_antisymm hupper ?_)
      nlinarith

/-- **The computed rank is the nearest one.** -/
theorem isNearestRank_nearestRank (num : ℕ) {den : ℕ} (hden : 0 < den) :
    IsNearestRank (num / den) (nearestRank num den) := by
  obtain ⟨shift, hshift⟩ : ∃ shift, shift = Nat.log2 (num / den) - 52 := ⟨_, rfl⟩
  have hpow : Nat.pow 2 shift = 2 ^ shift := rfl
  obtain ⟨hless, hlow⟩ := scaled_bounds num hden
  rw [← hshift] at hless hlow
  have hscale : 0 < den * 2 ^ shift := by positivity
  have hround := roundsToNat_roundQuotient num hscale
  have hscaled : (num / (den * 2 ^ shift : ℕ) : ℚ) = num / den / 2 ^ shift := by
    push_cast
    rw [div_div]
  rw [hscaled] at hround
  have hheld := isHalfwayHeld_of_steps hround hless hlow
  rw [nearestRank, ← hshift, hpow]
  obtain ⟨r, hr⟩ : ∃ r, r = shift * binade + roundQuotient num (den * 2 ^ shift) := ⟨_, rfl⟩
  rw [← hr] at hheld ⊢
  rcases Nat.le_total r infinityRank with hle | hge
  · rw [min_eq_right hle]
    exact hheld.isNearestRank hle
  · rw [min_eq_left hge]
    refine isNearestRank_infinityRank ?_
    rcases hge.lt_or_eq with hgt | rfl
    · obtain ⟨s, rfl⟩ : ∃ s, r = s + 1 := ⟨r - 1, by omega⟩
      have hlower := hheld.lower s rfl
      have h1 : (unitsAt (infinityRank - 1) : ℚ) ≤ unitsAt s := unitsAt_le (by omega)
      have h2 : (unitsAt infinityRank : ℚ) ≤ unitsAt (s + 1) := unitsAt_le hgt.le
      linarith
    · exact hheld.lower _ (by decide)

end Binary64

/-! ## Decimals -/

/-- The number that a decimal stands for. -/
def Decimal.value (d : Decimal) : ℚ := d.digits * 10 ^ d.exponent

/-- A decimal has no sign of its own. -/
theorem Decimal.value_nonneg (d : Decimal) : 0 ≤ d.value := by
  unfold Decimal.value
  positivity

namespace Binary64

theorem cast_two_pow (k : ℕ) : ((Nat.pow 2 k : ℕ) : ℚ) = 2 ^ k := Nat.cast_pow 2 k

/-- The number one in units: the least double is so many times as small. -/
theorem unitsInOne_eq : (unitsInOne : ℚ) = 2 ^ 1074 := by
  unfold unitsInOne
  generalize 1074 = k
  exact cast_two_pow k

theorem cast_binade : (binade : ℚ) = 2 ^ 52 := cast_two_pow 52

/-- Units are something to divide by. -/
theorem unitsInOne_pos : (0 : ℚ) < unitsInOne := by
  rw [unitsInOne_eq]
  positivity

/-- **The rank of a decimal** is the nearest one to its value. -/
theorem isNearestRank_rankOfDecimal (d : Decimal) :
    IsNearestRank (d.value * unitsInOne) (rankOfDecimal d) := by
  have hpow (k : ℕ) : Nat.pow 10 k = 10 ^ k := rfl
  obtain ⟨digits, exponent⟩ := d
  unfold rankOfDecimal Decimal.value
  dsimp only
  split_ifs with hsign
  · obtain ⟨k, rfl⟩ := Int.eq_ofNat_of_zero_le hsign
    have hnearest := isNearestRank_nearestRank (digits * 10 ^ k * unitsInOne) Nat.one_pos
    rw [Nat.cast_one, div_one] at hnearest
    rw [hpow, Int.toNat_natCast, zpow_natCast]
    exact_mod_cast hnearest
  · obtain ⟨k, rfl⟩ : ∃ k : ℕ, exponent = -(k : ℤ) := ⟨(-exponent).toNat, by omega⟩
    have hplaces : 0 < 10 ^ k := by positivity
    have hnearest := isNearestRank_nearestRank (digits * unitsInOne) hplaces
    have hvalue : (digits * 10 ^ (-(k : ℤ)) * unitsInOne : ℚ) =
        (digits * unitsInOne : ℕ) / (10 ^ k : ℕ) := by
      rw [zpow_neg, zpow_natCast]
      push_cast
      ring
    rw [hpow, neg_neg, Int.toNat_natCast, hvalue]
    exact hnearest

/-- Decimals of one value have one rank. -/
theorem rankOfDecimal_congr {d e : Decimal} (h : d.value = e.value) :
    rankOfDecimal d = rankOfDecimal e := by
  have hd := isNearestRank_rankOfDecimal d
  rw [h] at hd
  exact hd.unique (isNearestRank_rankOfDecimal e)

/-- A decimal without digits other than zero is zero, whatever its exponent. -/
theorem rankOfDecimal_of_digits_eq_zero {d : Decimal} (h : d.digits = 0) : rankOfDecimal d = 0 := by
  have hvalue : d.value = 0 := by simp [Decimal.value, h]
  have hnearest := isNearestRank_rankOfDecimal d
  rw [hvalue, zero_mul] at hnearest
  exact hnearest.unique (isNearestRank_zero (by norm_num))

/-- The bound beyond which a decimal is infinite, in powers of two: each power of ten has more than
three of them. -/
theorem two_pow_le_ten_pow : (2 : ℚ) ^ 1200 ≤ 10 ^ 400 := by
  have hpow : (2 : ℚ) ^ 1200 = (2 ^ 3) ^ 400 := by rw [← pow_mul]
  rw [hpow]
  exact pow_le_pow_left₀ (by norm_num) (by norm_num) 400

/-- A decimal with four hundred zeros or more is infinite. -/
theorem rankOfDecimal_of_large {d : Decimal} (hdigits : d.digits ≠ 0) (h : 400 ≤ d.exponent) :
    rankOfDecimal d = infinityRank := by
  have hone : (1 : ℚ) ≤ d.digits := by exact_mod_cast Nat.one_le_iff_ne_zero.2 hdigits
  have hpow : (10 : ℚ) ^ 400 ≤ 10 ^ d.exponent := by
    rw [← zpow_natCast]
    exact zpow_le_zpow_right₀ (by norm_num) h
  have hlarge : (2 : ℚ) ^ 1200 ≤ d.value := by
    have hzeros : (10 : ℚ) ^ d.exponent ≤ d.value :=
      le_mul_of_one_le_left (by positivity) hone
    exact two_pow_le_ten_pow.trans (hpow.trans hzeros)
  have hinfinity : (unitsAt infinityRank : ℚ) ≤ 2 ^ 1200 * unitsInOne := by
    rw [unitsAt_infinityRank, unitsInOne_eq, Nat.cast_mul, Nat.cast_pow, Nat.cast_ofNat, cast_binade,
      ← pow_add, ← pow_add]
    exact pow_le_pow_right₀ (by norm_num) (by norm_num)
  have hbelow : (unitsAt (infinityRank - 1) : ℚ) ≤ unitsAt infinityRank := unitsAt_le (by omega)
  have hunits : (unitsAt infinityRank : ℚ) ≤ d.value * unitsInOne :=
    hinfinity.trans (mul_le_mul_of_nonneg_right hlarge unitsInOne_pos.le)
  refine (isNearestRank_rankOfDecimal d).unique (isNearestRank_infinityRank ?_)
  linarith only [hbelow, hunits]

/-- A decimal with four hundred zeros or more behind the point is zero. -/
theorem rankOfDecimal_of_small {d : Decimal}
    (h : d.exponent ≤ -(400 + ((Text.ofNat d.digits).length : ℤ))) : rankOfDecimal d = 0 := by
  obtain ⟨len, hlen⟩ : ∃ len, len = (Text.ofNat d.digits).length := ⟨_, rfl⟩
  have hpos : 0 < len := by
    rw [hlen]
    exact List.length_pos_of_ne_nil Nat.toDigits_ne_nil
  have hdigits : (d.digits : ℚ) < 10 ^ len := by
    exact_mod_cast (Nat.length_toDigits_le_iff (by decide) hpos).1 hlen.ge
  have hpow : (10 : ℚ) ^ d.exponent ≤ 10 ^ (-(400 + len : ℤ)) :=
    zpow_le_zpow_right₀ (by norm_num) (by rw [hlen]; exact h)
  have hten : (0 : ℚ) < 10 ^ len := by positivity
  have hvalue : d.value * 10 ^ 400 < 1 := by
    have hsplit : (10 : ℚ) ^ (-(400 + len : ℤ)) * (10 ^ len * 10 ^ 400) = 1 := by
      rw [← zpow_natCast, ← zpow_natCast, ← zpow_add₀ (by norm_num), ← zpow_add₀ (by norm_num)]
      have hzero : -(400 + (len : ℤ)) + ((len : ℤ) + (400 : ℕ)) = 0 := by omega
      rw [hzero, zpow_zero]
    have hless : d.value < 10 ^ len * 10 ^ (-(400 + len : ℤ)) := by
      have hfirst := mul_le_mul_of_nonneg_left hpow (Nat.cast_nonneg (α := ℚ) d.digits)
      have hsecond := mul_lt_mul_of_pos_right hdigits
        (show (0 : ℚ) < 10 ^ (-(400 + len : ℤ)) by positivity)
      exact hfirst.trans_lt hsecond
    have hzeros : (0 : ℚ) < 10 ^ 400 := pow_pos (by norm_num) 400
    have hscaled := mul_lt_mul_of_pos_right hless hzeros
    calc d.value * 10 ^ 400 < 10 ^ len * 10 ^ (-(400 + len : ℤ)) * 10 ^ 400 := hscaled
      _ = 10 ^ (-(400 + len : ℤ)) * (10 ^ len * 10 ^ 400) := by
        rw [mul_comm (10 ^ len : ℚ), mul_assoc]
      _ = 1 := hsplit
  have hunits : d.value * unitsInOne < 1 / 2 := by
    have htwo : (2 : ℚ) * unitsInOne ≤ 10 ^ 400 := by
      rw [unitsInOne_eq, ← pow_succ']
      exact (pow_le_pow_right₀ (by norm_num) (by norm_num)).trans two_pow_le_ten_pow
    have hscaled := (mul_le_mul_of_nonneg_left htwo d.value_nonneg).trans_lt hvalue
    linarith only [hscaled]
  exact (isNearestRank_rankOfDecimal d).unique (isNearestRank_zero hunits)

/-- **Cutting the exponent off changes nothing.** -/
theorem rankOfDecimal_bounded (d : Decimal) : rankOfDecimal d.bounded = rankOfDecimal d := by
  by_cases hdigits : d.digits = 0
  · rw [rankOfDecimal_of_digits_eq_zero hdigits,
      rankOfDecimal_of_digits_eq_zero (d := d.bounded) hdigits]
  by_cases hlarge : 400 < d.exponent
  · have hcut : 400 ≤ d.bounded.exponent := by
      unfold Decimal.bounded
      dsimp only
      omega
    rw [rankOfDecimal_of_large hdigits hlarge.le,
      rankOfDecimal_of_large (d := d.bounded) hdigits hcut]
  by_cases hsmall : d.exponent < -(400 + ((Text.ofNat d.digits).length : ℤ))
  · have hcut : d.bounded.exponent ≤ -(400 + ((Text.ofNat d.digits).length : ℤ)) := by
      unfold Decimal.bounded
      dsimp only
      omega
    rw [rankOfDecimal_of_small hsmall.le, rankOfDecimal_of_small (d := d.bounded) hcut]
  · have hsame : d.bounded = d := by
      unfold Decimal.bounded
      rw [min_eq_left (by omega), max_eq_left (by omega)]
    rw [hsame]

/-! ## Doubles -/

variable {x y : Binary64}

/-- The bits of a double are its rank, behind the sign. -/
theorem bits_eq (x : Binary64) :
    x.bits.toNat = (if x.negative then signBit else 0) + x.rank := by
  have hbits := x.bits.isLt
  have hsplit := Nat.div_add_mod x.bits.toNat signBit
  unfold negative rank
  rw [signBit_eq] at *
  by_cases h : 9223372036854775808 ≤ x.bits.toNat
  · simp only [h, decide_true, if_true]
    omega
  · simp only [h, decide_false, Bool.false_eq_true, if_false]
    omega

/-- A double is its sign and its rank. -/
theorem ofRank_negative_rank (x : Binary64) : ofRank x.negative x.rank = x := by
  obtain ⟨bits⟩ := x
  unfold ofRank
  rw [← bits_eq]
  simp

/-- A double is determined by its sign and its rank. -/
theorem ext_rank (hnegative : x.negative = y.negative) (hrank : x.rank = y.rank) : x = y := by
  rw [← ofRank_negative_rank x, ← ofRank_negative_rank y, hnegative, hrank]

/-- The bits that are put together from a sign and a rank. -/
theorem toNat_ofRank (neg : Bool) {r : ℕ} (hr : r < signBit) :
    (ofRank neg r).bits.toNat = (if neg then signBit else 0) + r := by
  have hsize : signBit + signBit = 2 ^ 64 := by decide
  unfold ofRank
  rw [BitVec.toNat_ofNat]
  apply Nat.mod_eq_of_lt
  split <;> omega

/-- The rank is read off again. -/
@[simp] theorem rank_ofRank (neg : Bool) {r : ℕ} (hr : r < signBit) : (ofRank neg r).rank = r := by
  unfold rank
  rw [toNat_ofRank neg hr]
  split
  · rw [Nat.add_mod_left, Nat.mod_eq_of_lt hr]
  · rw [Nat.zero_add, Nat.mod_eq_of_lt hr]

/-- So is the sign. -/
@[simp] theorem negative_ofRank (neg : Bool) {r : ℕ} (hr : r < signBit) :
    (ofRank neg r).negative = neg := by
  unfold negative
  rw [toNat_ofRank neg hr]
  cases neg
  · simp [hr]
  · simp

/-- A number with a sign. -/
def signed (neg : Bool) (q : ℚ) : ℚ := if neg then -q else q

/-- **The exact value of a finite double.** -/
def value (x : Binary64) : ℚ := signed x.negative (x.units / unitsInOne)

/-- A sign does not change the magnitude. -/
theorem abs_signed (neg : Bool) (q : ℚ) : |signed neg q| = |q| := by
  cases neg
  · rfl
  · exact abs_neg q

/-- Numbers of one sign are as far from each other as their magnitudes. -/
theorem abs_signed_sub (neg : Bool) (p q : ℚ) : |signed neg p - signed neg q| = |p - q| := by
  cases neg
  · rfl
  · change |-p - -q| = |p - q|
    rw [neg_sub_neg, abs_sub_comm]

/-- Numbers of different signs are as far from each other as their magnitudes are together. -/
theorem abs_signed_sub_not (neg : Bool) {p q : ℚ} (hp : 0 ≤ p) (hq : 0 ≤ q) :
    |signed neg p - signed (!neg) q| = p + q := by
  cases neg
  · change |p - -q| = p + q
    rw [sub_neg_eq_add, abs_of_nonneg (add_nonneg hp hq)]
  · change |-p - q| = p + q
    rw [← neg_add', abs_neg, abs_of_nonneg (add_nonneg hp hq)]

/-- Numbers of any signs are at least as far from each other as their magnitudes. -/
theorem le_abs_signed_sub {p q : ℚ} (hp : 0 ≤ p) (hq : 0 ≤ q) (neg neg' : Bool) :
    |p - q| ≤ |signed neg p - signed neg' q| := by
  have h := abs_abs_sub_abs_le_abs_sub (signed neg p) (signed neg' q)
  rwa [abs_signed, abs_signed, abs_of_nonneg hp, abs_of_nonneg hq] at h

/-- **A number rounds to a finite double**, to the nearest with ties to even: it is not so large
that it rounds to infinity, no other finite double is nearer, and if another is as near, the last
bit of this one is zero. -/
structure RoundsTo (q : ℚ) (x : Binary64) : Prop where
  finite : x.isFinite = true
  inRange : |q| < 2 ^ 1024 - 2 ^ 970
  nearest : ∀ y : Binary64, y.isFinite = true → |q - x.value| ≤ |q - y.value|
  even : ∀ y : Binary64, y.isFinite = true → y.value ≠ x.value → |q - x.value| = |q - y.value| →
    Even x.bits.toNat

/-- The finite doubles are those of the ranks below that of infinity. -/
theorem isFinite_iff : x.isFinite = true ↔ x.rank < infinityRank := by
  unfold isFinite
  rw [decide_eq_true_iff]

/-- The last bit of a double is that of its rank. -/
theorem even_bits_iff : Even x.bits.toNat ↔ Even x.rank := by
  have hsign : Even signBit := by decide
  rw [bits_eq]
  split
  · rw [Nat.even_add, iff_true_left hsign]
  · rw [Nat.zero_add]

/-- Magnitudes go up with the ranks. -/
theorem magnitude_lt_iff {r s : ℕ} :
    (unitsAt r / unitsInOne : ℚ) < unitsAt s / unitsInOne ↔ r < s := by
  rw [div_lt_div_iff_of_pos_right unitsInOne_pos, Nat.cast_lt, strictMono_unitsAt.lt_iff_lt]

/-- No magnitude is less than zero. -/
theorem magnitude_nonneg (r : ℕ) : 0 ≤ (unitsAt r / unitsInOne : ℚ) :=
  div_nonneg (Nat.cast_nonneg _) unitsInOne_pos.le

/-- A rank below that of infinity gives a finite double, with either sign. -/
theorem isFinite_ofRank (neg : Bool) {r : ℕ} (hr : r < infinityRank) :
    (ofRank neg r).isFinite = true := by
  rw [isFinite_iff, rank_ofRank neg (hr.trans (by decide))]
  exact hr

/-- Its value is its units, with its sign. -/
theorem value_ofRank (neg : Bool) {r : ℕ} (hr : r < infinityRank) :
    (ofRank neg r).value = signed neg (unitsAt r / unitsInOne) := by
  have hsize : r < signBit := hr.trans (by decide)
  rw [value, units, negative_ofRank neg hsize, rank_ofRank neg hsize]

/-- The magnitude of a double is that of its rank. -/
theorem abs_value (x : Binary64) : |x.value| = unitsAt x.rank / unitsInOne := by
  rw [value, abs_signed, units, abs_of_nonneg (magnitude_nonneg x.rank)]

/-- A double other than zero is known by its value. -/
theorem eq_of_value_eq (hzero : x.value ≠ 0) (h : x.value = y.value) : x = y := by
  have hrank : x.rank = y.rank := by
    have habs := congrArg abs h
    rw [abs_value, abs_value, div_left_inj' unitsInOne_pos.ne'] at habs
    exact strictMono_unitsAt.injective (by exact_mod_cast habs)
  refine ext_rank ?_ hrank
  by_contra hsign
  have hopposite : y.negative = !x.negative := Bool.eq_not.2 (Ne.symm hsign)
  have hsum : |x.value - y.value| = |x.value| + |x.value| := by
    rw [abs_value, value, value, hopposite, units, units, ← hrank]
    exact abs_signed_sub_not x.negative (magnitude_nonneg x.rank) (magnitude_nonneg x.rank)
  rw [h, sub_self, abs_zero] at hsum
  refine hzero (abs_eq_zero.1 ?_)
  rw [h]
  linarith [abs_nonneg y.value]

/-- Between two magnitudes of even ranks there is a third one. -/
theorem exists_magnitude_between {r s : ℕ} (hr : Even r) (hs : Even s) (hrs : r < s)
    (hfinite : s < infinityRank) :
    ∃ t < infinityRank, (unitsAt r / unitsInOne : ℚ) < unitsAt t / unitsInOne ∧
      (unitsAt t / unitsInOne : ℚ) < unitsAt s / unitsInOne := by
  obtain ⟨i, hi⟩ := hr
  obtain ⟨j, hj⟩ := hs
  refine ⟨r + 1, by omega, ?_, ?_⟩
  · exact magnitude_lt_iff.2 (by omega)
  · exact magnitude_lt_iff.2 (by omega)

/-- Between two finite doubles with even last bits there is a third one. -/
theorem exists_between (hx : x.isFinite = true) (hy : y.isFinite = true) (hxeven : Even x.rank)
    (hyeven : Even y.rank) (h : x.value < y.value) :
    ∃ z : Binary64, z.isFinite = true ∧ x.value < z.value ∧ z.value < y.value := by
  have hxlt := isFinite_iff.1 hx
  have hylt := isFinite_iff.1 hy
  have hxpos := magnitude_nonneg x.rank
  have hypos := magnitude_nonneg y.rank
  have hnone : (unitsAt 0 / unitsInOne : ℚ) = 0 := by rw [unitsAt_zero, Nat.cast_zero, zero_div]
  have hsuffices (neg : Bool) {t : ℕ} (ht : t < infinityRank)
      (hfirst : x.value < signed neg (unitsAt t / unitsInOne))
      (hsecond : signed neg (unitsAt t / unitsInOne) < y.value) :
      ∃ z : Binary64, z.isFinite = true ∧ x.value < z.value ∧ z.value < y.value :=
    ⟨ofRank neg t, isFinite_ofRank neg ht, by rwa [value_ofRank neg ht],
      by rwa [value_ofRank neg ht]⟩
  have hvalue (x : Binary64) : x.value = signed x.negative (unitsAt x.rank / unitsInOne) := rfl
  rw [hvalue x, hvalue y] at h hsuffices ⊢
  cases hxsign : x.negative with
  | false =>
      cases hysign : y.negative with
      | false =>
          rw [hxsign, hysign] at h hsuffices
          obtain ⟨t, ht, hfirst, hsecond⟩ :=
            exists_magnitude_between hxeven hyeven (magnitude_lt_iff.1 h) hylt
          exact hsuffices false ht hfirst hsecond
      | true =>
          rw [hxsign, hysign] at h
          have hless : (unitsAt x.rank / unitsInOne : ℚ) < -(unitsAt y.rank / unitsInOne) := h
          linarith
  | true =>
      cases hysign : y.negative with
      | false =>
          rw [hxsign, hysign] at h hsuffices
          have hless : -(unitsAt x.rank / unitsInOne : ℚ) < unitsAt y.rank / unitsInOne := h
          -- One of the two is not zero, and next to zero on its side there is another.
          by_cases hzero : y.rank = 0
          · rw [hzero, hnone] at hless
            have hxzero : 0 < x.rank := magnitude_lt_iff.1 (by rw [hnone]; linarith)
            obtain ⟨t, ht, hfirst, hsecond⟩ := exists_magnitude_between ⟨0, rfl⟩ hxeven hxzero hxlt
            rw [hnone] at hfirst
            exact hsuffices true ht (neg_lt_neg hsecond) ((neg_neg_of_pos hfirst).trans_le hypos)
          · obtain ⟨t, ht, hfirst, hsecond⟩ :=
              exists_magnitude_between ⟨0, rfl⟩ hyeven (Nat.pos_of_ne_zero hzero) hylt
            rw [hnone] at hfirst
            exact hsuffices false ht ((neg_nonpos.2 hxpos).trans_lt hfirst) hsecond
      | true =>
          rw [hxsign, hysign] at h hsuffices
          obtain ⟨t, ht, hfirst, hsecond⟩ := exists_magnitude_between hyeven hxeven
            (magnitude_lt_iff.1 (neg_lt_neg_iff.1 h)) hxlt
          exact hsuffices true ht (neg_lt_neg hsecond) (neg_lt_neg hfirst)

/-- Half-way between two doubles with even last bits there is a third one, which is nearer. -/
theorem RoundsTo.not_below {q : ℚ} (hx : RoundsTo q x) (hy : RoundsTo q y) :
    ¬ x.value < y.value := by
  intro hlt
  have hsame : |q - x.value| = |q - y.value| :=
    le_antisymm (hx.nearest y hy.finite) (hy.nearest x hx.finite)
  have hxeven := even_bits_iff.1 (hx.even y hy.finite hlt.ne' hsame)
  have hyeven := even_bits_iff.1 (hy.even x hx.finite hlt.ne hsame.symm)
  obtain ⟨z, hz, hfirst, hsecond⟩ := exists_between hx.finite hy.finite hxeven hyeven hlt
  exact absurd (hx.nearest z hz) (not_le.2 (nearer_inside hsame hfirst hsecond))

/-- **A number rounds to one double only**, but for the sign of zero. -/
theorem RoundsTo.value_unique {q : ℚ} (hx : RoundsTo q x) (hy : RoundsTo q y) :
    x.value = y.value :=
  le_antisymm (not_lt.1 (hy.not_below hx)) (not_lt.1 (hx.not_below hy))

/-- In the range of the finite doubles the nearest rank is below infinity, and conversely. -/
theorem two_mul_lt_of_isNearestRank {q : ℚ} {r : ℕ} (h : IsNearestRank q r)
    (hr : r < infinityRank) :
    2 * q < (unitsAt (infinityRank - 1) + unitsAt infinityRank : ℚ) := by
  by_contra hle
  exact absurd (h.unique (isNearestRank_infinityRank (not_lt.1 hle))) hr.ne

/-- Half-way between the greatest finite double and infinity. -/
theorem halfway_to_infinity :
    (unitsAt (infinityRank - 1) + unitsAt infinityRank : ℚ) =
      2 * ((2 ^ 1024 - 2 ^ 970) * unitsInOne) := by
  have hrank : infinityRank - 1 = 2045 * binade + (2 * binade - 1) := by decide
  have hcast : ((2 * binade - 1 : ℕ) : ℚ) = 2 ^ 53 - 1 := by
    rw [Nat.cast_sub (by decide), Nat.cast_mul, cast_binade]
    norm_num
  have hlast : (unitsAt (infinityRank - 1) : ℚ) = (2 ^ 53 - 1) * 2 ^ 2045 := by
    rw [hrank, unitsAt_step (by omega) (.inr (by decide)), Nat.cast_mul, Nat.cast_pow, hcast,
      Nat.cast_ofNat]
  have hinfinity : (unitsAt infinityRank : ℚ) = 2 ^ 53 * 2 ^ 2045 := by
    rw [unitsAt_infinityRank, Nat.cast_mul, Nat.cast_pow, cast_binade, Nat.cast_ofNat, ← pow_add,
      ← pow_add]
  have hfirst : (2 : ℚ) ^ 1024 = 2 ^ 54 * 2 ^ 970 := by rw [← pow_add]
  have hsecond : (2 : ℚ) ^ 970 * (2 * 2 ^ 1074) = 2 ^ 2045 := by
    rw [← pow_succ', ← pow_add]
  rw [hlast, hinfinity, hfirst, unitsInOne_eq, ← hsecond]
  generalize (2 : ℚ) ^ 970 = a
  generalize (2 : ℚ) ^ 1074 = b
  ring

/-- Two doubles of one rank and different signs are as near to a number only if it is zero or they
are. -/
theorem rank_eq_zero_of_opposite {m : ℚ} (hm : 0 ≤ m) (h : IsNearestRank (m * unitsInOne) x.rank)
    (hrank : y.rank = x.rank) (hsign : y.negative = !x.negative)
    (hsame : |signed x.negative m - x.value| = |signed x.negative m - y.value|) : x.rank = 0 := by
  have hunit := unitsInOne_pos
  rw [value, value, hsign, units, units, hrank, abs_signed_sub,
    abs_signed_sub_not x.negative hm (magnitude_nonneg x.rank)] at hsame
  have hzero : m = 0 ∨ (unitsAt x.rank / unitsInOne : ℚ) = 0 := by
    rcases abs_cases (m - unitsAt x.rank / unitsInOne) with ⟨habs, -⟩ | ⟨habs, -⟩
    · exact .inr (by linarith)
    · exact .inl (by linarith)
  rcases hzero with rfl | hzero
  · rw [zero_mul] at h
    exact h.unique (isNearestRank_zero (by norm_num))
  · have hunits : (unitsAt x.rank : ℚ) = 0 := (div_eq_zero_iff.1 hzero).resolve_right hunit.ne'
    exact strictMono_unitsAt.injective (by exact_mod_cast hunits)

/-- **A finite double of the nearest rank and the right sign is the one that a number rounds
to.** -/
theorem roundsTo_of_isNearestRank {m : ℚ} (hm : 0 ≤ m) (hfinite : x.isFinite = true)
    (h : IsNearestRank (m * unitsInOne) x.rank) : RoundsTo (signed x.negative m) x := by
  have hunit := unitsInOne_pos
  have hrank := isFinite_iff.1 hfinite
  -- Distances in ones and in units.
  have hscale (r : ℕ) : |m - unitsAt r / unitsInOne| =
      |m * unitsInOne - unitsAt r| / unitsInOne := by
    rw [← abs_of_pos hunit, ← abs_div, abs_of_pos hunit, sub_div, mul_div_cancel_right₀ _ hunit.ne']
  have hhere : |signed x.negative m - x.value| =
      |m * unitsInOne - unitsAt x.rank| / unitsInOne := by
    rw [value, abs_signed_sub, ← hscale, units]
  have hthere (y : Binary64) :
      |m * unitsInOne - unitsAt y.rank| / unitsInOne ≤ |signed x.negative m - y.value| := by
    rw [← hscale]
    exact le_abs_signed_sub hm (magnitude_nonneg y.rank) _ _
  refine ⟨hfinite, ?_, fun y hy => ?_, fun y hy hne hsame => ?_⟩
  · have hless := two_mul_lt_of_isNearestRank h hrank
    rw [halfway_to_infinity] at hless
    rw [abs_signed, abs_of_nonneg hm]
    exact lt_of_mul_lt_mul_right (lt_of_mul_lt_mul_left hless (by norm_num)) hunit.le
  · rw [hhere]
    have hle := h.nearest y.rank (isFinite_iff.1 hy).le
    exact (div_le_div_of_nonneg_right hle hunit.le).trans (hthere y)
  · have hle := h.nearest y.rank (isFinite_iff.1 hy).le
    have hequal : |m * unitsInOne - unitsAt x.rank| = |m * unitsInOne - unitsAt y.rank| := by
      refine le_antisymm hle ((div_le_div_iff_of_pos_right hunit).1 ?_)
      rw [← hhere, hsame]
      exact hthere y
    refine even_bits_iff.2 ?_
    by_cases hranks : y.rank = x.rank
    · have hsign : y.negative = !x.negative := by
        by_contra hsign
        exact hne (congrArg value (ext_rank (by simpa using hsign) hranks))
      rw [rank_eq_zero_of_opposite hm h hranks hsign hsame]
      decide
    · exact h.even y.rank (isFinite_iff.1 hy).le hranks hequal

/-- Ranks up to that of infinity leave the bit of the sign alone. -/
theorem rank_lt_signBit {r : ℕ} (hr : r ≤ infinityRank) : r < signBit :=
  hr.trans_lt (by decide)

/-- The double of a decimal has the sign that is asked for. -/
theorem negative_ofDecimal (neg : Bool) (d : Decimal) : (ofDecimal neg d).negative = neg :=
  negative_ofRank neg (rank_lt_signBit (isNearestRank_rankOfDecimal _).le_infinity)

/-- Its rank is that which is nearest to the decimal. -/
theorem rank_ofDecimal (neg : Bool) (d : Decimal) : (ofDecimal neg d).rank = rankOfDecimal d := by
  rw [ofDecimal, rank_ofRank neg (rank_lt_signBit (isNearestRank_rankOfDecimal _).le_infinity),
    rankOfDecimal_bounded]

/-- **The double of a decimal is the one that its value rounds to**, unless that is too large. -/
theorem roundsTo_ofDecimal {neg : Bool} {d : Decimal} (h : (ofDecimal neg d).isFinite = true) :
    RoundsTo (signed neg d.value) (ofDecimal neg d) := by
  have hnearest := isNearestRank_rankOfDecimal d
  rw [← rank_ofDecimal neg d] at hnearest
  have hrounds := roundsTo_of_isNearestRank d.value_nonneg h hnearest
  rwa [negative_ofDecimal] at hrounds

/-- A decimal of the rank of a double reads back as that double. -/
theorem ofDecimal_eq {d : Decimal} (h : rankOfDecimal d = x.rank) :
    ofDecimal x.negative d = x :=
  ext_rank (negative_ofDecimal _ _) ((rank_ofDecimal _ _).trans h)

end Binary64

end Scriptwright
