import Scriptwright.Builder
import Scriptwright.Proofs.Numerals

/-!
# The text of a number denotes the number

The digits of a number are the shortest that read back, so whatever the search for
them hits upon has the rank of the number (`rank_of_neighbour?`); should it hit
nothing, the exact expansion has it too (`rank_exactDecimal`), and leaving zeros off
the end changes no value (`Decimal.value_reduce`).  Written with all places or with a
power of ten these digits are a numeral (`exists_numeral`), and the reader takes it
for the number again (`read?_format`).

So **the text of a finite number other than zero is a numeral in the form that its
magnitude asks for, the rational number it denotes rounds to the number, no other
number is written so, and binding the text as a number declares what binding the
number does** (`format_denotes`).
-/

namespace Scriptwright

theorem Text.trim_of_no_blank {t : Text} (h : ∀ c ∈ t, isBlank c = false) : Text.trim t = t := by
  have hkeep {t : Text} (h : ∀ c ∈ t, isBlank c = false) : t.dropWhile isBlank = t := by
    cases t with
    | nil => rfl
    | cons c t => rw [List.dropWhile_cons, h c List.mem_cons_self, if_neg Bool.false_ne_true]
  rw [Text.trim, Text.trimStart, hkeep h, Text.trimEnd,
    hkeep fun c hc => h c (List.mem_reverse.1 hc), List.reverse_reverse]

/-! ## The shortest digits -/

namespace Decimal

/-- Leaving zeros off the end changes no value. -/
theorem value_reduce (d : Decimal) : d.reduce.value = d.value := by
  induction d using Decimal.reduce.induct with
  | case1 d h ih =>
      rw [reduce, dif_pos h, ih]
      have hdigits : (d.digits : ℚ) = (d.digits / 10 : ℕ) * 10 := by
        exact_mod_cast (show d.digits = d.digits / 10 * 10 by omega)
      unfold value
      dsimp only
      rw [hdigits, zpow_add₀ (by norm_num), zpow_one]
      ring
  | case2 d h => rw [reduce, dif_neg h]

/-- What is left of a decimal other than zero does not end in a zero. -/
theorem reduce_digits {d : Decimal} (hd : d.digits ≠ 0) : d.reduce.digits % 10 ≠ 0 := by
  induction d using Decimal.reduce.induct with
  | case1 d h ih =>
      rw [reduce, dif_pos h]
      exact ih (show d.digits / 10 ≠ 0 by omega)
  | case2 d h =>
      rw [reduce, dif_neg h]
      exact fun hzero => h ⟨hd, hzero⟩

end Decimal

namespace Binary64

variable {x y : Binary64}

/-- A neighbour on a decimal grid is taken only if it reads back. -/
theorem rank_of_neighbour? {rank : ℕ} {place : ℤ} {d : Decimal}
    (h : neighbour? rank place = some d) : rankOfDecimal d = rank := by
  unfold neighbour? at h
  dsimp only at h
  split at h
  next hbelow habove =>
    split at h
    · obtain rfl := Option.some.inj h
      exact of_decide_eq_true hbelow
    · obtain rfl := Option.some.inj h
      exact of_decide_eq_true habove
  next hbelow _ =>
    obtain rfl := Option.some.inj h
    exact of_decide_eq_true hbelow
  next _ habove =>
    obtain rfl := Option.some.inj h
    exact of_decide_eq_true habove
  next => cases h

/-- The exact expansion of a magnitude reads back. -/
theorem rank_exactDecimal {rank : ℕ} (hr : rank ≤ infinityRank) :
    rankOfDecimal (exactDecimal (unitsAt rank)) = rank := by
  have hplaces (k u : ℕ) : ((u * Nat.pow 5 k : ℕ) : ℚ) * 10 ^ (-(k : ℤ)) * 2 ^ k = u := by
    have hfives : ((Nat.pow 5 k : ℕ) : ℚ) = 5 ^ k := Nat.cast_pow 5 k
    have hten : (5 : ℚ) * 2 = 10 := by norm_num
    have hone : (5 : ℚ) ^ k * 10 ^ (-(k : ℤ)) * 2 ^ k = 1 := by
      rw [mul_right_comm, ← mul_pow, hten, zpow_neg, zpow_natCast,
        mul_inv_cancel₀ (pow_ne_zero k (by norm_num))]
    rw [Nat.cast_mul, hfives, mul_assoc, mul_assoc, ← mul_assoc (5 ^ k : ℚ), hone, mul_one]
  have hvalue : (exactDecimal (unitsAt rank)).value * unitsInOne = unitsAt rank := by
    have hplace : (-1074 : ℤ) = -((1074 : ℕ) : ℤ) := rfl
    rw [unitsInOne_eq, exactDecimal, Decimal.value, hplace]
    generalize 1074 = k
    exact hplaces k (unitsAt rank)
  have hnearest := isNearestRank_rankOfDecimal (exactDecimal (unitsAt rank))
  rw [hvalue] at hnearest
  exact hnearest.unique (isNearestRank_unitsAt hr)

/-- **The shortest digits** of a magnitude other than zero do not end in a zero, and read back. -/
theorem shortestAt_spec {rank : ℕ} (hzero : rank ≠ 0) (hr : rank ≤ infinityRank) :
    (shortestAt rank).digits % 10 ≠ 0 ∧ rankOfDecimal (shortestAt rank) = rank := by
  unfold shortestAt
  dsimp only
  obtain ⟨d, hd⟩ : ∃ d, d = ((List.range 17).findSome? fun (n : ℕ) =>
      neighbour? rank (leadingPlace (unitsAt rank) - (n : ℤ))).getD
        (exactDecimal (unitsAt rank)) := ⟨_, rfl⟩
  have hrank : rankOfDecimal d = rank := by
    rw [hd]
    cases hhit : (List.range 17).findSome? fun (n : ℕ) =>
        neighbour? rank (leadingPlace (unitsAt rank) - (n : ℤ)) with
    | none => exact rank_exactDecimal hr
    | some e =>
        obtain ⟨n, -, hn⟩ := List.exists_of_findSome?_eq_some hhit
        exact rank_of_neighbour? hn
  have hdigits : d.digits ≠ 0 := by
    intro h
    rw [rankOfDecimal_of_digits_eq_zero h] at hrank
    exact hzero hrank.symm
  rw [← hd]
  exact ⟨Decimal.reduce_digits hdigits, by rw [rankOfDecimal_congr d.value_reduce, hrank]⟩

/-! ## The numeral -/

theorem isNaN_eq_false (h : x.isFinite = true) : x.isNaN = false := by
  have hrank := isFinite_iff.1 h
  unfold isNaN
  exact decide_eq_false (by omega)

theorem isInfinite_eq_false (h : x.isFinite = true) : x.isInfinite = false := by
  have hrank := isFinite_iff.1 h
  unfold isInfinite
  exact decide_eq_false (by omega)

/-- A number is written as its sign and its shortest digits. -/
theorem text_eq_format (hfinite : x.isFinite = true) (hzero : x.rank ≠ 0) {n : Numeral}
    (hnegative : n.negative = x.negative)
    (hmagnitude : n.magnitude =
      if x.isPositional then x.shortest.positional else x.shortest.scientific) :
    n.text = x.format := by
  unfold format Numeral.text
  rw [isNaN_eq_false hfinite, isInfinite_eq_false hfinite, hnegative, hmagnitude]
  simp [hzero]

/-- A numeral of the sign and the shortest digits of a number is read as that number. -/
theorem ofDecimal_numeral (hfinite : x.isFinite = true) (hzero : x.rank ≠ 0) {n : Numeral}
    (hnegative : n.negative = x.negative) (hvalue : n.decimal.value = x.shortest.value) :
    ofDecimal n.negative n.decimal = x := by
  rw [hnegative]
  refine ofDecimal_eq ?_
  rw [rankOfDecimal_congr hvalue]
  exact (shortestAt_spec hzero (isFinite_iff.1 hfinite).le).2

/-- **A finite number other than zero is written as a numeral**, which is read as the number. -/
theorem exists_numeral (hfinite : x.isFinite = true) (hzero : x.rank ≠ 0) :
    ∃ n : Numeral, n.IsReadable ∧ n.text = x.format ∧ (x.isPositional = true → n.IsPositional) ∧
      (¬ x.isPositional = true → n.IsScientific) ∧ ofDecimal n.negative n.decimal = x := by
  have hdigits : x.shortest.digits % 10 ≠ 0 :=
    (shortestAt_spec hzero (isFinite_iff.1 hfinite).le).1
  by_cases hform : x.isPositional = true
  · obtain ⟨n, hn, hnegative, hmagnitude, hvalue⟩ := Decimal.exists_positional hdigits x.negative
    have htext := text_eq_format hfinite hzero hnegative (by rw [if_pos hform, hmagnitude])
    exact ⟨n, hn.isReadable, htext, fun _ => hn, fun h => absurd hform h,
      ofDecimal_numeral hfinite hzero hnegative hvalue⟩
  · obtain ⟨n, hn, hnegative, hmagnitude, hvalue⟩ := Decimal.exists_scientific hdigits x.negative
    have htext := text_eq_format hfinite hzero hnegative (by rw [if_neg hform, hmagnitude])
    exact ⟨n, hn.isReadable, htext, fun h => absurd h hform, fun _ => hn,
      ofDecimal_numeral hfinite hzero hnegative hvalue⟩

/-- The two ends of the range in which all places are written are the doubles nearest to a
millionth and to `10 ^ 21`. -/
theorem isPositional_iff :
    x.isPositional = true ↔
      (ofDecimal false ⟨1, -6⟩).value ≤ |x.value| ∧ |x.value| < (ofDecimal false ⟨1, 21⟩).value := by
  have hunit := unitsInOne_pos
  have hconstant (d : Decimal) :
      (ofDecimal false d).value = unitsAt (rankOfDecimal d) / unitsInOne := by
    rw [value, negative_ofDecimal, units, rank_ofDecimal]
    rfl
  have hupper : unitsAt (rankOfDecimal ⟨1, 21⟩) = Nat.pow 10 21 * unitsInOne := by decide +kernel
  rw [abs_value, hconstant, hconstant, hupper, div_le_div_iff_of_pos_right hunit,
    div_lt_div_iff_of_pos_right hunit, Nat.cast_le, Nat.cast_lt]
  unfold isPositional units
  rw [Bool.and_eq_true, decide_eq_true_iff, decide_eq_true_iff]

/-! ## Reading a number text -/

/-- What of a number can be seen in its text: there is one not-a-number, and zero has no sign. -/
def canonical (x : Binary64) : Binary64 :=
  if x.isNaN then nan else if x.rank = 0 then ofRank false 0 else x

theorem canonical_of_finite (hfinite : x.isFinite = true) (hzero : x.rank ≠ 0) :
    x.canonical = x := by
  rw [canonical, isNaN_eq_false hfinite, if_neg hzero]
  rfl

/-- How numbers are written: one word for what is not a number, one for each infinity, a single
digit for zero, and a numeral for all the rest. -/
inductive WrittenNumber (x : Binary64) : Prop where
  | nan (hcanonical : x.canonical = .nan) (htext : x.format = "NaN".toList)
  | infinite (negative : Bool) (hcanonical : x.canonical = .infinite negative)
      (htext : x.format = if negative then "-Infinity".toList else "Infinity".toList)
  | zero (hcanonical : x.canonical = ofRank false 0) (htext : x.format = ['0'])
  | numeral (n : Numeral) (hreadable : n.IsReadable) (htext : n.text = x.format)
      (hcanonical : x.canonical = x) (hread : ofDecimal n.negative n.decimal = x)

theorem writtenNumber (x : Binary64) : WrittenNumber x := by
  by_cases hnan : x.isNaN = true
  · exact .nan (by rw [canonical, if_pos hnan]) (by rw [format, if_pos hnan])
  by_cases hinfinite : x.isInfinite = true
  · have hrank : x.rank = infinityRank := of_decide_eq_true hinfinite
    have hzero : x.rank ≠ 0 := by
      rw [hrank]
      decide
    have hsame : infinite x.negative = x := by
      rw [infinite, ← hrank, ofRank_negative_rank]
    exact .infinite x.negative (by rw [canonical, if_neg hnan, if_neg hzero, hsame])
      (by rw [format, if_neg hnan, if_pos hinfinite])
  by_cases hzero : x.rank = 0
  · exact .zero (by rw [canonical, if_neg hnan, if_pos hzero])
      (by rw [format, if_neg hnan, if_neg hinfinite, if_pos hzero])
  · have hfinite : x.isFinite = true := by
      have hle : ¬ infinityRank < x.rank := fun h => hnan (decide_eq_true h)
      have hne : x.rank ≠ infinityRank := fun h => hinfinite (decide_eq_true h)
      exact isFinite_iff.2 (by omega)
    obtain ⟨n, hreadable, htext, -, -, hread⟩ := exists_numeral hfinite hzero
    exact .numeral n hreadable htext (canonical_of_finite hfinite hzero) hread

/-- **Every number text is read** as what of the number can be seen in it. -/
theorem read?_format (x : Binary64) : read? x.format = some x.canonical := by
  cases writtenNumber x with
  | nan hcanonical htext =>
      rw [hcanonical, htext]
      decide +kernel
  | infinite negative hcanonical htext =>
      rw [hcanonical, htext]
      cases negative <;> decide +kernel
  | zero hcanonical htext =>
      rw [hcanonical, htext]
      decide +kernel
  | numeral n hreadable htext hcanonical hread =>
      rw [hcanonical, ← htext, Numeral.read?_text hreadable, hread]

/-- A number is written as what of it can be seen. -/
theorem format_canonical (x : Binary64) : x.canonical.format = x.format := by
  cases writtenNumber x with
  | nan hcanonical htext =>
      rw [hcanonical, htext]
      decide +kernel
  | infinite negative hcanonical htext =>
      rw [hcanonical, htext]
      cases negative <;> decide +kernel
  | zero hcanonical htext =>
      rw [hcanonical, htext]
      decide +kernel
  | numeral n hreadable htext hcanonical hread => rw [hcanonical]

/-- **Numbers are written alike exactly if nothing of them can be told apart** in a text. -/
theorem format_eq_iff : x.format = y.format ↔ x.canonical = y.canonical := by
  constructor
  · intro h
    have hread := read?_format x
    rw [h, read?_format y] at hread
    exact (Option.some.inj hread).symm
  · intro h
    rw [← format_canonical x, ← format_canonical y, h]

theorem value_eq_zero_iff : x.value = 0 ↔ x.rank = 0 := by
  have hunits : unitsAt x.rank = 0 ↔ x.rank = 0 := strictMono_unitsAt.injective.eq_iff' unitsAt_zero
  rw [← abs_eq_zero, abs_value, div_eq_zero_iff, Nat.cast_eq_zero, hunits]
  exact or_iff_left unitsInOne_pos.ne'

/-- A number is read from its text in number mode. -/
theorem finiteNumber?_format (hfinite : x.isFinite = true) (hzero : x.rank ≠ 0) :
    BindingMode.finiteNumber? x.format = some x := by
  obtain ⟨n, hreadable, htext, -⟩ := exists_numeral hfinite hzero
  have hblank : ∀ c ∈ Numeral.letters, isBlank c = false := by decide
  have htrim : Text.trim x.format = x.format := by
    rw [← htext]
    exact Text.trim_of_no_blank fun c hc => hblank c (Numeral.mem_text hreadable hc)
  rw [BindingMode.finiteNumber?, htrim, read?_format, canonical_of_finite hfinite hzero]
  simp [hfinite]

/-- **The text of a number denotes the number.**  Take a finite number other than zero.  Its text
is a numeral without superfluous zeros, with all places if the magnitude is at least the double
nearest to `10 ^ (-6)` and less than the one nearest to `10 ^ 21`, and with a power of ten if it is
not.  The number is the only double that what the text denotes rounds to, to the nearest with ties
to even.  No other finite number is written so; and bound as a text in number mode, the text makes
the declaration that the number makes in whatever mode takes it. -/
theorem format_denotes (hfinite : x.isFinite = true) (hzero : x.value ≠ 0) :
    (∃ n : Numeral, n.text = x.format ∧
      ((ofDecimal false ⟨1, -6⟩).value ≤ |x.value| ∧
        |x.value| < (ofDecimal false ⟨1, 21⟩).value → n.IsPositional) ∧
      (¬ ((ofDecimal false ⟨1, -6⟩).value ≤ |x.value| ∧
        |x.value| < (ofDecimal false ⟨1, 21⟩).value) → n.IsScientific)) ∧
    (∀ n : Numeral, n.IsReadable → n.text = x.format → ∀ y, RoundsTo n.value y ↔ y = x) ∧
    (∀ y : Binary64, y.isFinite = true → y.value ≠ 0 → y.format = x.format → y = x) ∧
    ∀ (b : Builder) (name : Text) (mode : BindingMode), mode ≠ .boolean →
      b.addVariable name (.text x.format) .number = b.addVariable name (.number x) mode := by
  have hrank : x.rank ≠ 0 := fun h => hzero (value_eq_zero_iff.2 h)
  obtain ⟨n, hreadable, htext, hpositional, hscientific, hread⟩ := exists_numeral hfinite hrank
  refine ⟨⟨n, htext, fun h => hpositional (isPositional_iff.2 h),
    fun h => hscientific fun hform => h (isPositional_iff.1 hform)⟩, ?_, ?_, ?_⟩
  · intro m hm hsame y
    have hrounds : RoundsTo n.value x := by
      rw [Numeral.value_eq, ← hread]
      exact roundsTo_ofDecimal (by rw [hread]; exact hfinite)
    rw [Numeral.value_congr hm hreadable (hsame.trans htext.symm)]
    constructor
    · intro hy
      exact (eq_of_value_eq hzero (hrounds.value_unique hy)).symm
    · intro hy
      rwa [hy]
  · intro y hy hyzero hsame
    have hyrank : y.rank ≠ 0 := fun h => hyzero (value_eq_zero_iff.2 h)
    have hcanonical := format_eq_iff.1 hsame
    rwa [canonical_of_finite hy hyrank, canonical_of_finite hfinite hrank] at hcanonical
  · intro b name mode hmode
    have htextual : BindingMode.number.initializer? (.text x.format) = some x.format := by
      change (BindingMode.finiteNumber? x.format).map format = some x.format
      rw [finiteNumber?_format hfinite hrank]
      rfl
    have hnumeric : mode.initializer? (.number x) = some x.format := by
      cases mode with
      | boolean => exact absurd rfl hmode
      | _ => rfl
    rw [Builder.addVariable, Builder.addVariable, htextual, hnumeric]

/-- The least number above zero is written as `5e-324`, which is not its value but rounds to it. -/
theorem least_denotes :
    (⟨1⟩ : Binary64).isFinite = true ∧ (⟨1⟩ : Binary64).value ≠ 0 ∧
      (⟨1⟩ : Binary64).format = "5e-324".toList ∧
      ∀ n : Numeral, n.IsReadable → n.text = (⟨1⟩ : Binary64).format →
        ∀ y, RoundsTo n.value y ↔ y = ⟨1⟩ := by
  have hfinite : (⟨1⟩ : Binary64).isFinite = true := by decide
  have hzero : (⟨1⟩ : Binary64).value ≠ 0 := by
    rw [ne_eq, value_eq_zero_iff]
    decide
  have htext : (⟨1⟩ : Binary64).format = "5e-324".toList := by decide +kernel
  obtain ⟨-, hrounds, -⟩ := format_denotes hfinite hzero
  exact ⟨hfinite, hzero, htext, hrounds⟩

end Binary64

end Scriptwright
