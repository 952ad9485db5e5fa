import Scriptwright.Number.Format
import Scriptwright.Number.Read
import Scriptwright.Proofs.DataCode
import Scriptwright.Proofs.NearestDoubles

/-!
# Numerals

A number text has a sign or none, digits before a point, and perhaps a point with
digits behind it and a power of ten.  A `Numeral` is such a text in its parts:
`Numeral.text` puts them together and `Numeral.value` is the rational number that they
denote.  Two forms of it are without superfluous zeros, one with all its places
(`IsPositional`), one with a single digit before the point and a power of ten
(`IsScientific`).

* `read?_text` — the reader of numbers takes a numeral for the double of its decimal,
  and that decimal has the value of the numeral (`value_eq`);
* `exists_positional`, `exists_scientific` — a decimal whose last digit is not a zero
  has a numeral of either form, and of the same value.
-/

namespace Scriptwright

open Alphabet (Digits digits_ofNat digits_replicate_zero)

/-! ## The value of digits -/

/-- Digits in front count by the number of places behind them. -/
theorem digitsValue_append (t u : Text) :
    digitsValue (t ++ u) = digitsValue t * 10 ^ u.length + digitsValue u := by
  unfold digitsValue
  rw [Nat.ofDigitChars_append, Nat.ofDigitChars_eq_ofDigitChars_zero, Nat.mul_comm]

/-- A number is read off its digits. -/
theorem digitsValue_ofNat (n : ℕ) : digitsValue (Text.ofNat n) = n := Nat.ofDigitChars_ten_toDigits

/-- Zeros do not count. -/
theorem digitsValue_replicate_zero (k : ℕ) : digitsValue (List.replicate k '0') = 0 := by
  induction k with
  | zero => rfl
  | succ k ih =>
      have hzero : digitsValue ['0'] = 0 := by decide
      rw [List.replicate_succ, ← List.singleton_append, digitsValue_append, hzero, ih]
      simp

/-- Only a zero is written with the digit zero. -/
theorem digitChar_eq_zero {n : ℕ} (h : n < 10) (hzero : n.digitChar = '0') : n = 0 := by
  have hdigits : ∀ n < 10, Nat.digitChar n = '0' → n = 0 := by decide
  exact hdigits n h hzero

/-- The last digit of a number. -/
theorem getLast?_ofNat (n : ℕ) : (Text.ofNat n).getLast? = some (n % 10).digitChar := by
  unfold Text.ofNat
  rcases Nat.lt_or_ge n 10 with h | h
  · rw [Nat.toDigits_of_lt_base h, Nat.mod_eq_of_lt h]
    rfl
  · rw [Nat.toDigits_of_base_le (by decide) h]
    simp

/-- The first digit of a number other than zero is no zero. -/
theorem head?_ofNat {n : ℕ} (hn : n ≠ 0) : (Text.ofNat n).head? ≠ some '0' := by
  unfold Text.ofNat
  induction n using Nat.strongRecOn with
  | ind n ih =>
      rcases Nat.lt_or_ge n 10 with h | h
      · rw [Nat.toDigits_of_lt_base h]
        intro hzero
        exact hn (digitChar_eq_zero h (by simpa using hzero))
      · rw [Nat.toDigits_of_base_le (by decide) h, List.head?_append_of_ne_nil _ Nat.toDigits_ne_nil]
        exact ih (n / 10) (by omega) (by omega)

/-- No digits are digits. -/
theorem digits_nil : Digits [] := by
  intro c hc
  cases hc

/-- The digits are ten. -/
theorem mem_digits {c : Char} (h : c.isDigit = true) : c ∈ "0123456789".toList := by
  have hcodes : ∀ k < 58, 48 ≤ k → Char.ofNat k ∈ "0123456789".toList := by decide
  have hrange : 48 ≤ c.toNat ∧ c.toNat ≤ 57 := by
    simpa [Char.isDigit, UInt32.le_iff_toNat_le] using h
  have hc := hcodes c.toNat (by omega) hrange.1
  rwa [Char.ofNat_toNat] at hc

/-! ## Numerals -/

/-- A number text in its parts: whether there is a minus sign, the digits before and those behind
the point, and, if there is a power of ten, whether it has a minus sign and its digits. -/
structure Numeral where
  negative : Bool
  whole : Text
  fraction : Text
  power : Option (Bool × Text)

namespace Numeral

/-- The point with the digits behind it, if there are any. -/
def pointText (fraction : Text) : Text := if fraction.isEmpty then [] else '.' :: fraction

/-- The power of ten, if there is one; its sign is always written. -/
def powerText : Option (Bool × Text) → Text
  | none => []
  | some (negative, digits) => 'e' :: (if negative then '-' else '+') :: digits

/-- The text of a numeral without its sign. -/
def magnitude (n : Numeral) : Text := n.whole ++ (pointText n.fraction ++ powerText n.power)

/-- The text of a numeral. -/
def text (n : Numeral) : Text := if n.negative then '-' :: n.magnitude else n.magnitude

/-- The power of ten, zero where there is none. -/
def exponent (n : Numeral) : ℤ :=
  match n.power with
  | none => 0
  | some (negative, digits) =>
      if negative then -(digitsValue digits : ℤ) else (digitsValue digits : ℤ)

/-- **The number that a numeral denotes.** -/
def value (n : Numeral) : ℚ :=
  Binary64.signed n.negative
    ((digitsValue n.whole + digitsValue n.fraction / 10 ^ n.fraction.length) * 10 ^ n.exponent)

/-- The digits of a natural number: no zero at the front but of zero itself. -/
structure IsWhole (t : Text) : Prop where
  digits : Digits t
  ne_nil : t ≠ []
  tight : t.head? = some '0' → t = ['0']

/-- The digits behind a point: no zero at the end. -/
structure IsFraction (t : Text) : Prop where
  digits : Digits t
  tight : t.getLast? ≠ some '0'

/-- All places are written and there is no power of ten. -/
structure IsPositional (n : Numeral) : Prop where
  whole : IsWhole n.whole
  fraction : IsFraction n.fraction
  power : n.power = none

/-- One digit other than zero before the point, and a power of ten. -/
structure IsScientific (n : Numeral) : Prop where
  whole : ∃ c, n.whole = [c] ∧ c.isDigit = true ∧ c ≠ '0'
  fraction : IsFraction n.fraction
  power : ∃ negative digits, n.power = some (negative, digits) ∧ IsWhole digits

/-- What a reader needs: digits in all parts, and some before the point and in the power. -/
structure IsReadable (n : Numeral) : Prop where
  whole : Digits n.whole
  whole_ne_nil : n.whole ≠ []
  fraction : Digits n.fraction
  power : ∀ negative digits, n.power = some (negative, digits) → Digits digits ∧ digits ≠ []

variable {n : Numeral}

/-- A numeral with all places written can be read. -/
theorem IsPositional.isReadable (h : n.IsPositional) : n.IsReadable := by
  refine ⟨h.whole.digits, h.whole.ne_nil, h.fraction.digits, fun negative digits hpower => ?_⟩
  rw [h.power] at hpower
  cases hpower

/-- So can one with a power of ten. -/
theorem IsScientific.isReadable (h : n.IsScientific) : n.IsReadable := by
  obtain ⟨c, hwhole, hdigit, -⟩ := h.whole
  obtain ⟨negative, digits, hpower, hdigits⟩ := h.power
  refine ⟨?_, ?_, h.fraction.digits, fun negative' digits' hpower' => ?_⟩
  · rw [hwhole]
    intro d hd
    rwa [List.mem_singleton.1 hd]
  · rw [hwhole]
    exact List.cons_ne_nil _ _
  · rw [hpower] at hpower'
    obtain ⟨-, rfl⟩ := Prod.mk.inj (Option.some.inj hpower')
    exact ⟨hdigits.digits, hdigits.ne_nil⟩

/-! ## Reading a numeral -/

/-- The decimal of a numeral, without its sign. -/
def decimal (n : Numeral) : Decimal :=
  ⟨digitsValue (n.whole ++ n.fraction), -(n.fraction.length : ℤ) + n.exponent⟩

/-- A numeral denotes its decimal, with its sign. -/
theorem value_eq (n : Numeral) : n.value = Binary64.signed n.negative n.decimal.value := by
  unfold value decimal Decimal.value
  dsimp only
  congr 1
  rw [zpow_add₀ (by norm_num), zpow_neg, zpow_natCast, digitsValue_append]
  push_cast
  field_simp

/-- An exponent is read with its sign. -/
theorem readExponent?_signed (negative : Bool) {digits : Text} (hdigits : Digits digits)
    (hne : digits ≠ []) :
    readExponent? ((if negative then '-' else '+') :: digits) =
      some (if negative then -(digitsValue digits : ℤ) else (digitsValue digits : ℤ)) := by
  have hempty : digits.isEmpty = false := by simpa using hne
  have hall : digits.all Char.isDigit = true := List.all_eq_true.2 hdigits
  cases negative
  · simp [readExponent?, takeSign, hempty, hall]
  · simp [readExponent?, takeSign, hempty, hall]

/-- Digits are taken up to the first character that is none. -/
theorem span_digits {t rest : Text} (ht : Digits t) (hrest : ∀ c ∈ rest.head?, c.isDigit = false) :
    (t ++ rest).takeWhile Char.isDigit = t ∧ (t ++ rest).dropWhile Char.isDigit = rest :=
  span_of_stop ht hrest

/-- A power of ten begins with its letter. -/
theorem head?_powerText (p : Option (Bool × Text)) :
    ∀ c ∈ (powerText p).head?, c = 'e' := by
  intro c hc
  cases p with
  | none => cases hc
  | some p =>
      obtain rfl : 'e' = c := by simpa [powerText] using hc
      rfl

/-- What is behind the digits before the point. -/
theorem head?_behind_whole (n : Numeral) :
    ∀ c ∈ (pointText n.fraction ++ powerText n.power).head?, c.isDigit = false := by
  intro c hc
  unfold pointText at hc
  split at hc
  · rw [List.nil_append] at hc
    rw [head?_powerText _ c hc]
    rfl
  · obtain rfl : '.' = c := by simpa using hc
    rfl

/-- Where no power of ten is written the exponent is zero. -/
theorem exponent_of_powerText_nil (h : powerText n.power = []) : n.exponent = 0 := by
  unfold exponent
  cases hpower : n.power with
  | none => rfl
  | some p =>
      rw [hpower] at h
      cases h

/-- Where one is written, its letter comes first and the exponent is read behind it. -/
theorem readExponent?_of_powerText_cons (h : n.IsReadable) {c : Char} {rest : Text}
    (hpower : powerText n.power = c :: rest) : c = 'e' ∧ readExponent? rest = some n.exponent := by
  unfold exponent
  cases hp : n.power with
  | none =>
      rw [hp] at hpower
      cases hpower
  | some p =>
      obtain ⟨negative, digits⟩ := p
      obtain ⟨hdigits, hne⟩ := h.power negative digits hp
      rw [hp] at hpower
      obtain ⟨rfl, rfl⟩ := List.cons.inj hpower
      exact ⟨rfl, readExponent?_signed negative hdigits hne⟩

/-- **The decimal of a numeral is read.** -/
theorem readDecimal?_magnitude (h : n.IsReadable) : Decimal.read? n.magnitude = some n.decimal := by
  have hwhole : n.whole.isEmpty = false := by simpa using h.whole_ne_nil
  obtain ⟨hfirst, hbehind⟩ := span_digits h.whole (head?_behind_whole n)
  unfold Decimal.read? magnitude
  rw [hfirst, hbehind]
  by_cases hfraction : n.fraction = []
  · have hpoint : pointText n.fraction = [] := by rw [hfraction]; rfl
    rw [hpoint, List.nil_append]
    cases hpower : powerText n.power with
    | nil =>
        have hexponent := exponent_of_powerText_nil hpower
        simp [decimal, hwhole, hfraction, hexponent]
    | cons c rest =>
        obtain ⟨rfl, hexponent⟩ := readExponent?_of_powerText_cons h hpower
        simp [decimal, hwhole, hfraction, hexponent]
  · have hpoint : pointText n.fraction = '.' :: n.fraction := by
      simp [pointText, hfraction]
    have hletter : ∀ c ∈ (powerText n.power).head?, c.isDigit = false := by
      intro c hc
      rw [head?_powerText _ c hc]
      rfl
    obtain ⟨hsecond, hrest⟩ := span_digits h.fraction hletter
    rw [hpoint, List.cons_append]
    cases hpower : powerText n.power with
    | nil =>
        have hexponent := exponent_of_powerText_nil hpower
        rw [hpower, List.append_nil] at hsecond hrest
        simp [decimal, hwhole, hsecond, hrest, hexponent]
    | cons c rest =>
        obtain ⟨rfl, hexponent⟩ := readExponent?_of_powerText_cons h hpower
        rw [hpower] at hsecond hrest
        simp [decimal, hwhole, hsecond, hrest, hexponent]

/-- A digit is none of the marks and letters at the beginning of other number texts. -/
theorem ne_of_isDigit {c : Char} (h : c.isDigit = true) :
    c ≠ '-' ∧ c ≠ '+' ∧ c.toLower ≠ 'i' ∧ c.toLower ≠ 'n' := by
  have hdigits : ∀ c ∈ "0123456789".toList,
      c ≠ '-' ∧ c ≠ '+' ∧ c.toLower ≠ 'i' ∧ c.toLower ≠ 'n' := by decide
  exact hdigits c (mem_digits h)

/-- A numeral without its sign begins with a digit. -/
theorem exists_digit_cons (h : n.IsReadable) :
    ∃ c rest, n.magnitude = c :: rest ∧ c.isDigit = true := by
  obtain ⟨c, more, hwhole⟩ := List.exists_cons_of_ne_nil h.whole_ne_nil
  refine ⟨c, more ++ (pointText n.fraction ++ powerText n.power), ?_, ?_⟩
  · rw [magnitude, hwhole, List.cons_append]
  · exact h.whole c (by rw [hwhole]; exact List.mem_cons_self)

/-- The sign is taken from the front of a numeral. -/
theorem takeSign_text (h : n.IsReadable) : takeSign n.text = (n.negative, n.magnitude) := by
  unfold text
  cases hsign : n.negative with
  | true => rfl
  | false =>
      obtain ⟨c, rest, hcons, hdigit⟩ := exists_digit_cons h
      obtain ⟨hminus, hplus, -⟩ := ne_of_isDigit hdigit
      rw [hcons]
      unfold takeSign
      split
      next heq => exact absurd (List.cons.inj heq).1 hminus
      next heq => exact absurd (List.cons.inj heq).1 hplus
      next => rfl

/-- **The reader takes a numeral for the double of its decimal.** -/
theorem read?_text (h : n.IsReadable) :
    Binary64.read? n.text = some (Binary64.ofDecimal n.negative n.decimal) := by
  obtain ⟨c, rest, hcons, hdigit⟩ := exists_digit_cons h
  obtain ⟨-, -, hi, hn⟩ := ne_of_isDigit hdigit
  have hword (word : Text) (hfirst : word.head? = some 'i' ∨ word.head? = some 'n') :
      n.magnitude.map Char.toLower ≠ word := by
    rintro rfl
    rw [hcons] at hfirst
    rcases hfirst with hfirst | hfirst
    · exact hi (by simpa using hfirst)
    · exact hn (by simpa using hfirst)
  unfold Binary64.read?
  rw [takeSign_text h]
  dsimp only
  rw [if_neg (not_or.2 ⟨hword _ (.inl rfl), hword _ (.inl rfl)⟩), if_neg (hword _ (.inr rfl)),
    readDecimal?_magnitude h]
  rfl

/-- **A text denotes one number.** -/
theorem value_congr {m : Numeral} (hm : m.IsReadable) (hn : n.IsReadable) (h : m.text = n.text) :
    m.value = n.value := by
  have hsign := takeSign_text hm
  rw [h, takeSign_text hn] at hsign
  obtain ⟨hnegative, hmagnitude⟩ := Prod.mk.inj hsign
  have hread := readDecimal?_magnitude hm
  rw [← hmagnitude, readDecimal?_magnitude hn] at hread
  rw [value_eq, value_eq, hnegative, Option.some.inj hread]

/-! ## Its characters -/

/-- What numerals are written with. -/
def letters : Text := "0123456789-.e+".toList

/-- Digits are among what numerals are written with. -/
theorem mem_letters_of_isDigit {c : Char} (h : c.isDigit = true) : c ∈ letters := by
  have hdigits : ∀ c ∈ "0123456789".toList, c ∈ letters := by decide
  exact hdigits c (mem_digits h)

/-- A numeral is written with these characters only. -/
theorem mem_text (h : n.IsReadable) {c : Char} (hc : c ∈ n.text) : c ∈ letters := by
  have hmagnitude : ∀ c ∈ n.magnitude, c ∈ letters := by
    intro c hc
    unfold magnitude at hc
    simp only [List.mem_append] at hc
    rcases hc with hc | hc | hc
    · exact mem_letters_of_isDigit (h.whole c hc)
    · unfold pointText at hc
      split at hc
      · cases hc
      · rcases List.mem_cons.1 hc with rfl | hc
        · decide
        · exact mem_letters_of_isDigit (h.fraction c hc)
    · cases hpower : n.power with
      | none =>
          rw [hpower] at hc
          cases hc
      | some p =>
          obtain ⟨negative, digits⟩ := p
          rw [hpower] at hc
          simp only [powerText, List.mem_cons] at hc
          rcases hc with rfl | rfl | hc
          · decide
          · cases negative <;> decide
          · exact mem_letters_of_isDigit ((h.power negative digits hpower).1 c hc)
  unfold text at hc
  split at hc
  · rcases List.mem_cons.1 hc with rfl | hc
    · decide
    · exact hmagnitude c hc
  · exact hmagnitude c hc

end Numeral

/-! ## The numerals of a decimal -/

namespace Decimal

variable {d : Decimal}

/-- A decimal whose last digit is not zero is not zero. -/
theorem digits_ne_zero (hd : d.digits % 10 ≠ 0) : d.digits ≠ 0 := by
  intro h
  rw [h] at hd
  exact hd rfl

/-- A decimal has a digit at least. -/
theorem text_ne_nil (d : Decimal) : d.text ≠ [] := Nat.toDigits_ne_nil

/-- Its digits are read as the number that they are of. -/
theorem digitsValue_text (d : Decimal) : digitsValue d.text = d.digits := digitsValue_ofNat d.digits

/-- The digits of a decimal that is not zero, before other digits, are those of a whole number. -/
theorem isWhole_append (hd : d.digits % 10 ≠ 0) {t u behind : Text} (ht : t ≠ []) (hu : Digits u)
    (hsplit : d.text = t ++ behind) : Numeral.IsWhole (t ++ u) := by
  have hhead : t.head? ≠ some '0' := by
    have hfirst := head?_ofNat (digits_ne_zero hd)
    rw [← Decimal.text, hsplit, List.head?_append_of_ne_nil _ ht] at hfirst
    exact hfirst
  refine ⟨?_, ?_, ?_⟩
  · intro c hc
    rcases List.mem_append.1 hc with hc | hc
    · refine digits_ofNat d.digits c ?_
      rw [← Decimal.text, hsplit]
      exact List.mem_append_left _ hc
    · exact hu c hc
  · simp [ht]
  · intro h
    rw [List.head?_append_of_ne_nil _ ht] at h
    exact absurd h hhead

/-- The last digits of a decimal, behind other digits, are those of a fraction if the last one is no
zero. -/
theorem isFraction_append (hd : d.digits % 10 ≠ 0) {t u front : Text} (hu : u ≠ [])
    (ht : Digits t) (hsplit : d.text = front ++ u) : Numeral.IsFraction (t ++ u) := by
  have hlast := getLast?_ofNat d.digits
  rw [← Decimal.text, hsplit, List.getLast?_append_of_ne_nil _ hu] at hlast
  refine ⟨?_, ?_⟩
  · intro c hc
    rcases List.mem_append.1 hc with hc | hc
    · exact ht c hc
    · refine digits_ofNat d.digits c ?_
      rw [← Decimal.text, hsplit]
      exact List.mem_append_right _ hc
  · rw [List.getLast?_append_of_ne_nil _ hu, hlast]
    intro hzero
    exact hd (digitChar_eq_zero (Nat.mod_lt _ (by decide)) (Option.some.inj hzero))

/-- There may be no digits behind a point. -/
theorem isFraction_nil : Numeral.IsFraction [] :=
  ⟨digits_nil, by simp⟩

/-- A natural number has no zeros at its front. -/
theorem isWhole_ofNat (n : ℕ) : Numeral.IsWhole (Text.ofNat n) := by
  refine ⟨digits_ofNat n, Nat.toDigits_ne_nil, fun h => ?_⟩
  by_cases hn : n = 0
  · rw [hn]
    rfl
  · exact absurd h (head?_ofNat hn)

/-- The first digits of a decimal that is not zero are those of a whole number. -/
theorem isWhole_front (hd : d.digits % 10 ≠ 0) {t behind : Text} (ht : t ≠ [])
    (hsplit : d.text = t ++ behind) : Numeral.IsWhole t := by
  have hwhole := isWhole_append hd ht digits_nil hsplit
  rwa [List.append_nil] at hwhole

/-- The last digits of a decimal are those of a fraction if the last one is no zero. -/
theorem isFraction_rest (hd : d.digits % 10 ≠ 0) {front u : Text} (hu : u ≠ [])
    (hsplit : d.text = front ++ u) : Numeral.IsFraction u :=
  isFraction_append hd hu digits_nil hsplit

/-- Digits with zeros behind them are a numeral. -/
theorem exists_whole (hd : d.digits % 10 ≠ 0) (neg : Bool) {k : ℕ} (hk : d.exponent = k) :
    ∃ n : Numeral, n.IsPositional ∧ n.negative = neg ∧
      n.magnitude = d.text ++ List.replicate k '0' ∧ n.decimal.value = d.value := by
  refine ⟨⟨neg, d.text ++ List.replicate k '0', [], none⟩, ⟨?_, isFraction_nil, rfl⟩, rfl, ?_, ?_⟩
  · exact isWhole_append hd d.text_ne_nil (digits_replicate_zero k) (List.append_nil _).symm
  · simp [Numeral.magnitude, Numeral.pointText, Numeral.powerText]
  · simp [Numeral.decimal, Numeral.exponent, Decimal.value, hk, digitsValue_append, digitsValue_text,
      digitsValue_replicate_zero]

/-- Digits with a point between them are a numeral. -/
theorem exists_pointed (hd : d.digits % 10 ≠ 0) (neg : Bool) {front behind : Text}
    (hsplit : d.text = front ++ behind) (hfront : front ≠ []) (hbehind : behind ≠ [])
    (hk : d.exponent = -(behind.length : ℤ)) :
    ∃ n : Numeral, n.IsPositional ∧ n.negative = neg ∧ n.magnitude = front ++ '.' :: behind ∧
      n.decimal.value = d.value := by
  refine ⟨⟨neg, front, behind, none⟩, ⟨isWhole_front hd hfront hsplit,
    isFraction_rest hd hbehind hsplit, rfl⟩, rfl, ?_, ?_⟩
  · simp [Numeral.magnitude, Numeral.pointText, Numeral.powerText, hbehind]
  · simp only [Numeral.decimal, Numeral.exponent, Decimal.value, ← hsplit, digitsValue_text, hk,
      add_zero]

/-- Digits behind a point and zeros are a numeral. -/
theorem exists_behind_point (hd : d.digits % 10 ≠ 0) (neg : Bool) {k : ℕ}
    (hk : d.exponent = -((k + d.text.length : ℕ) : ℤ)) :
    ∃ n : Numeral, n.IsPositional ∧ n.negative = neg ∧
      n.magnitude = '0' :: '.' :: (List.replicate k '0' ++ d.text) ∧ n.decimal.value = d.value := by
  have hzero : digitsValue ['0'] = 0 := by decide
  refine ⟨⟨neg, ['0'], List.replicate k '0' ++ d.text, none⟩,
    ⟨⟨digits_replicate_zero 1, List.cons_ne_nil _ _, fun _ => rfl⟩, ?_, rfl⟩, rfl, ?_, ?_⟩
  · exact isFraction_append hd d.text_ne_nil (digits_replicate_zero k) (List.nil_append _).symm
  · simp [Numeral.magnitude, Numeral.pointText, Numeral.powerText, d.text_ne_nil]
  · simp only [Numeral.decimal, Numeral.exponent, Decimal.value, digitsValue_append, digitsValue_text,
      digitsValue_replicate_zero, hzero, hk, List.length_append, List.length_replicate, zero_mul,
      zero_add, add_zero]

/-- **All places of a decimal** are a numeral of its value. -/
theorem exists_positional (hd : d.digits % 10 ≠ 0) (neg : Bool) :
    ∃ n : Numeral, n.IsPositional ∧ n.negative = neg ∧ n.magnitude = d.positional ∧
      n.decimal.value = d.value := by
  unfold Decimal.positional
  dsimp only
  split_ifs with hsign hplaces
  · exact exists_whole hd neg (by omega)
  · refine exists_pointed hd neg (List.take_append_drop _ _).symm ?_ ?_ ?_
    · exact List.ne_nil_of_length_pos (by rw [List.length_take]; omega)
    · exact List.ne_nil_of_length_pos (by rw [List.length_drop]; omega)
    · rw [List.length_drop]
      omega
  · exact exists_behind_point hd neg (by omega)

/-- **A decimal with a power of ten** is a numeral of its value. -/
theorem exists_scientific (hd : d.digits % 10 ≠ 0) (neg : Bool) :
    ∃ n : Numeral, n.IsScientific ∧ n.negative = neg ∧ n.magnitude = d.scientific ∧
      n.decimal.value = d.value := by
  obtain ⟨c, rest, hcons⟩ := List.exists_cons_of_ne_nil d.text_ne_nil
  obtain ⟨power, hpower⟩ : ∃ power, power = d.exponent + (d.text.length : ℤ) - 1 := ⟨_, rfl⟩
  refine ⟨⟨neg, [c], rest, some (decide (power < 0), Text.ofNat power.natAbs)⟩,
    ⟨⟨c, rfl, ?_, ?_⟩, ?_, ⟨_, _, rfl, ?_⟩⟩, rfl, ?_, ?_⟩
  · exact digits_ofNat d.digits c (by rw [← Decimal.text, hcons]; exact List.mem_cons_self)
  · rintro rfl
    exact head?_ofNat (digits_ne_zero hd) (by rw [← Decimal.text, hcons]; rfl)
  · by_cases hrest : rest = []
    · rw [hrest]
      exact isFraction_nil
    · have hsplit : d.text = [c] ++ rest := hcons
      exact isFraction_rest hd hrest hsplit
  · exact isWhole_ofNat _
  · unfold Decimal.scientific
    dsimp only
    rw [← hpower, hcons]
    by_cases hrest : rest = []
    · simp [Numeral.magnitude, Numeral.pointText, Numeral.powerText, hrest]
    · simp [Numeral.magnitude, Numeral.pointText, Numeral.powerText, hrest]
  · have hsigned : (if decide (power < 0) = true then -(power.natAbs : ℤ) else (power.natAbs : ℤ)) =
        power := by
      by_cases hsign : power < 0
      · rw [if_pos (decide_eq_true hsign)]
        omega
      · rw [if_neg (by simpa using hsign)]
        omega
    have hexponent : -(rest.length : ℤ) + power = d.exponent := by
      rw [hpower, hcons, List.length_cons]
      push_cast
      ring
    simp only [Numeral.decimal, Numeral.exponent, Decimal.value, List.singleton_append, ← hcons,
      digitsValue_text, digitsValue_ofNat, hsigned, hexponent]

end Decimal

end Scriptwright
