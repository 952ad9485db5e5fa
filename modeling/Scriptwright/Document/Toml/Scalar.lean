import Scriptwright.Document.Basic
import Scriptwright.Document.Toml.Lexical
import Scriptwright.Number.Read

/-!
# Numbers, truth values and dates of a settings file

Integers are decimal, with a sign if there is need, or hexadecimal, octal or
binary without one; they have at most 64 bits.  Between two digits a single
underscore may stand.  Other numbers have a fraction or a power of ten; one too
large to be finite is refused, though not its negative.  Dates and times are
checked against the calendar and the clock and then forgotten: no setting is one,
so what is left of them is a record without fields.
-/

namespace Scriptwright

namespace Toml

/-- Digits of a base in which single underscores may stand between two digits. -/
def digitsOf? (isDigit : Char → Bool) (t : Text) : Option Text :=
  let groups := t.splitOn '_'
  if groups.all fun group => !group.isEmpty && group.all isDigit then some groups.flatten else none

/-- The value of digits of a base. -/
def baseValue (base : Nat) (digits : Text) : Nat :=
  digits.foldl (fun value c => base * value +
    (if c.isDigit then c.toNat - 48 else c.toLower.toNat - 87)) 0

/-- An integer of at most 64 bits with its sign. -/
def bounded? (n : Int) : Option Document :=
  if -9223372036854775808 ≤ n ∧ n ≤ 9223372036854775807 then some (.integer n) else none

/-- Decimal digits without a zero in front of other digits. -/
def wholeDigits? (t : Text) : Option Text :=
  (digitsOf? Char.isDigit t).bind fun digits =>
    if digits.head? = some '0' ∧ 1 < digits.length then none else some digits

/-- A decimal integer. -/
def decimal? (negative : Bool) (t : Text) : Option Document :=
  (wholeDigits? t).bind fun digits =>
    bounded? (if negative then -(digitsValue digits : Int) else digitsValue digits)

/-- Whether a character begins the power of ten of a number. -/
def opensPower (c : Char) : Bool := c == 'e' || c == 'E'

/-- Whether a text without its sign has the form of a number with a fraction or a power of ten. -/
def isReal (t : Text) : Bool :=
  let mantissa := t.takeWhile (!opensPower ·)
  let power := t.dropWhile (!opensPower ·)
  let whole := mantissa.takeWhile (· != '.')
  let fraction := mantissa.dropWhile (· != '.')
  (wholeDigits? whole).isSome &&
    (fraction.isEmpty || (digitsOf? Char.isDigit (fraction.drop 1)).isSome) &&
      (power.isEmpty || (digitsOf? Char.isDigit (takeSign (power.drop 1)).2).isSome) &&
        !(fraction.isEmpty && power.isEmpty)

/-- A number with a fraction or a power of ten. -/
def real? (word : Text) : Option Document :=
  if isReal (takeSign word).2 then
    (Binary64.read? (word.filter (· != '_'))).bind fun x =>
      if x = Binary64.infinite false then none else some (.real x)
  else none

/-- A number or truth value from its word. -/
def scalar? (word : Text) : Option Document :=
  if word = "true".toList then some (.bool true)
  else if word = "false".toList then some (.bool false)
  else
    let (negative, magnitude) := takeSign word
    if magnitude = "inf".toList then some (.real (Binary64.infinite negative))
    else if magnitude = "nan".toList then some (.real Binary64.nan)
    else
      match word with
      | '0' :: 'x' :: digits =>
          (digitsOf? (fun c => c.isDigit || ('a' ≤ c.toLower && c.toLower ≤ 'f')) digits).bind
            fun digits => bounded? (baseValue 16 digits)
      | '0' :: 'o' :: digits =>
          (digitsOf? (fun c => '0' ≤ c && c ≤ '7') digits).bind
            fun digits => bounded? (baseValue 8 digits)
      | '0' :: 'b' :: digits =>
          (digitsOf? (fun c => c == '0' || c == '1') digits).bind
            fun digits => bounded? (baseValue 2 digits)
      | _ => (decimal? negative magnitude).or (real? word)

/-- A number of exactly so many digits between two bounds. -/
def takeNumber? (count least most : Nat) (t : Text) : Option (Nat × Text) :=
  let digits := t.take count
  let value := digitsValue digits
  if digits.length = count ∧ digits.all Char.isDigit = true ∧ least ≤ value ∧ value ≤ most then
    some (value, t.drop count)
  else none

/-- The text behind a given character. -/
def takeChar? (c : Char) : Text → Option Text
  | first :: rest => if first = c then some rest else none
  | [] => none

/-- The number of days of a month. -/
def daysOf (year month : Nat) : Nat :=
  if month = 2 then
    if year % 4 = 0 ∧ (year % 100 ≠ 0 ∨ year % 400 = 0) then 29 else 28
  else if month = 4 ∨ month = 6 ∨ month = 9 ∨ month = 11 then 30
  else 31

/-- The text behind a date: year, month and day. -/
def skipDate? (t : Text) : Option Text :=
  (takeNumber? 4 0 9999 t).bind fun (year, t) =>
    (takeChar? '-' t).bind fun t =>
      (takeNumber? 2 1 12 t).bind fun (month, t) =>
        (takeChar? '-' t).bind fun t => (takeNumber? 2 1 (daysOf year month) t).map Prod.snd

/-- The text behind hours and minutes. -/
def skipMinutes? (t : Text) : Option Text :=
  (takeNumber? 2 0 23 t).bind fun (_, t) =>
    (takeChar? ':' t).bind fun t => (takeNumber? 2 0 59 t).map Prod.snd

/-- The text behind a fraction of a second, if there is one. -/
def skipFraction (t : Text) : Text :=
  match t with
  | '.' :: c :: rest => if c.isDigit then rest.dropWhile Char.isDigit else t
  | t => t

/-- The text behind a time of day: hours, minutes, seconds and their fraction. -/
def skipTime? (t : Text) : Option Text :=
  (skipMinutes? t).bind fun t =>
    (takeChar? ':' t).bind fun t =>
      (takeNumber? 2 0 60 t).map fun (_, t) => skipFraction t

/-- The text behind the distance of a time from world time, if it is given. -/
def skipOffset (t : Text) : Text :=
  match t with
  | c :: rest =>
      if c = 'Z' ∨ c = 'z' then rest
      else if c = '+' ∨ c = '-' then (skipMinutes? rest).getD t
      else t
  | [] => []

/-- The text behind a date, a time, or both. -/
def skipMoment? (t : Text) : Option Text :=
  match skipDate? t with
  | none => skipTime? t
  | some rest =>
      match rest with
      | c :: time =>
          if c = 'T' ∨ c = 't' ∨ c = ' ' then
            match skipTime? time with
            | some rest => some (skipOffset rest)
            | none => some rest
          else some rest
      | [] => some []

/-- A character of the word of a number or truth value. -/
def isScalar (c : Char) : Bool := c.isAlphanum || c == '_' || c == '+' || c == '-' || c == '.'

/-- A number, truth value, date or time. -/
def takeScalar? (t : Text) : Option (Document × Text) :=
  match skipMoment? t with
  | some rest => some (.table [], rest)
  | none => (scalar? (t.takeWhile isScalar)).map fun d => (d, t.dropWhile isScalar)

end Toml

end Scriptwright
