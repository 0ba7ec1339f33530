import AddressExport.Toml.Quoted

/-!
# Numbers and dates

No setting is a number or a date, so these are only checked, and their values are not kept.
-/

namespace AddressExport.Toml

/-! ## Numbers -/

/-- Digits, with single underscores between them. -/
def digitRun (p : Char → Bool) : Reader (List Char) := do
  let first ← Reader.one p
  let others ← Reader.many do
    let _ ← Reader.optional (Reader.exactly "_")
    Reader.one p
  return first :: others

/-- Whether there is a minus sign; a plus sign is taken as well. -/
def sign : Reader Bool := do
  let sign ← Reader.optional (Reader.one fun c => c == '+' || c == '-')
  return sign == some '-'

/-- The digits of a decimal number, which do not start with a zero unless it is the only one. -/
def decimalDigits : Reader (List Char) := fun s =>
  match s with
  | '0' :: r => some (['0'], r)
  | _ => digitRun Char.isDigit s

/-- The least number that is too large for a signed integer of 64 bits. -/
def integerBound : Nat := 1 <<< 63

/-- An integer in another base.  It has no sign. -/
def basedInteger (mark : String) (base : Nat) (p : Char → Bool) : Reader Unit := do
  Reader.exactly mark
  let digits ← digitRun p
  Reader.require (number base digits < integerBound)

/-- A decimal integer of 64 bits. -/
def decimalInteger : Reader Unit := do
  let negative ← sign
  let digits ← decimalDigits
  Reader.require (number 10 digits < integerBound + if negative then 1 else 0)

/-- An integer. -/
def integer : Reader Unit :=
  (basedInteger "0x" 16 isHexadecimal).or <|
    (basedInteger "0o" 8 fun c => '0' ≤ c && c ≤ '7').or <|
      (basedInteger "0b" 2 fun c => c == '0' || c == '1').or decimalInteger

/-- The least number that is rounded to infinity in 64 bits. -/
def overflow : Nat := (1 <<< 1024) - (1 <<< 970)

/-- Whether `digits`, read as a decimal number, times a power of ten is too large for 64 bits.  The
first test spares large powers. -/
def isTooLarge (digits : List Char) (exponent : Int) : Bool :=
  let value := number 10 digits
  let width := (digits.dropWhile (· == '0')).length
  if value = 0 ∨ (width : Int) + exponent < 300 then false
  else if 400 < (width : Int) + exponent then true
  else if exponent < 0 then overflow * Nat.pow 10 exponent.natAbs ≤ value
  else overflow ≤ value * Nat.pow 10 exponent.natAbs

/-- The fraction of a number. -/
def fraction : Reader (List Char) := do
  Reader.exactly "."
  digitRun Char.isDigit

/-- The exponent of a number. -/
def exponent : Reader Int := do
  let _ ← Reader.one fun c => c == 'e' || c == 'E'
  let negative ← sign
  let digits ← digitRun Char.isDigit
  let value : Int := number 10 digits
  return if negative then -value else value

/-- A number with a fraction or an exponent, or both.  Its value must not be too large. -/
def pointNumber : Reader Unit := do
  let negative ← sign
  let digits ← decimalDigits
  let fraction ← Reader.optional fraction
  let power ← Reader.optional exponent
  Reader.require (fraction.isSome || power.isSome)
  let places := fraction.getD []
  Reader.require (negative || !isTooLarge (digits ++ places) (power.getD 0 - places.length))

/-- Infinity, or no number. -/
def specialNumber : Reader Unit := do
  let _ ← sign
  (Reader.exactly "inf").or (Reader.exactly "nan")

/-! ## Dates and times -/

/-- A number of `n` digits between two bounds. -/
def field (n least greatest : Nat) : Reader Nat := do
  let value := number 10 (← Reader.times (Reader.one Char.isDigit) n)
  Reader.require (least ≤ value && value ≤ greatest)
  return value

/-- Whether a year has 366 days. -/
def isLeap (year : Nat) : Bool := year % 4 == 0 && (year % 100 != 0 || year % 400 == 0)

/-- The number of days of a month. -/
def daysIn (year month : Nat) : Nat :=
  if month = 2 then if isLeap year then 29 else 28
  else if month = 4 ∨ month = 6 ∨ month = 9 ∨ month = 11 then 30
  else 31

/-- A date. -/
def date : Reader Unit := do
  let year ← field 4 0 9999
  Reader.exactly "-"
  let month ← field 2 1 12
  Reader.exactly "-"
  let _ ← field 2 1 (daysIn year month)

/-- A time of day. -/
def time : Reader Unit := do
  let _ ← field 2 0 23
  Reader.exactly ":"
  let _ ← field 2 0 59
  Reader.exactly ":"
  let _ ← field 2 0 60
  let _ ← Reader.optional do
    Reader.exactly "."
    let _ ← Reader.one Char.isDigit
    Reader.run Char.isDigit

/-- The distance of a time from that of Greenwich. -/
def offset : Reader Unit :=
  ((do let _ ← Reader.one fun c => c == 'Z' || c == 'z') : Reader Unit).or do
    let _ ← Reader.one fun c => c == '+' || c == '-'
    let _ ← field 2 0 23
    Reader.exactly ":"
    let _ ← field 2 0 59

/-- A date with or without a time, or a time. -/
def dateOrTime : Reader Unit :=
  (do
    date
    let _ ← Reader.optional do
      let _ ← Reader.one fun c => c == 'T' || c == 't' || c == ' '
      time
      let _ ← Reader.optional offset
      return () : Reader Unit).or time

/-- A number or a date. -/
def numberOrDate : Reader Unit :=
  dateOrTime.or (pointNumber.or (specialNumber.or integer))

end AddressExport.Toml
