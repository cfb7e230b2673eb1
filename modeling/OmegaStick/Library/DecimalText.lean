import Mathlib.Data.Nat.Digits.Defs
import Mathlib.Data.Nat.Log
import OmegaStick.Library.MachineFloat

/-!
# Decimal text of a rational

What a default C++ stream writes for a number (`%g` with six significant
digits) and what `strtof` reads back, in exact arithmetic: printing rounds to
the nearest six-digit decimal, reading is exact.  A text is a list of bytes.
-/

namespace DecimalText

/-- The exponent of the leading decimal digit of a positive rational. -/
def exponent (q : ℚ) : ℤ :=
  if 1 ≤ q then Nat.log 10 q.floor.toNat
  else
    let e := Nat.log 10 (1 / q).floor.toNat
    if (10 : ℚ) ^ e * q = 1 then -e else -e - 1

/-- The nearest natural number, halves to even. -/
def roundHalfEven (q : ℚ) : ℕ :=
  let n := q.floor.toNat
  let rest := q - n
  if rest < 1 / 2 then n else if 1 / 2 < rest then n + 1 else n + n % 2

/-- Six significant digits of a positive rational, and the exponent of the
first of them. -/
def significand (q : ℚ) : ℕ × ℤ :=
  let e := exponent q
  let digits := roundHalfEven (if e ≤ 5 then q * 10 ^ (5 - e).toNat else q / 10 ^ (e - 5).toNat)
  if digits = 10 ^ 6 then (10 ^ 5, e + 1) else (digits, e)

/-- The rational nearest to `q` with six significant digits. -/
def roundSix (q : ℚ) : ℚ :=
  if q = 0 then 0
  else
    let (digits, e) := significand |q|
    let magnitude : ℚ :=
      if e ≤ 5 then digits / 10 ^ (5 - e).toNat else digits * 10 ^ (e - 5).toNat
    if q < 0 then -magnitude else magnitude

/-- A digit as a byte. -/
def digitByte (d : ℕ) : UInt8 := UInt8.ofNat (48 + d)

/-- The decimal digits of a natural number, at least `width` of them. -/
def digitsOf (width n : ℕ) : List UInt8 :=
  let digits := (Nat.digits 10 n).reverse.map digitByte
  List.replicate (width - digits.length) 48 ++ digits

/-- Removes trailing zeros of a fraction, and the point when nothing is left. -/
def trimFraction (whole fraction : List UInt8) : List UInt8 :=
  let kept := (fraction.reverse.dropWhile (· = 48)).reverse
  if kept.isEmpty then whole else whole ++ 46 :: kept

/-- `%g` of a positive rational. -/
def printPositive (q : ℚ) : List UInt8 :=
  let (digits, e) := significand q
  let six := digitsOf 6 digits
  if e < -4 ∨ 6 ≤ e then
    trimFraction (six.take 1) (six.drop 1) ++ [101, if e < 0 then 45 else 43] ++
      digitsOf 2 e.natAbs
  else if e < 0 then
    trimFraction [48] (List.replicate (-e - 1).toNat 48 ++ six)
  else trimFraction (six.take (e + 1).toNat) (six.drop (e + 1).toNat)

/-- `%g` of a rational. -/
def print (q : ℚ) : List UInt8 :=
  if q = 0 then [48] else if q < 0 then 45 :: printPositive (-q) else printPositive q

/-- Whether a byte is a decimal digit. -/
def isDigit (c : UInt8) : Bool := 48 ≤ c && c ≤ 57

/-- The value of a run of decimal digits. -/
def valueOf (digits : List UInt8) : ℕ := digits.foldl (fun n c => 10 * n + (c.toNat - 48)) 0

/-- An optional sign. -/
def takeSign : List UInt8 → Bool × List UInt8
  | 45 :: rest => (true, rest)
  | 43 :: rest => (false, rest)
  | text => (false, text)

/-- The exponent part, when there is a complete one. -/
def readExponent (text : List UInt8) : ℤ :=
  match text with
  | c :: rest =>
      if c = 101 ∨ c = 69 then
        let (negative, rest) := takeSign rest
        let digits := rest.takeWhile isDigit
        if negative then -(valueOf digits : ℤ) else valueOf digits
      else 0
  | [] => 0

/-- `strtof` on a decimal number at the start of a text. -/
def strtof (text : List UInt8) : Option ℚ :=
  let (negative, text) := takeSign (text.dropWhile fun c => c = 32 || (9 ≤ c && c ≤ 13))
  let whole := text.takeWhile isDigit
  let rest := text.dropWhile isDigit
  let fraction := if rest.head? = some 46 then rest.tail.takeWhile isDigit else []
  let rest := if rest.head? = some 46 then rest.tail.dropWhile isDigit else rest
  if whole.isEmpty && fraction.isEmpty then none
  else
    let e := readExponent rest
    let mantissa : ℚ := valueOf whole + valueOf fraction / 10 ^ fraction.length
    let magnitude := if e < 0 then mantissa / 10 ^ e.natAbs else mantissa * 10 ^ e.natAbs
    some (if negative then -magnitude else magnitude)

end DecimalText

instance : FloatText ℚ where
  print := DecimalText.print
  strtof := DecimalText.strtof
