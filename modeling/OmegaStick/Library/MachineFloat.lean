import Mathlib.Data.Rat.Floor
import Mathlib.Data.List.Sort
import Mathlib.Data.Int.Log

/-!
# Machine floats as a parameter

Programs over `float` are written once, over a type `F` with the operations
the language gives it.  A result proved for every such `F` holds of IEEE
binary32 with its rounding, infinities and NaN, because nothing about the
operations is assumed; results in exact arithmetic take `F := ℚ`.

The comparisons are `Bool`-valued and unrelated to each other on purpose: with
a NaN operand `x < y`, `x == y` and `y < x` are all false.
-/

universe u

/-- The arithmetic, comparison and conversion operators of a machine float. -/
class MachineFloat (F : Type u) extends Add F, Sub F, Mul F, Div F, Neg F where
  /-- The value of a literal, and the conversion from an integer. -/
  ofRat : ℚ → F
  /-- `x < y` -/
  flt : F → F → Bool
  /-- `x <= y` -/
  fle : F → F → Bool
  /-- `x == y` -/
  feq : F → F → Bool
  /-- `std::isfinite` -/
  isFinite : F → Bool
  /-- `std::abs` -/
  fabs : F → F
  /-- `std::floor` -/
  ffloor : F → F
  /-- The conversion to an integer type, truncating toward zero. -/
  toInt : F → ℤ

/-- The functions of the mathematical library. -/
class FloatMath (F : Type u) where
  sqrt : F → F
  hypot : F → F → F
  atan2 : F → F → F

/-- The 32 bits of a float, as they go over a wire. -/
class FloatBits (F : Type u) where
  toBits : F → UInt32
  ofBits : UInt32 → F

/-- Formatted output and input of a float: what a default `std::ostream`
writes, and what `std::strtof` reads from the start of a text (`none` when no
character is consumed). -/
class FloatText (F : Type u) where
  print : F → List UInt8
  strtof : List UInt8 → Option F

namespace MachineFloat

variable {F : Type u} [MachineFloat F]

/-- `std::min(a, b)` -/
def fmin (a b : F) : F := if flt b a then b else a

/-- `std::max(a, b)` -/
def fmax (a b : F) : F := if flt a b then b else a

/-- `std::clamp(v, lo, hi)` -/
def clamp (v lo hi : F) : F := if flt v lo then lo else if flt hi v then hi else v

/-- `std::sort` with `operator<`. -/
def sort (values : List F) : List F := values.mergeSort fun a b => !flt b a

end MachineFloat

/-! ## Exact arithmetic -/

namespace RatFloat

/-- The square root of a rational, to six decimal places. -/
def sqrt (q : ℚ) : ℚ := (Nat.sqrt (q * 10 ^ 12).floor.toNat : ℚ) / 10 ^ 6

/-- The arc tangent on `[-1, 1]`, within 0.004. -/
def atanUnit (z : ℚ) : ℚ := z * (785398 / 1000000 + 273 / 1000 * (1 - |z|))

/-- The angle of `(x, y)` in `(-π, π]`, within 0.004. -/
def atan2 (y x : ℚ) : ℚ :=
  if x = 0 ∧ y = 0 then 0
  else if |y| ≤ |x| then
    if 0 < x then atanUnit (y / x)
    else if 0 ≤ y then atanUnit (y / x) + 3141592 / 1000000
    else atanUnit (y / x) - 3141592 / 1000000
  else if 0 < y then 1570796 / 1000000 - atanUnit (x / y)
  else -(1570796 / 1000000) - atanUnit (x / y)

/-- The value of a finite binary32 word. -/
def ofBits (word : UInt32) : ℚ :=
  let sign : ℚ := if word &&& 0x80000000 = 0 then 1 else -1
  let exponent := ((word >>> 23) &&& 0xFF).toNat
  let fraction := (word &&& 0x7FFFFF).toNat
  if exponent = 0 then sign * fraction / 2 ^ 149
  else sign * (2 ^ 23 + fraction) * 2 ^ ((exponent : ℤ) - 150)

/-- The binary32 word of a rational, truncated to the format's precision. -/
def toBits (q : ℚ) : UInt32 :=
  let sign : UInt32 := if q < 0 then 0x80000000 else 0
  let exponent : ℤ := min 254 (Int.log 2 |q| + 127)
  if q = 0 then 0
  else if exponent ≤ 0 then sign ||| UInt32.ofInt (|q| * 2 ^ 149).floor
  else
    sign ||| (UInt32.ofInt exponent <<< 23) |||
      (UInt32.ofInt (|q| * 2 ^ (150 - exponent)).floor &&& 0x7FFFFF)

end RatFloat

instance : MachineFloat ℚ where
  ofRat q := q
  flt x y := decide (x < y)
  fle x y := decide (x ≤ y)
  feq x y := decide (x = y)
  isFinite _ := true
  fabs x := |x|
  ffloor x := x.floor
  toInt x := if 0 ≤ x then x.floor else -(-x).floor

instance : FloatMath ℚ where
  sqrt := RatFloat.sqrt
  hypot x y := RatFloat.sqrt (x * x + y * y)
  atan2 := RatFloat.atan2

instance : FloatBits ℚ where
  toBits := RatFloat.toBits
  ofBits := RatFloat.ofBits
