import Mathlib.Data.List.Basic
import Mathlib.Tactic.IntervalCases

/-!
# Checked reads of a byte array

Numbers read out of a byte array at an offset, least significant byte first.
A read past the end is an error, so a program over these reads that never gives an
error never reads past the end.
-/

namespace ByteView

/-- What comes of a read past the end: a number is refused, a byte is missing. -/
inductive ReadError where
  | range
  | missing
  deriving DecidableEq, Repr

/-- Bytes as a number. -/
def littleEndian (bytes : List UInt8) : ℕ := bytes.foldr (fun c n => c.toNat + 256 * n) 0

/-- The number in the `width` bytes at an offset. -/
def uintAt (width : ℕ) (bytes : List UInt8) (offset : ℕ) : ℕ :=
  littleEndian ((bytes.drop offset).take width)

def getUint (width : ℕ) (bytes : List UInt8) (offset : ℕ) : Except ReadError ℕ :=
  if bytes.length < offset + width then .error .range else .ok (uintAt width bytes offset)

def getByte (bytes : List UInt8) (offset : ℕ) : Except ReadError UInt8 :=
  match bytes[offset]? with
  | some c => .ok c
  | none => .error .missing

theorem getUint_of_le {width : ℕ} {bytes : List UInt8} {offset : ℕ}
    (h : offset + width ≤ bytes.length) :
    getUint width bytes offset = .ok (uintAt width bytes offset) :=
  if_neg (not_lt.mpr h)

theorem getByte_of_lt {bytes : List UInt8} {offset : ℕ} (h : offset < bytes.length) :
    ∃ c, bytes[offset]? = some c ∧ getByte bytes offset = .ok c := by
  refine ⟨bytes[offset], List.getElem?_eq_getElem h, ?_⟩
  rw [getByte, List.getElem?_eq_getElem h]

/-! ## Bitwise operations on 32 bits -/

/-- `a | b` of a language whose bitwise operations are on signed 32-bit numbers. -/
def orInt32 (a b : ℕ) : ℤ := (BitVec.ofNat 32 a ||| BitVec.ofNat 32 b).toInt

theorem or_fifteen (n : ℕ) : n ||| 15 = n / 16 * 16 + 15 := by
  have hlow : n % 16 ||| 15 = 15 := by
    have hlt : n % 16 < 16 := Nat.mod_lt n (by decide)
    interval_cases n % 16 <;> rfl
  have hsplit : n = 2 ^ 4 * (n / 16) ||| n % 16 := by
    rw [← Nat.two_pow_add_eq_or_of_lt (Nat.mod_lt n (by decide))]
    omega
  calc n ||| 15 = (2 ^ 4 * (n / 16) ||| n % 16) ||| 15 := by rw [← hsplit]
    _ = 2 ^ 4 * (n / 16) ||| 15 := by rw [Nat.or_assoc, hlow]
    _ = 2 ^ 4 * (n / 16) + 15 := (Nat.two_pow_add_eq_or_of_lt (by decide) _).symm
    _ = n / 16 * 16 + 15 := by omega

/-- With the sign bit clear it rounds up to the end of a block of sixteen. -/
theorem orInt32_fifteen {n : ℕ} (h : n < 2 ^ 31) : orInt32 n 15 = (n / 16 * 16 + 15 : ℕ) := by
  have hfifteen : n ||| 15 = n / 16 * 16 + 15 := or_fifteen n
  have hnat : (BitVec.ofNat 32 n ||| BitVec.ofNat 32 15).toNat = n / 16 * 16 + 15 := by
    rw [BitVec.toNat_or, BitVec.toNat_ofNat, BitVec.toNat_ofNat, Nat.mod_eq_of_lt (by omega),
      Nat.mod_eq_of_lt (by decide), hfifteen]
  rw [orInt32, BitVec.toInt_eq_toNat_of_lt (by rw [hnat]; omega), hnat]

end ByteView
