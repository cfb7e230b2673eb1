import Mathlib.Data.Nat.Digits.Lemmas
import OmegaStick.Library.DecimalText

/-!
# Runs of digits

The value of a run of decimal digits, and the digits of a number: they are
digits, they have the number's value, and there are as many as asked for.
-/

namespace DecimalText

theorem valueOf_foldl (digits : List UInt8) (n : ℕ) :
    digits.foldl (fun n c => 10 * n + (c.toNat - 48)) n =
      n * 10 ^ digits.length + valueOf digits := by
  unfold valueOf
  induction digits generalizing n with
  | nil => simp
  | cons c rest ih =>
      rw [List.foldl_cons, List.foldl_cons, ih, ih (10 * 0 + _), List.length_cons, pow_succ]
      ring

theorem valueOf_append (a b : List UInt8) :
    valueOf (a ++ b) = valueOf a * 10 ^ b.length + valueOf b := by
  rw [← valueOf_foldl]
  exact List.foldl_append

@[simp] theorem valueOf_nil : valueOf [] = 0 := rfl

@[simp] theorem valueOf_replicate_zero (k : ℕ) : valueOf (List.replicate k 48) = 0 := by
  induction k with
  | zero => rfl
  | succ k ih =>
      have hzero : valueOf [48] = 0 := rfl
      rw [List.replicate_succ, ← List.singleton_append, valueOf_append, ih, hzero, Nat.zero_mul]

theorem digitByte_toNat {d : ℕ} (h : d < 10) : (digitByte d).toNat = 48 + d := by
  rw [digitByte, UInt8.toNat_ofNat']
  omega

theorem isDigit_digitByte {d : ℕ} (h : d < 10) : isDigit (digitByte d) = true := by
  have htoNat := digitByte_toNat h
  simp only [isDigit, Bool.and_eq_true, decide_eq_true_eq, UInt8.le_iff_toNat_le, htoNat]
  exact ⟨Nat.le_add_right 48 d, by change 48 + d ≤ 57; omega⟩

/-- The digits of a positional representation, written the other way round. -/
theorem valueOf_reverse_map (digits : List ℕ) (h : ∀ d ∈ digits, d < 10) :
    valueOf (digits.reverse.map digitByte) = Nat.ofDigits 10 digits := by
  induction digits with
  | nil => rfl
  | cons d rest ih =>
      obtain ⟨hd, hrest⟩ := List.forall_mem_cons.mp h
      have hlast : valueOf [digitByte d] = d := by
        change 10 * 0 + ((digitByte d).toNat - 48) = d
        rw [digitByte_toNat hd]
        omega
      rw [List.reverse_cons, List.map_append, List.map_singleton, valueOf_append, ih hrest, hlast,
        Nat.ofDigits_cons, List.length_singleton, pow_one]
      ring

@[simp] theorem valueOf_digitsOf (width n : ℕ) : valueOf (digitsOf width n) = n := by
  have hdigits := valueOf_reverse_map (Nat.digits 10 n) fun d hd =>
    Nat.digits_lt_base (by norm_num) hd
  unfold digitsOf
  rw [valueOf_append, valueOf_replicate_zero, hdigits, Nat.ofDigits_digits, Nat.zero_mul,
    Nat.zero_add]

theorem isDigit_of_mem_digitsOf {width n : ℕ} {c : UInt8} (h : c ∈ digitsOf width n) :
    isDigit c = true := by
  rcases List.mem_append.mp h with h | h
  · rw [List.eq_of_mem_replicate h]
    rfl
  · obtain ⟨d, hd, rfl⟩ := List.mem_map.mp h
    exact isDigit_digitByte (Nat.digits_lt_base (by norm_num) (List.mem_reverse.mp hd))

theorem length_digitsOf {width n : ℕ} (hlow : 10 ^ width ≤ n) (hhigh : n < 10 ^ (width + 1)) :
    (digitsOf (width + 1) n).length = width + 1 := by
  have hpositive : n ≠ 0 := by
    rintro rfl
    exact absurd hlow (by simp)
  have hlog : Nat.log 10 n = width := Nat.log_eq_of_pow_le_of_lt_pow hlow hhigh
  have hlength : (Nat.digits 10 n).length = width + 1 := by
    rw [Nat.length_digits 10 n (by norm_num) hpositive, hlog]
  simp [digitsOf, hlength]

end DecimalText
