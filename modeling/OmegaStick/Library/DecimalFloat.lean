import OmegaStick.Library.DecimalRead

/-!
# Machine floats and decimal text

What IEEE 754 and the standard library guarantee of a machine float as a rounded
rational: `value` is the number a finite float stands for, arithmetic comparisons
compare values, a stream writes six significant digits of it, and `strtof` reads the
nearest float.  Overflow, NaN and the sign of a zero stay open.  Exact arithmetic has
these laws too.

A number of six significant digits comes back from its nearest float
(`roundSix_value_ofRat`).
-/

universe u

open MachineFloat DecimalText

/-- A machine float as a rounded rational. -/
class DecimalFloat (F : Type u) [MachineFloat F] [FloatText F] where
  /-- The number a finite float stands for. -/
  value : F → ℚ
  flt_iff {x y : F} : isFinite x = true → isFinite y = true →
    (flt x y = true ↔ value x < value y)
  feq_iff {x y : F} : isFinite x = true → isFinite y = true →
    (feq x y = true ↔ value x = value y)
  isFinite_of_fle {x y : F} : fle (ofRat 0) x = true → fle x y = true → isFinite y = true →
    isFinite x = true
  fle_of_flt {x y : F} : flt x y = true → fle x y = true
  isFinite_ffloor {x : F} : isFinite x = true → isFinite (ffloor x) = true
  value_ffloor {x : F} : isFinite x = true → value (ffloor x) = (value x).floor
  toInt_eq {x : F} : isFinite x = true → 0 ≤ value x → value x < 2 ^ 63 →
    toInt x = (value x).floor
  /-- Conversion overflows above the largest float only. -/
  isFinite_ofRat {q : ℚ} : |q| < 2 ^ 127 → isFinite (ofRat q : F) = true
  /-- A whole number of 24 bits is a float. -/
  value_ofRat_natCast {n : ℕ} : n ≤ 2 ^ 24 → value (ofRat n : F) = n
  /-- The float nearest to a whole number is a whole number, and nearest to itself. -/
  exists_value_ofRat {n : ℕ} : n < 2 ^ 64 →
    ∃ m : ℕ, value (ofRat n : F) = m ∧ value (ofRat m : F) = m
  /-- The relative error of a conversion. -/
  abs_value_ofRat_sub_le {n : ℕ} : n < 2 ^ 64 → |value (ofRat n : F) - n| ≤ n / 2 ^ 24
  /-- A stream writes six significant digits; a zero may have a sign. -/
  print_eq {x : F} : isFinite x = true →
    FloatText.print x = print (value x) ∨ value x = 0 ∧ FloatText.print x = [45, 48]
  /-- `strtof` reads a decimal number as the nearest float. -/
  strtof_eq {text : List UInt8} {q : ℚ} : (∀ c ∈ text, isNumeric c = true) →
    strtof text = some q → ∃ y : F, FloatText.strtof text = some y ∧
      value y = value (ofRat q : F) ∧ isFinite y = isFinite (ofRat q : F)

instance : DecimalFloat ℚ where
  value q := q
  flt_iff _ _ := decide_eq_true_iff
  feq_iff _ _ := decide_eq_true_iff
  isFinite_of_fle _ _ _ := rfl
  fle_of_flt h := decide_eq_true (le_of_lt (of_decide_eq_true h))
  isFinite_ffloor _ := rfl
  value_ffloor _ := rfl
  toInt_eq _ h _ := if_pos h
  isFinite_ofRat _ := rfl
  value_ofRat_natCast _ := rfl
  exists_value_ofRat {n} _ := ⟨n, rfl, rfl⟩
  abs_value_ofRat_sub_le {n} _ := by
    change |(n : ℚ) - n| ≤ n / 2 ^ 24
    rw [sub_self, abs_zero]
    positivity
  print_eq _ := .inl rfl
  strtof_eq _ h := ⟨_, h, rfl, rfl⟩

namespace DecimalFloat

variable {F : Type u} [MachineFloat F] [FloatText F] [DecimalFloat F]

/-- A decimal number that reads as `q`. -/
def Reads (text : List UInt8) (q : ℚ) : Prop :=
  (∀ c ∈ text, isNumeric c = true) ∧ strtof text = some q

theorem reads_print {x : F} (h : isFinite x = true) :
    Reads (FloatText.print x) (roundSix (value x)) := by
  rcases print_eq h with htext | ⟨hzero, htext⟩
  · rw [htext]
    exact ⟨fun _ => isNumeric_of_mem_print, strtof_print (value x)⟩
  · rw [htext, hzero]
    exact ⟨by decide +kernel, by decide +kernel⟩

/-- The value a float has once it was written and read again. -/
def reread (x : F) : ℚ := value (ofRat (roundSix (value x)) : F)

/-- A number of six digits comes back from its nearest float. -/
theorem roundSix_value_ofRat {n : ℕ} (hn : n < 2 ^ 64) (hdigits : SixDigits n) :
    roundSix (value (ofRat n : F)) = n := by
  refine roundSix_of_near hdigits ((abs_value_ofRat_sub_le hn).trans ?_)
  gcongr
  norm_num

/-- What is written of the float nearest to a whole number is a whole number. -/
theorem exists_roundSix_value_ofRat {n : ℕ} (hn : n < 2 ^ 32) :
    ∃ p : ℕ, p < 2 ^ 33 ∧ SixDigits p ∧ roundSix (value (ofRat n : F)) = p := by
  obtain ⟨m, hm, -⟩ := exists_value_ofRat (F := F) (n := n) (by omega)
  have herror := abs_le.mp (abs_value_ofRat_sub_le (F := F) (n := n) (by omega))
  obtain ⟨p, hp⟩ := roundSix_natCast m
  have hround := abs_le.mp (abs_roundSix_sub_le (m : ℚ))
  rw [hm] at herror ⊢
  rw [hp, abs_of_nonneg (Nat.cast_nonneg m)] at hround
  refine ⟨p, ?_, ?_, hp⟩
  · have hn' : (n : ℚ) < 2 ^ 32 := by exact_mod_cast hn
    have hlt : (p : ℚ) < 2 ^ 33 := by linarith [herror.2, hround.2]
    exact_mod_cast hlt
  · rw [← hp]
    exact roundSix_eq_iff.mp (roundSix_roundSix m)

/-- A whole number that is written and read again is kept exactly when it is nearest to
some whole number of at most six digits. -/
theorem reread_natCast_iff {n : ℕ} (hn : n < 2 ^ 32) :
    reread (ofRat n : F) = n ↔
      ∃ p : ℕ, p < 2 ^ 33 ∧ SixDigits p ∧ value (ofRat p : F) = n := by
  unfold reread
  constructor
  · intro h
    obtain ⟨p, hlt, hdigits, hp⟩ := exists_roundSix_value_ofRat (F := F) hn
    rw [hp] at h
    exact ⟨p, hlt, hdigits, h⟩
  · rintro ⟨p, hlt, hdigits, hp⟩
    obtain ⟨m, hm, hself⟩ := exists_value_ofRat (F := F) (n := p) (by omega)
    have hnm : n = m := by exact_mod_cast hp.symm.trans hm
    have hsame := roundSix_value_ofRat (F := F) (n := p) (by omega) hdigits
    rw [hm] at hsame
    rw [hnm, hself, hsame, hm]

end DecimalFloat
