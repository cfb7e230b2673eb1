import Mathlib.Data.List.TakeWhile
import OmegaStick.Library.Digits
import OmegaStick.Library.SixDigits

/-!
# Reading a printed decimal

`strtof` reads what a default stream wrote as the number rounded to six significant
digits.  A `Numeral` is a decimal by its parts; every printed number is one
(`print_positive`), and every numeral is read as its value (`Numeral.strtof_text`).
-/

namespace DecimalText

/-! ## Numerals -/

/-- A decimal by its parts: digits before the point, digits after it, and an exponent. -/
structure Numeral where
  whole : List UInt8
  fraction : List UInt8
  exponent : Option ℤ
  whole_ne_nil : whole ≠ []
  whole_digits : ∀ c ∈ whole, isDigit c = true
  fraction_digits : ∀ c ∈ fraction, isDigit c = true

/-- `e+dd` or `e-dd`. -/
def exponentText (e : ℤ) : List UInt8 := [101, if e < 0 then 45 else 43] ++ digitsOf 2 e.natAbs

namespace Numeral

variable (n : Numeral)

/-- The point and what follows it, when anything does. -/
def pointText : List UInt8 := if n.fraction.isEmpty then [] else 46 :: n.fraction

def text : List UInt8 := n.whole ++ (n.pointText ++ n.exponent.elim [] exponentText)

def value : ℚ :=
  (valueOf n.whole + valueOf n.fraction / 10 ^ n.fraction.length) * 10 ^ n.exponent.getD 0

theorem exists_cons : ∃ c rest, n.text = c :: rest ∧ isDigit c = true := by
  obtain ⟨c, rest, hwhole⟩ := List.exists_cons_of_ne_nil n.whole_ne_nil
  refine ⟨c, rest ++ (n.pointText ++ n.exponent.elim [] exponentText), ?_, ?_⟩
  · rw [text, hwhole]
    rfl
  · exact n.whole_digits c (by rw [hwhole]; exact List.mem_cons_self)

end Numeral

theorem takeWhile_dropWhile_of_not {p : UInt8 → Bool} {text : List UInt8}
    (h : ∀ c ∈ text.head?, p c = false) : text.takeWhile p = [] ∧ text.dropWhile p = text := by
  cases text with
  | nil => exact ⟨rfl, rfl⟩
  | cons c rest =>
      have hc : p c = false := h c rfl
      simp [hc]

/-- A run of digits that something else follows. -/
theorem takeWhile_dropWhile_digits {digits rest : List UInt8}
    (hdigits : ∀ c ∈ digits, isDigit c = true) (hrest : ∀ c ∈ rest.head?, isDigit c = false) :
    (digits ++ rest).takeWhile isDigit = digits ∧ (digits ++ rest).dropWhile isDigit = rest := by
  obtain ⟨htake, hdrop⟩ := takeWhile_dropWhile_of_not hrest
  rw [List.takeWhile_append_of_pos hdigits, List.dropWhile_append_of_pos hdigits, htake, hdrop,
    List.append_nil]
  exact ⟨rfl, rfl⟩

theorem readExponent_exponentText (e : ℤ) : readExponent (exponentText e) = e := by
  have hdigits : (digitsOf 2 e.natAbs).takeWhile isDigit = digitsOf 2 e.natAbs :=
    List.takeWhile_eq_self_iff.mpr fun c hc => isDigit_of_mem_digitsOf hc
  rcases lt_or_ge e 0 with h | h
  · have hsign : exponentText e = 101 :: 45 :: digitsOf 2 e.natAbs := by
      simp [exponentText, h]
    rw [hsign]
    change -(valueOf ((digitsOf 2 e.natAbs).takeWhile isDigit) : ℤ) = e
    rw [hdigits, valueOf_digitsOf]
    omega
  · have hsign : exponentText e = 101 :: 43 :: digitsOf 2 e.natAbs := by
      simp [exponentText, not_lt.mpr h]
    rw [hsign]
    change (valueOf ((digitsOf 2 e.natAbs).takeWhile isDigit) : ℤ) = e
    rw [hdigits, valueOf_digitsOf]
    omega

/-- A sign before a numeral is taken, and no space. -/
theorem Numeral.takeSign_text (n : Numeral) (negative : Bool) :
    takeSign (((if negative then [45] else []) ++ n.text).dropWhile fun c =>
      c = 32 || (9 ≤ c && c ≤ 13)) = (negative, n.text) := by
  obtain ⟨c, rest, htext, hdigit⟩ := n.exists_cons
  cases negative with
  | true => rfl
  | false =>
      rw [htext]
      have hlow : 48 ≤ c.toNat := by
        simp only [isDigit, Bool.and_eq_true, decide_eq_true_eq, UInt8.le_iff_toNat_le] at hdigit
        exact hdigit.1
      have hspace : (decide (c = 32) || (decide (9 ≤ c) && decide (c ≤ 13))) = false := by
        simp only [Bool.or_eq_false_iff, Bool.and_eq_false_iff, decide_eq_false_iff_not,
          UInt8.le_iff_toNat_le]
        refine ⟨?_, .inr fun hle => ?_⟩
        · rintro rfl
          exact absurd hlow (by decide)
        · exact absurd (hlow.trans hle) (by decide)
      simp only [Bool.false_eq_true, if_false, List.nil_append, List.dropWhile_cons, hspace]
      -- a digit is no sign
      unfold takeSign
      split
      · rename_i heq
        obtain ⟨rfl, -⟩ := List.cons.inj heq
        exact absurd hdigit (by decide)
      · rename_i heq
        obtain ⟨rfl, -⟩ := List.cons.inj heq
        exact absurd hdigit (by decide)
      · rfl

theorem head_exponentText (e : Option ℤ) :
    ∀ c ∈ (e.elim [] exponentText).head?, c = 101 := by
  cases e with
  | none => simp
  | some e => simp [exponentText]

theorem readExponent_elim (e : Option ℤ) : readExponent (e.elim [] exponentText) = e.getD 0 := by
  cases e with
  | none => rfl
  | some e => exact readExponent_exponentText e

/-- `strtof` reads a numeral as its value. -/
theorem Numeral.strtof_text (n : Numeral) (negative : Bool) :
    strtof ((if negative then [45] else []) ++ n.text) =
      some (if negative then -n.value else n.value) := by
  have hexponent : ∀ c ∈ (n.exponent.elim [] exponentText).head?, isDigit c = false := by
    intro c hc
    rw [head_exponentText n.exponent c hc]
    rfl
  have hpoint : ∀ c ∈ (n.pointText ++ n.exponent.elim [] exponentText).head?,
      isDigit c = false := by
    unfold pointText
    split
    · exact hexponent
    · intro c hc
      obtain rfl : 46 = c := Option.some.inj hc
      rfl
  obtain ⟨hwhole, hrest⟩ := takeWhile_dropWhile_digits n.whole_digits hpoint
  obtain ⟨hfraction, hend⟩ := takeWhile_dropWhile_digits n.fraction_digits hexponent
  have hne : n.whole.isEmpty = false := by
    rw [List.isEmpty_eq_false_iff]
    exact n.whole_ne_nil
  have hpower (x : ℚ) : (if n.exponent.getD 0 < 0 then x / 10 ^ (n.exponent.getD 0).natAbs
      else x * 10 ^ (n.exponent.getD 0).natAbs) = x * 10 ^ n.exponent.getD 0 := by
    generalize n.exponent.getD 0 = e
    split_ifs with h
    · rw [div_eq_mul_inv, ← zpow_natCast, ← zpow_neg]
      congr 2
      omega
    · rw [← zpow_natCast]
      congr 2
      omega
  unfold strtof
  rw [n.takeSign_text negative]
  dsimp only
  rw [text, hwhole, hrest, hne]
  -- with or without a point, what is left are the fraction's digits and the exponent
  have hparts : (if (n.pointText ++ n.exponent.elim [] exponentText).head? = some 46 then
        (n.pointText ++ n.exponent.elim [] exponentText).tail.takeWhile isDigit else []) =
        n.fraction ∧
      (if (n.pointText ++ n.exponent.elim [] exponentText).head? = some 46 then
        (n.pointText ++ n.exponent.elim [] exponentText).tail.dropWhile isDigit
        else n.pointText ++ n.exponent.elim [] exponentText) =
        n.exponent.elim [] exponentText := by
    unfold pointText
    by_cases hempty : n.fraction.isEmpty = true
    · have hhead : (n.exponent.elim [] exponentText).head? ≠ some 46 := by
        intro hhead
        exact absurd (head_exponentText n.exponent 46 hhead) (by decide)
      rw [if_pos hempty, List.nil_append, if_neg hhead, if_neg hhead]
      exact ⟨(List.isEmpty_iff.mp hempty).symm, rfl⟩
    · rw [if_neg hempty]
      exact ⟨hfraction, hend⟩
  rw [hparts.1, hparts.2, readExponent_elim, hpower]
  rfl

/-! ## What is printed -/

/-- Trailing zeros of a fraction add nothing. -/
theorem exists_trimmed (fraction : List UInt8) :
    ∃ k, fraction = (fraction.reverse.dropWhile (· = 48)).reverse ++ List.replicate k 48 := by
  have hzeros : fraction.reverse.takeWhile (· = 48) =
      List.replicate (fraction.reverse.takeWhile (· = 48)).length 48 :=
    List.eq_replicate_iff.mpr ⟨rfl, fun c hc => by simpa using List.mem_takeWhile_imp hc⟩
  refine ⟨(fraction.reverse.takeWhile (· = 48)).length, ?_⟩
  rw [← List.reverse_replicate, ← hzeros, ← List.reverse_append, List.takeWhile_append_dropWhile,
    List.reverse_reverse]

/-- A printed number by its parts. -/
def trimmed (whole fraction : List UInt8) (exponent : Option ℤ) (hne : whole ≠ [])
    (hwhole : ∀ c ∈ whole, isDigit c = true) (hfraction : ∀ c ∈ fraction, isDigit c = true) :
    Numeral where
  whole := whole
  fraction := (fraction.reverse.dropWhile (· = 48)).reverse
  exponent := exponent
  whole_ne_nil := hne
  whole_digits := hwhole
  fraction_digits c hc := by
    refine hfraction c (List.mem_reverse.mp ?_)
    exact (List.dropWhile_suffix _).subset (List.mem_reverse.mp hc)

theorem trimmed_text (whole fraction : List UInt8) (exponent : Option ℤ) (hne hwhole hfraction) :
    (trimmed whole fraction exponent hne hwhole hfraction).text =
      trimFraction whole fraction ++ exponent.elim [] exponentText := by
  unfold Numeral.text Numeral.pointText trimFraction trimmed
  dsimp only
  split
  · rfl
  · rw [List.append_assoc]

theorem trimmed_value (whole fraction : List UInt8) (exponent : Option ℤ)
    (hne hwhole hfraction) :
    (trimmed whole fraction exponent hne hwhole hfraction).value =
      valueOf (whole ++ fraction) / 10 ^ fraction.length * 10 ^ exponent.getD 0 := by
  obtain ⟨k, hk⟩ := exists_trimmed fraction
  unfold Numeral.value trimmed
  dsimp only
  congr 1
  generalize (fraction.reverse.dropWhile (· = 48)).reverse = kept at hk ⊢
  rw [hk, valueOf_append, valueOf_append, valueOf_replicate_zero, List.length_append,
    List.length_replicate, pow_add]
  push_cast
  field_simp
  ring

section Six

variable {digits : ℕ} {e : ℤ}

theorem isDigit_of_mem_take {width k : ℕ} {c : UInt8} (h : c ∈ (digitsOf width digits).take k) :
    isDigit c = true := isDigit_of_mem_digitsOf (List.mem_of_mem_take h)

theorem isDigit_of_mem_drop {width k : ℕ} {c : UInt8} (h : c ∈ (digitsOf width digits).drop k) :
    isDigit c = true := isDigit_of_mem_digitsOf (List.mem_of_mem_drop h)

theorem take_digitsOf_ne_nil (hlength : (digitsOf 6 digits).length = 6) {k : ℕ} (hk : 0 < k) :
    (digitsOf 6 digits).take k ≠ [] := by
  rw [Ne, ← List.length_eq_zero_iff, List.length_take, hlength]
  omega

theorem div_pow_eq {k : ℕ} (hk : (k : ℤ) = 5 - e) :
    (digits : ℚ) / 10 ^ k * 10 ^ (none : Option ℤ).getD 0 = digits * 10 ^ (e - 5) := by
  rw [← zpow_natCast, hk, div_eq_mul_inv, ← zpow_neg, neg_sub, Option.getD_none, zpow_zero,
    mul_one]

/-- One digit before the point, and an exponent. -/
theorem exists_numeral_scientific (hlength : (digitsOf 6 digits).length = 6) :
    ∃ n : Numeral,
      trimFraction ((digitsOf 6 digits).take 1) ((digitsOf 6 digits).drop 1) ++ exponentText e =
          n.text ∧
        n.value = digits * 10 ^ (e - 5) := by
  refine ⟨trimmed ((digitsOf 6 digits).take 1) ((digitsOf 6 digits).drop 1) (some e)
    (take_digitsOf_ne_nil hlength one_pos)
    (fun _ => isDigit_of_mem_take) (fun _ => isDigit_of_mem_drop), ?_, ?_⟩
  · rw [trimmed_text, Option.elim_some]
  · have hpower : (10 : ℚ) ^ e = 10 ^ 5 * 10 ^ (e - 5) := by
      rw [← zpow_natCast, ← zpow_add₀ (by norm_num)]
      norm_num
    rw [trimmed_value, List.take_append_drop, valueOf_digitsOf, List.length_drop, hlength,
      Option.getD_some, hpower]
    field_simp

/-- Zeros between the point and the first digit. -/
theorem exists_numeral_small (hlength : (digitsOf 6 digits).length = 6) (hsmall : e < 0) :
    ∃ n : Numeral,
      trimFraction [48] (List.replicate (-e - 1).toNat 48 ++ digitsOf 6 digits) = n.text ∧
        n.value = digits * 10 ^ (e - 5) := by
  have hone : ∀ c ∈ [(48 : UInt8)], isDigit c = true := by
    intro c hc
    rw [List.mem_singleton.mp hc]
    rfl
  have hzeros : ∀ c ∈ List.replicate (-e - 1).toNat 48 ++ digitsOf 6 digits,
      isDigit c = true := by
    intro c hc
    rcases List.mem_append.mp hc with hc | hc
    · rw [List.eq_of_mem_replicate hc]
      rfl
    · exact isDigit_of_mem_digitsOf hc
  have hzero : valueOf [48] = 0 := rfl
  refine ⟨trimmed [48] _ none (List.cons_ne_nil _ _) hone hzeros, ?_, ?_⟩
  · rw [trimmed_text, Option.elim_none, List.append_nil]
  · rw [trimmed_value, valueOf_append, valueOf_append, hzero, valueOf_replicate_zero,
      valueOf_digitsOf, Nat.zero_mul, Nat.zero_mul, Nat.zero_add, Nat.zero_add]
    refine div_pow_eq ?_
    rw [List.length_append, List.length_replicate, hlength]
    omega

/-- The point among the digits, or behind them. -/
theorem exists_numeral_fixed (hlength : (digitsOf 6 digits).length = 6) (hlow : 0 ≤ e)
    (hhigh : e < 6) :
    ∃ n : Numeral,
      trimFraction ((digitsOf 6 digits).take (e + 1).toNat)
          ((digitsOf 6 digits).drop (e + 1).toNat) = n.text ∧
        n.value = digits * 10 ^ (e - 5) := by
  have hpositive : 0 < (e + 1).toNat := by omega
  refine ⟨trimmed ((digitsOf 6 digits).take (e + 1).toNat)
    ((digitsOf 6 digits).drop (e + 1).toNat) none (take_digitsOf_ne_nil hlength hpositive)
    (fun _ => isDigit_of_mem_take) (fun _ => isDigit_of_mem_drop), ?_, ?_⟩
  · rw [trimmed_text, Option.elim_none, List.append_nil]
  · rw [trimmed_value, List.take_append_drop, valueOf_digitsOf]
    refine div_pow_eq ?_
    rw [List.length_drop, hlength]
    omega

end Six

/-- A positive number is printed as a numeral for the rounded number. -/
theorem exists_numeral {q : ℚ} (h : 0 < q) :
    ∃ n : Numeral, printPositive q = n.text ∧ n.value = roundSix q := by
  obtain ⟨hlow, hhigh, -⟩ := significand_spec h
  rw [roundSix_of_pos h]
  unfold printPositive
  generalize significand q = s at hlow hhigh ⊢
  obtain ⟨digits, e⟩ := s
  have hlength : (digitsOf 6 digits).length = 6 := length_digitsOf hlow hhigh
  dsimp only
  by_cases hscientific : e < -4 ∨ 6 ≤ e
  · rw [if_pos hscientific, List.append_assoc]
    exact exists_numeral_scientific hlength
  rw [if_neg hscientific]
  by_cases hsmall : e < 0
  · rw [if_pos hsmall]
    exact exists_numeral_small hlength hsmall
  · rw [if_neg hsmall]
    exact exists_numeral_fixed hlength (by omega) (by omega)

/-- `strtof` reads a printed number as that number rounded to six digits. -/
@[simp] theorem strtof_print (q : ℚ) : strtof (print q) = some (roundSix q) := by
  unfold print
  split_ifs with hzero hneg
  · have hread : strtof [48] = some 0 := by decide +kernel
    rw [hzero, roundSix_zero, hread]
  · obtain ⟨n, htext, hvalue⟩ := exists_numeral (neg_pos.mpr hneg)
    have hread := n.strtof_text true
    rw [htext]
    rw [hvalue, roundSix_neg] at hread
    simpa using hread
  · obtain ⟨n, htext, hvalue⟩ := exists_numeral (lt_of_le_of_ne (not_lt.mp hneg) (Ne.symm hzero))
    have hread := n.strtof_text false
    rw [htext]
    rw [hvalue] at hread
    simpa using hread

/-- The bytes of numbers. -/
def isNumeric (c : UInt8) : Bool := isDigit c || c = 43 || c = 45 || c = 46 || c = 101

theorem isNumeric_of_isDigit {c : UInt8} (h : isDigit c = true) : isNumeric c = true := by
  simp [isNumeric, h]

theorem Numeral.isNumeric_of_mem {n : Numeral} {c : UInt8} (h : c ∈ n.text) :
    isNumeric c = true := by
  unfold text pointText at h
  rcases List.mem_append.mp h with h | h
  · exact isNumeric_of_isDigit (n.whole_digits c h)
  rcases List.mem_append.mp h with h | h
  · split at h
    · cases h
    · rcases List.mem_cons.mp h with rfl | h
      · rfl
      · exact isNumeric_of_isDigit (n.fraction_digits c h)
  · cases hexponent : n.exponent with
    | none => simp [hexponent] at h
    | some e =>
        rw [hexponent] at h
        rcases List.mem_append.mp h with h | h
        · rcases List.mem_cons.mp h with rfl | h
          · rfl
          · rw [List.mem_singleton.mp h]
            split <;> rfl
        · exact isNumeric_of_isDigit (isDigit_of_mem_digitsOf h)

theorem isNumeric_of_mem_print {q : ℚ} {c : UInt8} (h : c ∈ print q) : isNumeric c = true := by
  unfold print at h
  split_ifs at h with hzero hneg
  · rw [List.mem_singleton.mp h]
    rfl
  · obtain ⟨n, htext, -⟩ := exists_numeral (neg_pos.mpr hneg)
    rcases List.mem_cons.mp h with rfl | h
    · rfl
    · exact Numeral.isNumeric_of_mem (htext ▸ h)
  · obtain ⟨n, htext, -⟩ := exists_numeral (lt_of_le_of_ne (not_lt.mp hneg) (Ne.symm hzero))
    exact Numeral.isNumeric_of_mem (htext ▸ h)

end DecimalText
