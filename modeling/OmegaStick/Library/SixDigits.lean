import Mathlib.Algebra.Order.Field.Power
import Mathlib.Tactic.FieldSimp
import Mathlib.Tactic.Linarith
import Mathlib.Tactic.NormNum
import Mathlib.Tactic.Positivity
import Mathlib.Tactic.Ring
import OmegaStick.Library.DecimalText

/-!
# Six significant digits

Rounding to six significant digits (`DecimalText.roundSix`): the digits and the
exponent of a positive rational, the error of the rounding, and that rounding what is
already rounded changes nothing.
-/

namespace DecimalText

/-! ## The leading digit -/

theorem floor_toNat_le {q : ℚ} (h : 0 ≤ q) : (q.floor.toNat : ℚ) ≤ q := by
  have hnonneg : 0 ≤ q.floor := Int.floor_nonneg.mpr h
  have hcast : ((q.floor.toNat : ℤ) : ℚ) = (q.floor : ℚ) := by rw [Int.toNat_of_nonneg hnonneg]
  have hle : (q.floor : ℚ) ≤ q := Int.floor_le q
  push_cast at hcast
  rw [hcast]
  exact hle

theorem lt_floor_toNat_add_one {q : ℚ} (h : 0 ≤ q) : q < q.floor.toNat + 1 := by
  have hnonneg : 0 ≤ q.floor := Int.floor_nonneg.mpr h
  have hcast : ((q.floor.toNat : ℤ) : ℚ) = (q.floor : ℚ) := by rw [Int.toNat_of_nonneg hnonneg]
  have hlt : q < (q.floor : ℚ) + 1 := Int.lt_floor_add_one q
  push_cast at hcast
  rw [hcast]
  exact hlt

/-- The logarithm of the whole part of a rational that is at least one. -/
theorem log_floor {q : ℚ} (h : 1 ≤ q) :
    (10 : ℚ) ^ Nat.log 10 q.floor.toNat ≤ q ∧ q < 10 ^ (Nat.log 10 q.floor.toNat + 1) := by
  have hnonneg : 0 ≤ q := zero_le_one.trans h
  have hpositive : q.floor.toNat ≠ 0 := by
    have hfloor : 1 ≤ q.floor := Int.le_floor.mpr (by exact_mod_cast h)
    omega
  have hlow : 10 ^ Nat.log 10 q.floor.toNat ≤ q.floor.toNat := Nat.pow_log_le_self 10 hpositive
  have hhigh : q.floor.toNat + 1 ≤ 10 ^ (Nat.log 10 q.floor.toNat + 1) :=
    Nat.lt_pow_succ_log_self (by norm_num) _
  constructor
  · calc (10 : ℚ) ^ Nat.log 10 q.floor.toNat ≤ q.floor.toNat := by exact_mod_cast hlow
      _ ≤ q := floor_toNat_le hnonneg
  · calc q < q.floor.toNat + 1 := lt_floor_toNat_add_one hnonneg
      _ ≤ 10 ^ (Nat.log 10 q.floor.toNat + 1) := by exact_mod_cast hhigh

/-- The leading digit of a positive rational stands at its exponent. -/
theorem exponent_spec {q : ℚ} (h : 0 < q) :
    (10 : ℚ) ^ exponent q ≤ q ∧ q < 10 ^ (exponent q + 1) := by
  unfold exponent
  by_cases hone : 1 ≤ q
  · rw [if_pos hone]
    have hlog := log_floor hone
    exact ⟨by exact_mod_cast hlog.1, by exact_mod_cast hlog.2⟩
  · rw [if_neg hone]
    have hinv : 1 ≤ 1 / q := by
      rw [le_div_iff₀ h]
      linarith
    obtain ⟨hlow, hhigh⟩ := log_floor hinv
    generalize Nat.log 10 (1 / q).floor.toNat = e at hlow hhigh ⊢
    have hpow : (0 : ℚ) < 10 ^ e := by positivity
    dsimp only
    rw [le_div_iff₀ h] at hlow
    rw [div_lt_iff₀ h] at hhigh
    split_ifs with hexact
    · have hq : q = (10 ^ e)⁻¹ := eq_inv_of_mul_eq_one_right hexact
      constructor
      · rw [zpow_neg, zpow_natCast, ← hq]
      · rw [zpow_add₀ (by norm_num), zpow_neg, zpow_natCast, ← hq]
        linarith
    · constructor
      · rw [sub_eq_add_neg, ← neg_add, zpow_neg]
        have hcast : ((10 : ℚ) ^ ((e : ℤ) + 1)) = 10 ^ (e + 1) := by exact_mod_cast rfl
        rw [hcast, inv_le_iff_one_le_mul₀ (by positivity)]
        linarith
      · rw [sub_add_cancel, zpow_neg, zpow_natCast, lt_inv_comm₀ h hpow, ← one_div,
          lt_div_iff₀ h]
        exact lt_of_le_of_ne hlow hexact

/-- There is one exponent. -/
theorem exponent_eq {q : ℚ} {e : ℤ} (hlow : (10 : ℚ) ^ e ≤ q) (hhigh : q < 10 ^ (e + 1)) :
    exponent q = e := by
  have hpositive : 0 < q := lt_of_lt_of_le (by positivity) hlow
  obtain ⟨hlow', hhigh'⟩ := exponent_spec hpositive
  have hone : (1 : ℚ) < 10 := by norm_num
  have hle : exponent q < e + 1 := (zpow_lt_zpow_iff_right₀ hone).mp (hlow'.trans_lt hhigh)
  have hge : e < exponent q + 1 := (zpow_lt_zpow_iff_right₀ hone).mp (hlow.trans_lt hhigh')
  omega

/-! ## Rounding -/

theorem mul_pow_toNat (x : ℚ) (e : ℤ) :
    (if e ≤ 5 then x * 10 ^ (5 - e).toNat else x / 10 ^ (e - 5).toNat) = x * 10 ^ (5 - e) := by
  split_ifs with h
  · rw [← zpow_natCast, Int.toNat_of_nonneg (by omega)]
  · rw [← zpow_natCast, Int.toNat_of_nonneg (by omega), div_eq_mul_inv, ← zpow_neg, neg_sub]

theorem div_pow_toNat (x : ℚ) (e : ℤ) :
    (if e ≤ 5 then x / 10 ^ (5 - e).toNat else x * 10 ^ (e - 5).toNat) = x * 10 ^ (e - 5) := by
  split_ifs with h
  · rw [← zpow_natCast, Int.toNat_of_nonneg (by omega), div_eq_mul_inv, ← zpow_neg, neg_sub]
  · rw [← zpow_natCast, Int.toNat_of_nonneg (by omega)]

@[simp] theorem roundHalfEven_natCast (n : ℕ) : roundHalfEven (n : ℚ) = n := by
  have hfloor : ((n : ℚ).floor).toNat = n := by
    change (⌊(n : ℚ)⌋).toNat = n
    rw [Int.floor_natCast, Int.toNat_natCast]
  unfold roundHalfEven
  simp only [hfloor, sub_self]
  norm_num

/-- The rounded number is one of the two neighbours, and a nearest one. -/
theorem abs_roundHalfEven_sub_le {q : ℚ} (h : 0 ≤ q) : |(roundHalfEven q : ℚ) - q| ≤ 1 / 2 := by
  have hlow := floor_toNat_le h
  have hhigh := lt_floor_toNat_add_one h
  unfold roundHalfEven
  generalize q.floor.toNat = n at hlow hhigh ⊢
  dsimp only
  rw [abs_le]
  split_ifs with hdown hup
  · constructor <;> linarith
  · push_cast
    constructor <;> linarith
  · have hhalf : q = n + 1 / 2 := by linarith
    have hparity : n % 2 = 0 ∨ n % 2 = 1 := by omega
    rcases hparity with hparity | hparity
    · rw [hparity]
      push_cast
      constructor <;> linarith
    · rw [hparity]
      push_cast
      constructor <;> linarith

theorem le_roundHalfEven {n : ℕ} {q : ℚ} (h : (n : ℚ) ≤ q) : n ≤ roundHalfEven q := by
  have hnonneg : 0 ≤ q := (Nat.cast_nonneg n).trans h
  have hfloor : n ≤ q.floor.toNat := by
    have hle : (n : ℤ) ≤ q.floor := Int.le_floor.mpr (by exact_mod_cast h)
    omega
  unfold roundHalfEven
  dsimp only
  split_ifs <;> omega

theorem roundHalfEven_le {n : ℕ} {q : ℚ} (h : q < n) : roundHalfEven q ≤ n := by
  rcases lt_or_ge q 0 with hneg | hnonneg
  · have hfloor : q.floor.toNat = 0 := by
      have hlt : q.floor < 0 := Int.floor_lt_zero.mpr hneg
      omega
    unfold roundHalfEven
    rw [hfloor]
    dsimp only
    rw [if_pos (by push_cast; linarith)]
    exact Nat.zero_le n
  · have hfloor : q.floor.toNat < n := by
      have hlow := floor_toNat_le hnonneg
      have hlt : (q.floor.toNat : ℚ) < n := hlow.trans_lt h
      exact_mod_cast hlt
    unfold roundHalfEven
    dsimp only
    split_ifs <;> omega

/-- A carry makes the exponent one more. -/
theorem exponent_le_significand (q : ℚ) : exponent q ≤ (significand q).2 := by
  unfold significand
  dsimp only
  rw [mul_pow_toNat]
  split_ifs
  · exact Int.le_add_one le_rfl
  · exact le_rfl

/-- The digits and the exponent a positive rational is written with. -/
theorem significand_spec {q : ℚ} (h : 0 < q) :
    10 ^ 5 ≤ (significand q).1 ∧ (significand q).1 < 10 ^ 6 ∧
      |((significand q).1 : ℚ) * 10 ^ ((significand q).2 - 5) - q| ≤ 1 / 200000 * q := by
  obtain ⟨hlow, hhigh⟩ := exponent_spec h
  unfold significand
  dsimp only
  rw [mul_pow_toNat]
  generalize exponent q = e at hlow hhigh ⊢
  have hpositive : (0 : ℚ) < 10 ^ (e - 5) := by positivity
  have hinverse : (10 : ℚ) ^ (5 - e) * 10 ^ (e - 5) = 1 := by
    rw [← zpow_add₀ (by norm_num)]
    norm_num
  have hsplit : (10 : ℚ) ^ e = 10 ^ (e - 5) * 10 ^ 5 := by
    rw [← zpow_natCast, ← zpow_add₀ (by norm_num)]
    norm_num
  have hsucc : (10 : ℚ) ^ (e + 1) = 10 ^ e * 10 := by rw [zpow_add_one₀ (by norm_num)]
  set scaled := q * 10 ^ (5 - e) with hscaled
  have hback : scaled * 10 ^ (e - 5) = q := by rw [hscaled, mul_assoc, hinverse, mul_one]
  have hscaledLow : (10 ^ 5 : ℕ) ≤ scaled := by
    push_cast
    nlinarith
  have hscaledHigh : scaled < (10 ^ 6 : ℕ) := by
    push_cast
    nlinarith
  have hdigitsLow := le_roundHalfEven hscaledLow
  have hdigitsHigh := roundHalfEven_le hscaledHigh
  have herror : |(roundHalfEven scaled : ℚ) * 10 ^ (e - 5) - q| ≤ 1 / 200000 * q := by
    have hround := abs_roundHalfEven_sub_le ((Nat.cast_nonneg _).trans hscaledLow)
    calc |(roundHalfEven scaled : ℚ) * 10 ^ (e - 5) - q|
        = |(roundHalfEven scaled : ℚ) - scaled| * 10 ^ (e - 5) := by
          rw [← abs_of_pos hpositive, ← abs_mul, sub_mul, abs_of_pos hpositive, hback]
      _ ≤ 1 / 2 * 10 ^ (e - 5) := by gcongr
      _ ≤ 1 / 200000 * q := by linarith
  split_ifs with hcarry
  · refine ⟨le_rfl, by norm_num, ?_⟩
    -- a carry moves the point by one digit
    rw [hcarry] at herror
    have hmoved : ((10 ^ 5 : ℕ) : ℚ) * 10 ^ (e + 1 - 5) = ((10 ^ 6 : ℕ) : ℚ) * 10 ^ (e - 5) := by
      rw [show e + 1 - 5 = e - 5 + 1 by ring, zpow_add_one₀ (by norm_num)]
      push_cast
      ring
    rw [hmoved]
    exact herror
  · exact ⟨hdigitsLow, lt_of_le_of_ne hdigitsHigh hcarry, herror⟩

/-- A number that is written with six digits is written with these. -/
theorem significand_eq {d : ℕ} (hlow : 10 ^ 5 ≤ d) (hhigh : d < 10 ^ 6) (e : ℤ) :
    significand ((d : ℚ) * 10 ^ (e - 5)) = (d, e) := by
  have hsplit (k : ℕ) : (10 : ℚ) ^ (e - 5 + k) = (10 ^ k : ℕ) * 10 ^ (e - 5) := by
    rw [zpow_add₀ (by norm_num), zpow_natCast]
    push_cast
    ring
  have hpositive : (0 : ℚ) < 10 ^ (e - 5) := by positivity
  have hexponent : exponent ((d : ℚ) * 10 ^ (e - 5)) = e := by
    apply exponent_eq
    · have hfive : (10 : ℚ) ^ e = (10 ^ 5 : ℕ) * 10 ^ (e - 5) := by
        rw [← hsplit 5]
        norm_num
      rw [hfive]
      gcongr
    · have hsix : (10 : ℚ) ^ (e + 1) = (10 ^ 6 : ℕ) * 10 ^ (e - 5) := by
        rw [← hsplit 6]
        congr 1
        push_cast
        ring
      rw [hsix]
      gcongr
  have hback : (d : ℚ) * 10 ^ (e - 5) * 10 ^ (5 - e) = d := by
    rw [mul_assoc, ← zpow_add₀ (by norm_num)]
    norm_num
  unfold significand
  rw [hexponent]
  dsimp only
  rw [mul_pow_toNat, hback, roundHalfEven_natCast, if_neg hhigh.ne]

/-! ## The rounded number -/

@[simp] theorem roundSix_zero : roundSix 0 = 0 := rfl

theorem roundSix_of_pos {q : ℚ} (h : 0 < q) :
    roundSix q = ((significand q).1 : ℚ) * 10 ^ ((significand q).2 - 5) := by
  unfold roundSix
  rw [if_neg h.ne', abs_of_pos h]
  dsimp only
  rw [if_neg (not_lt.mpr h.le), div_pow_toNat]

theorem roundSix_of_neg {q : ℚ} (h : q < 0) : roundSix q = -roundSix (-q) := by
  unfold roundSix
  rw [if_neg h.ne, if_neg (neg_ne_zero.mpr h.ne), abs_neg]
  dsimp only
  rw [if_pos h, if_neg (not_lt.mpr (neg_nonneg.mpr h.le))]

@[simp] theorem roundSix_neg (q : ℚ) : roundSix (-q) = -roundSix q := by
  rcases lt_trichotomy q 0 with h | rfl | h
  · rw [roundSix_of_neg h, neg_neg]
  · rw [neg_zero, roundSix_zero, neg_zero]
  · rw [roundSix_of_neg (neg_lt_zero.mpr h), neg_neg]

theorem roundSix_pos {q : ℚ} (h : 0 < q) : 0 < roundSix q := by
  have hdigits : 0 < (significand q).1 := lt_of_lt_of_le (by norm_num) (significand_spec h).1
  rw [roundSix_of_pos h]
  positivity

theorem roundSix_nonneg {q : ℚ} (h : 0 ≤ q) : 0 ≤ roundSix q := by
  rcases h.eq_or_lt with rfl | h
  · rw [roundSix_zero]
  · exact (roundSix_pos h).le

/-- Rounding changes a number by five millionths of it at most. -/
theorem abs_roundSix_sub_le (q : ℚ) : |roundSix q - q| ≤ 1 / 200000 * |q| := by
  rcases lt_trichotomy q 0 with h | rfl | h
  · have hspec := (significand_spec (neg_pos.mpr h)).2.2
    rw [← roundSix_of_pos (neg_pos.mpr h), roundSix_neg, neg_sub_neg, abs_sub_comm] at hspec
    rw [abs_of_neg h]
    exact hspec
  · simp
  · rw [roundSix_of_pos h, abs_of_pos h]
    exact (significand_spec h).2.2

/-- What is rounded stays. -/
@[simp] theorem roundSix_roundSix (q : ℚ) : roundSix (roundSix q) = roundSix q := by
  have hpos : ∀ q : ℚ, 0 < q → roundSix (roundSix q) = roundSix q := by
    intro q h
    obtain ⟨hlow, hhigh, -⟩ := significand_spec h
    have hdigits := significand_eq hlow hhigh (significand q).2
    rw [← roundSix_of_pos h] at hdigits
    rw [roundSix_of_pos (roundSix_pos h), hdigits, ← roundSix_of_pos h]
  rcases lt_trichotomy q 0 with h | rfl | h
  · have hneg := hpos (-q) (neg_pos.mpr h)
    rwa [roundSix_neg, roundSix_neg, neg_inj] at hneg
  · simp
  · exact hpos q h

/-- A number of at most six significant digits. -/
def SixDigits (q : ℚ) : Prop := ∃ (n : ℕ) (e : ℤ), n < 10 ^ 6 ∧ |q| = n * 10 ^ e

/-- The leading digits of a positive natural number of at most six, and zeros. -/
theorem exists_six_digits {n : ℕ} (hpos : 0 < n) (hlt : n < 10 ^ 6) :
    ∃ k : ℕ, 10 ^ 5 ≤ n * 10 ^ k ∧ n * 10 ^ k < 10 ^ 6 := by
  have hlog : Nat.log 10 n < 6 := Nat.log_lt_of_lt_pow hpos.ne' hlt
  have hlow : 10 ^ Nat.log 10 n ≤ n := Nat.pow_log_le_self 10 hpos.ne'
  have hhigh : n < 10 ^ (Nat.log 10 n + 1) := Nat.lt_pow_succ_log_self (by norm_num) n
  refine ⟨5 - Nat.log 10 n, ?_, ?_⟩
  · calc 10 ^ 5 = 10 ^ Nat.log 10 n * 10 ^ (5 - Nat.log 10 n) := by
          rw [← pow_add]
          congr 1
          omega
      _ ≤ n * 10 ^ (5 - Nat.log 10 n) := Nat.mul_le_mul_right _ hlow
  · calc n * 10 ^ (5 - Nat.log 10 n)
        < 10 ^ (Nat.log 10 n + 1) * 10 ^ (5 - Nat.log 10 n) :=
          Nat.mul_lt_mul_of_pos_right hhigh (by positivity)
      _ = 10 ^ 6 := by
          rw [← pow_add]
          congr 1
          omega

/-- The numbers that rounding keeps. -/
theorem roundSix_eq_iff {q : ℚ} : roundSix q = q ↔ SixDigits q := by
  have habs : ∀ q : ℚ, roundSix q = q ↔ roundSix |q| = |q| := by
    intro q
    rcases abs_choice q with h | h
    · rw [h]
    · rw [h, roundSix_neg, neg_inj]
  rw [habs]
  constructor
  · intro h
    rcases (abs_nonneg q).eq_or_lt with hzero | hpositive
    · exact ⟨0, 0, by norm_num, by rw [← hzero]; norm_num⟩
    · rw [roundSix_of_pos hpositive] at h
      exact ⟨_, _, (significand_spec hpositive).2.1, h.symm⟩
  · rintro ⟨n, e, hlt, heq⟩
    rw [heq]
    rcases Nat.eq_zero_or_pos n with rfl | hpos
    · simp
    · obtain ⟨k, hlow, hhigh⟩ := exists_six_digits hpos hlt
      have hscaled : (n : ℚ) * 10 ^ e = (n * 10 ^ k : ℕ) * 10 ^ ((e - k + 5) - 5) := by
        push_cast
        rw [mul_assoc, ← zpow_natCast, ← zpow_add₀ (by norm_num)]
        congr 2
        ring
      have hpositive : (0 : ℚ) < (n : ℚ) * 10 ^ e := by positivity
      rw [roundSix_of_pos hpositive, hscaled, significand_eq hlow hhigh]

/-! ## Numbers close to six digits -/

theorem roundHalfEven_of_abs_lt {n : ℕ} {q : ℚ} (h : |q - n| < 1 / 2) : roundHalfEven q = n := by
  rw [abs_lt] at h
  have hhigh : roundHalfEven q ≤ n ∨ (n : ℚ) ≤ q := by
    rcases lt_or_ge q n with hlt | hge
    · exact .inl (roundHalfEven_le hlt)
    · exact .inr hge
  rcases lt_or_ge q 0 with hneg | hnonneg
  · have hzero : (n : ℚ) < 1 := by linarith [h.1]
    have hn : n = 0 := by
      have hlt : n < 1 := by exact_mod_cast hzero
      omega
    subst hn
    exact Nat.le_zero.mp (roundHalfEven_le (by exact_mod_cast hneg))
  · have herror := abs_le.mp (abs_roundHalfEven_sub_le hnonneg)
    have hlow : (roundHalfEven q : ℚ) < n + 1 := by linarith [h.2]
    have hup : (n : ℚ) < roundHalfEven q + 1 := by linarith [h.1]
    have hle : roundHalfEven q < n + 1 := by exact_mod_cast hlow
    have hge : n < roundHalfEven q + 1 := by exact_mod_cast hup
    omega

/-- The digits of a number within half a unit of them. -/
theorem roundHalfEven_scaled {n : ℕ} {e : ℤ} {q : ℚ}
    (h : |q - n * 10 ^ (e - 5)| < 10 ^ (e - 5) / 2) : roundHalfEven (q * 10 ^ (5 - e)) = n := by
  have hscale : (0 : ℚ) < 10 ^ (5 - e) := by positivity
  have hback : (10 : ℚ) ^ (e - 5) * 10 ^ (5 - e) = 1 := by
    rw [← zpow_add₀ (by norm_num)]
    norm_num
  have hsub : q * 10 ^ (5 - e) - n = (q - n * 10 ^ (e - 5)) * 10 ^ (5 - e) := by
    rw [sub_mul, mul_assoc, hback, mul_one]
  apply roundHalfEven_of_abs_lt
  rw [hsub, abs_mul, abs_of_pos hscale]
  calc |q - n * 10 ^ (e - 5)| * 10 ^ (5 - e) < 10 ^ (e - 5) / 2 * 10 ^ (5 - e) := by gcongr
    _ = 1 / 2 := by rw [div_mul_eq_mul_div, hback]

/-- A positive number next to a six-digit one is rounded to it: the units of its last
digit are farther apart, also where the number of digits changes. -/
theorem roundSix_of_near_pos {d : ℕ} (hlow : 10 ^ 5 ≤ d) (hhigh : d < 10 ^ 6) {e : ℤ} {q : ℚ}
    (h : |q - d * 10 ^ (e - 5)| ≤ d * 10 ^ (e - 5) / 10 ^ 7) :
    roundSix q = d * 10 ^ (e - 5) := by
  have hunit : (0 : ℚ) < 10 ^ (e - 5) := by positivity
  have hfive : (10 : ℚ) ^ e = 100000 * 10 ^ (e - 5) := by
    rw [zpow_sub₀ (by norm_num)]
    norm_num
    ring
  have hsix : (10 : ℚ) ^ (e + 1) = 1000000 * 10 ^ (e - 5) := by
    rw [zpow_add_one₀ (by norm_num), hfive]
    ring
  have hhigh' : (d : ℚ) ≤ 999999 := by
    have hle : d ≤ 999999 := by omega
    exact_mod_cast hle
  have hlow' : (100000 : ℚ) ≤ d := by exact_mod_cast hlow
  have hdhigh : (d : ℚ) * 10 ^ (e - 5) ≤ 999999 * 10 ^ (e - 5) := by gcongr
  have hdlow : (100000 : ℚ) * 10 ^ (e - 5) ≤ d * 10 ^ (e - 5) := by gcongr
  obtain ⟨hbelow, habove⟩ := abs_le.mp h
  have hpositive : 0 < q := by linarith
  have hsignificand : significand q = (d, e) := by
    rcases lt_or_ge q (10 ^ e) with hless | hmore
    · -- just below a power of ten, where the digits round up to it
      have hd : d = 10 ^ 5 := by
        have hlt : (d : ℚ) < 100001 := by
          have hscaled : (d : ℚ) * 10 ^ (e - 5) < 100001 * 10 ^ (e - 5) := by linarith
          exact lt_of_mul_lt_mul_right hscaled hunit.le
        have hle : d < 100001 := by exact_mod_cast hlt
        omega
      have htenth : (10 : ℚ) ^ (e - 5) = 10 * 10 ^ (e - 1 - 5) := by
        rw [show e - 5 = e - 1 - 5 + 1 by ring, zpow_add_one₀ (by norm_num)]
        ring
      have hexponent : exponent q = e - 1 := by
        apply exponent_eq
        · have hpow : (10 : ℚ) ^ (e - 1) = 10000 * 10 ^ (e - 5) := by
            rw [zpow_sub_one₀ (by norm_num), hfive]
            ring
          rw [hpow]
          linarith
        · rwa [sub_add_cancel]
      have hdigits : roundHalfEven (q * 10 ^ (5 - (e - 1))) = 10 ^ 6 := by
        apply roundHalfEven_scaled
        have hsame : ((10 ^ 6 : ℕ) : ℚ) * 10 ^ (e - 1 - 5) = d * 10 ^ (e - 5) := by
          rw [hd, htenth]
          push_cast
          ring
        rw [hsame]
        refine h.trans_lt ?_
        rw [hd, htenth]
        push_cast
        linarith [show (0 : ℚ) < 10 ^ (e - 1 - 5) by positivity]
      unfold significand
      rw [hexponent]
      dsimp only
      rw [mul_pow_toNat, hdigits, if_pos rfl, hd, sub_add_cancel]
    · have hexponent : exponent q = e := exponent_eq hmore (by rw [hsix]; linarith)
      have hdigits : roundHalfEven (q * 10 ^ (5 - e)) = d := by
        apply roundHalfEven_scaled
        refine h.trans_lt ?_
        linarith
      unfold significand
      rw [hexponent]
      dsimp only
      rw [mul_pow_toNat, hdigits, if_neg hhigh.ne]
  rw [roundSix_of_pos hpositive, hsignificand]

/-- A number of six digits is what a number close to it is rounded to. -/
theorem roundSix_of_near {n : ℕ} {q : ℚ} (hn : SixDigits n) (h : |q - n| ≤ n / 10 ^ 7) :
    roundSix q = n := by
  rcases Nat.eq_zero_or_pos n with rfl | hpositive
  · have hzero : q = 0 := by
      rw [Nat.cast_zero, sub_zero, zero_div] at h
      exact abs_nonpos_iff.mp h
    rw [hzero, Nat.cast_zero, roundSix_zero]
  · have hpositive' : (0 : ℚ) < n := by exact_mod_cast hpositive
    obtain ⟨hlow, hhigh, -⟩ := significand_spec hpositive'
    have hsame := roundSix_eq_iff.mpr hn
    rw [roundSix_of_pos hpositive'] at hsame
    rw [← hsame] at h ⊢
    exact roundSix_of_near_pos hlow hhigh h

theorem sixDigits_natCast {n : ℕ} (h : n < 10 ^ 6) : SixDigits n := by
  refine ⟨n, 0, h, ?_⟩
  rw [zpow_zero, mul_one]
  exact abs_of_nonneg (Nat.cast_nonneg n)

/-- A natural number is rounded to a natural number. -/
theorem roundSix_natCast (n : ℕ) : ∃ p : ℕ, roundSix n = p := by
  rcases lt_or_ge n (10 ^ 6) with hsmall | hlarge
  · exact ⟨n, roundSix_eq_iff.mpr (sixDigits_natCast hsmall)⟩
  · have hpositive : (0 : ℚ) < n := by
      have hlt : 0 < n := lt_of_lt_of_le (by norm_num) hlarge
      exact_mod_cast hlt
    rw [roundSix_of_pos hpositive]
    have hsix : 6 < exponent n + 1 := by
      have hpow : (10 : ℚ) ^ (6 : ℤ) < 10 ^ (exponent n + 1) := by
        refine lt_of_le_of_lt ?_ (exponent_spec hpositive).2
        exact_mod_cast hlarge
      exact (zpow_lt_zpow_iff_right₀ (by norm_num)).mp hpow
    have hexponent := exponent_le_significand n
    refine ⟨(significand n).1 * 10 ^ ((significand n).2 - 5).toNat, ?_⟩
    push_cast
    rw [← zpow_natCast, Int.toNat_of_nonneg (by omega)]

end DecimalText
