import OmegaStick.Calibration.Bracketing
import Mathlib.Tactic.FieldSimp
import Mathlib.Tactic.Positivity

/-!
# The automatic deadzones

What `finalize_center_deadzone` and `range_calibration` make of an accepted
sweep, in exact arithmetic and for any mathematical library.  `check_usable`
asks for a usable radius of `CENTER_MARGIN / MAX_CENTER_DEADZONE` times the
noise, which is just what the cap of the center deadzone needs.

The checked versions of the calibration functions divide and index with a trap:
they yield nothing for a division by zero or an index outside its list.
-/

namespace OmegaStick

open MachineFloat

/-! ## What an accepted calibration has -/

/-- `check_usable` in exact arithmetic. -/
theorem checkUsable_rat {center : CenterResult ℚ} {range : RangeResult ℚ} {tolerance : ℚ} :
    checkUsable center range tolerance = true ↔
      0 ≤ center.noiseRadius ∧ 0 < range.usableRadius ∧
        3 * center.noiseRadius * (1 - tolerance) ≤ range.usableRadius := by
  have hratio : (minUsableToNoiseRatio : ℚ) = 3 := by
    norm_num [minUsableToNoiseRatio, centerMargin, maxCenterDeadzone, ofRat]
  simp only [checkUsable, hratio, isFinite, flt, fle, ofRat, Bool.not_true, Bool.false_or,
    Bool.not_eq_true', Bool.or_eq_false_iff, decide_eq_false_iff_not, not_lt, not_le, and_assoc]

/-- The deadzones of an accepted sweep: the center deadzone covers the resting noise, and
neither limit cuts what the sweep asked for. -/
structure DeadzonesFit (center : CenterResult ℚ) (range : RangeResult ℚ) : Prop where
  center_mem : center.deadzone ∈ Set.Icc 0 maxCenterDeadzone
  center_eq : center.deadzone = centerMargin * center.noiseRadius / range.usableRadius
  covers : center.noiseRadius ≤ center.deadzone * range.usableRadius
  range_mem : range.deadzone ∈ Set.Icc 0 maxRangeDeadzone
  range_eq : 1 - range.reliableMaxRadius / range.usableRadius ∈ Set.Icc 0 maxRangeDeadzone →
    range.deadzone = 1 - range.reliableMaxRadius / range.usableRadius

theorem clamp_mem {v lo hi : ℚ} (h : lo ≤ hi) : clamp v lo hi ∈ Set.Icc lo hi := by
  simp only [clamp, flt, decide_eq_true_eq]
  split_ifs with hlo hhi
  · exact ⟨le_rfl, h⟩
  · exact ⟨h, le_rfl⟩
  · exact ⟨not_lt.mp hlo, not_lt.mp hhi⟩

theorem clamp_of_mem {v lo hi : ℚ} (h : v ∈ Set.Icc lo hi) : clamp v lo hi = v := by
  simp only [clamp, flt, decide_eq_true_eq]
  rw [if_neg (not_lt.mpr h.1), if_neg (not_lt.mpr h.2)]

section Accepted

/-- The cap never cuts the center deadzone of a usable calibration. -/
theorem finalizeCenterDeadzone_of_usable {center : CenterResult ℚ} {range : RangeResult ℚ}
    (h : checkUsable center range 0 = true) :
    (finalizeCenterDeadzone center range).deadzone =
      centerMargin * center.noiseRadius / range.usableRadius := by
  obtain ⟨hnoise, husable, hratio⟩ := checkUsable_rat.mp h
  have hpositive : flt (ofRat 0) range.usableRadius = true := decide_eq_true husable
  have hmargin : (centerMargin : ℚ) = 3 / 2 := rfl
  have hcap : (maxCenterDeadzone : ℚ) = 1 / 2 := rfl
  have hmem : center.noiseRadius * centerMargin / range.usableRadius ∈
      Set.Icc (ofRat 0 : ℚ) maxCenterDeadzone := by
    constructor
    · change 0 ≤ center.noiseRadius * centerMargin / range.usableRadius
      rw [hmargin]
      positivity
    · rw [hmargin, hcap, div_le_iff₀ husable]
      linarith
  simp only [finalizeCenterDeadzone]
  rw [if_pos hpositive, clamp_of_mem hmem, mul_comm]

/-- A shortfall within its limits is the range deadzone. -/
theorem RangeSweep.result_deadzone {sweep : RangeSweep ℚ} (husable : 0 < sweep.usableRadius)
    (hmem : 1 - sweep.result.reliableMaxRadius / sweep.usableRadius ∈
      Set.Icc 0 maxRangeDeadzone) :
    sweep.result.deadzone = 1 - sweep.result.reliableMaxRadius / sweep.usableRadius := by
  have hpositive : flt (ofRat 0) sweep.usableRadius = true := decide_eq_true husable
  have hlimit : (maxRangeDeadzone : ℚ) = 1 / 10 := rfl
  obtain ⟨hlow, hhigh⟩ := hmem
  rw [hlimit] at hhigh
  have hratio : sweep.result.reliableMaxRadius / sweep.usableRadius ∈
      Set.Icc (ofRat 0 : ℚ) (ofRat 1) := by
    constructor
    · change (0 : ℚ) ≤ _
      linarith
    · change _ ≤ (1 : ℚ)
      linarith
  have hnormalized : sweep.result.normalizedMaxRadius =
      sweep.result.reliableMaxRadius / sweep.usableRadius := by
    change clamp (if flt (ofRat 0) sweep.usableRadius = true then _ else _) _ _ = _
    rw [if_pos hpositive]
    exact clamp_of_mem hratio
  change clamp (ofRat 1 - sweep.result.normalizedMaxRadius) _ _ = _
  rw [hnormalized]
  refine clamp_of_mem ⟨hlow, ?_⟩
  rw [hlimit]
  exact hhigh

/-- The deadzones of every accepted sweep fit. -/
theorem deadzonesFit_of_accepted [FloatMath ℚ] {center : CenterResult ℚ}
    {samples : List (Option (ℚ × ℚ))} {range : RangeResult ℚ}
    (h : rangeCalibration center samples = .ok range) :
    DeadzonesFit (finalizeCenterDeadzone center range) range := by
  obtain ⟨rfl, husable⟩ := rangeCalibration_accepted h
  obtain ⟨hnoise, hpositive, hratio⟩ := checkUsable_rat.mp husable
  have hdeadzone := finalizeCenterDeadzone_of_usable husable
  have hmargin : (centerMargin : ℚ) = 3 / 2 := rfl
  refine ⟨clamp_mem (by norm_num [ofRat, maxCenterDeadzone]), hdeadzone, ?_,
    clamp_mem (by norm_num [ofRat, maxRangeDeadzone]), RangeSweep.result_deadzone hpositive⟩
  rw [hdeadzone, div_mul_cancel₀ _ hpositive.ne', hmargin, finalizeCenterDeadzone_noiseRadius]
  linarith

end Accepted

/-! ## Divisions and indices -/

/-- A division that traps on zero. -/
def divChecked (x y : ℚ) : Option ℚ := if y = 0 then none else some (x / y)

/-- The percentile of a list, when its index is one of the list's. -/
def percentileChecked (values : List ℚ) (fraction : ℚ) : Option ℚ :=
  values[(toInt (ofRat (values.length - 1 : ℕ) * fraction)).toNat]?

theorem divChecked_of_ne {x y : ℚ} (h : y ≠ 0) : divChecked x y = some (x / y) := if_neg h

/-- A percentile below one is in its list. -/
theorem percentileChecked_eq {values : List ℚ} (hne : values ≠ []) {fraction : ℚ}
    (hfraction : fraction ∈ Set.Ico 0 1) :
    percentileChecked values fraction = some (percentile values fraction) := by
  have hlength : 0 < values.length := List.length_pos_iff.mpr hne
  have hproduct : 0 ≤ ((values.length - 1 : ℕ) : ℚ) * fraction :=
    mul_nonneg (Nat.cast_nonneg _) hfraction.1
  have hindex : (toInt (ofRat (values.length - 1 : ℕ) * fraction : ℚ)).toNat < values.length := by
    simp only [toInt, ofRat]
    rw [if_pos hproduct]
    have hfloor : (((values.length - 1 : ℕ) : ℚ) * fraction).floor ≤
        ((values.length - 1 : ℕ) : ℤ) := by
      have hle : ((values.length - 1 : ℕ) : ℚ) * fraction ≤ ((values.length - 1 : ℕ) : ℤ) := by
        push_cast
        exact mul_le_of_le_one_right (Nat.cast_nonneg _) hfraction.2.le
      exact_mod_cast (Int.floor_le_floor hle).trans_eq (Int.floor_intCast _)
    omega
  rw [percentileChecked, percentile, List.getD_eq_getElem?_getD, List.getElem?_eq_getElem hindex]
  rfl

section Checked

variable [FloatMath ℚ]

/-- `center_calibration`, checked. -/
def centerCalibrationChecked (read : ℕ → Option (ℚ × ℚ)) : Option (Except Error (CenterResult ℚ)) :=
  let samples := filterSamples (readSamples read 0 centerSamples)
  if samples.isEmpty then some (.error .noCenterSamples)
  else do
    let count : ℚ := ofRat samples.length
    let centerX ← divChecked (samples.foldl (fun sum s => sum + s.1) (ofRat 0)) count
    let centerY ← divChecked (samples.foldl (fun sum s => sum + s.2) (ofRat 0)) count
    let noise := filterSamples (readSamples read centerSamples centerSamples)
    if noise.isEmpty then some (.error .noCenterNoiseSamples)
    else do
      let radii := noise.map fun s => radiusOf (s.1 - centerX) (s.2 - centerY)
      let noiseRadius ← percentileChecked (sort radii) centerPercentile
      some (.ok { (CenterResult.default : CenterResult ℚ) with
        centerX := centerX
        centerY := centerY
        noiseRadius := noiseRadius })

omit [FloatMath ℚ] in
/-- What a finished sweep reports, checked. -/
def RangeSweep.resultChecked (sweep : RangeSweep ℚ) : Option (RangeResult ℚ) := do
  let covered := sweep.sectorMaxRadius.filter fun radius => flt (ofRat 0) radius
  let reliable ← percentileChecked (sort covered) rangePercentile
  let ratio ←
    (if flt (ofRat 0) sweep.usableRadius then divChecked reliable sweep.usableRadius
    else some (ofRat 0))
  let normalized := clamp ratio (ofRat 0) (ofRat 1)
  some
    { minX := sweep.minX, maxX := sweep.maxX, minY := sweep.minY, maxY := sweep.maxY
      usableRadius := sweep.usableRadius
      reliableMaxRadius := reliable
      normalizedMaxRadius := normalized
      deadzone := clamp (ofRat 1 - normalized) (ofRat 0) maxRangeDeadzone
      sectorMaxRadius := sweep.sectorMaxRadius }

/-- `range_calibration`, checked. -/
def rangeCalibrationChecked (center : CenterResult ℚ) (samples : List (Option (ℚ × ℚ))) :
    Option (Except Error (RangeResult ℚ)) :=
  let valid := filterSamples samples
  if valid.isEmpty then some (.error .noRangeSamples)
  else
    let sweep := RangeSweep.run center valid
    let covered := sweep.sectorMaxRadius.filter fun radius => flt (ofRat 0) radius
    if covered.length < minCoveredSectors then some (.error .noRangeSamples)
    else if !checkUsable center
        { (RangeResult.default : RangeResult ℚ) with usableRadius := sweep.usableRadius }
        (ofRat 0) then
      some (.error .calibrationUnusable)
    else sweep.resultChecked.map .ok

omit [FloatMath ℚ] in
/-- `finalize_center_deadzone`, checked. -/
def finalizeCenterDeadzoneChecked (center : CenterResult ℚ) (range : RangeResult ℚ) :
    Option (CenterResult ℚ) := do
  let deadzone ←
    (if flt (ofRat 0) range.usableRadius then
      divChecked (center.noiseRadius * centerMargin) range.usableRadius
    else some (ofRat 0))
  some { center with deadzone := clamp deadzone (ofRat 0) maxCenterDeadzone }

omit [FloatMath ℚ] in
theorem sort_ne_nil {values : List ℚ} (h : values ≠ []) : sort values ≠ [] := by
  intro hnil
  have hlength : (sort values).length = values.length := List.length_mergeSort _
  rw [hnil] at hlength
  exact h (List.length_eq_zero_iff.mp hlength.symm)

theorem centerCalibrationChecked_eq (read : ℕ → Option (ℚ × ℚ)) :
    centerCalibrationChecked read = some (centerCalibration read) := by
  unfold centerCalibrationChecked centerCalibration
  dsimp only
  split
  · rfl
  · rename_i hsamples
    have hcount : (ofRat (filterSamples (readSamples read 0 centerSamples)).length : ℚ) ≠ 0 := by
      change ((filterSamples (readSamples read 0 centerSamples)).length : ℚ) ≠ 0
      rw [Nat.cast_ne_zero]
      simpa using hsamples
    rw [divChecked_of_ne hcount, divChecked_of_ne hcount]
    simp only [Option.bind_eq_bind, Option.bind_some]
    split
    · rfl
    · rename_i hnoise
      rw [percentileChecked_eq (sort_ne_nil (by simpa using hnoise))
        (by norm_num [centerPercentile, ofRat])]
      rfl

omit [FloatMath ℚ] in
theorem RangeSweep.resultChecked_eq {sweep : RangeSweep ℚ}
    (h : (sweep.sectorMaxRadius.filter fun radius => flt (ofRat 0) radius) ≠ []) :
    sweep.resultChecked = some sweep.result := by
  unfold resultChecked result
  dsimp only
  rw [percentileChecked_eq (sort_ne_nil h) (by norm_num [rangePercentile, ofRat])]
  simp only [Option.bind_eq_bind, Option.bind_some]
  by_cases hpositive : flt (ofRat 0) sweep.usableRadius = true
  · rw [if_pos hpositive, if_pos hpositive, divChecked_of_ne (of_decide_eq_true hpositive).ne']
    rfl
  · rw [if_neg hpositive, if_neg hpositive]
    rfl

theorem rangeCalibrationChecked_eq (center : CenterResult ℚ) (samples : List (Option (ℚ × ℚ))) :
    rangeCalibrationChecked center samples = some (rangeCalibration center samples) := by
  unfold rangeCalibrationChecked rangeCalibration
  dsimp only
  split
  · rfl
  split
  · rfl
  split
  · rfl
  · rename_i hcovered _
    rw [RangeSweep.resultChecked_eq fun hnil => by
      simp [hnil, minCoveredSectors, rangeSectors] at hcovered]
    rfl

omit [FloatMath ℚ] in
theorem finalizeCenterDeadzoneChecked_eq (center : CenterResult ℚ) (range : RangeResult ℚ) :
    finalizeCenterDeadzoneChecked center range = some (finalizeCenterDeadzone center range) := by
  unfold finalizeCenterDeadzoneChecked finalizeCenterDeadzone
  by_cases hpositive : flt (ofRat 0) range.usableRadius = true
  · rw [if_pos hpositive, if_pos hpositive, divChecked_of_ne (of_decide_eq_true hpositive).ne']
    rfl
  · rw [if_neg hpositive, if_neg hpositive]
    rfl

/-- The deadzones of every accepted sweep fit, and for any reads, failed ones included, no
calibration function divides by zero or indexes outside a list.  The divisors that are
constants are not zero. -/
theorem deadzones_cover_noise :
    (∀ (center : CenterResult ℚ) (samples : List (Option (ℚ × ℚ))) (range : RangeResult ℚ),
      rangeCalibration center samples = .ok range →
        DeadzonesFit (finalizeCenterDeadzone center range) range) ∧
    (∀ read : ℕ → Option (ℚ × ℚ),
      centerCalibrationChecked read = some (centerCalibration read)) ∧
    (∀ (center : CenterResult ℚ) (samples : List (Option (ℚ × ℚ))),
      rangeCalibrationChecked center samples = some (rangeCalibration center samples)) ∧
    (∀ (center : CenterResult ℚ) (range : RangeResult ℚ),
      finalizeCenterDeadzoneChecked center range = some (finalizeCenterDeadzone center range)) ∧
    (maxCenterDeadzone : ℚ) ≠ 0 ∧ (ofRat rangeSectors : ℚ) ≠ 0 ∧
      (ofRat 2 * pi / ofRat rangeSectors : ℚ) ≠ 0 :=
  ⟨fun _ _ _ => deadzonesFit_of_accepted, centerCalibrationChecked_eq,
    rangeCalibrationChecked_eq, finalizeCenterDeadzoneChecked_eq,
    by norm_num [maxCenterDeadzone, ofRat], by norm_num [rangeSectors, ofRat],
    by norm_num [pi, rangeSectors, ofRat]⟩

end Checked

theorem deadzones_cover_noise_fullCircle : ∃ range,
    rangeCalibration quietCenter fullCircle = .ok range ∧
      DeadzonesFit (finalizeCenterDeadzone quietCenter range) range := by
  have haccepted : (rangeCalibration quietCenter fullCircle).toOption.isSome = true := by
    decide +kernel
  cases hrange : rangeCalibration quietCenter fullCircle with
  | error e => simp [hrange, Except.toOption] at haccepted
  | ok range => exact ⟨range, rfl, deadzones_cover_noise.1 quietCenter fullCircle range hrange⟩

end OmegaStick
