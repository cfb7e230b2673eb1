import OmegaStick.Library.DecimalRead
import OmegaStick.Library.Transition
import OmegaStick.Calibration.Deadzones
import OmegaStick.Calibration.Monitor
import OmegaStick.Calibration.FileRoundTrip

/-!
# Saving and loading a calibration, over and over

A calibration file keeps six significant digits of each number, so a load gives back
the saved calibration rounded (`loadCalibration_calibrationText`).  Rounding is
idempotent and its error is far below the load tolerance, so that no number of saves,
loads and drift corrections makes a usable calibration unusable
(`saved_stays_usable`).
-/

namespace OmegaStick

open MachineFloat DecimalText FileEntry TransitionSystem

/-! ## One save, one load -/

/-- Each number with six significant digits. -/
def CenterResult.rounded (center : CenterResult ℚ) : CenterResult ℚ where
  centerX := roundSix center.centerX
  centerY := roundSix center.centerY
  noiseRadius := roundSix center.noiseRadius
  deadzone := roundSix center.deadzone
  manualOffsetX := roundSix center.manualOffsetX
  manualOffsetY := roundSix center.manualOffsetY

/-- Each number with six significant digits; the sectors are not kept. -/
def RangeResult.rounded (range : RangeResult ℚ) : RangeResult ℚ where
  minX := roundSix range.minX
  maxX := roundSix range.maxX
  minY := roundSix range.minY
  maxY := roundSix range.maxY
  usableRadius := roundSix range.usableRadius
  reliableMaxRadius := roundSix range.reliableMaxRadius
  normalizedMaxRadius := roundSix range.normalizedMaxRadius
  deadzone := roundSix range.deadzone
  sectorMaxRadius := []

/-- A number of ℚ is written with six digits, and read as they are. -/
instance : ReadableText ℚ where
  print_noNewline _ h := absurd (isNumeric_of_mem_print h) (by decide)
  print_noNul _ h := absurd (isNumeric_of_mem_print h) (by decide)
  strtof_print x := Option.isSome_iff_exists.mpr ⟨_, strtof_print x⟩
  strtof_one := by decide +kernel
  isFinite_one := rfl
  flt_one := by decide +kernel
  feq_ffloor_one := by decide +kernel

theorem asRead_rat (x : ℚ) : asRead x = roundSix x := by
  have hread : FloatText.strtof (FloatText.print x) = some (roundSix x) := strtof_print x
  rw [asRead, hread, Option.getD_some]

theorem CenterResult.asRead_rat (center : CenterResult ℚ) : center.asRead = center.rounded := by
  simp only [CenterResult.asRead, CenterResult.rounded, OmegaStick.asRead_rat]

theorem RangeResult.asRead_rat (range : RangeResult ℚ) : range.asRead = range.rounded := by
  simp only [RangeResult.asRead, RangeResult.rounded, OmegaStick.asRead_rat]

/-- The load tolerance covers the rounding of both radii. -/
theorem checkUsable_rounded {center : CenterResult ℚ} {range : RangeResult ℚ}
    (h : checkUsable center range 0 = true) :
    checkUsable center.rounded range.rounded loadRatioTolerance = true := by
  obtain ⟨hnoise, husable, hratio⟩ := checkUsable_rat.mp h
  have hnoiseError := abs_roundSix_sub_le center.noiseRadius
  have husableError := abs_roundSix_sub_le range.usableRadius
  rw [abs_of_nonneg hnoise, abs_le] at hnoiseError
  rw [abs_of_pos husable, abs_le] at husableError
  have htolerance : (loadRatioTolerance : ℚ) = 1 / 1000 := rfl
  refine checkUsable_rat.mpr ⟨roundSix_nonneg hnoise, roundSix_pos husable, ?_⟩
  rw [htolerance]
  change 3 * roundSix center.noiseRadius * (1 - 1 / 1000) ≤ roundSix range.usableRadius
  linarith [hnoiseError.2, husableError.1]

/-! ## Many saves and loads -/

/-- The live calibration, the file, and what the last save was given. -/
structure Bench where
  center : CenterResult ℚ
  range : RangeResult ℚ
  file : Option (List UInt8)
  saved : Option (CenterResult ℚ × RangeResult ℚ)

/-- What happens to a calibration once it is accepted. -/
inductive CycleStep where
  | drift (compensator : DriftCompensator ℚ) (rawX rawY : ℚ)
  | save
  | load

/-- One step; there is nothing to load before the first save. -/
def Bench.next (s : Bench) : CycleStep → Option Bench
  | .drift compensator rawX rawY =>
      some { s with center := compensator.nudge rawX rawY s.center }
  | .save =>
      some { s with
        file := some (calibrationText s.center s.range), saved := some (s.center, s.range) }
  | .load =>
      if s.file.isSome then
        let (_, center, range) := loadCalibration s.center s.range s.file
        some { s with center := center, range := range }
      else none

/-- Every order of drift corrections, saves and loads from a calibration. -/
def cycles (center : CenterResult ℚ) (range : RangeResult ℚ) :
    TransitionSystem Bench CycleStep :=
  .ofOption (fun s => s = ⟨center, range, none, none⟩) Bench.next

section Cycles

variable {center : CenterResult ℚ} {range : RangeResult ℚ} {s t : Bench}

/-- The radii are the accepted ones, up to rounding. -/
def SameRadii (center : CenterResult ℚ) (range : RangeResult ℚ)
    (c : CenterResult ℚ × RangeResult ℚ) : Prop :=
  roundSix c.1.noiseRadius = roundSix center.noiseRadius ∧
    roundSix c.2.usableRadius = roundSix range.usableRadius

/-- What saves and loads keep. -/
structure Bench.Kept (center : CenterResult ℚ) (range : RangeResult ℚ) (s : Bench) : Prop where
  live : SameRadii center range (s.center, s.range)
  file : s.file = s.saved.map fun saved => calibrationText saved.1 saved.2
  saved : ∀ saved ∈ s.saved, SameRadii center range saved

/-- A file with the accepted radii loads. -/
theorem SameRadii.load (husable : checkUsable center range 0 = true)
    {saved : CenterResult ℚ × RangeResult ℚ} (h : SameRadii center range saved)
    (liveCenter : CenterResult ℚ) (liveRange : RangeResult ℚ) :
    loadCalibration liveCenter liveRange (some (calibrationText saved.1 saved.2)) =
      (none, saved.1.rounded, saved.2.rounded) := by
  have hrounded := checkUsable_rounded husable
  have hsame : checkUsable saved.1.rounded saved.2.rounded loadRatioTolerance =
      checkUsable center.rounded range.rounded loadRatioTolerance :=
    checkUsable_congr h.1 h.2 _
  rw [loadCalibration_calibrationText, CenterResult.asRead_rat, RangeResult.asRead_rat,
    if_pos (hsame.trans hrounded)]

theorem Bench.Kept.next (husable : checkUsable center range 0 = true)
    (h : s.Kept center range) {step : CycleStep} (hnext : s.next step = some t) :
    t.Kept center range := by
  cases step with
  | drift compensator rawX rawY =>
      obtain rfl := Option.some.inj hnext
      exact ⟨h.live, h.file, h.saved⟩
  | save =>
      obtain rfl := Option.some.inj hnext
      refine ⟨h.live, rfl, fun saved hsaved => ?_⟩
      obtain rfl := Option.some.inj hsaved
      exact h.live
  | load =>
      have hfile := h.file
      unfold Bench.next at hnext
      dsimp only at hnext
      cases hsaved : s.saved with
      | none => simp [hfile, hsaved] at hnext
      | some saved =>
          have hradii := h.saved saved hsaved
          rw [hsaved, Option.map_some] at hfile
          rw [hfile, hradii.load husable, Option.isSome_some, if_pos rfl] at hnext
          obtain rfl := Option.some.inj hnext
          refine ⟨?_, ?_, h.saved⟩
          · exact ⟨(roundSix_roundSix _).trans hradii.1, (roundSix_roundSix _).trans hradii.2⟩
          · rw [hsaved]
            rfl

theorem kept_of_reachable (husable : checkUsable center range 0 = true)
    (hs : Reachable (cycles center range) s) : s.Kept center range := by
  refine hs.invariant ?_ fun s step t hs hstep => hs.next husable hstep
  rintro s rfl
  exact ⟨⟨rfl, rfl⟩, rfl, fun saved hsaved => nomatch hsaved⟩

/-- After any saves, loads and drift corrections of a usable calibration, loading gives
back what was saved last, rounded once; the two radii are always the same ones. -/
theorem saved_stays_usable (husable : checkUsable center range 0 = true)
    (hs : Reachable (cycles center range) s) (hfile : s.file ≠ none) :
    ∃ saved, s.saved = some saved ∧ s.file = some (calibrationText saved.1 saved.2) ∧
      loadCalibration s.center s.range s.file = (none, saved.1.rounded, saved.2.rounded) ∧
      saved.1.rounded.noiseRadius = roundSix center.noiseRadius ∧
      saved.2.rounded.usableRadius = roundSix range.usableRadius := by
  have hkept := kept_of_reachable husable hs
  have hsaved := hkept.file
  cases hlast : s.saved with
  | none => exact absurd (hsaved.trans (by rw [hlast]; rfl)) hfile
  | some saved =>
      have hradii := hkept.saved saved hlast
      rw [hlast, Option.map_some] at hsaved
      refine ⟨saved, rfl, hsaved, ?_, hradii.1, hradii.2⟩
      rw [hsaved]
      exact hradii.load husable s.center s.range

end Cycles

/-! ## A calibration at the threshold -/

/-- The noise is a third of the usable radius, and is rounded up. -/
def thresholdCenter : CenterResult ℚ := ⟨30, -12, 2 / 3, 1 / 2, 0, 0⟩

def thresholdRange : RangeResult ℚ := ⟨-2, 2, -2, 2, 2, 2, 1, 0, []⟩

/-- Saved, loaded, drifted and saved again. -/
theorem saved_stays_usable_threshold : ∃ s,
    Reachable (cycles thresholdCenter thresholdRange) s ∧
      (loadCalibration s.center s.range s.file).1 = none := by
  have hfirst : Reachable (cycles thresholdCenter thresholdRange)
      ⟨thresholdCenter, thresholdRange, none, none⟩ := .init rfl
  have hsaved := hfirst.step (a := .save) (T := cycles thresholdCenter thresholdRange) rfl
  have hloaded := hsaved.step (a := .load) (T := cycles thresholdCenter thresholdRange) rfl
  have hdrifted := hloaded.step (a := .drift .default 31 (-11))
    (T := cycles thresholdCenter thresholdRange) rfl
  have hagain := hdrifted.step (a := .save) (T := cycles thresholdCenter thresholdRange) rfl
  have husable : checkUsable thresholdCenter thresholdRange 0 = true := by decide +kernel
  obtain ⟨saved, -, -, hload, -⟩ := saved_stays_usable husable hagain (by simp)
  exact ⟨_, hagain, by rw [hload]⟩

end OmegaStick
