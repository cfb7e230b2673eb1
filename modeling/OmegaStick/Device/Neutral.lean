import OmegaStick.Library.Transition
import OmegaStick.Library.DecimalText
import OmegaStick.Firmware.SimOta
import OmegaStick.Device.EspPorts

/-!
# A quiet stick

From a boot on any two files, through any run of the polling loop in either
mode: the output is neutral on every tick that is held, uncalibrated or
faulted, and a report that moves anything is only sent while the radii in
effect are ones that passed `check_usable`, at load or in the last successful
sweep.

The invariant `Calibrated` ties the two copies of the calibration, the store's
and the loop's, to the one that was last checked.  Drift corrections and
console edits never touch the radii, so only a sweep replaces it.
-/

namespace OmegaStick

open MachineFloat TransitionSystem

variable {F O : Type*} [MachineFloat F]

/-! ## Boot -/

/-- Where a calibration passed `check_usable`. -/
inductive CheckedAt where
  | load
  | sweep
  deriving DecidableEq, Repr

/-- The tolerance it was checked with. -/
def CheckedAt.tolerance : CheckedAt → F
  | .load => loadRatioTolerance
  | .sweep => ofRat 0

/-- What `main.cpp` boots with: the store, whether a calibration is needed, and
the loop's copies. -/
structure BootCalibration (F : Type*) where
  store : OmegaStore F
  needsCalibration : Bool
  center : CenterResult F
  range : RangeResult F

/-- `MANUAL_OFFSET_X`, `MANUAL_OFFSET_Y` -/
def manualOffsetX : F := ofRat 0

def manualOffsetY : F := ofRat 0

/-- The boot calibration. An unusable file keeps its own values; without a
readable one everything but the configured trim starts from zero. -/
def bootCalibration [FloatText F] (files : StoreFile → Option (List UInt8)) : BootCalibration F :=
  let store := OmegaStore.new files
  let (needs, center, range) :=
    match loadCalibration .default .default (files .calibration) with
    | (none, center, range) => (false, center, range)
    | (some .calibrationUnusable, center, range) => (true, center, range)
    | (some _, _, _) =>
        (true, CenterResult.default.setManualOffset manualOffsetX manualOffsetY, .default)
  ⟨store.setCalibration center range, needs, center, range⟩

/-- The loop of the mode the device boots in. -/
def bootLoop [FloatText F] (boot : BootCalibration F) : LoopState F :=
  if boot.store.settings.inputMode = .xac then
    .xac { common := { CommonState.new xacSensorFaultConfig with
      center := boot.center, range := boot.range } }
  else
    .mouse { (MouseState.new : MouseState F) with
      common := { CommonState.new mouseSensorFaultConfig with
        center := boot.center, range := boot.range } }

/-! ## Iterations -/

/-- The device between two iterations. `checked` is the calibration that last
passed `check_usable`, and `reports` what the last iteration sent. -/
structure Polling (F O : Type*) where
  loop : LoopState F
  shared : Shared F O (Device F)
  checked : Option (CheckedAt × CenterResult F × RangeResult F)
  reports : List (HidReport F)

inductive PollingStep (F : Type*) where
  | iterate (it : Iteration F)
  | edit (edit : ConsoleEdit F)

namespace Polling

/-- Whether the sensor monitor reports a fault on this iteration's sample. -/
def faulted (s : Polling F O) (it : Iteration F) : Bool :=
  (s.loop.common.sensor.update it.stick.readOk it.stick.rawX it.stick.rawY
    it.stick.conversionCount).1

variable [FloatMath F]

/-- The calibration last checked, after an iteration that sent these
notifications: a sweep always sends one. -/
def checkedAfter (s : Polling F O) (it : Iteration F) (notifications : List (LinkId × Frame)) :
    Option (CheckedAt × CenterResult F × RangeResult F) :=
  if notifications.isEmpty then s.checked
  else
    match sweepCalibration it.readings with
    | .ok (center, range) => some (.sweep, center, range)
    | .error _ => s.checked

def next (s : Polling F O) : PollingStep F → Polling F O
  | .iterate it =>
      let (loop, w) := s.loop.tick (it.input s.shared) (it.world s.shared)
      ⟨loop, w.toShared, s.checkedAfter it w.notifications, w.reports⟩
  | .edit edit =>
      let store := edit.apply s.shared.store
      let device := if edit.fires then s.shared.outside.onCalibrationChanged store
        else s.shared.outside
      { s with shared := { s.shared with store := store, outside := device } }

end Polling

/-- A device booted on any files. -/
def Polling.Booted [FloatText F] (s : Polling F O) : Prop :=
  ∃ files : StoreFile → Option (List UInt8),
    s.shared.store = (bootCalibration files).store ∧
      s.shared.outside.needsCalibration = (bootCalibration (F := F) files).needsCalibration ∧
      s.loop = bootLoop (bootCalibration files) ∧
      s.reports = [] ∧
      s.checked =
        if (bootCalibration (F := F) files).needsCalibration then none
        else some (.load, (bootCalibration files).center, (bootCalibration files).range)

/-- Every run of the polling loop, with console edits in between. -/
def polling [FloatMath F] [FloatText F] : TransitionSystem (Polling F O) (PollingStep F) :=
  .ofFun Polling.Booted Polling.next

/-! ## What one iteration does -/

section Iteration

variable [FloatMath F]

/-- The outcomes of an iteration, as far as reports and radii go. -/
inductive IterationOutcome (s : Polling F O) (it : Iteration F) (t : Polling F O) : Prop where
  /-- Neutral reports, and the calibration as it was: a held tick, or a failed sweep. -/
  | quiet (hneutral : ∀ report ∈ t.reports, report.Neutral)
      (hcenter : t.loop.common.center = s.loop.common.center)
      (hrange : t.loop.common.range = s.loop.common.range)
      (hstore : t.shared.store = s.shared.store)
      (hneeds : t.shared.outside.needsCalibration = s.shared.outside.needsCalibration)
      (hchecked : t.checked = s.checked)
  /-- A successful sweep between neutral reports. -/
  | swept (center : CenterResult F) (range : RangeResult F)
      (hneutral : ∀ report ∈ t.reports, report.Neutral)
      (hrequested : it.recalibrationRequested = true)
      (hsweep : sweepCalibration it.readings = .ok (center, range))
      (hcenter : t.loop.common.center = t.shared.store.center)
      (hrange : t.loop.common.range = range)
      (hstore : t.shared.store = s.shared.store.setMeasuredCalibration center range)
      (hchecked : t.checked = some (.sweep, center, range))
  /-- The stick's report, with no reason to be quiet; the radii stay. -/
  | moved (hheld : it.outputHold = false)
      (hneeds : s.shared.outside.needsCalibration = false) (hfaulted : s.faulted it = false)
      (hnoise : t.loop.common.center.noiseRadius = s.loop.common.center.noiseRadius)
      (hrange : t.loop.common.range = s.loop.common.range)
      (hstore : t.shared.store = s.shared.store ∨
        t.shared.store.center.noiseRadius = s.loop.common.center.noiseRadius ∧
          t.shared.store.range = s.loop.common.range)
      (hneeds' : t.shared.outside.needsCalibration = false)
      (hchecked : t.checked = s.checked)

/-- What an iteration hands on, from what its tick left. -/
theorem next_iterate {s : Polling F O} {it : Iteration F} {loop : LoopState F} {w : EspWorld F O}
    (h : s.loop.tick (it.input s.shared) (it.world s.shared) = (loop, w)) :
    s.next (.iterate it) = ⟨loop, w.toShared, s.checkedAfter it w.notifications, w.reports⟩ := by
  rw [Polling.next, h]

omit [MachineFloat F] [FloatMath F] in
/-- Not held and not for a recalibration: nothing asks for a quiet output. -/
theorem of_not_holdsOutput {s : Polling F O} {it : Iteration F}
    (h : holdsOutput (it.input s.shared) = false) (hrequested : it.recalibrationRequested = false) :
    it.outputHold = false ∧ s.shared.outside.needsCalibration = false := by
  simpa [holdsOutput, Iteration.input, hrequested] using h

theorem iteration_outcome (s : Polling F O) (it : Iteration F) :
    IterationOutcome s it (s.next (.iterate it)) := by
  obtain ⟨hcenter₁, hrange₁, status, hworld⟩ :=
    observed_spec s.loop.common (it.input s.shared) (it.world s.shared)
  have hfault₁ : (observed s.loop.common (it.input s.shared) (it.world s.shared)).1.sensor.faulted =
      s.faulted it := (faulted_observed ..).symm
  have houtcome := s.loop.tick_outcome (it.input s.shared) (it.world s.shared)
  revert hcenter₁ hrange₁ hworld hfault₁ houtcome
  generalize observed s.loop.common (it.input s.shared) (it.world s.shared) = seen
  rcases htick : s.loop.tick (it.input s.shared) (it.world s.shared) with ⟨loop, w⟩
  rw [next_iterate htick]
  intro hcenter₁ hrange₁ hworld hfault₁ houtcome
  obtain ⟨common, world⟩ := seen
  dsimp only at hcenter₁ hrange₁ hworld hfault₁ houtcome
  subst hworld
  cases houtcome with
  -- by what `tick` did, as `tick_outcome` tells it apart
  | held report hneutral hheld hcenter hrange =>
      refine .quiet ?_ (hcenter.trans hcenter₁) (hrange.trans hrange₁) rfl rfl rfl
      simpa [EspWorld.send, Iteration.world] using hneutral
  | swept report hneutral hheld hrequested hcenter hrange =>
      cases hsweep : sweepCalibration it.readings with
      | ok result =>
          obtain ⟨newCenter, newRange⟩ := result
          rw [EspWorld.runSweep_of_ok hsweep] at hcenter hrange ⊢
          refine .swept newCenter newRange ?_ hrequested hsweep hcenter hrange rfl ?_
          · simpa [EspWorld.send, EspWorld.notify, EspWorld.setMeasuredCalibration,
              Iteration.world] using hneutral
          · simp [Polling.checkedAfter, EspWorld.send, EspWorld.notify, hsweep]
      -- a failed sweep changes nothing
      | error e =>
          rw [EspWorld.runSweep_of_error hsweep] at hcenter hrange ⊢
          refine .quiet ?_ (hcenter.trans hcenter₁) (hrange.trans hrange₁) rfl rfl ?_
          · simpa [EspWorld.send, EspWorld.notify, Iteration.world] using hneutral
          · simp [Polling.checkedAfter, hsweep]
  | moved report hheld hfaulted hrequested hcenter hrange =>
      obtain ⟨hhold, hneeds⟩ := of_not_holdsOutput hheld hrequested
      exact .moved hhold hneeds (hfault₁.symm.trans hfaulted)
        (congrArg CenterResult.noiseRadius (hcenter.trans hcenter₁)) (hrange.trans hrange₁)
        (.inl rfl) hneeds rfl
  | drifted report nudged hheld hfaulted hrequested hnoise hcenter hrange =>
      obtain ⟨hhold, hneeds⟩ := of_not_holdsOutput hheld hrequested
      rw [hcenter₁] at hnoise
      refine .moved hhold hneeds (hfault₁.symm.trans hfaulted) ?_ (hrange.trans hrange₁)
        (.inr ⟨hnoise, hrange₁⟩) hneeds rfl
      exact (congrArg CenterResult.noiseRadius hcenter).trans hnoise

end Iteration

/-! ## The calibration in effect -/

/-- The radii in effect, the loop's and the store's, are those of a calibration
that was checked; without a needed calibration there is one. -/
structure Calibrated (s : Polling F O) : Prop where
  noise : s.loop.common.center.noiseRadius = s.shared.store.center.noiseRadius
  range : s.loop.common.range = s.shared.store.range
  checked : ∀ at' center range, s.checked = some (at', center, range) →
    checkUsable center range at'.tolerance = true ∧
      s.shared.store.center.noiseRadius = center.noiseRadius ∧
      s.shared.store.range.usableRadius = range.usableRadius
  usable : s.shared.outside.needsCalibration = false → s.checked.isSome

theorem bootCalibration_checked [FloatText F]
    (files : StoreFile → Option (List UInt8))
    (h : (bootCalibration (F := F) files).needsCalibration = false) :
    checkUsable (bootCalibration (F := F) files).center (bootCalibration files).range
      (CheckedAt.load.tolerance) = true := by
  have hload : (loadCalibration (F := F) .default .default (files .calibration)).1 = none →
      checkUsable (loadCalibration .default .default (files .calibration)).2.1
        (loadCalibration (F := F) .default .default (files .calibration)).2.2 loadRatioTolerance =
          true := checkUsable_of_loadCalibration
  unfold bootCalibration at h ⊢
  revert h hload
  rcases loadCalibration (F := F) .default .default (files .calibration) with
    ⟨_ | e, center, range⟩
  · intro _ hload
    exact hload rfl
  · intro h
    cases e <;> simp at h

theorem bootLoop_common [FloatText F] (boot : BootCalibration F) :
    (bootLoop boot).common.center = boot.center ∧ (bootLoop boot).common.range = boot.range := by
  unfold bootLoop
  split <;> exact ⟨rfl, rfl⟩

theorem Polling.Booted.calibrated [FloatText F] {s : Polling F O} (h : s.Booted) :
    Calibrated s := by
  obtain ⟨files, hstore, hneeds, hloop, -, hchecked⟩ := h
  obtain ⟨hcenter, hrange⟩ := bootLoop_common (bootCalibration (F := F) files)
  refine ⟨?_, ?_, ?_, ?_⟩
  · rw [hloop, hstore, hcenter]; rfl
  · rw [hloop, hstore, hrange]; rfl
  · intro at' center range hsome
    rw [hchecked] at hsome
    split at hsome
    · simp at hsome
    · rename_i hfound
      simp only [Option.some.injEq, Prod.mk.injEq] at hsome
      obtain ⟨rfl, rfl, rfl⟩ := hsome
      rw [hstore]
      exact ⟨bootCalibration_checked files (by simpa using hfound), rfl, rfl⟩
  · intro hnot
    rw [hneeds] at hnot
    simp [hchecked, hnot]

section Runs

variable [FloatMath F]

theorem Calibrated.next {s : Polling F O} (hs : Calibrated s) (step : PollingStep F) :
    Calibrated (s.next step) := by
  cases step with
  | edit edit =>
      have hneeds : (s.next (.edit edit)).shared.outside.needsCalibration =
          s.shared.outside.needsCalibration := by
        simp only [Polling.next]
        split <;> rfl
      -- an edit leaves the noise radius and the range alone
      refine ⟨?_, ?_, ?_, fun h => hs.usable (hneeds.symm.trans h)⟩
      · exact hs.noise.trans (edit.apply_noiseRadius s.shared.store).symm
      · exact hs.range.trans (edit.apply_range s.shared.store).symm
      · intro at' center range hsome
        obtain ⟨husable, hnoise, hradius⟩ := hs.checked at' center range hsome
        exact ⟨husable, (edit.apply_noiseRadius s.shared.store).trans hnoise,
          (congrArg RangeResult.usableRadius (edit.apply_range s.shared.store)).trans hradius⟩
  | iterate it =>
      cases iteration_outcome s it with
      | quiet _ hcenter hrange hstore hneeds hchecked =>
          refine ⟨?_, ?_, ?_, ?_⟩
          · rw [hcenter, hstore]; exact hs.noise
          · rw [hrange, hstore]; exact hs.range
          · rw [hchecked, hstore]; exact hs.checked
          · rw [hneeds, hchecked]; exact hs.usable
      | swept center range _ _ hsweep hcenter hrange hstore hchecked =>
          refine ⟨?_, ?_, ?_, ?_⟩
          · rw [hcenter]
          · rw [hrange, hstore]; rfl
          -- the sweep itself has just checked what it stored
          · intro at' center' range' hsome
            rw [hchecked] at hsome
            simp only [Option.some.injEq, Prod.mk.injEq] at hsome
            obtain ⟨rfl, rfl, rfl⟩ := hsome
            rw [hstore]
            exact ⟨checkUsable_of_sweepCalibration hsweep, rfl, rfl⟩
          · simp [hchecked]
      | moved _ hneeds _ hnoise hrange hstore _ hchecked =>
          -- what may be stored is what the loop holds anyway
          have hkept : (s.next (.iterate it)).shared.store.center.noiseRadius =
              s.shared.store.center.noiseRadius ∧
                (s.next (.iterate it)).shared.store.range = s.shared.store.range := by
            rcases hstore with hsame | ⟨hsame, hsame'⟩
            · rw [hsame]; exact ⟨rfl, rfl⟩
            · exact ⟨hsame.trans hs.noise, hsame'.trans hs.range⟩
          refine ⟨?_, ?_, ?_, ?_⟩
          · rw [hnoise, hkept.1]; exact hs.noise
          · rw [hrange, hkept.2]; exact hs.range
          · rw [hchecked, hkept.1, hkept.2]; exact hs.checked
          · rw [hchecked]
            exact fun _ => hs.usable hneeds

variable [FloatText F]

/-- In every reachable state the radii in effect are checked ones. -/
theorem calibrated_of_reachable {s : Polling F O} (hs : polling.Reachable s) : Calibrated s := by
  refine Reachable.invariant (I := Calibrated) ?_ ?_ hs
  · exact fun s h => h.calibrated
  · rintro s step t hs rfl
    exact hs.next step

/-- **The output is neutral** on every iteration that is held, uncalibrated or
faulted; a report that is not neutral goes out under radii that passed
`check_usable`, at load or in the last successful sweep, and were not changed
since; a needed calibration is only ever provided by a successful sweep. -/
theorem neutral_output {s : Polling F O} (hs : polling.Reachable s) :
    (∀ it, it.outputHold = true ∨ s.shared.outside.needsCalibration = true ∨ s.faulted it = true →
      ∀ report ∈ (s.next (.iterate it)).reports, report.Neutral) ∧
    (∀ it, ∀ report ∈ (s.next (.iterate it)).reports, ¬ report.Neutral →
      ∃ at' center range, s.checked = some (at', center, range) ∧
        checkUsable center range at'.tolerance = true ∧
        s.loop.common.center.noiseRadius = center.noiseRadius ∧
        s.loop.common.range.usableRadius = range.usableRadius ∧
        s.shared.store.center.noiseRadius = center.noiseRadius ∧
        s.shared.store.range.usableRadius = range.usableRadius) ∧
    ∀ step, s.shared.outside.needsCalibration = true →
      (s.next step).shared.outside.needsCalibration = false →
      ∃ it center range, step = .iterate it ∧ it.recalibrationRequested = true ∧
        sweepCalibration it.readings = .ok (center, range) ∧
        (s.next step).checked = some (.sweep, center, range) := by
  have hcalibrated := calibrated_of_reachable hs
  refine ⟨?_, ?_, ?_⟩
  · intro it hquiet
    cases iteration_outcome s it with
    | quiet hneutral => exact hneutral
    | swept _ _ hneutral => exact hneutral
    | moved hheld hneeds hfaulted => simp [hheld, hneeds, hfaulted] at hquiet
  · intro it report hmem hmoving
    cases iteration_outcome s it with
    | quiet hneutral => exact absurd (hneutral report hmem) hmoving
    | swept _ _ hneutral => exact absurd (hneutral report hmem) hmoving
    -- only an iteration that moves reports anything else, under what the loop holds
    | moved _ hneeds =>
        obtain ⟨⟨at', center, range⟩, hsome⟩ :=
          Option.isSome_iff_exists.mp (hcalibrated.usable hneeds)
        obtain ⟨husable, hnoise, hradius⟩ := hcalibrated.checked at' center range hsome
        exact ⟨at', center, range, hsome, husable, hcalibrated.noise.trans hnoise,
          (congrArg RangeResult.usableRadius hcalibrated.range).trans hradius, hnoise, hradius⟩
  · intro step hneeded hprovided
    -- an edit never takes back that a calibration is needed
    cases step with
    | edit edit =>
        simp only [Polling.next] at hprovided
        split at hprovided <;> simp [Device.onCalibrationChanged, hneeded] at hprovided
    | iterate it =>
        cases iteration_outcome s it with
        | quiet _ _ _ _ hneeds => simp [hneeds, hneeded] at hprovided
        | swept center range _ hrequested hsweep _ _ _ hchecked =>
            exact ⟨it, center, range, rfl, hrequested, hsweep, hchecked⟩
        | moved _ hneeds => simp [hneeds] at hneeded

end Runs

/-- A board with empty files, on the simulator. -/
def blankBoard : Polling ℚ SimOta :=
  let boot := bootCalibration fun _ => none
  { loop := bootLoop boot
    shared :=
      { store := boot.store
        ota := .new (.format default)
        outside := ⟨.idle, 0, boot.needsCalibration, .new, none, none, 0, []⟩ }
    checked := none
    reports := [] }

/-- Without a saved calibration every iteration's reports are neutral. -/
theorem neutral_blankBoard :
    blankBoard.Booted ∧
      ∀ it, ∀ report ∈ (blankBoard.next (.iterate it)).reports, report.Neutral := by
  have hneeds : (bootCalibration (F := ℚ) fun _ => none).needsCalibration = true := rfl
  have hbooted : blankBoard.Booted :=
    ⟨fun _ => none, rfl, rfl, rfl, rfl, by rw [if_pos hneeds]; rfl⟩
  exact ⟨hbooted, fun it => (neutral_output (.init hbooted)).1 it (.inr (.inl hneeds))⟩

end OmegaStick
