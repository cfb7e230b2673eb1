import OmegaStick.Calibration.Sweep
import OmegaStick.Control.TickCases
import OmegaStick.Device.Wiring

/-!
# The polling loop on the device

`EspPorts` of `main.cpp`, the implementation of the control core's ports, and
what one tick does through it.  A tick has four outcomes (`TickOutcome`): the
output is neutral and nothing else happens; a sweep runs between two neutral
reports; the stick's report goes out; or it goes out and a drift correction is
pushed.  Everything later is derived from these four.
-/

namespace OmegaStick

open MachineFloat SensorFaultMonitor

variable {F O : Type*}

/-! ## Notifications -/

/-- An error of the calibration's own category; its default condition is not generic. -/
def Error.toErrorCode (e : Error) : ErrorCode := ⟨e.value, .other none, ascii e.message⟩

/-! ## The world of one iteration -/

/-- What the polling loop touches during one iteration: the shared state, what
the hardware gives it this time, and what it sends, oldest first. -/
structure EspWorld (F O : Type*) extends Shared F O (Device F) where
  /-- The sensor's answers to a sweep, by the number of the read. -/
  readings : ℕ → Option (F × F)
  /-- The sample taken after a sweep. -/
  stick : StickSample F
  clock : Time
  reports : List (HidReport F)
  notifications : List (LinkId × Frame)
  /-- How many sweeps were run. -/
  sweeps : ℕ

namespace EspWorld

def send (w : EspWorld F O) (report : HidReport F) : EspWorld F O :=
  { w with reports := w.reports ++ [report] }

/-- `notify_calibration_result` on both services. -/
def notify (w : EspWorld F O) (result : Option ErrorCode) : EspWorld F O :=
  let frame := build .calibrationResult (calibrationResultPayload result) kModule
  { w with notifications := w.notifications ++ [(.vendor, frame), (.cdc, frame)] }

/-- `store.set_measured_calibration`, callback included. -/
def setMeasuredCalibration [MachineFloat F] (w : EspWorld F O) (center : CenterResult F)
    (range : RangeResult F) : EspWorld F O :=
  let store := w.store.setMeasuredCalibration center range
  { w with store := store, outside := w.outside.onCalibrationChanged store }

variable [MachineFloat F] [FloatMath F]

/-- `run_sweep`: the flag, and what it leaves in the loop's center and range. -/
def runSweep (w : EspWorld F O) (center : CenterResult F) (range : RangeResult F) :
    Bool × CenterResult F × RangeResult F × EspWorld F O :=
  let w := { w with sweeps := w.sweeps + 1 }
  match sweepCalibration w.readings with
  | .ok (newCenter, newRange) =>
      let w := w.setMeasuredCalibration newCenter newRange
      let w := { w with outside := { w.outside with needsCalibration := false } }
      (true, w.store.center, newRange, w.notify none)
  | .error e => (false, center, range, w.notify (some e.toErrorCode))

theorem runSweep_of_ok {w : EspWorld F O} {newCenter : CenterResult F} {newRange : RangeResult F}
    (h : sweepCalibration w.readings = .ok (newCenter, newRange)) (center : CenterResult F)
    (range : RangeResult F) :
    w.runSweep center range =
      let swept := { w with sweeps := w.sweeps + 1 }.setMeasuredCalibration newCenter newRange
      (true, swept.store.center, newRange,
        { swept with outside := { swept.outside with needsCalibration := false } }.notify
          none) := by
  simp only [runSweep, h]

theorem runSweep_of_error {w : EspWorld F O} {e : Error}
    (h : sweepCalibration w.readings = .error e)
    (center : CenterResult F) (range : RangeResult F) :
    w.runSweep center range =
      (false, center, range, { w with sweeps := w.sweeps + 1 }.notify (some e.toErrorCode)) := by
  simp only [runSweep, h]

omit [FloatMath F] in
/-- `apply_drift`: the store's offset comes back, and the joystick follows. -/
def applyDrift (w : EspWorld F O) (center : CenterResult F) (range : RangeResult F) :
    CenterResult F × EspWorld F O :=
  let w := w.setMeasuredCalibration center range
  let center := w.store.center
  (center,
    { w with
      outside := { w.outside with
        liveJoystick := some (applyCalibration center range w.store.settings) } })

/-- The ports of `main.cpp`. What a save writes is not part of this world. -/
instance : Ports F (EspWorld F O) where
  sendMouse report w := w.send (.mouse report)
  sendXac report w := w.send (.xac report)
  runSweep center range w := w.runSweep center range
  saveToFlash w := w
  applyDrift center range w := w.applyDrift center range
  readStick w := (w.stick, w)
  now w := (w.clock, w)
  sensorFaultChanged faulted fault faultCount w :=
    { w with
      outside := { w.outside with
        sensorStatus := w.outside.sensorStatus.publish faulted fault faultCount } }
  sensorObservedHealthy w :=
    { w with
      outside := { w.outside with sensorStatus := w.outside.sensorStatus.observedHealthy } }

end EspWorld

/-! ## The loop's state -/

/-- The state of the polling loop, in the mode the device booted in. -/
inductive LoopState (F : Type*) where
  | mouse (s : MouseState F)
  | xac (s : XacState F)

namespace LoopState

def common : LoopState F → CommonState F
  | .mouse s => s.common
  | .xac s => s.common

variable [MachineFloat F] [FloatMath F]

/-- `mouse_tick` or `xac_tick`. -/
def tick (s : LoopState F) (input : StepInput F) (w : EspWorld F O) :
    LoopState F × EspWorld F O :=
  match s with
  | .mouse s => let (s, w) := mouseTick s input w; (.mouse s, w)
  | .xac s => let (s, w) := xacTick s input w; (.xac s, w)

end LoopState

/-! ## Iterations -/

/-- One iteration's choices of the environment: the stick, the clock, the hold
and the request of this iteration, and what a sweep would read. -/
structure Iteration (F : Type*) where
  stick : StickSample F
  now : Time
  recalibrationRequested : Bool
  outputHold : Bool
  readings : ℕ → Option (F × F)
  postSweep : StickSample F
  clock : Time

namespace Iteration

/-- What the loop hands to the tick. -/
def input (it : Iteration F) (shared : Shared F O (Device F)) : StepInput F where
  stick := it.stick
  now := it.now
  recalibrationRequested := it.recalibrationRequested
  outputHold := it.outputHold
  needsCalibration := shared.outside.needsCalibration
  settings := shared.store.settings

/-- The world the tick runs in. -/
def world (it : Iteration F) (shared : Shared F O (Device F)) : EspWorld F O where
  toShared := shared
  readings := it.readings
  stick := it.postSweep
  clock := it.clock
  reports := []
  notifications := []
  sweeps := 0

end Iteration

/-! ## What one tick does -/

section Tick

variable [MachineFloat F] [FloatMath F]

/-- The state and the world after the sensor monitor saw this tick's sample,
which is the first thing a tick does. -/
def observed (common : CommonState F) (input : StepInput F) (w : EspWorld F O) :
    CommonState F × EspWorld F O :=
  (sensorFaultUpdate common input w).2

/-- The monitor only moves its own part of the state and the published status. -/
theorem observed_spec (common : CommonState F) (input : StepInput F) (w : EspWorld F O) :
    (observed common input w).1.center = common.center ∧
      (observed common input w).1.range = common.range ∧
      ∃ status, (observed common input w).2 =
        { w with outside := { w.outside with sensorStatus := status } } := by
  refine ⟨rfl, rfl, ?_⟩
  unfold observed sensorFaultUpdate
  simp only [Ports.sensorFaultChanged, Ports.sensorObservedHealthy]
  split_ifs <;> exact ⟨_, rfl⟩

/-- The edge's flag is the monitor's fault after the sample. -/
theorem faulted_observed (common : CommonState F) (input : StepInput F) (w : EspWorld F O) :
    (sensorFaultUpdate common input w).1.faulted =
      (observed common input w).1.sensor.faulted :=
  sensorFaultUpdate_faulted common input w

/-- The outcomes of a tick, from the state and the world after the sensor
monitor ran. -/
inductive TickOutcome (common : CommonState F) (w : EspWorld F O) (input : StepInput F)
    (common' : CommonState F) : EspWorld F O → Prop where
  /-- Held, uncalibrated or faulted: one neutral report. -/
  | held (report : HidReport F) (hneutral : report.Neutral)
      (hheld : holdsOutput input = true ∨
        common.sensor.faulted = true ∧ input.recalibrationRequested = false)
      (hcenter : common'.center = common.center) (hrange : common'.range = common.range) :
      TickOutcome common w input common' (w.send report)
  /-- A sweep between two neutral reports. -/
  | swept (report : HidReport F) (hneutral : report.Neutral)
      (hheld : holdsOutput input = false) (hrequested : input.recalibrationRequested = true)
      (hcenter : common'.center = ((w.send report).runSweep common.center common.range).2.1)
      (hrange : common'.range = ((w.send report).runSweep common.center common.range).2.2.1) :
      TickOutcome common w input common'
        (((w.send report).runSweep common.center common.range).2.2.2.send report)
  /-- The stick's report. -/
  | moved (report : HidReport F) (hheld : holdsOutput input = false)
      (hfaulted : common.sensor.faulted = false)
      (hrequested : input.recalibrationRequested = false)
      (hcenter : common'.center = common.center) (hrange : common'.range = common.range) :
      TickOutcome common w input common' (w.send report)
  /-- The stick's report, and a nudged center pushed. -/
  | drifted (report : HidReport F) (nudged : CenterResult F)
      (hheld : holdsOutput input = false) (hfaulted : common.sensor.faulted = false)
      (hrequested : input.recalibrationRequested = false)
      (hnoise : nudged.noiseRadius = common.center.noiseRadius)
      (hcenter : common'.center = ((w.send report).applyDrift nudged common.range).1)
      (hrange : common'.range = common.range) :
      TickOutcome common w input common' ((w.send report).applyDrift nudged common.range).2

/-- After a sweep the loop keeps what the sweep left, which on a failure is
what it had. -/
theorem recalibrationDone_runSweep (common : CommonState F) (w : EspWorld F O) :
    let sweep := w.runSweep common.center common.range
    (common.recalibrationDone sweep.1 sweep.2.1 sweep.2.2.1).center = sweep.2.1 ∧
      (common.recalibrationDone sweep.1 sweep.2.1 sweep.2.2.1).range = sweep.2.2.1 := by
  simp only [EspWorld.runSweep]
  split <;> exact ⟨rfl, rfl⟩

theorem HidReport.send_eq (report : HidReport F) (w : EspWorld F O) :
    report.send w = w.send report := by
  cases report <;> rfl

/-- What a tick does through the ports of `main.cpp`. -/
theorem CommonTick.outcome {input : StepInput F} {common common' : CommonState F}
    {w w' : EspWorld F O} (h : CommonTick input common w common' w') :
    TickOutcome common w input common' w' := by
  cases h with
  | quiet report hneutral hquiet =>
      rw [report.send_eq]
      exact .held report hneutral hquiet rfl rfl
  | swept report hneutral hheld hrequested hsweep hpost hnow =>
      have hdone := recalibrationDone_runSweep common (w.send report)
      obtain ⟨-, rfl⟩ := Prod.mk.inj hpost
      obtain ⟨-, rfl⟩ := Prod.mk.inj hnow
      rw [report.send_eq] at hsweep ⊢
      change (w.send report).runSweep common.center common.range = _ at hsweep
      have houtcome : TickOutcome common w input (common.recalibrationDone _ _ _) _ :=
        .swept report hneutral hheld hrequested hdone.1 hdone.2
      rw [hsweep] at houtcome
      exact houtcome
  | rested report hheld hfaulted hrequested hupdate =>
      rw [report.send_eq]
      exact .moved report hheld hfaulted hrequested rfl rfl
  | nudged report hheld hfaulted hrequested hupdate hpush =>
      have hnoise := DriftCompensator.update_noiseRadius common.drift input.stick.rawX
        input.stick.rawY (FloatMath.hypot input.stick.x input.stick.y) common.center input.now
      rw [hupdate] at hnoise
      obtain ⟨rfl, rfl⟩ := Prod.mk.inj hpush
      simp only [Ports.saveToFlash, ite_self]
      rw [report.send_eq]
      exact .drifted report _ hheld hfaulted hrequested hnoise rfl rfl

theorem LoopState.tick_common (s : LoopState F) (input : StepInput F) (w : EspWorld F O) :
    CommonTick input (observed s.common input w).1 (observed s.common input w).2
      (s.tick input w).1.common (s.tick input w).2 := by
  cases s with
  | mouse s => exact mouseTick_common s input w
  | xac s => exact xacTick_common s input w

/-- Both loops have the same four outcomes. -/
theorem LoopState.tick_outcome (s : LoopState F) (input : StepInput F) (w : EspWorld F O) :
    TickOutcome (observed s.common input w).1 (observed s.common input w).2 input
      (s.tick input w).1.common (s.tick input w).2 := by
  exact (s.tick_common input w).outcome

end Tick

end OmegaStick
