import OmegaStick.Calibration.Types

/-!
# The two monitors of the control loop

`SensorFaultMonitor` decides when the sensor can no longer be trusted, and
`DriftCompensator` moves the stored center toward the raw reading of a stick
that has been at rest for a while.  Streaks are mathematical integers here;
`fault_count_` is the source's `uint32_t`.
-/

namespace OmegaStick

open MachineFloat

/-- A `steady_clock` time point or duration, in its nanosecond ticks. -/
abbrev Time := ℤ

/-- A `std::chrono::milliseconds` count as a duration. -/
def milliseconds (count : ℤ) : Time := count * 1000000

/-- A `std::chrono::seconds` count as a duration. -/
def seconds (count : ℤ) : Time := count * 1000000000

variable {F : Type*} [MachineFloat F]

/-! ## Sensor faults -/

namespace SensorFaultMonitor

inductive Fault where
  | none
  | readFailed
  | stuck
  deriving DecidableEq, Repr

/-- The enumerator's value, as GET_DIAGNOSTICS sends it. -/
def Fault.code : Fault → UInt8
  | .none => 0
  | .readFailed => 1
  | .stuck => 2

/-- Thresholds, in loop ticks. -/
structure Config where
  tripAfterFailedReads : ℤ := 3
  stuckAfterSamples : ℤ := 500
  stuckAfterStaleConversions : ℤ := 50
  recoverAfterGoodReads : ℤ := 10
  deriving DecidableEq, Repr

end SensorFaultMonitor

open SensorFaultMonitor in
/-- The monitor's thresholds, latched faults and streaks. -/
structure SensorFaultMonitor (F : Type*) where
  config : SensorFaultMonitor.Config
  fault : Fault
  firstFault : Fault
  faultCount : UInt32
  failedStreak : ℤ
  goodStreak : ℤ
  identicalStreak : ℤ
  haveLast : Bool
  lastX : F
  lastY : F
  staleConversionStreak : ℤ
  haveLastConversion : Bool
  lastConversion : UInt8
  deriving DecidableEq, Repr

namespace SensorFaultMonitor

/-- A monitor as constructed. -/
def new (config : Config) : SensorFaultMonitor F :=
  ⟨config, .none, .none, 0, 0, 0, 0, false, ofRat 0, ofRat 0, 0, false, 0⟩

omit [MachineFloat F] in
/-- Whether the output must be held neutral. -/
def faulted (monitor : SensorFaultMonitor F) : Bool := monitor.fault != .none

def saturatingIncrement (streak limit : ℤ) : ℤ :=
  if 0 < limit ∧ limit ≤ streak then limit else streak + 1

omit [MachineFloat F] in
/-- Enters a fault, once per edge, and latches the first one. -/
def trip (monitor : SensorFaultMonitor F) (fault : Fault) : SensorFaultMonitor F :=
  if monitor.fault = fault then monitor
  else
    { monitor with
      fault := fault
      faultCount := monitor.faultCount + 1
      goodStreak := 0
      firstFault := if monitor.firstFault = .none then fault else monitor.firstFault }

/-- The streak of identical readings after a successful read. -/
def trackSamples (monitor : SensorFaultMonitor F) (rawX rawY : F) : SensorFaultMonitor F :=
  { monitor with
    identicalStreak :=
      if monitor.haveLast && feq rawX monitor.lastX && feq rawY monitor.lastY then
        saturatingIncrement monitor.identicalStreak monitor.config.stuckAfterSamples
      else 0
    haveLast := true
    lastX := rawX
    lastY := rawY }

omit [MachineFloat F] in
/-- The streak of polls on which the conversion counter did not advance. -/
def trackConversions (monitor : SensorFaultMonitor F) (conversionCount : Option UInt8) :
    SensorFaultMonitor F :=
  match conversionCount with
  | none => monitor
  | some count =>
      { monitor with
        staleConversionStreak :=
          if monitor.haveLastConversion && count == monitor.lastConversion then
            saturatingIncrement monitor.staleConversionStreak
              monitor.config.stuckAfterStaleConversions
          else 0
        haveLastConversion := true
        lastConversion := count }

omit [MachineFloat F] in
def samplesStuck (monitor : SensorFaultMonitor F) : Bool :=
  decide (0 < monitor.config.stuckAfterSamples) &&
    decide (monitor.config.stuckAfterSamples ≤ monitor.identicalStreak)

omit [MachineFloat F] in
def conversionsStuck (monitor : SensorFaultMonitor F) : Bool :=
  decide (0 < monitor.config.stuckAfterStaleConversions) &&
    decide (monitor.config.stuckAfterStaleConversions ≤ monitor.staleConversionStreak)

/-- One poll.  The returned flag is `true` while the output must be neutral. -/
def update (monitor : SensorFaultMonitor F) (readOk : Bool) (rawX rawY : F)
    (conversionCount : Option UInt8) : Bool × SensorFaultMonitor F :=
  if !readOk then
    let failed := { monitor with failedStreak := monitor.failedStreak + 1, goodStreak := 0 }
    let after :=
      if failed.config.tripAfterFailedReads ≤ failed.failedStreak then failed.trip .readFailed
      else failed
    (after.faulted, after)
  else
    let good := { monitor with failedStreak := 0, goodStreak := monitor.goodStreak + 1 }
    let tracked := (good.trackSamples rawX rawY).trackConversions conversionCount
    if tracked.samplesStuck || tracked.conversionsStuck then
      (true, { tracked.trip .stuck with goodStreak := 0 })
    else
      let after :=
        if tracked.faulted && decide (tracked.config.recoverAfterGoodReads ≤ tracked.goodStreak)
        then { tracked with fault := .none }
        else tracked
      (after.faulted, after)

omit [MachineFloat F] in
theorem trip_fault (monitor : SensorFaultMonitor F) (fault : Fault) :
    (monitor.trip fault).fault = fault := by
  unfold trip
  split
  · assumption
  · rfl

/-- The flag `update` returns is the fault state it leaves. -/
theorem update_fst (monitor : SensorFaultMonitor F) (readOk : Bool) (rawX rawY : F)
    (conversionCount : Option UInt8) :
    (monitor.update readOk rawX rawY conversionCount).1 =
      (monitor.update readOk rawX rawY conversionCount).2.faulted := by
  unfold update
  split
  · rfl
  · dsimp only
    split
    · simp [faulted, trip_fault]
    · rfl

end SensorFaultMonitor

/-! ## Drift -/

namespace DriftCompensator

structure Config (F : Type*) where
  idleMagnitudeThreshold : F
  /-- milliseconds -/
  idleDwell : ℤ
  blendRate : F
  /-- milliseconds -/
  minNudgeInterval : ℤ
  deriving DecidableEq, Repr

def Config.default : Config F := ⟨ofRat (1 / 20), 2000, ofRat (1 / 50), 500⟩

end DriftCompensator

/-- The compensator's configuration and timers. -/
structure DriftCompensator (F : Type*) where
  config : DriftCompensator.Config F
  idleSince : Option Time
  lastNudge : Option Time
  deriving DecidableEq, Repr

namespace DriftCompensator

/-- A compensator as constructed by default. -/
def default : DriftCompensator F := ⟨.default, none, none⟩

omit [MachineFloat F] in
/-- Resets idle tracking. -/
def reset (drift : DriftCompensator F) : DriftCompensator F :=
  { drift with idleSince := none, lastNudge := none }

/-- The center moved a fraction of the way toward the raw reading. -/
def nudge (drift : DriftCompensator F) (rawX rawY : F) (center : CenterResult F) :
    CenterResult F :=
  { center with
    centerX := center.centerX + (rawX - center.centerX) * drift.config.blendRate
    centerY := center.centerY + (rawY - center.centerY) * drift.config.blendRate }

/-- One tick.  Returns whether the center was nudged, and the center. -/
def update (drift : DriftCompensator F) (rawX rawY mappedMagnitude : F)
    (center : CenterResult F) (now : Time) : Bool × DriftCompensator F × CenterResult F :=
  if flt drift.config.idleMagnitudeThreshold mappedMagnitude then
    (false, { drift with idleSince := none }, center)
  else
    let since := drift.idleSince.getD now
    let idle := { drift with idleSince := some since }
    if now - since < milliseconds drift.config.idleDwell then (false, idle, center)
    else if idle.lastNudge.any fun last =>
        decide (now - last < milliseconds drift.config.minNudgeInterval) then
      (false, idle, center)
    else (true, { idle with lastNudge := some now }, drift.nudge rawX rawY center)

/-- A drift correction moves the measured center and nothing else. -/
theorem update_center (drift : DriftCompensator F) (rawX rawY magnitude : F)
    (center : CenterResult F) (now : Time) :
    (drift.update rawX rawY magnitude center now).2.2 = center ∨
      (drift.update rawX rawY magnitude center now).2.2 = drift.nudge rawX rawY center := by
  unfold update
  split
  · exact .inl rfl
  · dsimp only
    split
    · exact .inl rfl
    · split
      · exact .inl rfl
      · exact .inr rfl

/-- A tick that does not nudge leaves the center as it was. -/
theorem update_center_of_not_nudged {drift : DriftCompensator F} {rawX rawY magnitude : F}
    {center : CenterResult F} {now : Time}
    (h : (drift.update rawX rawY magnitude center now).1 = false) :
    (drift.update rawX rawY magnitude center now).2.2 = center := by
  unfold update at h ⊢
  split
  · rfl
  · rename_i hidle
    rw [if_neg hidle] at h
    dsimp only at h ⊢
    split
    · rfl
    · rename_i hdwelt
      rw [if_neg hdwelt] at h
      split
      · rfl
      · rename_i hlimited
        rw [if_neg hlimited] at h
        cases h

@[simp] theorem nudge_noiseRadius (drift : DriftCompensator F) (rawX rawY : F)
    (center : CenterResult F) : (drift.nudge rawX rawY center).noiseRadius = center.noiseRadius :=
  rfl

theorem update_noiseRadius (drift : DriftCompensator F) (rawX rawY magnitude : F)
    (center : CenterResult F) (now : Time) :
    (drift.update rawX rawY magnitude center now).2.2.noiseRadius = center.noiseRadius := by
  rcases update_center drift rawX rawY magnitude center now with h | h <;> simp [h]

end DriftCompensator

end OmegaStick
