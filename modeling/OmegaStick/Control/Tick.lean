import OmegaStick.Calibration.Monitor

/-!
# The control core

The bodies of the two polling loops, as in `omega_control.hpp`: nudge-click
detection, drift bookkeeping, the sensor monitor and the recalibration sweep.
Everything outside the core sits behind `Ports`, whose operations pass a state
`W` through, so that a tick is a function of the state, the input and the
world.
-/

namespace OmegaStick

open MachineFloat SensorFaultMonitor

variable {F : Type*}

/-! ## Constants -/

def mouseSensorFaultConfig : SensorFaultMonitor.Config where
  tripAfterFailedReads := 3
  stuckAfterSamples := 500
  recoverAfterGoodReads := 10

def xacSensorFaultConfig : SensorFaultMonitor.Config where
  tripAfterFailedReads := 6
  stuckAfterSamples := 1000
  stuckAfterStaleConversions := 100
  recoverAfterGoodReads := 20

/-- The sensor_fault byte before the loop has seen the sensor answer. -/
def sensorNotObserved : UInt8 := 3

def sensitivity [MachineFloat F] : F := ofRat 15

def invertNudgeY : Bool := false

def scrollPollDivider : ℤ := 5

def scrollStep : ℤ := 1

def saveEveryNNudges : ℤ := 20

/-! ## Data -/

inductive NudgeDirection where
  | none
  | left
  | right
  | forward
  | back
  deriving DecidableEq, Repr

/-- One joystick reading, mapped and raw. -/
structure StickSample (F : Type*) where
  x : F
  y : F
  rawX : F
  rawY : F
  readOk : Bool
  conversionCount : Option UInt8
  deriving DecidableEq, Repr

structure StepInput (F : Type*) where
  stick : StickSample F
  now : Time
  recalibrationRequested : Bool
  outputHold : Bool
  needsCalibration : Bool
  settings : DeviceSettings F
  deriving DecidableEq, Repr

/-- Whether the tick sends a neutral report and does nothing else. -/
def holdsOutput (input : StepInput F) : Bool :=
  input.outputHold || (input.needsCalibration && !input.recalibrationRequested)

/-- Bit 0 is the left button, bit 1 the right one. -/
structure MouseReport where
  buttons : UInt8 := 0
  dx : ℤ := 0
  dy : ℤ := 0
  wheel : ℤ := 0
  deriving DecidableEq, Repr

/-- Already-normalized gamepad axes. -/
structure XacReport (F : Type*) where
  x : F
  y : F
  deriving DecidableEq, Repr

/-- A default-constructed report: the stick centered. -/
def XacReport.default [MachineFloat F] : XacReport F := ⟨ofRat 0, ofRat 0⟩

structure StepOutput (F : Type*) where
  sendReport : Bool
  mouse : MouseReport
  xac : XacReport F
  runRecalibration : Bool
  driftApplied : Bool
  saveCalibration : Bool
  deriving DecidableEq, Repr

def StepOutput.default [MachineFloat F] : StepOutput F := ⟨false, {}, .default, false, false, false⟩

structure CommonState (F : Type*) where
  center : CenterResult F
  range : RangeResult F
  drift : DriftCompensator F
  /-- An `int` of the source, exact up to 2 ^ 31 - 1 nudges. -/
  driftNudgeCount : ℤ
  sensor : SensorFaultMonitor F
  sensorWasFaulted : Bool
  goodReads : ℤ
  observeAfterGoodReads : ℤ
  sensorObserved : Bool
  deriving DecidableEq, Repr

def CommonState.new [MachineFloat F] (config : SensorFaultMonitor.Config) : CommonState F where
  center := .default
  range := .default
  drift := .default
  driftNudgeCount := 0
  sensor := .new config
  sensorWasFaulted := false
  goodReads := 0
  observeAfterGoodReads := config.recoverAfterGoodReads
  sensorObserved := false

structure MouseState (F : Type*) where
  common : CommonState F
  nudge : NudgeDirection
  scrollPollCount : ℤ
  windowStart : Time
  prevX : F
  prevY : F
  initialised : Bool
  deriving DecidableEq, Repr

def MouseState.new [MachineFloat F] : MouseState F :=
  ⟨.new mouseSensorFaultConfig, .none, 0, 0, ofRat 0, ofRat 0, false⟩

structure XacState (F : Type*) where
  common : CommonState F
  deriving DecidableEq, Repr

def XacState.new [MachineFloat F] : XacState F := ⟨.new xacSensorFaultConfig⟩

section Steps

variable [MachineFloat F]

/-! ## Pure steps -/

/-- Picks one of the four cardinal directions of a stick position. -/
def classifyNudge (x y : F) : NudgeDirection :=
  let effectiveY := if invertNudgeY then -y else y
  if fle (fabs effectiveY) (fabs x) then
    if fle (ofRat 0) x then .right else .left
  else
    if flt effectiveY (ofRat 0) then .forward else .back

/-- Truncates toward zero, then clamps to `[-127, 127]`. -/
def toDelta (v : F) : ℤ :=
  let i := toInt v
  if 127 < i then 127 else if i < -127 then -127 else i

/-- Feeds the pre-drift sample to the compensator, counts nudges, and asks for
a save every `SAVE_EVERY_N_NUDGES`. -/
def driftStep (common : CommonState F) (input : StepInput F) (mappedMagnitude : F)
    (out : StepOutput F) : CommonState F × StepOutput F :=
  match common.drift.update input.stick.rawX input.stick.rawY mappedMagnitude common.center
    input.now with
  | (false, drift, center) => ({ common with drift := drift, center := center }, out)
  | (true, drift, center) =>
      let count := common.driftNudgeCount + 1
      ({ common with drift := drift, center := center, driftNudgeCount := count },
        { out with
          driftApplied := true
          saveCalibration := out.saveCalibration || decide (count % saveEveryNNudges = 0) })

/-- A recalibration request pre-empts the tick: neutral report, no processing. -/
def recalibrationOutput : StepOutput F :=
  { (StepOutput.default : StepOutput F) with sendReport := true, runRecalibration := true }

namespace MouseState

/-- `s.nudge = NONE; s.scroll_poll_count = 0` -/
def releaseNudge (s : MouseState F) : MouseState F :=
  { s with nudge := .none, scrollPollCount := 0 }

/-- The gesture baseline moved to this sample: `window_start`, `prev_x`, `prev_y`. -/
def rebase (s : MouseState F) (now : Time) (x y : F) : MouseState F :=
  { s with windowStart := now, prevX := x, prevY := y }

/-- The first sample of all is its own baseline. -/
def initialise (s : MouseState F) (input : StepInput F) : MouseState F :=
  if s.initialised then s
  else { s.rebase input.now input.stick.x input.stick.y with initialised := true }

/-- With nudge clicks off, a held nudge is released on this very tick and the
baseline follows the stick. -/
def nudgeSwitch (s : MouseState F) (input : StepInput F) : MouseState F :=
  if input.settings.nudgeEnabled then s
  else
    (if s.nudge = .none then s else s.releaseNudge).rebase input.now input.stick.x input.stick.y

variable [FloatMath F]

/-- Nudge detection, once every `nudge_hold_time`; `duration` is the age of the
window in milliseconds. -/
def nudgeWindow (s : MouseState F) (input : StepInput F) (duration : ℤ) (curMag : F) :
    MouseState F :=
  if duration < input.settings.nudgeHoldTime then s
  else
    let mappedMagnitude := curMag - FloatMath.hypot s.prevX s.prevY
    let detected :=
      if s.nudge = .none then
        if input.settings.nudgeEnabled &&
            fle input.settings.nudgeDistanceThreshold mappedMagnitude then
          { s with nudge := classifyNudge input.stick.x input.stick.y, scrollPollCount := 0 }
        else s
      else if fle curMag input.settings.nudgeExitThreshold then { s with nudge := .none }
      else s
    detected.rebase input.now input.stick.x input.stick.y

omit [MachineFloat F] [FloatMath F] in
/-- One poll of a held scroll nudge: a wheel tick every `SCROLL_POLL_DIVIDER`. -/
def scrollPoll (s : MouseState F) (step : ℤ) : MouseState F × ℤ :=
  let count := s.scrollPollCount + 1
  ({ s with scrollPollCount := count }, if count % scrollPollDivider = 0 then step else 0)

omit [FloatMath F] in
/-- The report of a tick, from the nudge in effect. -/
def report (s : MouseState F) (input : StepInput F) : MouseState F × MouseReport :=
  match s.nudge with
  | .none =>
      (s, { dx := toDelta (input.stick.x * sensitivity)
            dy := toDelta (input.stick.y * sensitivity) })
  | .left =>
      let (polled, wheel) := s.scrollPoll scrollStep
      (polled, { wheel := wheel })
  | .back =>
      let (polled, wheel) := s.scrollPoll (-scrollStep)
      (polled, { wheel := wheel })
  | .forward => (s, { buttons := 1 })
  | .right => (s, { buttons := 2 })

/-! ### The nudge state is not the common state -/

omit [MachineFloat F] [FloatMath F] in
@[simp] theorem releaseNudge_common (s : MouseState F) : s.releaseNudge.common = s.common := rfl

omit [MachineFloat F] [FloatMath F] in
@[simp] theorem rebase_common (s : MouseState F) (now : Time) (x y : F) :
    (s.rebase now x y).common = s.common := rfl

omit [MachineFloat F] [FloatMath F] in
@[simp] theorem initialise_common (s : MouseState F) (input : StepInput F) :
    (s.initialise input).common = s.common := by
  unfold initialise
  split <;> rfl

omit [MachineFloat F] [FloatMath F] in
@[simp] theorem nudgeSwitch_common (s : MouseState F) (input : StepInput F) :
    (s.nudgeSwitch input).common = s.common := by
  unfold nudgeSwitch
  split_ifs <;> rfl

@[simp] theorem nudgeWindow_common (s : MouseState F) (input : StepInput F) (duration : ℤ)
    (curMag : F) : (s.nudgeWindow input duration curMag).common = s.common := by
  unfold nudgeWindow
  split
  · rfl
  · dsimp only
    split_ifs <;> rfl

omit [FloatMath F] in
@[simp] theorem report_common (s : MouseState F) (input : StepInput F) :
    (s.report input).1.common = s.common := by
  unfold report
  split <;> rfl

end MouseState

variable [FloatMath F]

/-- One step of the mouse engine. -/
def mouseStep (s : MouseState F) (input : StepInput F) : MouseState F × StepOutput F :=
  if input.recalibrationRequested then (s.releaseNudge, recalibrationOutput)
  else
    let started := s.initialise input
    -- The age of the window is taken before the switch moves the baseline.
    let duration := (input.now - started.windowStart).tdiv 1000000
    let curMag := FloatMath.hypot input.stick.x input.stick.y
    let windowed := (started.nudgeSwitch input).nudgeWindow input duration curMag
    let (reported, mouse) := windowed.report input
    let (common, out) := driftStep reported.common input curMag
      { (StepOutput.default : StepOutput F) with sendReport := true, mouse := mouse }
    ({ reported with common := common }, out)

/-- One step of the gamepad engine: the axes follow the stick. -/
def xacStep (s : XacState F) (input : StepInput F) : XacState F × StepOutput F :=
  if input.recalibrationRequested then (s, recalibrationOutput)
  else
    let (common, out) := driftStep s.common input (FloatMath.hypot input.stick.x input.stick.y)
      { (StepOutput.default : StepOutput F) with
        sendReport := true, xac := ⟨input.stick.x, input.stick.y⟩ }
    ({ s with common := common }, out)

end Steps

/-! ## Ports -/

/-- Everything the control loops need from the outside world `W`. -/
class Ports (F : outParam (Type*)) (W : Type*) where
  sendMouse : MouseReport → W → W
  sendXac : XacReport F → W → W
  /-- The interactive sweep: the flag, and what it leaves in the two references. -/
  runSweep : CenterResult F → RangeResult F → W → Bool × CenterResult F × RangeResult F × W
  saveToFlash : W → W
  /-- Pushes a drift-nudged calibration; the center comes back with the live offset. -/
  applyDrift : CenterResult F → RangeResult F → W → CenterResult F × W
  readStick : W → StickSample F × W
  now : W → Time × W
  sensorFaultChanged : Bool → Fault → UInt32 → W → W
  sensorObservedHealthy : W → W

section Ticks

variable [MachineFloat F] {W : Type*} [Ports F W]

/-- The part of `on_recalibration_done` both engines share. -/
def CommonState.recalibrationDone (common : CommonState F) (ok : Bool)
    (newCenter : CenterResult F) (newRange : RangeResult F) : CommonState F :=
  { common with
    center := if ok then newCenter else common.center
    range := if ok then newRange else common.range
    drift := common.drift.reset }

/-- `on_recalibration_done` with the mouse state given. -/
def MouseState.recalibrationDone (s : MouseState F) (postSweep : StickSample F) (now : Time)
    (ok : Bool) (newCenter : CenterResult F) (newRange : RangeResult F) : MouseState F :=
  { s.releaseNudge.rebase now postSweep.x postSweep.y with
    common := s.common.recalibrationDone ok newCenter newRange
    initialised := true }

structure FaultEdge where
  faulted : Bool
  tripped : Bool
  recovered : Bool
  deriving DecidableEq, Repr

/-- Feeds the sensor monitor and reports the transition through the ports.
Called first on every tick, whatever else the tick does. -/
def sensorFaultUpdate (common : CommonState F) (input : StepInput F) (w : W) :
    FaultEdge × CommonState F × W :=
  let (faulted, sensor) := common.sensor.update input.stick.readOk input.stick.rawX
    input.stick.rawY input.stick.conversionCount
  let changed := faulted != common.sensorWasFaulted
  let edge : FaultEdge := ⟨faulted, changed && faulted, changed && !faulted⟩
  let w := if changed then
      Ports.sensorFaultChanged faulted sensor.fault sensor.faultCount w
    else w
  let goodReads := if input.stick.readOk then common.goodReads + 1 else 0
  let observes := !common.sensorObserved && !faulted &&
    decide (common.observeAfterGoodReads ≤ goodReads)
  let w := if observes then Ports.sensorObservedHealthy w else w
  (edge,
    { common with
      sensor := sensor
      sensorWasFaulted := faulted
      goodReads := goodReads
      sensorObserved := common.sensorObserved || observes },
    w)

variable [FloatMath F]

/-- One iteration's tick in mouse mode. -/
def mouseTick (s : MouseState F) (input : StepInput F) (w : W) : MouseState F × W :=
  let (edge, common, w) := sensorFaultUpdate s.common input w
  if holdsOutput input then
    ({ ({ s with common := common }.releaseNudge.rebase input.now input.stick.x input.stick.y) with
        initialised := true },
      Ports.sendMouse {} w)
  else
    let tripped := if edge.tripped then { s with common := common }.releaseNudge
      else { s with common := common }
    let s := if edge.recovered then
        { tripped.rebase input.now input.stick.x input.stick.y with initialised := true }
      else tripped
    if edge.faulted && !input.recalibrationRequested then (s, Ports.sendMouse {} w)
    else
      let (s, out) := mouseStep s input
      let w := if out.sendReport then Ports.sendMouse out.mouse w else w
      if out.runRecalibration then
        let (ok, newCenter, newRange, w) := Ports.runSweep s.common.center s.common.range w
        let (post, w) := Ports.readStick w
        let (now, w) := Ports.now w
        (s.recalibrationDone post now ok newCenter newRange, Ports.sendMouse {} w)
      else
        let (s, w) := if out.driftApplied then
            let (center, w) := Ports.applyDrift s.common.center s.common.range w
            ({ s with common := { s.common with center := center } }, w)
          else (s, w)
        (s, if out.saveCalibration then Ports.saveToFlash w else w)

/-- One iteration's tick in gamepad mode. -/
def xacTick (s : XacState F) (input : StepInput F) (w : W) : XacState F × W :=
  let (edge, common, w) := sensorFaultUpdate s.common input w
  let s := { s with common := common }
  if holdsOutput input then (s, Ports.sendXac .default w)
  else if edge.faulted && !input.recalibrationRequested then (s, Ports.sendXac .default w)
  else
    let (s, out) := xacStep s input
    let w := if out.sendReport then Ports.sendXac out.xac w else w
    if out.runRecalibration then
      let (ok, newCenter, newRange, w) := Ports.runSweep s.common.center s.common.range w
      let (_, w) := Ports.readStick w
      let (_, w) := Ports.now w
      ({ s with common := s.common.recalibrationDone ok newCenter newRange },
        Ports.sendXac .default w)
    else
      let (s, w) := if out.driftApplied then
          let (center, w) := Ports.applyDrift s.common.center s.common.range w
          ({ s with common := { s.common with center := center } }, w)
        else (s, w)
      (s, if out.saveCalibration then Ports.saveToFlash w else w)

end Ticks

/-! ## Recalibration hand-off -/

/-- The cross-task gate for "recalibrate now". -/
inductive RecalibrationGate where
  | idle
  | requested
  | running
  deriving DecidableEq, Repr

namespace RecalibrationGate

/-- Accepts a request if none is pending or running; `false` is
device_or_resource_busy. -/
def request (gate : RecalibrationGate) : Bool × RecalibrationGate :=
  if gate = idle then (true, requested) else (false, gate)

/-- `true` once per accepted request: moves it to running. -/
def take (gate : RecalibrationGate) : Bool × RecalibrationGate :=
  if gate = requested then (true, running) else (false, gate)

/-- Marks the sweep done, so a new request is accepted. -/
def finish (_ : RecalibrationGate) : RecalibrationGate := idle

end RecalibrationGate

end OmegaStick
