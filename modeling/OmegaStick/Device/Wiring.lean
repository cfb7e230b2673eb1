import OmegaStick.Service.Effects
import OmegaStick.Control.Tick

/-!
# What `main.cpp` wires together

The state the console's tasks and the polling loop share besides the store and
the OTA engine, and the configuration `main.cpp` gives both calibration
services.
-/

namespace OmegaStick

open SensorFaultMonitor

variable {F : Type*}

/-! ## The links -/

/-- The two USB streams, each with a service of its own. -/
inductive LinkId where
  | vendor
  | cdc
  deriving DecidableEq, Repr

def LinkId.other : LinkId → LinkId
  | .vendor => .cdc
  | .cdc => .vendor

theorem LinkId.other_ne (id : LinkId) : id.other ≠ id := by cases id <;> decide

theorem LinkId.eq_or_eq_other (i id : LinkId) : i = id ∨ i = id.other := by
  cases i <;> cases id <;> simp [other]

/-! ## The published sensor status -/

/-- `SensorFaultStatus` -/
structure SensorFaultStatus where
  fault : UInt8
  firstFault : UInt8
  count : UInt32
  deriving DecidableEq, Repr

namespace SensorFaultStatus

def new : SensorFaultStatus := ⟨sensorNotObserved, 0, 0⟩

def publish (status : SensorFaultStatus) (faulted : Bool) (faultKind : Fault)
    (faultCount : UInt32) : SensorFaultStatus where
  fault := if faulted then faultKind.code else Fault.none.code
  firstFault := if faulted && status.firstFault == 0 then faultKind.code else status.firstFault
  count := faultCount

/-- `observed_healthy`: only replaces "not observed". -/
def observedHealthy (status : SensorFaultStatus) : SensorFaultStatus :=
  if status.fault = sensorNotObserved then { status with fault := 0 } else status

end SensorFaultStatus

/-! ## The shared state -/

/-- The locals of `run_omega_stick` that more than one task touches. -/
structure Device (F : Type*) where
  recalibrationGate : RecalibrationGate
  outputHolds : ℤ
  needsCalibration : Bool
  sensorStatus : SensorFaultStatus
  /-- What was last applied to the joystick; `none` while the pointer is null. -/
  liveJoystick : Option (JoystickCalibration F)
  /-- What the filesystem answers to the next save. -/
  saveError : Option ErrorCode
  bootCount : UInt32
  resets : List DiagnosticsReset
  deriving DecidableEq

namespace Device

/-- `make_diagnostics` -/
def diagnostics (device : Device F) : DiagnosticsData where
  calibrationState := if device.needsCalibration then calibrationNeeded else calibrationUsable
  sensorFault := device.sensorStatus.fault
  sensorFirstFault := device.sensorStatus.firstFault
  sensorFaultCount := device.sensorStatus.count
  bootCount := device.bootCount
  resets := device.resets

/-- `on_calibration_changed`: applied live once the joystick exists. -/
def onCalibrationChanged [MachineFloat F] (store : OmegaStore F) (device : Device F) : Device F :=
  { device with
    liveJoystick := device.liveJoystick.map fun _ =>
      applyCalibration store.center store.range store.settings }

/-- `Config::start_calibration`: the gate's `request`. -/
def startCalibration (errc : ErrcTable) (device : Device F) : Option ErrorCode × Device F :=
  match device.recalibrationGate.request with
  | (true, gate) => (none, { device with recalibrationGate := gate })
  | (false, gate) =>
      (some (errc.makeErrorCode .deviceOrResourceBusy), { device with recalibrationGate := gate })

/-- `Config::output_hold`: one counter for all services. -/
def outputHold (hold : Bool) (device : Device F) : Device F :=
  { device with outputHolds := if hold then device.outputHolds + 1 else device.outputHolds - 1 }

end Device

/-- What `main.cpp` configures both services with; `ota` is
`CONFIG_OMEGA_STICK_OTA`. `on_mode_changed` saves and restarts the device,
which ends the run. -/
def calibrationConfig [MachineFloat F] (errc : ErrcTable) (ota : Bool) :
    CalibrationService.Config F (Device F) where
  moduleId := kModule
  errc := errc
  startCalibration := some (Device.startCalibration errc)
  restart := true
  ota := ota
  diagnostics := some Device.diagnostics
  outputHold := some Device.outputHold
  saveToFlash _ device := (device.saveError, device)
  onCalibrationChanged := Device.onCalibrationChanged
  onModeChanged _ _ device := device

end OmegaStick
