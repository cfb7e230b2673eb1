import OmegaStick.Library.MachineFloat

/-!
# Calibration data

The results of a calibration sweep, the live device settings, and what they
make of the joystick, as in `omega_calibration.hpp`.  Everything is generic in
the float type `F`.
-/

namespace OmegaStick

open MachineFloat

/-- Errors the calibration routine can report (`OmegaCalibration::Error`). -/
inductive Error where
  | readFailure
  | noCenterSamples
  | noCenterNoiseSamples
  | noRangeSamples
  | fileOpenFailed
  | fileWriteFailed
  | fileParseFailed
  | fileMissingField
  | unsupportedSchema
  | calibrationUnusable
  deriving DecidableEq, Repr

namespace Error

/-- The enumerator's value; the enumeration starts at 1. -/
def value : Error → ℤ
  | readFailure => 1
  | noCenterSamples => 2
  | noCenterNoiseSamples => 3
  | noRangeSamples => 4
  | fileOpenFailed => 5
  | fileWriteFailed => 6
  | fileParseFailed => 7
  | fileMissingField => 8
  | unsupportedSchema => 9
  | calibrationUnusable => 10

/-- The error category's texts. -/
def message : Error → String
  | readFailure => "sensor read failed"
  | noCenterSamples => "no valid center samples"
  | noCenterNoiseSamples => "no valid center-noise samples"
  | noRangeSamples => "insufficient angular coverage during range calibration"
  | fileOpenFailed => "failed to open file"
  | fileWriteFailed => "failed to write file"
  | fileParseFailed => "failed to parse file"
  | fileMissingField => "file is missing a required field"
  | unsupportedSchema => "file was written by newer firmware (unsupported schema)"
  | calibrationUnusable =>
      "calibration unusable: the swept range is too small for the resting noise " ++
        "(was the stick moved to its edges?)"

end Error

variable {F : Type*}

/-- The measured center, its noise, and the manual trim on top of it. -/
structure CenterResult (F : Type*) where
  centerX : F
  centerY : F
  noiseRadius : F
  deadzone : F
  manualOffsetX : F
  manualOffsetY : F
  deriving DecidableEq, Repr

/-- The measured range of motion, relative to the center. -/
structure RangeResult (F : Type*) where
  minX : F
  maxX : F
  minY : F
  maxY : F
  usableRadius : F
  reliableMaxRadius : F
  normalizedMaxRadius : F
  deadzone : F
  sectorMaxRadius : List F
  deriving DecidableEq, Repr

/-- Which USB HID device the stick drives. The load path casts any byte to it,
so it is a byte and not a two-valued type. -/
structure InputMode where
  code : UInt8
  deriving DecidableEq, Repr

namespace InputMode

def mouse : InputMode := ⟨0⟩

def xac : InputMode := ⟨1⟩

end InputMode

/-- Live-tunable settings, edited from the console and kept in their own file. -/
structure DeviceSettings (F : Type*) where
  manualCenterDeadzone : Option F
  manualRangeDeadzone : Option F
  nudgeDistanceThreshold : F
  nudgeExitThreshold : F
  /-- `std::chrono::milliseconds` -/
  nudgeHoldTime : ℤ
  nudgeEnabled : Bool
  inputMode : InputMode
  deriving DecidableEq, Repr

section Defaults

variable [MachineFloat F]

/-- A default-constructed `CenterResult`. -/
def CenterResult.default : CenterResult F :=
  ⟨ofRat 0, ofRat 0, ofRat 0, ofRat 0, ofRat 0, ofRat 0⟩

/-- A default-constructed `RangeResult`. -/
def RangeResult.default : RangeResult F :=
  ⟨ofRat 0, ofRat 0, ofRat 0, ofRat 0, ofRat 0, ofRat 0, ofRat 0, ofRat 0, []⟩

/-- A default-constructed `DeviceSettings`: nudge clicks are off on a fresh board. -/
def DeviceSettings.default : DeviceSettings F where
  manualCenterDeadzone := none
  manualRangeDeadzone := none
  nudgeDistanceThreshold := ofRat (1 / 2)
  nudgeExitThreshold := ofRat (4 / 5)
  nudgeHoldTime := 100
  nudgeEnabled := false
  inputMode := .mouse

end Defaults

/-! ## Effective values -/

namespace CenterResult

/-- Sets the manual per-axis trim outright. -/
def setManualOffset (center : CenterResult F) (offsetX offsetY : F) : CenterResult F :=
  { center with manualOffsetX := offsetX, manualOffsetY := offsetY }

def effectiveCenterX [MachineFloat F] (center : CenterResult F) : F :=
  center.centerX + center.manualOffsetX

def effectiveCenterY [MachineFloat F] (center : CenterResult F) : F :=
  center.centerY + center.manualOffsetY

/-- The manual offset, as a pair. -/
def manualOffset (center : CenterResult F) : F × F := (center.manualOffsetX, center.manualOffsetY)

@[simp] theorem setManualOffset_manualOffset (center : CenterResult F) (x y : F) :
    (center.setManualOffset x y).manualOffset = (x, y) := rfl

@[simp] theorem setManualOffset_noiseRadius (center : CenterResult F) (x y : F) :
    (center.setManualOffset x y).noiseRadius = center.noiseRadius := rfl

end CenterResult

namespace DeviceSettings

/-- The center deadzone used at runtime. -/
def effectiveCenterDeadzone (settings : DeviceSettings F) (center : CenterResult F) : F :=
  settings.manualCenterDeadzone.getD center.deadzone

/-- The range deadzone used at runtime. -/
def effectiveRangeDeadzone (settings : DeviceSettings F) (range : RangeResult F) : F :=
  settings.manualRangeDeadzone.getD range.deadzone

end DeviceSettings

/-! ## The joystick's calibration -/

/-- `espp::FloatRangeMapper::Config`, as far as the calibration sets it. -/
structure RangeMapper (F : Type*) where
  center : F
  minimum : F
  maximum : F
  deriving DecidableEq, Repr

/-- What `espp::Joystick::set_calibration` is given. -/
structure JoystickCalibration (F : Type*) where
  x : RangeMapper F
  y : RangeMapper F
  centerDeadzoneRadius : F
  rangeDeadzone : F
  deriving DecidableEq, Repr

/-- The calibration `apply_calibration` (with settings) pushes into the
joystick, and `make_joystick_config` builds it with. -/
def applyCalibration [MachineFloat F] (center : CenterResult F) (range : RangeResult F)
    (settings : DeviceSettings F) : JoystickCalibration F where
  x := ⟨center.effectiveCenterX, center.effectiveCenterX + range.minX,
    center.effectiveCenterX + range.maxX⟩
  y := ⟨center.effectiveCenterY, center.effectiveCenterY + range.minY,
    center.effectiveCenterY + range.maxY⟩
  centerDeadzoneRadius := settings.effectiveCenterDeadzone center
  rangeDeadzone := settings.effectiveRangeDeadzone range

/-! ## Usability -/

section Usable

variable [MachineFloat F]

def centerMargin : F := ofRat (3 / 2)

def maxCenterDeadzone : F := ofRat (1 / 2)

def maxRangeDeadzone : F := ofRat (1 / 10)

def minUsableToNoiseRatio : F := centerMargin / maxCenterDeadzone

/-- The slack `load` applies for the six digits the file keeps. -/
def loadRatioTolerance : F := ofRat (1 / 1000)

/-- Whether a calibration can drive the output; `tolerance` relaxes the ratio. -/
def checkUsable (center : CenterResult F) (range : RangeResult F) (tolerance : F) : Bool :=
  let noise := center.noiseRadius
  let usable := range.usableRadius
  !(!isFinite noise || !isFinite usable || flt noise (ofRat 0) || fle usable (ofRat 0) ||
    flt usable (minUsableToNoiseRatio * noise * (ofRat 1 - tolerance)))

/-- `checkUsable` reads two fields only. -/
theorem checkUsable_congr {center center' : CenterResult F} {range range' : RangeResult F}
    (hnoise : center.noiseRadius = center'.noiseRadius)
    (husable : range.usableRadius = range'.usableRadius) (tolerance : F) :
    checkUsable center range tolerance = checkUsable center' range' tolerance := by
  simp only [checkUsable, hnoise, husable]

end Usable

end OmegaStick
