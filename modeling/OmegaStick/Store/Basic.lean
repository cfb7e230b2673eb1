import OmegaStick.Calibration.Persist

/-!
# The live store

`OmegaStore` holds the live calibration and settings.  Its setters are the
locked sections of the source's: each is one atomic update, and the callbacks
they fire afterwards are left to the callers' models (`Device/Tasks.lean`,
`Service/Handler.lean`).
-/

namespace OmegaStick

open MachineFloat

variable {F : Type*}

/-- The members the store's mutex guards.  `snapshot()` copies all of it. -/
structure OmegaStore (F : Type*) where
  center : CenterResult F
  range : RangeResult F
  settings : DeviceSettings F
  deriving DecidableEq, Repr

namespace OmegaStore

/-- Replaces center and range outright, manual offsets included. -/
def setCalibration (store : OmegaStore F) (center : CenterResult F) (range : RangeResult F) :
    OmegaStore F :=
  { store with center := center, range := range }

/-- Replaces the measured center and range but keeps the live manual offsets. -/
def setMeasuredCalibration (store : OmegaStore F) (center : CenterResult F)
    (range : RangeResult F) : OmegaStore F :=
  { store with
    center := center.setManualOffset store.center.manualOffsetX store.center.manualOffsetY
    range := range }

def setManualOffset (store : OmegaStore F) (offsetX offsetY : F) : OmegaStore F :=
  { store with center := store.center.setManualOffset offsetX offsetY }

/-- Sets or clears the manual deadzone overrides. -/
def setDeadzoneOverride (store : OmegaStore F)
    (manualCenterDeadzone manualRangeDeadzone : Option F) :
    OmegaStore F :=
  { store with
    settings := { store.settings with
      manualCenterDeadzone := manualCenterDeadzone
      manualRangeDeadzone := manualRangeDeadzone } }

/-- Sets the nudge-click tuning; `timeWindow` is in milliseconds. -/
def setNudgeSettings (store : OmegaStore F) (enterThreshold exitThreshold : F) (timeWindow : ℤ) :
    OmegaStore F :=
  { store with
    settings := { store.settings with
      nudgeDistanceThreshold := enterThreshold
      nudgeExitThreshold := exitThreshold
      nudgeHoldTime := timeWindow } }

def setNudgeEnabled (store : OmegaStore F) (enabled : Bool) : OmegaStore F :=
  { store with settings := { store.settings with nudgeEnabled := enabled } }

/-- The flag says whether `on_mode_changed` fires: setting the active mode does
nothing. -/
def setInputMode (store : OmegaStore F) (mode : InputMode) : Bool × OmegaStore F :=
  if store.settings.inputMode = mode then (false, store)
  else (true, { store with settings := { store.settings with inputMode := mode } })

end OmegaStore

/-- The console's edits, one setter each. -/
inductive ConsoleEdit (F : Type*) where
  | setManualOffset (offsetX offsetY : F)
  | setDeadzoneOverride (manualCenterDeadzone manualRangeDeadzone : Option F)
  | setNudgeSettings (enterThreshold exitThreshold : F) (timeWindow : ℤ)
  | setNudgeEnabled (enabled : Bool)
  | setInputMode (mode : InputMode)
  deriving DecidableEq, Repr

namespace ConsoleEdit

def apply (edit : ConsoleEdit F) (store : OmegaStore F) : OmegaStore F :=
  match edit with
  | .setManualOffset x y => store.setManualOffset x y
  | .setDeadzoneOverride center range => store.setDeadzoneOverride center range
  | .setNudgeSettings enter exit window => store.setNudgeSettings enter exit window
  | .setNudgeEnabled enabled => store.setNudgeEnabled enabled
  | .setInputMode mode => (store.setInputMode mode).2

/-- Whether the setter fires `on_calibration_changed`. -/
def fires : ConsoleEdit F → Bool
  | .setManualOffset _ _ | .setDeadzoneOverride _ _ => true
  | .setNudgeSettings .. | .setNudgeEnabled _ | .setInputMode _ => false

theorem apply_range (edit : ConsoleEdit F) (store : OmegaStore F) :
    (edit.apply store).range = store.range := by
  cases edit with
  | setInputMode mode =>
      simp only [apply, OmegaStore.setInputMode]
      split <;> rfl
  | setManualOffset | setDeadzoneOverride | setNudgeSettings | setNudgeEnabled => rfl

/-- An edit moves nothing of the center but its manual offset. -/
theorem apply_center (edit : ConsoleEdit F) (store : OmegaStore F) :
    (edit.apply store).center =
      match edit with
      | .setManualOffset x y => store.center.setManualOffset x y
      | _ => store.center := by
  cases edit with
  | setInputMode mode =>
      simp only [apply, OmegaStore.setInputMode]
      split <;> rfl
  | setManualOffset | setDeadzoneOverride | setNudgeSettings | setNudgeEnabled => rfl

theorem apply_noiseRadius (edit : ConsoleEdit F) (store : OmegaStore F) :
    (edit.apply store).center.noiseRadius = store.center.noiseRadius := by
  rw [apply_center]
  cases edit <;> rfl

end ConsoleEdit

namespace OmegaStore

/-! ## Frame lemmas -/

@[simp] theorem setMeasuredCalibration_settings (store : OmegaStore F) (center : CenterResult F)
    (range : RangeResult F) :
    (store.setMeasuredCalibration center range).settings = store.settings := rfl

@[simp] theorem setMeasuredCalibration_range (store : OmegaStore F) (center : CenterResult F)
    (range : RangeResult F) : (store.setMeasuredCalibration center range).range = range := rfl

@[simp] theorem setMeasuredCalibration_manualOffset (store : OmegaStore F)
    (center : CenterResult F) (range : RangeResult F) :
    (store.setMeasuredCalibration center range).center.manualOffset =
      store.center.manualOffset := rfl

@[simp] theorem setMeasuredCalibration_noiseRadius (store : OmegaStore F)
    (center : CenterResult F) (range : RangeResult F) :
    (store.setMeasuredCalibration center range).center.noiseRadius = center.noiseRadius := rfl

@[simp] theorem setManualOffset_manualOffset (store : OmegaStore F) (x y : F) :
    (store.setManualOffset x y).center.manualOffset = (x, y) := rfl

@[simp] theorem setManualOffset_range (store : OmegaStore F) (x y : F) :
    (store.setManualOffset x y).range = store.range := rfl

/-! ## Construction -/

section Boot

variable [MachineFloat F] [FloatText F]

/-- The limits of an override, those the service enforces on a request. -/
def overrideInRange (value limit : F) : Bool :=
  isFinite value && fle (ofRat 0) value && fle value limit

/-- A saved override outside these limits is dropped. -/
def dropOutOfRangeOverride (value : Option F) (limit : F) : Option F :=
  value.filter fun v => overrideInRange v limit

/-- The constructor: loads both files. -/
def new (files : StoreFile → Option (List UInt8)) : OmegaStore F :=
  let (_, center, range) := loadCalibration .default .default (files .calibration)
  let (_, settings) := loadSettings .default (files .settings)
  { center := center
    range := range
    settings := { settings with
      manualCenterDeadzone :=
        dropOutOfRangeOverride settings.manualCenterDeadzone maxCenterDeadzone
      manualRangeDeadzone :=
        dropOutOfRangeOverride settings.manualRangeDeadzone maxRangeDeadzone } }

/-- The filesystem operations of `save_to_flash` on one snapshot: the
calibration file first, then the settings file. -/
def saveToFlashOps (snapshot : OmegaStore F) : List (FileStore.Op StoreFile) :=
  saveCalibrationOps snapshot.center snapshot.range ++ saveSettingsOps snapshot.settings

end Boot

end OmegaStore

end OmegaStick
