import OmegaStick.Calibration.Types
import OmegaStick.Library.PowerCut

/-!
# The two persisted files

`OmegaCalibration::save` / `load` and `DeviceSettings::save` / `load`: text
files of `key=value` lines.  A file's content is a list of bytes, and a save is
the sequence of filesystem operations it makes, so that a power cut can fall
between any two of them.
-/

namespace OmegaStick

open MachineFloat

/-- The bytes of an ASCII literal. -/
def ascii (text : String) : List UInt8 := text.toList.map fun c => c.toNat.toUInt8

/-- The two files the device keeps. -/
inductive StoreFile where
  | calibration
  | settings
  deriving DecidableEq, Repr

variable {F : Type*}

/-! ## Reading `key=value` lines -/

/-- `std::getline` over a whole file. -/
def textLines (text : List UInt8) : List (List UInt8) := text.splitOn 10

/-- The text before the first `=` and the text after it. -/
def splitAtEquals (line : List UInt8) : Option (List UInt8 × List UInt8) :=
  if 61 ∈ line then some (line.takeWhile (· ≠ 61), (line.dropWhile (· ≠ 61)).tail) else none

/-- The parsed values, latest assignment first. -/
abbrev Values (F : Type*) := List (List UInt8 × F)

/-- `values.find(key)` -/
def Values.find (values : Values F) (key : String) : Option F := values.lookup (ascii key)

section Load

variable [FloatText F]

/-- The parsing loop of both load functions. -/
def parseValues : List (List UInt8) → Values F → Except Error (Values F)
  | [], values => .ok values
  | line :: rest, values =>
      match splitAtEquals line with
      | none => parseValues rest values
      | some (key, value) =>
          -- `c_str()` ends at the first NUL
          match FloatText.strtof (value.takeWhile (· ≠ 0)) with
          | none => .error .fileParseFailed
          | some parsed => parseValues rest ((key, parsed) :: values)

variable [MachineFloat F]

def schemaVersion : ℤ := 1

/-- Checks the optional `schema` value parsed from a file. -/
def checkSchema (values : Values F) : Except Error Unit :=
  match values.find "schema" with
  | none => .ok ()
  | some v =>
      if !isFinite v || flt v (ofRat 1) || !feq v (ffloor v) then .error .fileParseFailed
      else if flt (ofRat schemaVersion) v then .error .unsupportedSchema
      else .ok ()

/-- Opens, parses and checks a file. -/
def loadValues (file : Option (List UInt8)) : Except Error (Values F) :=
  match file with
  | none => .error .fileOpenFailed
  | some text =>
      match parseValues (textLines text) [] with
      | .error e => .error e
      | .ok values =>
          match checkSchema values with
          | .error e => .error e
          | .ok () => .ok values

/-! ## The calibration file -/

/-- The keys `OmegaCalibration::load` requires. -/
def requiredKeys : List String :=
  ["center_x", "center_y", "center_deadzone", "range_min_x", "range_max_x", "range_min_y",
    "range_max_y", "range_deadzone"]

/-- A value the file may lack. -/
def Values.getOr (values : Values F) (key : String) (fallback : F) : F :=
  (values.find key).getD fallback

/-- The center a parsed file holds. -/
def Values.center (values : Values F) : CenterResult F where
  centerX := values.getOr "center_x" (ofRat 0)
  centerY := values.getOr "center_y" (ofRat 0)
  noiseRadius := values.getOr "center_noise_radius" (ofRat 0)
  deadzone := values.getOr "center_deadzone" (ofRat 0)
  manualOffsetX := values.getOr "center_manual_offset_x" (ofRat 0)
  manualOffsetY := values.getOr "center_manual_offset_y" (ofRat 0)

/-- The range a parsed file holds; a missing usable radius is worked out from
the bounds. -/
def Values.range (values : Values F) : RangeResult F :=
  let minX := values.getOr "range_min_x" (ofRat 0)
  let maxX := values.getOr "range_max_x" (ofRat 0)
  let minY := values.getOr "range_min_y" (ofRat 0)
  let maxY := values.getOr "range_max_y" (ofRat 0)
  { minX := minX, maxX := maxX, minY := minY, maxY := maxY
    usableRadius := values.getOr "range_usable_radius"
      (fmin (fmin (fmin (fabs minX) (fabs maxX)) (fabs minY)) (fabs maxY))
    reliableMaxRadius := values.getOr "range_reliable_max_radius" (ofRat 0)
    normalizedMaxRadius := values.getOr "range_normalized_max_radius" (ofRat 0)
    deadzone := values.getOr "range_deadzone" (ofRat 0)
    sectorMaxRadius := [] }

/-- `OmegaCalibration::load`.  An error other than `calibrationUnusable` leaves
both references as they were. -/
def loadCalibration (center : CenterResult F) (range : RangeResult F)
    (file : Option (List UInt8)) : Option Error × CenterResult F × RangeResult F :=
  match loadValues file with
  | .error e => (some e, center, range)
  | .ok values =>
      if requiredKeys.any fun key => (values.find key).isNone then
        (some .fileMissingField, center, range)
      else if checkUsable values.center values.range loadRatioTolerance then
        (none, values.center, values.range)
      else (some .calibrationUnusable, values.center, values.range)

/-- A file `load` accepts has passed `check_usable`, with the load tolerance. -/
theorem checkUsable_of_loadCalibration {center : CenterResult F} {range : RangeResult F}
    {file : Option (List UInt8)}
    (h : (loadCalibration center range file).1 = none) :
    checkUsable (loadCalibration center range file).2.1 (loadCalibration center range file).2.2
      loadRatioTolerance = true := by
  unfold loadCalibration at h ⊢
  cases hvalues : loadValues (F := F) file with
  | error e => simp [hvalues] at h
  | ok values =>
      simp only [hvalues] at h ⊢
      split at h
      · simp at h
      · rename_i hfields
        rw [if_neg hfields]
        split at h
        · rename_i husable
          rw [if_pos husable]
          exact husable
        · simp at h

/-! ## The settings file -/

/-- `DeviceSettings::load`: every field is optional in the file.  A missing
`nudge_enabled` reads as on, for files older than the switch. -/
def loadSettings (settings : DeviceSettings F) (file : Option (List UInt8)) :
    Option Error × DeviceSettings F :=
  match loadValues file with
  | .error e => (some e, settings)
  | .ok values =>
      (none,
        { manualCenterDeadzone := values.find "manual_center_deadzone"
          manualRangeDeadzone := values.find "manual_range_deadzone"
          nudgeDistanceThreshold := values.getOr "nudge_distance_threshold" (ofRat (1 / 2))
          nudgeExitThreshold := values.getOr "nudge_exit_threshold" (ofRat (4 / 5))
          nudgeHoldTime := ((values.find "nudge_hold_time_ms").map toInt).getD 100
          nudgeEnabled :=
            ((values.find "nudge_enabled").map fun v => !feq v (ofRat 0)).getD true
          inputMode :=
            ((values.find "input_mode").map fun v =>
              ⟨UInt8.ofNat (toInt v % 256).toNat⟩).getD .mouse })

end Load

/-! ## Writing -/

section Save

variable [FloatText F]

/-- `out << key << value << "\n"`, with the `=` in between. -/
def textLine (key : String) (value : List UInt8) : List UInt8 :=
  ascii key ++ 61 :: value ++ [10]

/-- The lines `OmegaCalibration::save` writes. -/
def calibrationLines (center : CenterResult F) (range : RangeResult F) : List (List UInt8) :=
  [textLine "schema" (ascii "1"),
    textLine "center_x" (FloatText.print center.centerX),
    textLine "center_y" (FloatText.print center.centerY),
    textLine "center_noise_radius" (FloatText.print center.noiseRadius),
    textLine "center_deadzone" (FloatText.print center.deadzone),
    textLine "center_manual_offset_x" (FloatText.print center.manualOffsetX),
    textLine "center_manual_offset_y" (FloatText.print center.manualOffsetY),
    textLine "range_min_x" (FloatText.print range.minX),
    textLine "range_max_x" (FloatText.print range.maxX),
    textLine "range_min_y" (FloatText.print range.minY),
    textLine "range_max_y" (FloatText.print range.maxY),
    textLine "range_usable_radius" (FloatText.print range.usableRadius),
    textLine "range_reliable_max_radius" (FloatText.print range.reliableMaxRadius),
    textLine "range_normalized_max_radius" (FloatText.print range.normalizedMaxRadius),
    textLine "range_deadzone" (FloatText.print range.deadzone)]

/-- A line for an override, when it is set. -/
def overrideLine (key : String) (value : Option F) : List (List UInt8) :=
  value.toList.map fun v => textLine key (FloatText.print v)

/-- The lines `DeviceSettings::save` writes. -/
def settingsLines [MachineFloat F] (settings : DeviceSettings F) : List (List UInt8) :=
  textLine "schema" (ascii "1") ::
    (overrideLine "manual_center_deadzone" settings.manualCenterDeadzone ++
      overrideLine "manual_range_deadzone" settings.manualRangeDeadzone ++
      [textLine "nudge_distance_threshold" (FloatText.print settings.nudgeDistanceThreshold),
        textLine "nudge_exit_threshold" (FloatText.print settings.nudgeExitThreshold),
        textLine "nudge_hold_time_ms" (FloatText.print (ofRat settings.nudgeHoldTime : F)),
        textLine "nudge_enabled" (ascii (if settings.nudgeEnabled then "1" else "0")),
        textLine "input_mode" (FloatText.print (ofRat settings.inputMode.code.toNat : F))])

/-- The file `OmegaCalibration::save` leaves. -/
def calibrationText (center : CenterResult F) (range : RangeResult F) : List UInt8 :=
  (calibrationLines center range).flatten

/-- The file `DeviceSettings::save` leaves. -/
def settingsText [MachineFloat F] (settings : DeviceSettings F) : List UInt8 :=
  (settingsLines settings).flatten

theorem calibrationText_ne_nil (center : CenterResult F) (range : RangeResult F) :
    calibrationText center range ≠ [] := by
  simp [calibrationText, calibrationLines, textLine]

theorem settingsText_ne_nil [MachineFloat F] (settings : DeviceSettings F) :
    settingsText settings ≠ [] := by
  simp [settingsText, settingsLines, textLine]

open FileStore in
/-- The filesystem operations of `OmegaCalibration::save`: each file is opened
with truncation, written, flushed, and closed by the stream's destructor. -/
def saveCalibrationOps (center : CenterResult F) (range : RangeResult F) :
    List (Op StoreFile) :=
  replaceInPlace .calibration (calibrationLines center range)

open FileStore in
/-- The filesystem operations of `DeviceSettings::save`. -/
def saveSettingsOps [MachineFloat F] (settings : DeviceSettings F) : List (Op StoreFile) :=
  replaceInPlace .settings (settingsLines settings)

end Save

end OmegaStick
