import Mathlib.Data.List.TakeWhile
import OmegaStick.Calibration.Persist

/-!
# Files of `key=value` lines, written and read back

What the two load functions parse from a file the two save functions wrote: one value
for each line, the one its text reads as.  So a calibration file loads as the calibration
that was saved, each number read back from its text (`loadCalibration_calibrationText`).
-/

namespace OmegaStick

open MachineFloat

variable {F : Type*}

/-! ## Lines -/

/-- A line of a file: its key, the text of its value, and what the text reads as. -/
structure FileEntry (F : Type*) where
  key : String
  text : List UInt8
  value : F

namespace FileEntry

/-- The line is read back. -/
structure Readable [FloatText F] (entry : FileEntry F) : Prop where
  key_noEquals : 61 ∉ ascii entry.key
  key_noNewline : 10 ∉ ascii entry.key
  noNewline : 10 ∉ entry.text
  noNul : 0 ∉ entry.text
  reads : FloatText.strtof entry.text = some entry.value

def line (entry : FileEntry F) : List UInt8 := textLine entry.key entry.text

/-- What the lines of a file are parsed as, the last one first. -/
def parsed (entries : List (FileEntry F)) : Values F :=
  (entries.map fun entry => (ascii entry.key, entry.value)).reverse

end FileEntry

open FileEntry

theorem splitAtEquals_append {key : List UInt8} (h : 61 ∉ key) (value : List UInt8) :
    splitAtEquals (key ++ 61 :: value) = some (key, value) := by
  have hkey : ∀ c ∈ key, decide (c ≠ 61) = true := fun c hc =>
    decide_eq_true fun heq => h (heq ▸ hc)
  unfold splitAtEquals
  rw [if_pos (by simp), List.takeWhile_append_of_pos hkey, List.dropWhile_append_of_pos hkey]
  simp

/-- The bytes of a text before its first NUL, when it has none. -/
theorem takeWhile_ne_zero {text : List UInt8} (h : 0 ∉ text) : text.takeWhile (· ≠ 0) = text :=
  List.takeWhile_eq_self_iff.mpr fun _ hc => decide_eq_true fun heq => h (heq ▸ hc)

/-- The parsing loop reads every line of a file. -/
theorem parseValues_lines [FloatText F] {entries : List (FileEntry F)}
    (h : ∀ entry ∈ entries, entry.Readable) (values : Values F) :
    parseValues (textLines (entries.map FileEntry.line).flatten) values =
      .ok (parsed entries ++ values) := by
  induction entries generalizing values with
  | nil => rfl
  | cons entry rest ih =>
      obtain ⟨hentry, hrest⟩ := List.forall_mem_cons.mp h
      have hline : 10 ∉ ascii entry.key ++ 61 :: entry.text := by
        rw [List.mem_append, List.mem_cons]
        rintro (hkey | hequals | htext)
        · exact hentry.key_noNewline hkey
        · exact absurd hequals (by decide)
        · exact hentry.noNewline htext
      have hlines : textLines ((entry :: rest).map FileEntry.line).flatten =
          (ascii entry.key ++ 61 :: entry.text) :: textLines (rest.map FileEntry.line).flatten := by
        rw [List.map_cons, List.flatten_cons, FileEntry.line, textLine, List.append_assoc,
          List.singleton_append]
        exact List.splitOn_append_cons_self_of_not_mem hline _
      rw [hlines, parseValues, splitAtEquals_append hentry.key_noEquals]
      dsimp only
      rw [takeWhile_ne_zero hentry.noNul, hentry.reads]
      dsimp only
      rw [ih hrest]
      simp [parsed]

/-! ## Values -/

/-- A key that one line has is found with its value. -/
theorem find_parsed {entries : List (FileEntry F)}
    (hkeys : (entries.map fun entry => ascii entry.key).Nodup) {entry : FileEntry F}
    (h : entry ∈ entries) : (parsed entries).find entry.key = some entry.value := by
  obtain ⟨before, later, rfl⟩ := List.append_of_mem h
  have hlater : ascii entry.key ∉ later.map fun entry => ascii entry.key := by
    rw [List.map_append, List.map_cons] at hkeys
    exact (List.nodup_cons.mp (List.nodup_append.mp hkeys).2.1).1
  refine List.lookup_eq_some_iff.mpr
    ⟨parsed later, parsed before, by simp [parsed], fun p hp => ?_⟩
  obtain ⟨other, hother, rfl⟩ := List.mem_map.mp (List.mem_reverse.mp hp)
  rw [bne_iff_ne]
  rintro heq
  exact hlater (List.mem_map.mpr ⟨other, hother, heq.symm⟩)

/-- A key that no line has is not found. -/
theorem find_parsed_of_not_mem {entries : List (FileEntry F)} {key : String}
    (h : ascii key ∉ entries.map fun entry => ascii entry.key) :
    (parsed entries).find key = none := by
  refine List.lookup_eq_none_iff.mpr fun p hp => ?_
  obtain ⟨other, hother, rfl⟩ := List.mem_map.mp (List.mem_reverse.mp hp)
  rw [bne_iff_ne]
  rintro heq
  exact h (List.mem_map.mpr ⟨other, hother, heq.symm⟩)

/-! ## The calibration file -/

section Calibration

variable [MachineFloat F] [FloatText F]

/-- What holds of the text of any float, infinities and NaN included: `std::strtof` reads
what `std::ostream` writes, which has no line break and no NUL. -/
class ReadableText (F : Type*) [MachineFloat F] [FloatText F] : Prop where
  print_noNewline (x : F) : 10 ∉ FloatText.print x
  print_noNul (x : F) : 0 ∉ FloatText.print x
  strtof_print (x : F) : (FloatText.strtof (FloatText.print x) : Option F).isSome = true
  strtof_one : FloatText.strtof (ascii "1") = some (ofRat 1 : F)
  isFinite_one : isFinite (ofRat 1 : F) = true
  flt_one : flt (ofRat 1 : F) (ofRat 1) = false
  feq_ffloor_one : feq (ofRat 1 : F) (ffloor (ofRat 1)) = true

/-- A line with what its text reads as. -/
def textEntry (key : String) (text : List UInt8) : FileEntry F :=
  ⟨key, text, (FloatText.strtof text).getD (ofRat 0)⟩

/-- A float that was written and is read again. -/
def asRead (x : F) : F := (FloatText.strtof (FloatText.print x)).getD (ofRat 0)

/-- The numbers of a calibration file, under their keys. -/
def calibrationNumbers (center : CenterResult F) (range : RangeResult F) : List (String × F) :=
  [("center_x", center.centerX),
    ("center_y", center.centerY),
    ("center_noise_radius", center.noiseRadius),
    ("center_deadzone", center.deadzone),
    ("center_manual_offset_x", center.manualOffsetX),
    ("center_manual_offset_y", center.manualOffsetY),
    ("range_min_x", range.minX),
    ("range_max_x", range.maxX),
    ("range_min_y", range.minY),
    ("range_max_y", range.maxY),
    ("range_usable_radius", range.usableRadius),
    ("range_reliable_max_radius", range.reliableMaxRadius),
    ("range_normalized_max_radius", range.normalizedMaxRadius),
    ("range_deadzone", range.deadzone)]

/-- The keys of a calibration file. -/
def calibrationKeys : List String :=
  ["schema", "center_x", "center_y", "center_noise_radius", "center_deadzone",
    "center_manual_offset_x", "center_manual_offset_y", "range_min_x", "range_max_x",
    "range_min_y", "range_max_y", "range_usable_radius", "range_reliable_max_radius",
    "range_normalized_max_radius", "range_deadzone"]

/-- The lines of a calibration file. -/
def calibrationEntries (center : CenterResult F) (range : RangeResult F) : List (FileEntry F) :=
  textEntry "schema" (ascii "1") ::
    (calibrationNumbers center range).map fun number =>
      textEntry number.1 (FloatText.print number.2)

/-- Each number as its text reads. -/
def CenterResult.asRead (center : CenterResult F) : CenterResult F where
  centerX := OmegaStick.asRead center.centerX
  centerY := OmegaStick.asRead center.centerY
  noiseRadius := OmegaStick.asRead center.noiseRadius
  deadzone := OmegaStick.asRead center.deadzone
  manualOffsetX := OmegaStick.asRead center.manualOffsetX
  manualOffsetY := OmegaStick.asRead center.manualOffsetY

/-- Each number as its text reads; the sectors are not kept. -/
def RangeResult.asRead (range : RangeResult F) : RangeResult F where
  minX := OmegaStick.asRead range.minX
  maxX := OmegaStick.asRead range.maxX
  minY := OmegaStick.asRead range.minY
  maxY := OmegaStick.asRead range.maxY
  usableRadius := OmegaStick.asRead range.usableRadius
  reliableMaxRadius := OmegaStick.asRead range.reliableMaxRadius
  normalizedMaxRadius := OmegaStick.asRead range.normalizedMaxRadius
  deadzone := OmegaStick.asRead range.deadzone
  sectorMaxRadius := []

variable (center : CenterResult F) (range : RangeResult F)

theorem calibrationText_eq :
    calibrationText center range = ((calibrationEntries center range).map line).flatten := rfl

/-- The keys do not depend on the numbers. -/
theorem calibrationEntries_keys :
    (calibrationEntries center range).map FileEntry.key = calibrationKeys := rfl

theorem calibrationEntries_nodup :
    ((calibrationEntries center range).map fun entry => ascii entry.key).Nodup := by
  have hmap : ((calibrationEntries center range).map fun entry => ascii entry.key) =
      ((calibrationEntries center range).map FileEntry.key).map ascii := by
    rw [List.map_map]
    rfl
  rw [hmap, calibrationEntries_keys]
  decide +kernel

/-- A number of the file is found as its text reads. -/
theorem find_calibrationEntries {number : String × F}
    (h : number ∈ calibrationNumbers center range) :
    (parsed (calibrationEntries center range)).find number.1 = some (asRead number.2) :=
  find_parsed (calibrationEntries_nodup center range)
    (List.mem_cons_of_mem _ (List.mem_map_of_mem (f := fun number : String × F =>
      (textEntry number.1 (FloatText.print number.2) : FileEntry F)) h))

section Parsed

variable {center range}

theorem getOr_calibrationEntries {key : String} {value : F} (fallback : F)
    (h : (key, value) ∈ calibrationNumbers center range) :
    (parsed (calibrationEntries center range)).getOr key fallback = asRead value := by
  rw [Values.getOr, find_calibrationEntries center range h, Option.getD_some]

/-- A saved center is parsed as its texts read. -/
theorem center_calibrationEntries :
    (parsed (calibrationEntries center range)).center = center.asRead := by
  unfold Values.center CenterResult.asRead
  congr 1
  all_goals exact getOr_calibrationEntries _ (by simp [calibrationNumbers])

/-- A saved range is parsed as its texts read. -/
theorem range_calibrationEntries :
    (parsed (calibrationEntries center range)).range = range.asRead := by
  unfold Values.range RangeResult.asRead
  dsimp only
  congr 1
  all_goals exact getOr_calibrationEntries _ (by simp [calibrationNumbers])

end Parsed

variable [ReadableText F]

open ReadableText

theorem calibrationEntries_readable :
    ∀ entry ∈ calibrationEntries center range, entry.Readable := by
  intro entry hentry
  have hkeys : ∀ key ∈ calibrationKeys, 61 ∉ ascii key ∧ 10 ∉ ascii key := by decide +kernel
  have hmem := List.mem_map_of_mem (f := FileEntry.key) hentry
  rw [calibrationEntries_keys] at hmem
  have hkey := hkeys _ hmem
  rcases List.mem_cons.mp hentry with rfl | hentry
  · have hone : 10 ∉ ascii "1" ∧ 0 ∉ ascii "1" := by decide
    refine ⟨hkey.1, hkey.2, hone.1, hone.2, ?_⟩
    simp only [textEntry, strtof_one, Option.getD_some]
  · obtain ⟨number, -, rfl⟩ := List.mem_map.mp hentry
    obtain ⟨value, hread⟩ := Option.isSome_iff_exists.mp (strtof_print number.2)
    refine ⟨hkey.1, hkey.2, print_noNewline _, print_noNul _, ?_⟩
    simp only [textEntry, hread, Option.getD_some]

/-- What `load` parses from a saved file. -/
theorem loadValues_calibrationText :
    loadValues (some (calibrationText center range)) =
      .ok (parsed (calibrationEntries center range)) := by
  have hparse := parseValues_lines (calibrationEntries_readable center range) []
  have hschema : (parsed (calibrationEntries center range)).find "schema" =
      some (textEntry "schema" (ascii "1")).value :=
    find_parsed (calibrationEntries_nodup center range) List.mem_cons_self
  have hone : (textEntry "schema" (ascii "1") : FileEntry F).value = ofRat 1 := by
    simp only [textEntry, strtof_one, Option.getD_some]
  have hcheck : checkSchema (parsed (calibrationEntries center range)) = .ok () := by
    unfold checkSchema
    rw [hschema, hone]
    simp [isFinite_one, flt_one, feq_ffloor_one, schemaVersion]
  unfold loadValues
  dsimp only
  rw [calibrationText_eq, hparse, List.append_nil]
  dsimp only
  rw [hcheck]

variable {center range}

/-- Loading a saved calibration gives it back as its texts read, as far as it is still usable. -/
theorem loadCalibration_calibrationText (liveCenter : CenterResult F)
    (liveRange : RangeResult F) :
    loadCalibration liveCenter liveRange (some (calibrationText center range)) =
      if checkUsable center.asRead range.asRead loadRatioTolerance then
        (none, center.asRead, range.asRead)
      else (some .calibrationUnusable, center.asRead, range.asRead) := by
  have hrequired : requiredKeys.any (fun key =>
      ((parsed (calibrationEntries center range)).find key).isNone) = false := by
    have hfound {key : String} {value : F} (h : (key, value) ∈ calibrationNumbers center range) :
        ((parsed (calibrationEntries center range)).find key).isNone = false := by
      rw [find_calibrationEntries center range h]
      rfl
    rw [List.any_eq_false]
    intro key hkey
    rw [Bool.not_eq_true]
    have hnumbers : (calibrationNumbers center range).map Prod.fst = calibrationKeys.tail := rfl
    have hsubset : ∀ key ∈ requiredKeys, key ∈ calibrationKeys.tail := by decide
    have hmem := hsubset key hkey
    rw [← hnumbers] at hmem
    obtain ⟨number, hnumber, rfl⟩ := List.mem_map.mp hmem
    exact hfound hnumber
  unfold loadCalibration
  rw [loadValues_calibrationText]
  dsimp only
  rw [hrequired, center_calibrationEntries, range_calibrationEntries]
  rfl

end Calibration

end OmegaStick
