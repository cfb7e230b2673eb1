import OmegaStick.Library.DecimalFloat
import OmegaStick.Calibration.FileRoundTrip
import OmegaStick.Device.Limits

/-!
# The settings file, written and read back

`DeviceSettings::load` of the file `DeviceSettings::save` wrote, for every settings the
console can set.  The switch, the mode and the presence of the overrides come back, and
each float to six significant digits; so does the hold time, which goes through a float
and six digits too although it is a whole number (`settings_restored_iff`).
-/

namespace OmegaStick

open MachineFloat DecimalText DecimalFloat
open FileEntry hiding value

variable {F : Type*} [MachineFloat F] [FloatText F]

/-! ## The lines of the file -/

def overrideEntry (key : String) (value : Option F) : List (FileEntry F) :=
  value.toList.map fun v => textEntry key (FloatText.print v)

/-- The lines of a settings file. -/
def settingsEntries (settings : DeviceSettings F) : List (FileEntry F) :=
  textEntry "schema" (ascii "1") ::
    (overrideEntry "manual_center_deadzone" settings.manualCenterDeadzone ++
      overrideEntry "manual_range_deadzone" settings.manualRangeDeadzone ++
      [textEntry "nudge_distance_threshold" (FloatText.print settings.nudgeDistanceThreshold),
        textEntry "nudge_exit_threshold" (FloatText.print settings.nudgeExitThreshold),
        textEntry "nudge_hold_time_ms" (FloatText.print (ofRat settings.nudgeHoldTime : F)),
        textEntry "nudge_enabled" (ascii (if settings.nudgeEnabled then "1" else "0")),
        textEntry "input_mode" (FloatText.print (ofRat settings.inputMode.code.toNat : F))])

theorem settingsText_eq (settings : DeviceSettings F) :
    settingsText settings = ((settingsEntries settings).map line).flatten := by
  cases hcenter : settings.manualCenterDeadzone <;> cases hrange : settings.manualRangeDeadzone <;>
    simp [settingsText, settingsLines, settingsEntries, overrideLine, overrideEntry, textEntry,
      line, hcenter, hrange]

/-- The keys of a settings file; an override has a line when it is set. -/
def settingsKeys (center range : Bool) : List String :=
  "schema" :: ((if center then ["manual_center_deadzone"] else []) ++
    (if range then ["manual_range_deadzone"] else []) ++
    ["nudge_distance_threshold", "nudge_exit_threshold", "nudge_hold_time_ms", "nudge_enabled",
      "input_mode"])

theorem settingsEntries_keys (settings : DeviceSettings F) :
    (settingsEntries settings).map FileEntry.key =
      settingsKeys settings.manualCenterDeadzone.isSome settings.manualRangeDeadzone.isSome := by
  cases hcenter : settings.manualCenterDeadzone <;> cases hrange : settings.manualRangeDeadzone <;>
    simp [settingsEntries, overrideEntry, textEntry, settingsKeys, hcenter, hrange]

theorem settingsEntries_ascii (settings : DeviceSettings F) :
    ((settingsEntries settings).map fun entry => ascii entry.key) =
      (settingsKeys settings.manualCenterDeadzone.isSome
        settings.manualRangeDeadzone.isSome).map ascii := by
  rw [← settingsEntries_keys, List.map_map]
  rfl

theorem settingsKeys_nodup (center range : Bool) :
    ((settingsKeys center range).map ascii).Nodup := by
  revert center range
  decide +kernel

theorem settingsKeys_clean (center range : Bool) :
    ∀ key ∈ settingsKeys center range, 61 ∉ ascii key ∧ 10 ∉ ascii key := by
  revert center range
  decide +kernel

theorem center_not_mem_keys (range : Bool) :
    ascii "manual_center_deadzone" ∉ (settingsKeys false range).map ascii := by
  revert range
  decide +kernel

theorem range_not_mem_keys (center : Bool) :
    ascii "manual_range_deadzone" ∉ (settingsKeys center false).map ascii := by
  revert center
  decide +kernel

/-! ## What is read back -/

section Read

variable [DecimalFloat F]

/-- A decimal number is read as the nearest float. -/
theorem strtof_getD {text : List UInt8} {q : ℚ} (h : Reads text q) :
    FloatText.strtof text = some ((FloatText.strtof text).getD (ofRat 0 : F)) ∧
      value ((FloatText.strtof text).getD (ofRat 0 : F)) = value (ofRat q : F) ∧
      isFinite ((FloatText.strtof text).getD (ofRat 0 : F)) = isFinite (ofRat q : F) := by
  obtain ⟨y, hread, hvalue⟩ := strtof_eq (F := F) h.1 h.2
  rw [hread]
  exact ⟨rfl, hvalue⟩

theorem value_asRead {x : F} (h : isFinite x = true) : value (asRead x) = reread x :=
  (strtof_getD (reads_print h)).2.1

theorem textEntry_readable {key : String} {text : List UInt8} {q : ℚ}
    (hkey : 61 ∉ ascii key ∧ 10 ∉ ascii key) (h : Reads text q) :
    (textEntry key text : FileEntry F).Readable :=
  ⟨hkey.1, hkey.2, fun hc => absurd (h.1 _ hc) (by decide),
    fun hc => absurd (h.1 _ hc) (by decide), (strtof_getD h).1⟩

theorem reads_one : Reads (ascii "1") 1 := ⟨by decide +kernel, by decide +kernel⟩

theorem reads_zero : Reads (ascii "0") 0 := ⟨by decide +kernel, by decide +kernel⟩

variable {settings : DeviceSettings F}

/-- Every float of the settings is finite. -/
structure DeviceSettings.Finite (settings : DeviceSettings F) : Prop where
  centerOverride : ∀ v ∈ settings.manualCenterDeadzone, isFinite v = true
  rangeOverride : ∀ v ∈ settings.manualRangeDeadzone, isFinite v = true
  enter : isFinite settings.nudgeDistanceThreshold = true
  exit : isFinite settings.nudgeExitThreshold = true
  holdTime : HoldTimeInLimits settings.nudgeHoldTime

theorem isFinite_natCast {n : ℕ} (h : n < 2 ^ 33) : isFinite (ofRat n : F) = true := by
  refine isFinite_ofRat ?_
  rw [abs_of_nonneg (Nat.cast_nonneg n)]
  have hlt : (n : ℚ) < 2 ^ 33 := by exact_mod_cast h
  linarith

theorem isFinite_holdTime {ms : ℤ} (h : HoldTimeInLimits ms) :
    isFinite (ofRat ms : F) = true := by
  obtain ⟨hlow, hhigh⟩ := h
  obtain ⟨n, rfl⟩ := Int.eq_ofNat_of_zero_le hlow
  have hfinite := isFinite_natCast (F := F) (n := n) (by omega)
  exact_mod_cast hfinite

theorem DeviceSettings.InLimits.finite (h : settings.InLimits) : settings.Finite := by
  have hone : isFinite (ofRat 1 : F) = true := isFinite_ofRat (by norm_num)
  have hoverride : ∀ (v limit : F), OmegaStore.overrideInRange v limit = true →
      isFinite v = true := by
    intro v limit hv
    unfold OmegaStore.overrideInRange at hv
    rw [Bool.and_eq_true, Bool.and_eq_true] at hv
    exact hv.1.1
  exact
    { centerOverride := fun v hv => hoverride v _ (h.centerOverride v hv)
      rangeOverride := fun v hv => hoverride v _ (h.rangeOverride v hv)
      enter := isFinite_of_fle (fle_of_flt h.enter.1) h.enter.2 hone
      exit := isFinite_of_fle h.exit.1 h.exit.2 hone
      holdTime := h.holdTime }

theorem settingsEntries_readable (h : settings.Finite) :
    ∀ entry ∈ settingsEntries settings, entry.Readable := by
  intro entry hentry
  have hmem := List.mem_map_of_mem (f := FileEntry.key) hentry
  rw [settingsEntries_keys] at hmem
  have hkey := settingsKeys_clean _ _ _ hmem
  have hmode := isFinite_natCast (F := F) (n := settings.inputMode.code.toNat)
    (lt_of_lt_of_le settings.inputMode.code.toNat_lt (by norm_num))
  have hhold := isFinite_holdTime (F := F) h.holdTime
  have henabled : Reads (ascii (if settings.nudgeEnabled then "1" else "0"))
      (if settings.nudgeEnabled then 1 else 0) := by
    cases settings.nudgeEnabled
    · exact reads_zero
    · exact reads_one
  simp only [settingsEntries, overrideEntry, List.mem_cons, List.mem_append, List.mem_map,
    Option.mem_toList, List.not_mem_nil, or_false] at hentry
  rcases hentry with rfl | ((⟨v, hv, rfl⟩ | ⟨v, hv, rfl⟩) | rfl | rfl | rfl | rfl | rfl)
  · exact textEntry_readable hkey reads_one
  · exact textEntry_readable hkey (reads_print (h.centerOverride v hv))
  · exact textEntry_readable hkey (reads_print (h.rangeOverride v hv))
  · exact textEntry_readable hkey (reads_print h.enter)
  · exact textEntry_readable hkey (reads_print h.exit)
  · exact textEntry_readable hkey (reads_print hhold)
  · exact textEntry_readable hkey henabled
  · exact textEntry_readable hkey (reads_print hmode)

omit [DecimalFloat F] in
/-- A line of the file is found under its key. -/
theorem find_settingsEntries {key : String} {text : List UInt8}
    (h : (textEntry key text : FileEntry F) ∈ settingsEntries settings) :
    (parsed (settingsEntries settings)).find key =
      some ((FloatText.strtof text).getD (ofRat 0)) :=
  find_parsed (by rw [settingsEntries_ascii]; exact settingsKeys_nodup _ _) h

/-- The whole number a text reads as. -/
theorem value_natCast {text : List UInt8} {n : ℕ} (hn : n ≤ 2 ^ 24) (h : Reads text n) :
    value ((FloatText.strtof text).getD (ofRat 0 : F)) = n ∧
      isFinite ((FloatText.strtof text).getD (ofRat 0 : F)) = true := by
  obtain ⟨-, hvalue, hfinite⟩ := strtof_getD (F := F) h
  exact ⟨hvalue.trans (value_ofRat_natCast hn),
    hfinite.trans (isFinite_natCast (lt_of_le_of_lt hn (by norm_num)))⟩

/-- The schema is accepted. -/
theorem checkSchema_settingsEntries :
    checkSchema (parsed (settingsEntries settings)) = .ok () := by
  have hfound : (parsed (settingsEntries settings)).find "schema" =
      some ((FloatText.strtof (ascii "1")).getD (ofRat 0)) :=
    find_settingsEntries List.mem_cons_self
  obtain ⟨hvalue, hfinite⟩ := value_natCast (F := F) (n := 1) (by norm_num) reads_one
  unfold checkSchema
  rw [hfound]
  generalize (FloatText.strtof (ascii "1")).getD (ofRat 0 : F) = v at hvalue hfinite ⊢
  have hone : isFinite (ofRat 1 : F) = true := isFinite_ofRat (by norm_num)
  have hvalueOne : value (ofRat 1 : F) = 1 := by
    have hcast := value_ofRat_natCast (F := F) (n := 1) (by norm_num)
    exact_mod_cast hcast
  have hlow : flt v (ofRat 1) = false := by
    rw [Bool.eq_false_iff, Ne, flt_iff hfinite hone, hvalue, hvalueOne]
    norm_num
  have hhigh : flt (ofRat 1) v = false := by
    rw [Bool.eq_false_iff, Ne, flt_iff hone hfinite, hvalue, hvalueOne]
    norm_num
  have hwhole : feq v (ffloor v) = true := by
    rw [feq_iff hfinite (isFinite_ffloor hfinite), value_ffloor hfinite, hvalue]
    rfl
  have hversion : (ofRat schemaVersion : F) = ofRat 1 := by
    simp [schemaVersion]
  simp [hfinite, hlow, hwhole, hversion, hhigh]

/-- The settings a saved file loads as. -/
def DeviceSettings.reloaded (settings : DeviceSettings F) : DeviceSettings F where
  manualCenterDeadzone := settings.manualCenterDeadzone.map asRead
  manualRangeDeadzone := settings.manualRangeDeadzone.map asRead
  nudgeDistanceThreshold := asRead settings.nudgeDistanceThreshold
  nudgeExitThreshold := asRead settings.nudgeExitThreshold
  nudgeHoldTime := toInt (asRead (ofRat settings.nudgeHoldTime : F))
  nudgeEnabled := settings.nudgeEnabled
  inputMode := settings.inputMode

omit [DecimalFloat F] in
/-- An override is found when it was set. -/
theorem find_centerOverride :
    (parsed (settingsEntries settings)).find "manual_center_deadzone" =
      settings.manualCenterDeadzone.map asRead := by
  cases hcenter : settings.manualCenterDeadzone with
  | none =>
      refine find_parsed_of_not_mem ?_
      rw [settingsEntries_ascii, hcenter]
      exact center_not_mem_keys _
  | some v =>
      exact find_settingsEntries (by simp [settingsEntries, overrideEntry, hcenter])

omit [DecimalFloat F] in
theorem find_rangeOverride :
    (parsed (settingsEntries settings)).find "manual_range_deadzone" =
      settings.manualRangeDeadzone.map asRead := by
  cases hrange : settings.manualRangeDeadzone with
  | none =>
      refine find_parsed_of_not_mem ?_
      rw [settingsEntries_ascii, hrange]
      exact range_not_mem_keys _
  | some v =>
      exact find_settingsEntries (by simp [settingsEntries, overrideEntry, hrange])

/-- The switch is read back. -/
theorem feq_enabled (enabled : Bool) :
    (!feq ((FloatText.strtof (ascii (if enabled then "1" else "0"))).getD (ofRat 0 : F))
      (ofRat 0)) =
      enabled := by
  have hzero : isFinite (ofRat 0 : F) = true := isFinite_ofRat (by norm_num)
  have hvalueZero : value (ofRat 0 : F) = 0 := by
    have hcast := value_ofRat_natCast (F := F) (n := 0) (by norm_num)
    exact_mod_cast hcast
  cases enabled with
  | false =>
      obtain ⟨hvalue, hfinite⟩ := value_natCast (F := F) (n := 0) (by norm_num) reads_zero
      have heq : feq ((FloatText.strtof (ascii "0")).getD (ofRat 0 : F)) (ofRat 0) = true := by
        rw [feq_iff hfinite hzero, hvalue, hvalueZero]
        rfl
      simp [heq]
  | true =>
      obtain ⟨hvalue, hfinite⟩ := value_natCast (F := F) (n := 1) (by norm_num) reads_one
      have hne : feq ((FloatText.strtof (ascii "1")).getD (ofRat 0 : F)) (ofRat 0) = false := by
        rw [Bool.eq_false_iff, Ne, feq_iff hfinite hzero, hvalue, hvalueZero]
        norm_num
      simp [hne]

/-- A whole number is read back as the integer it was rounded to. -/
theorem toInt_asRead {n : ℕ} (hn : n < 2 ^ 32) :
    ∃ m : ℕ, reread (ofRat n : F) = m ∧ toInt (asRead (ofRat n : F)) = m := by
  obtain ⟨p, hlt, -, hp⟩ := exists_roundSix_value_ofRat (F := F) hn
  obtain ⟨m, hm, -⟩ := exists_value_ofRat (F := F) (n := p) (by omega)
  have herror := abs_le.mp (abs_value_ofRat_sub_le (F := F) (n := p) (by omega))
  have hfinite : isFinite (ofRat n : F) = true := isFinite_natCast (by omega)
  have hreread : reread (ofRat n : F) = m := by rw [reread, hp, hm]
  have hread : isFinite (asRead (ofRat n : F)) = true := by
    have hreads := (strtof_getD (F := F) (reads_print hfinite)).2.2
    rw [hp] at hreads
    exact hreads.trans (isFinite_natCast hlt)
  have hvalue := (value_asRead hfinite).trans hreread
  have hbound : (m : ℚ) < 2 ^ 63 := by
    have hp' : (p : ℚ) < 2 ^ 33 := by exact_mod_cast hlt
    rw [hm] at herror
    linarith [herror.2]
  refine ⟨m, hreread, ?_⟩
  have hnonneg : 0 ≤ value (asRead (ofRat n : F)) := by
    rw [hvalue]
    exact Nat.cast_nonneg m
  rw [toInt_eq hread hnonneg (hvalue ▸ hbound), hvalue]
  exact Int.floor_natCast (R := ℚ) m

/-- The mode is read back. -/
theorem inputMode_asRead (mode : InputMode) :
    (⟨UInt8.ofNat (toInt (asRead (ofRat mode.code.toNat : F)) % 256).toNat⟩ : InputMode) =
      mode := by
  have hlt : mode.code.toNat < 256 := mode.code.toNat_lt
  obtain ⟨m, hreread, hm⟩ := toInt_asRead (F := F) (n := mode.code.toNat) (by omega)
  have hkept : reread (ofRat mode.code.toNat : F) = mode.code.toNat := by
    have hdigits : SixDigits (mode.code.toNat : ℚ) := sixDigits_natCast (by omega)
    exact (reread_natCast_iff (by omega)).mpr
      ⟨mode.code.toNat, by omega, hdigits, value_ofRat_natCast (by omega)⟩
  have hsame : m = mode.code.toNat := by exact_mod_cast hreread.symm.trans hkept
  rw [hm, hsame]
  have hmod : (((mode.code.toNat : ℕ) : ℤ) % 256).toNat = mode.code.toNat := by omega
  rw [hmod, UInt8.ofNat_toNat]

/-- Loading a saved settings file. -/
theorem loadSettings_settingsText (h : settings.Finite) (old : DeviceSettings F) :
    loadSettings old (some (settingsText settings)) = (none, settings.reloaded) := by
  have hvalues : loadValues (some (settingsText settings)) =
      .ok (parsed (settingsEntries settings)) := by
    have hparse := parseValues_lines (settingsEntries_readable h) []
    unfold loadValues
    dsimp only
    rw [settingsText_eq, hparse, List.append_nil]
    dsimp only
    rw [checkSchema_settingsEntries]
  have henter : (parsed (settingsEntries settings)).find "nudge_distance_threshold" =
      some (asRead settings.nudgeDistanceThreshold) :=
    find_settingsEntries (by simp [settingsEntries])
  have hexit : (parsed (settingsEntries settings)).find "nudge_exit_threshold" =
      some (asRead settings.nudgeExitThreshold) :=
    find_settingsEntries (by simp [settingsEntries])
  have hhold : (parsed (settingsEntries settings)).find "nudge_hold_time_ms" =
      some (asRead (ofRat settings.nudgeHoldTime)) :=
    find_settingsEntries (by simp [settingsEntries])
  have henabled : (parsed (settingsEntries settings)).find "nudge_enabled" =
      some ((FloatText.strtof (ascii (if settings.nudgeEnabled then "1" else "0"))).getD
        (ofRat 0)) :=
    find_settingsEntries (by simp [settingsEntries])
  have hmode : (parsed (settingsEntries settings)).find "input_mode" =
      some (asRead (ofRat settings.inputMode.code.toNat)) :=
    find_settingsEntries (by simp [settingsEntries])
  unfold loadSettings
  rw [hvalues]
  simp only [Values.getOr, find_centerOverride, find_rangeOverride, henter, hexit, hhold,
    henabled, hmode, Option.getD_some, Option.map_some, feq_enabled, inputMode_asRead]
  rfl

end Read

/-! ## What a reboot keeps -/

section Reboot

variable [DecimalFloat F]

/-- What loading is meant to give back; a float is the one nearest to its six digits. -/
structure Restored (settings loaded : DeviceSettings F) : Prop where
  centerOverride :
    loaded.manualCenterDeadzone.map value = settings.manualCenterDeadzone.map reread
  rangeOverride : loaded.manualRangeDeadzone.map value = settings.manualRangeDeadzone.map reread
  enter : value loaded.nudgeDistanceThreshold = reread settings.nudgeDistanceThreshold
  exit : value loaded.nudgeExitThreshold = reread settings.nudgeExitThreshold
  holdTime : loaded.nudgeHoldTime = settings.nudgeHoldTime
  nudgeEnabled : loaded.nudgeEnabled = settings.nudgeEnabled
  inputMode : loaded.inputMode = settings.inputMode

theorem map_value_asRead {override : Option F} (h : ∀ v ∈ override, isFinite v = true) :
    (override.map asRead).map value = override.map reread := by
  cases override with
  | none => rfl
  | some v => exact congrArg some (value_asRead (h v rfl))

variable {settings : DeviceSettings F}

/-- All but the hold time is restored. -/
theorem restored_reloaded_iff (h : settings.Finite) :
    Restored settings settings.reloaded ↔
      toInt (asRead (ofRat settings.nudgeHoldTime : F)) = settings.nudgeHoldTime := by
  refine ⟨fun hrestored => hrestored.holdTime, fun hhold => ?_⟩
  exact
    { centerOverride := map_value_asRead h.centerOverride
      rangeOverride := map_value_asRead h.rangeOverride
      enter := value_asRead h.enter
      exit := value_asRead h.exit
      holdTime := hhold
      nudgeEnabled := rfl
      inputMode := rfl }

/-- The hold time that is kept. -/
theorem toInt_asRead_iff {ms : ℤ} (h : HoldTimeInLimits ms) :
    toInt (asRead (ofRat ms : F)) = ms ↔
      ∃ p : ℕ, p < 2 ^ 33 ∧ SixDigits p ∧ value (ofRat p : F) = ms := by
  obtain ⟨hlow, hhigh⟩ := h
  obtain ⟨n, rfl⟩ := Int.eq_ofNat_of_zero_le hlow
  have hn : n < 2 ^ 32 := by omega
  obtain ⟨m, hreread, hm⟩ := toInt_asRead (F := F) hn
  have hiff := reread_natCast_iff (F := F) hn
  rw [Int.cast_natCast, hm, ← hiff, hreread]
  exact ⟨fun hsame => by exact_mod_cast hsame, fun hsame => by exact_mod_cast hsame⟩

/-- The bytes of the hold time in a STATE reply. -/
def holdTimeBytes (payload : List UInt8) : List UInt8 := (payload.drop 74).take 4

omit [FloatText F] [DecimalFloat F] in
theorem holdTimeBytes_buildStatePayload [FloatBits F] (snap : OmegaStore F) :
    holdTimeBytes (buildStatePayload snap) =
      putU32 (UInt32.ofInt snap.settings.nudgeHoldTime) := by
  obtain ⟨before, hlength, hpayload⟩ : ∃ before : List UInt8, before.length = 74 ∧
      buildStatePayload snap = before ++ (putU32 (UInt32.ofInt snap.settings.nudgeHoldTime) ++
        ([snap.settings.inputMode.code] ++ [flagByte snap.settings.nudgeEnabled])) := by
    refine ⟨_, ?_, by unfold buildStatePayload; rw [List.append_assoc, List.append_assoc]⟩
    simp only [List.length_append, putF32, length_putU32, List.length_cons, List.length_nil]
  rw [hpayload, holdTimeBytes, List.drop_left' hlength, List.take_left' (length_putU32 _)]

/-- Every setting the console can set is restored by loading the saved file, and the
STATE reply after a reboot carries the hold time, exactly when the hold time is the float
nearest to a whole number of at most six significant digits. -/
theorem settings_restored_iff [FloatBits F] (h : settings.InLimits) :
    ((∀ old, (loadSettings old (some (settingsText settings))).1 = none ∧
        Restored settings (loadSettings old (some (settingsText settings))).2) ∧
      ∀ files : StoreFile → Option (List UInt8), files .settings = some (settingsText settings) →
        holdTimeBytes (buildStatePayload (OmegaStore.new files : OmegaStore F)) =
          putU32 (UInt32.ofInt settings.nudgeHoldTime)) ↔
      ∃ p : ℕ, p < 2 ^ 33 ∧ SixDigits p ∧ value (ofRat p : F) = settings.nudgeHoldTime := by
  have hload := loadSettings_settingsText h.finite
  rw [← toInt_asRead_iff h.holdTime, ← restored_reloaded_iff h.finite]
  constructor
  · rintro ⟨hrestored, -⟩
    have hsettings := (hrestored settings).2
    rwa [hload] at hsettings
  · intro hrestored
    refine ⟨fun old => ?_, fun files hfiles => ?_⟩
    · rw [hload]
      exact ⟨rfl, hrestored⟩
    · have hstore : (OmegaStore.new files : OmegaStore F).settings.nudgeHoldTime =
          (loadSettings .default (files .settings)).2.nudgeHoldTime := rfl
      rw [holdTimeBytes_buildStatePayload, hstore, hfiles, hload, ← hrestored.holdTime]

end Reboot

/-! ## Two hold times -/

/-- The settings of a fresh board, with a hold time. -/
def holdTimeSettings (ms : ℤ) : DeviceSettings ℚ :=
  { DeviceSettings.default with nudgeHoldTime := ms }

theorem holdTimeSettings_inLimits {ms : ℤ} (h : HoldTimeInLimits ms) :
    (holdTimeSettings ms).InLimits where
  centerOverride _ hv := nomatch hv
  rangeOverride _ hv := nomatch hv
  enter := by
    change EnterInLimits (1 / 2 : ℚ)
    exact ⟨by decide +kernel, by decide +kernel⟩
  exit := by
    change ExitInLimits (4 / 5 : ℚ)
    exact ⟨by decide +kernel, by decide +kernel⟩
  holdTime := h
  inputMode := .inl rfl

theorem settings_restored_iff_oneSecond :
    Restored (holdTimeSettings 1000)
      (loadSettings .default (some (settingsText (holdTimeSettings 1000)))).2 :=
  (((settings_restored_iff (holdTimeSettings_inLimits ⟨by decide, by decide⟩)).mpr
    ⟨1000, by norm_num, sixDigits_natCast (by norm_num), rfl⟩).1 .default).2

/-- About twenty minutes. -/
theorem not_restored_sevenDigits :
    (holdTimeSettings 1234567).InLimits ∧
      ¬ Restored (holdTimeSettings 1234567)
        (loadSettings .default (some (settingsText (holdTimeSettings 1234567)))).2 := by
  refine ⟨holdTimeSettings_inLimits ⟨by decide, by decide⟩, fun h => ?_⟩
  have hloaded : (loadSettings (.default : DeviceSettings ℚ)
      (some (settingsText (holdTimeSettings 1234567)))).2.nudgeHoldTime = 1234570 := by
    decide +kernel
  exact absurd (hloaded.symm.trans h.holdTime) (by decide)

end OmegaStick
