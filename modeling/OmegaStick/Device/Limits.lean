import OmegaStick.Library.FloatOrder
import OmegaStick.Service.AllOrNothing
import OmegaStick.Service.Deferred
import OmegaStick.Device.SharedHold
import OmegaStick.Device.Neutral

/-!
# The limits of the live settings

Values reach the store by two doors.  A request is checked by its handler, and
nothing else the services or the polling loop do touches the settings or the
manual offset, so once the limits hold they hold for good.  A file is taken as
it was parsed, except for the two deadzone overrides, which the constructor
drops when they are out of range.  So the limits hold in every reachable state
exactly when the rest of what the files say is within them.
-/

namespace OmegaStick

open MachineFloat FloatOrder TransitionSystem

variable {F O R : Type*}

/-! ## The limits -/

section Limits

variable [MachineFloat F]

/-- The limits of a nudge enter threshold, `(0, 1]`. -/
def EnterInLimits (enter : F) : Prop := flt (ofRat 0) enter = true ∧ fle enter (ofRat 1) = true

/-- The limits of a nudge exit threshold, `[0, 1]`. -/
def ExitInLimits (exit : F) : Prop := fle (ofRat 0) exit = true ∧ fle exit (ofRat 1) = true

/-- A hold time that fits the request's `u32` of milliseconds. -/
def HoldTimeInLimits (ms : ℤ) : Prop := 0 ≤ ms ∧ ms < 2 ^ 32

def InputMode.Valid (mode : InputMode) : Prop := mode = .mouse ∨ mode = .xac

/-- The limits the service enforces on the settings. -/
structure DeviceSettings.InLimits (settings : DeviceSettings F) : Prop where
  centerOverride : ∀ v, settings.manualCenterDeadzone = some v →
    OmegaStore.overrideInRange v maxCenterDeadzone = true
  rangeOverride : ∀ v, settings.manualRangeDeadzone = some v →
    OmegaStore.overrideInRange v maxRangeDeadzone = true
  enter : EnterInLimits settings.nudgeDistanceThreshold
  exit : ExitInLimits settings.nudgeExitThreshold
  holdTime : HoldTimeInLimits settings.nudgeHoldTime
  inputMode : settings.inputMode.Valid

/-- The limits the service enforces on the manual offset. -/
def OffsetInLimits (offset : F × F) : Prop :=
  isFinite offset.1 = true ∧ isFinite offset.2 = true

structure OmegaStore.InLimits (store : OmegaStore F) : Prop where
  settings : store.settings.InLimits
  offset : OffsetInLimits store.center.manualOffset

/-- A deferred mode switch is within the limits too. -/
structure Link.InLimits (l : Link F O R) : Prop where
  store : l.store.InLimits
  deferred : ∀ mode, l.afterReply = some (.setInputMode mode) → mode.Valid

end Limits

/-! ## What the services do -/

namespace Link

variable [MachineFloat F] (cfg : CalibrationService.Config F R)

theorem KeepsStore.inLimits {l l' : Link F O R} (h : KeepsStore l l') (hl : l.InLimits) :
    l'.InLimits :=
  ⟨h.store ▸ hl.store, fun mode hmode => hl.deferred mode (h.afterReply mode hmode)⟩

theorem handleSetNudgeEnabled_inLimits {l : Link F O R} (hl : l.InLimits) (payload : List UInt8) :
    (l.handleSetNudgeEnabled cfg payload).2.InLimits := by
  unfold handleSetNudgeEnabled
  split
  · split
    · exact hl
    · obtain ⟨⟨hcenter, hrange, henter, hexit, hhold, hmode⟩, hoffset⟩ := hl.store
      exact ⟨⟨⟨hcenter, hrange, henter, hexit, hhold, hmode⟩, hoffset⟩, hl.deferred⟩
  · exact hl

theorem handleSetInputMode_inLimits {l : Link F O R} (hl : l.InLimits) (payload : List UInt8) :
    (l.handleSetInputMode cfg payload).2.InLimits := by
  unfold handleSetInputMode
  split
  · rename_i mode
    split
    · exact hl
    · rename_i hmode
      split
      · exact hl
      · have hvalid : (⟨mode⟩ : InputMode).Valid := by
          have hle : mode.toNat ≤ 1 := UInt8.le_iff_toNat_le.mp (UInt8.not_lt.mp hmode)
          rcases Nat.le_one_iff_eq_zero_or_eq_one.mp hle with h | h
          · exact .inl (congrArg InputMode.mk (UInt8.toNat_inj.mp h))
          · exact .inr (congrArg InputMode.mk (UInt8.toNat_inj.mp h))
        refine ⟨(holdOutput_store cfg l true).symm ▸ hl.store, fun deferred hdeferred => ?_⟩
        obtain rfl : (⟨mode⟩ : InputMode) = deferred :=
          AfterReply.setInputMode.inj (Option.some.inj hdeferred)
        exact hvalid
  · exact hl

section Values

variable [FloatBits F]

theorem handleSetManualOffset_inLimits {l : Link F O R} (hl : l.InLimits) (payload : List UInt8) :
    (l.handleSetManualOffset cfg payload).2.InLimits := by
  unfold handleSetManualOffset
  split
  · exact hl
  · dsimp only
    split
    · exact hl
    · rename_i hfinite
      simp only [Bool.or_eq_true, Bool.not_eq_true', not_or, Bool.not_eq_false] at hfinite
      exact ⟨⟨hl.store.settings, hfinite⟩, hl.deferred⟩

theorem handleSetDeadzoneOverride_inLimits {l : Link F O R} (hl : l.InLimits)
    (payload : List UInt8) : (l.handleSetDeadzoneOverride cfg payload).2.InLimits := by
  unfold handleSetDeadzoneOverride
  split
  · exact hl
  · dsimp only
    split
    · exact hl
    · rename_i hcenter
      split
      · exact hl
      · rename_i hrange
        simp only [Bool.and_eq_true, Bool.not_eq_true', not_and, Bool.not_eq_false]
          at hcenter hrange
        obtain ⟨⟨-, -, henter, hexit, hhold, hmode⟩, hoffset⟩ := hl.store
        refine ⟨⟨⟨fun v hv => ?_, fun v hv => ?_, henter, hexit, hhold, hmode⟩, hoffset⟩,
          hl.deferred⟩
        · obtain ⟨hset, rfl⟩ := Option.ite_some_none_eq_some.mp hv
          exact hcenter hset
        · obtain ⟨hset, rfl⟩ := Option.ite_some_none_eq_some.mp hv
          exact hrange hset

theorem handleSetNudgeSettings_inLimits [FloatOrder F] {l : Link F O R} (hl : l.InLimits)
    (payload : List UInt8) : (l.handleSetNudgeSettings cfg payload).2.InLimits := by
  unfold handleSetNudgeSettings
  split
  · exact hl
  · dsimp only
    split
    · exact hl
    · rename_i henter
      split
      · exact hl
      · rename_i hexit
        simp only [Bool.or_eq_true, Bool.not_eq_true', not_or, Bool.not_eq_false] at henter hexit
        obtain ⟨⟨hcenter, hrange, -, -, -, hmode⟩, hoffset⟩ := hl.store
        have hone : Number (ofRat 1 : F) := number_ofRat 1
        have hhold : HoldTimeInLimits ((getU32 (payload.drop 8)).toNat : ℤ) :=
          ⟨Int.natCast_nonneg _, by exact_mod_cast (getU32 (payload.drop 8)).toNat_lt⟩
        refine ⟨⟨⟨hcenter, hrange, ⟨henter.1, ?_⟩, ⟨hexit.1, ?_⟩, hhold, hmode⟩, hoffset⟩,
          hl.deferred⟩
        · exact fle_iff.mpr ⟨(numbers_of_flt henter.1).2, hone, henter.2⟩
        · exact fle_iff.mpr ⟨(fle_iff.mp hexit.1).2.1, hone, hexit.2⟩

end Values

section Sections

variable [OtaEngine O]

theorem handleFrameLocked_inLimits [FloatBits F] [FloatOrder F] {l : Link F O R} (hl : l.InLimits)
    (type : UInt8) (payload : List UInt8) (now : Time) :
    (l.handleFrameLocked cfg type payload now).2.InLimits := by
  cases hcode : Msg.ofCode type with
  | none =>
      unfold handleFrameLocked
      rw [hcode]
      exact hl
  | some msg =>
      rw [handleFrameLocked_of_ofCode cfg hcode]
      by_cases hset : msg ∈ .setInputMode :: settingRequests
      · simp only [settingRequests, List.mem_cons, List.not_mem_nil, or_false] at hset
        rcases hset with rfl | rfl | rfl | rfl | rfl
        · exact handleSetInputMode_inLimits cfg hl payload
        · exact handleSetManualOffset_inLimits cfg hl payload
        · exact handleSetDeadzoneOverride_inLimits cfg hl payload
        · exact handleSetNudgeSettings_inLimits cfg hl payload
        · exact handleSetNudgeEnabled_inLimits cfg hl payload
      · rw [List.mem_cons, not_or] at hset
        exact (handleRequest_keepsStore cfg hset.2 hset.1 l payload now).inLimits hl

theorem runAfterReply_inLimits {l : Link F O R} (hl : l.InLimits) (queued : Bool) :
    (l.runAfterReply cfg queued).2.InLimits := by
  refine ⟨?_, fun mode hmode => ?_⟩
  · rw [runAfterReply_store]
    split
    · rename_i mode hdeferred
      split
      · unfold OmegaStore.setInputMode
        split
        · exact hl.store
        · obtain ⟨⟨hcenter, hrange, henter, hexit, hhold, -⟩, hoffset⟩ := hl.store
          exact ⟨⟨hcenter, hrange, henter, hexit, hhold, hl.deferred mode hdeferred⟩, hoffset⟩
      · exact hl.store
    · exact hl.store
  · rw [Calls.runAfterReply_afterReply] at hmode
    cases hmode

end Sections

end Link

/-! ## What the files say -/

section Files

variable [MachineFloat F]

/-- The settings of a parsed file that `load` takes over as they are. -/
structure Values.SettingsInLimits (values : Values F) : Prop where
  enter : ∀ v, values.find "nudge_distance_threshold" = some v → EnterInLimits v
  exit : ∀ v, values.find "nudge_exit_threshold" = some v → ExitInLimits v
  holdTime : ∀ v, values.find "nudge_hold_time_ms" = some v → HoldTimeInLimits (toInt v)
  inputMode : ∀ v, values.find "input_mode" = some v → toInt v % 256 = 0 ∨ toInt v % 256 = 1

/-- The manual offset of a parsed file. -/
structure Values.OffsetInLimits (values : Values F) : Prop where
  x : ∀ v, values.find "center_manual_offset_x" = some v → isFinite v = true
  y : ∀ v, values.find "center_manual_offset_y" = some v → isFinite v = true

/-- The file has every field `OmegaCalibration::load` requires. -/
def Values.Complete (values : Values F) : Prop :=
  ∀ key ∈ requiredKeys, (values.find key).isSome = true

/-- What the two files say, where they can be read at all, is within the limits;
the deadzone overrides do not matter. -/
structure FilesInLimits [FloatText F] (files : StoreFile → Option (List UInt8)) : Prop where
  settings : ∀ values : Values F, loadValues (files .settings) = .ok values →
    values.SettingsInLimits
  offset : ∀ values : Values F, loadValues (files .calibration) = .ok values → values.Complete →
    values.OffsetInLimits

/-- A value with a fallback within the limits is within them when it is there. -/
theorem getD_iff {α β : Type*} {P : β → Prop} {f : α → β} {fallback : β} (h : P fallback)
    (value : Option α) : P ((value.map f).getD fallback) ↔ ∀ v, value = some v → P (f v) := by
  cases value with
  | none => simp [h]
  | some v => simp

omit [MachineFloat F] in
theorem Values.getOr_iff {P : F → Prop} {fallback : F} (h : P fallback) (values : Values F)
    (key : String) : P (values.getOr key fallback) ↔ ∀ v, values.find key = some v → P v := by
  simpa [Values.getOr] using getD_iff (f := id) h (values.find key)

/-- An override that survives the constructor is in range. -/
theorem overrideInRange_of_dropOutOfRangeOverride {value : Option F} {limit v : F}
    (h : OmegaStore.dropOutOfRangeOverride value limit = some v) :
    OmegaStore.overrideInRange v limit = true :=
  (Option.filter_eq_some_iff.mp h).2

theorem inputMode_valid_iff (n : ℤ) :
    (⟨UInt8.ofNat (n % 256).toNat⟩ : InputMode).Valid ↔ n % 256 = 0 ∨ n % 256 = 1 := by
  have hlow : 0 ≤ n % 256 := Int.emod_nonneg n (by decide)
  have hhigh : n % 256 < 256 := Int.emod_lt_of_pos n (by decide)
  have hcode (k : ℕ) (hk : k < 256) :
      UInt8.ofNat (n % 256).toNat = UInt8.ofNat k ↔ n % 256 = k := by
    have hn : (n % 256).toNat < 256 := by omega
    rw [← UInt8.toNat_inj, UInt8.toNat_ofNat_of_lt' hn, UInt8.toNat_ofNat_of_lt' hk]
    omega
  simp only [InputMode.Valid, InputMode.mouse, InputMode.xac, InputMode.mk.injEq]
  exact or_congr (hcode 0 (by decide)) (hcode 1 (by decide))

variable [FloatText F]

theorem bootCalibration_settings (files : StoreFile → Option (List UInt8)) :
    (bootCalibration (F := F) files).store.settings = (OmegaStore.new files).settings := by
  unfold bootCalibration
  dsimp only
  split <;> rfl

/-- A file with all its fields is loaded, usable or not; any other one leaves both
references as they were. -/
theorem loadCalibration_cases (center : CenterResult F) (range : RangeResult F)
    (file : Option (List UInt8)) :
    (∃ values : Values F, loadValues file = .ok values ∧ values.Complete ∧
        (loadCalibration center range file = (none, values.center, values.range) ∨
          loadCalibration center range file =
            (some .calibrationUnusable, values.center, values.range))) ∨
      (∀ values : Values F, loadValues file = .ok values → ¬ values.Complete) ∧
        ∃ e, loadCalibration center range file = (some e, center, range) := by
  unfold loadCalibration
  cases hvalues : loadValues (F := F) file with
  | error e => exact .inr ⟨nofun, e, rfl⟩
  | ok values =>
      dsimp only
      by_cases hmissing : (requiredKeys.any fun key => (values.find key).isNone) = true
      · obtain ⟨key, hkey, hnone⟩ := List.any_eq_true.mp hmissing
        rw [if_pos hmissing]
        refine .inr ⟨fun values' hvalues' hcomplete => ?_, _, rfl⟩
        obtain rfl := Except.ok.inj hvalues'
        have hsome := hcomplete key hkey
        rw [Option.isNone_iff_eq_none.mp hnone] at hsome
        cases hsome
      · have hcomplete : values.Complete := fun key hkey => by
          by_contra hnone
          exact hmissing (List.any_eq_true.mpr ⟨key, hkey, by simpa using hnone⟩)
        rw [if_neg hmissing]
        refine .inl ⟨values, rfl, hcomplete, ?_⟩
        split
        · exact .inl rfl
        · exact .inr rfl

/-- The manual offset after boot: the file's if it has all fields, usable or not,
and otherwise none. -/
theorem bootCalibration_offset (files : StoreFile → Option (List UInt8)) :
    (∃ values : Values F, loadValues (files .calibration) = .ok values ∧ values.Complete ∧
        (bootCalibration files).store.center = values.center) ∨
      (∀ values : Values F, loadValues (files .calibration) = .ok values → ¬ values.Complete) ∧
        (bootCalibration (F := F) files).store.center.manualOffset = (ofRat 0, ofRat 0) := by
  rcases loadCalibration_cases (F := F) .default .default (files .calibration) with
    ⟨values, hvalues, hcomplete, hload | hload⟩ | ⟨hnone, e, hload⟩
  · refine .inl ⟨values, hvalues, hcomplete, ?_⟩
    simp only [bootCalibration, hload]
    rfl
  · refine .inl ⟨values, hvalues, hcomplete, ?_⟩
    simp only [bootCalibration, hload]
    rfl
  · refine .inr ⟨hnone, ?_⟩
    simp only [bootCalibration, hload]
    cases e <;> rfl

variable [FloatOrder F]

omit [FloatText F] in
theorem enterInLimits_default : EnterInLimits (ofRat (1 / 2) : F) :=
  ⟨zero_flt_ofRat (by norm_num), fle_ofRat (by norm_num)⟩

omit [FloatText F] in
theorem exitInLimits_default : ExitInLimits (ofRat (4 / 5) : F) :=
  ⟨fle_ofRat (by norm_num), fle_ofRat (by norm_num)⟩

theorem holdTimeInLimits_default : HoldTimeInLimits 100 := ⟨by norm_num, by norm_num⟩

/-- The settings after boot are within the limits exactly when the file's are. -/
theorem new_settings_inLimits_iff (files : StoreFile → Option (List UInt8)) :
    (OmegaStore.new (F := F) files).settings.InLimits ↔
      ∀ values : Values F, loadValues (files .settings) = .ok values → values.SettingsInLimits := by
  unfold OmegaStore.new loadSettings
  cases hvalues : loadValues (F := F) (files .settings) with
  | error e =>
      refine ⟨fun _ => nofun, fun _ => ⟨nofun, nofun, enterInLimits_default, exitInLimits_default,
        holdTimeInLimits_default, .inl rfl⟩⟩
  | ok values =>
      simp only [Except.ok.injEq, forall_eq']
      constructor
      · intro h
        exact {
          enter := (values.getOr_iff enterInLimits_default _).mp h.enter
          exit := (values.getOr_iff exitInLimits_default _).mp h.exit
          holdTime := (getD_iff holdTimeInLimits_default _).mp h.holdTime
          inputMode := fun v hv =>
            (inputMode_valid_iff _).mp ((getD_iff (P := InputMode.Valid) (.inl rfl) _).mp
              h.inputMode v hv) }
      · intro h
        exact {
          centerOverride := fun v hv => overrideInRange_of_dropOutOfRangeOverride hv
          rangeOverride := fun v hv => overrideInRange_of_dropOutOfRangeOverride hv
          enter := (values.getOr_iff enterInLimits_default _).mpr h.enter
          exit := (values.getOr_iff exitInLimits_default _).mpr h.exit
          holdTime := (getD_iff holdTimeInLimits_default _).mpr h.holdTime
          inputMode := (getD_iff (P := InputMode.Valid) (.inl rfl) _).mpr fun v hv =>
            (inputMode_valid_iff _).mpr (h.inputMode v hv) }

theorem bootCalibration_inLimits_iff (files : StoreFile → Option (List UInt8)) :
    (bootCalibration (F := F) files).store.InLimits ↔ FilesInLimits (F := F) files := by
  have hfinite : OffsetInLimits ((ofRat 0, ofRat 0) : F × F) := ⟨isFinite_zero, isFinite_zero⟩
  have hsettings := new_settings_inLimits_iff (F := F) files
  rw [← bootCalibration_settings] at hsettings
  rcases bootCalibration_offset (F := F) files with
    ⟨values, hvalues, hcomplete, hcenter⟩ | ⟨hnone, hoffset⟩
  · have hvalue (v : Option F) : isFinite (v.getD (ofRat 0)) = true ↔
        ∀ x, v = some x → isFinite x = true := by
      simpa using getD_iff (f := id) (P := fun x : F => isFinite x = true) isFinite_zero v
    have hoffset : OffsetInLimits (bootCalibration (F := F) files).store.center.manualOffset ↔
        values.OffsetInLimits := by
      rw [hcenter]
      exact ⟨fun h => ⟨(hvalue _).mp h.1, (hvalue _).mp h.2⟩,
        fun h => ⟨(hvalue _).mpr h.x, (hvalue _).mpr h.y⟩⟩
    refine ⟨fun h => ⟨hsettings.mp h.settings, fun values' hvalues' _ => ?_⟩,
      fun h => ⟨hsettings.mpr h.settings, hoffset.mpr (h.offset values hvalues hcomplete)⟩⟩
    obtain rfl := Except.ok.inj (hvalues.symm.trans hvalues')
    exact hoffset.mp h.offset
  · refine ⟨fun h => ⟨hsettings.mp h.settings, fun values hvalues hcomplete => ?_⟩,
      fun h => ⟨hsettings.mpr h.settings, hoffset ▸ hfinite⟩⟩
    exact absurd hcomplete (hnone values hvalues)

end Files

/-! ## Runs of the device -/

/-- The device: both services, their health check, and the polling loop. -/
structure Running (F O : Type*) extends TwoServices F O where
  loop : LoopState F

inductive RunningStep (F : Type*) where
  /-- One locked section of a service, the health check, or anything else that
  leaves the store alone. -/
  | services (step : TwoServicesStep F)
  | iterate (it : Iteration F)

section Device

variable [MachineFloat F] [FloatMath F] [FloatBits F] [OtaEngine O] (errc : ErrcTable) (ota : Bool)

namespace Running

/-- The step of the rest of the firmware, with the store as it is. -/
def keepStore (s : Running F O) : TwoServicesStep F → TwoServicesStep F
  | .others _ device => .others s.shared.store device
  | step => step

def next (s : Running F O) : RunningStep F → Option (Running F O)
  | .services step =>
      (s.toTwoServices.next errc ota (s.keepStore step)).map fun two =>
        { s with toTwoServices := two }
  | .iterate it =>
      let (loop, w) := s.loop.tick (it.input s.shared) (it.world s.shared)
      some { s with shared := w.toShared, loop := loop }

end Running

/-- Fresh services, on what the files hold. -/
def Running.Booted [FloatText F] (files : StoreFile → Option (List UInt8)) (s : Running F O) :
    Prop :=
  (∀ id, s.services id = .new) ∧ s.shared.store = (bootCalibration files).store ∧
    s.loop = bootLoop (bootCalibration files)

/-- Every interleaving of the services' sections with the polling loop. -/
def running [FloatText F] : TransitionSystem (Running F O) (RunningStep F) :=
  .ofOption (fun s => ∃ files, s.Booted files) (Running.next errc ota)

/-- Both services keep within the limits. -/
def Running.InLimits (s : Running F O) : Prop := ∀ id, (s.toTwoServices.link id).InLimits

variable {errc ota}

omit [FloatMath F] [FloatBits F] [OtaEngine O] in
theorem withLink_inLimits {s : TwoServices F O} (hs : ∀ id, (s.link id).InLimits) {id : LinkId}
    {l : Link F O (Device F)} (hl : l.InLimits) (id' : LinkId) :
    ((s.withLink id l).link id').InLimits := by
  refine ⟨hl.store, ?_⟩
  by_cases hid : id' = id
  · subst hid
    simpa [TwoServices.link] using hl.deferred
  · have hkept : ((s.withLink id l).link id').afterReply = (s.link id').afterReply := by
      simp [TwoServices.link, TwoServices.withLink, hid]
    rw [hkept]
    exact (hs id').deferred

omit [FloatBits F] [OtaEngine O] in
/-- A tick pushes a measured calibration into the store, or nothing. -/
theorem TickOutcome.store {input : StepInput F} {common common' : CommonState F}
    {w w' : EspWorld F O} (h : TickOutcome common w input common' w') :
    w'.store.settings = w.store.settings ∧
      w'.store.center.manualOffset = w.store.center.manualOffset := by
  cases h with
  | held => exact ⟨rfl, rfl⟩
  | swept =>
      simp only [EspWorld.runSweep]
      split <;> exact ⟨rfl, rfl⟩
  | moved => exact ⟨rfl, rfl⟩
  | drifted => exact ⟨rfl, rfl⟩

omit [FloatBits F] [OtaEngine O] in
theorem LoopState.tick_store (s : LoopState F) (input : StepInput F) (w : EspWorld F O) :
    (s.tick input w).2.store.settings = w.store.settings ∧
      (s.tick input w).2.store.center.manualOffset = w.store.center.manualOffset := by
  obtain ⟨-, -, status, hobserved⟩ := observed_spec s.common input w
  have htick := (s.tick_outcome input w).store
  rw [hobserved] at htick
  exact htick

/-- One step of the device. -/
theorem Running.InLimits.next [FloatOrder F] {s t : Running F O} (hs : s.InLimits)
    {step : RunningStep F} (ht : s.next errc ota step = some t) : t.InLimits := by
  cases step with
  | iterate it =>
      obtain rfl := Option.some.inj ht
      obtain ⟨hsettings, hoffset⟩ := s.loop.tick_store (it.input s.shared) (it.world s.shared)
      intro id
      exact ⟨⟨hsettings ▸ (hs id).store.settings, hoffset ▸ (hs id).store.offset⟩,
        (hs id).deferred⟩
  | services step =>
      obtain ⟨two, htwo, rfl⟩ := Option.map_eq_some_iff.mp ht
      cases step with
      | handleFrame id type payload now =>
          obtain rfl := Option.some.inj htwo
          exact withLink_inLimits hs (Link.handleFrameLocked_inLimits _ (hs id) type payload now)
      | runAfterReply id queued =>
          obtain rfl := Option.some.inj htwo
          exact withLink_inLimits hs (Link.runAfterReply_inLimits _ (hs id) queued)
      | abortUpdate id =>
          obtain rfl := Option.some.inj htwo
          exact withLink_inLimits hs ((Link.abortUpdate_keepsStore _ _).inLimits (hs id))
      | expireStaleUpdate id maxIdle now locked =>
          obtain rfl := Option.some.inj htwo
          exact withLink_inLimits hs
            ((Link.expireStaleUpdate_keepsStore _ _ maxIdle now locked).inLimits (hs id))
      | healthCheck now =>
          obtain ⟨checked, -, rfl⟩ := Option.map_eq_some_iff.mp htwo
          exact fun id => ⟨(hs id).store, (hs id).deferred⟩
      | others store device =>
          obtain rfl := Option.some.inj htwo
          exact fun id => ⟨(hs id).store, (hs id).deferred⟩

variable (errc ota) [FloatText F] [FloatOrder F]

/-- From a boot on any files, through any requests in any order on both services and
any run of the polling loop: the live settings and the manual offset stay within the
limits of the service exactly when what the files said is within them. -/
theorem inLimits_iff (files : StoreFile → Option (List UInt8)) {booted : Running F O}
    (hbooted : booted.Booted files) :
    (∀ steps s, Path (running errc ota) booted steps s → s.shared.store.InLimits) ↔
      FilesInLimits (F := F) files := by
  rw [← bootCalibration_inLimits_iff]
  obtain ⟨hservices, hstore, -⟩ := hbooted
  constructor
  · intro h
    exact hstore ▸ h [] booted (.nil booted)
  · intro hboot steps s hpath
    have hstart : booted.InLimits := fun id =>
      ⟨hstore ▸ hboot, fun mode hmode => by
        have hnone : (booted.services id).afterReply = none := congrArg _ (hservices id)
        exact nomatch hnone.symm.trans hmode⟩
    have hlast : s.InLimits := hpath.invariant (fun _ _ _ hs hnext => hs.next hnext) hstart
    exact (hlast .vendor).store

end Device

/-! ## Two boards -/

/-- A board with a settings file of these lines and no calibration. -/
def settingsFile (lines : List String) : StoreFile → Option (List UInt8)
  | .calibration => none
  | .settings => some (lines.flatMap fun line => ascii line ++ [10])

/-- The device as it comes up on these files. -/
def bootedOn (files : StoreFile → Option (List UInt8)) : Running ℚ SimOta where
  toTwoServices := { freshTwoServices with
    shared := { freshTwoServices.shared with store := (bootCalibration files).store } }
  loop := bootLoop (bootCalibration files)

theorem bootedOn_booted (files : StoreFile → Option (List UInt8)) :
    (bootedOn files).Booted files := ⟨fun _ => rfl, rfl, rfl⟩

def tunedFile : StoreFile → Option (List UInt8) :=
  settingsFile ["schema=1", "manual_range_deadzone=7", "nudge_distance_threshold=0.25",
    "nudge_hold_time_ms=250", "input_mode=1"]

def tunedValues : Values ℚ :=
  [(ascii "input_mode", 1), (ascii "nudge_hold_time_ms", 250),
    (ascii "nudge_distance_threshold", 1 / 4), (ascii "manual_range_deadzone", 7),
    (ascii "schema", 1)]

theorem tunedFile_inLimits : FilesInLimits (F := ℚ) tunedFile where
  settings values hvalues := by
    have hparsed : (loadValues (F := ℚ) (tunedFile .settings)).toOption = some tunedValues := by
      decide +kernel
    rw [hvalues] at hparsed
    obtain rfl := Option.some.inj hparsed
    have henter : tunedValues.find "nudge_distance_threshold" = some (1 / 4) := by decide +kernel
    have hexit : tunedValues.find "nudge_exit_threshold" = none := by decide +kernel
    have hhold : tunedValues.find "nudge_hold_time_ms" = some 250 := by decide +kernel
    have hmode : tunedValues.find "input_mode" = some 1 := by decide +kernel
    refine ⟨fun v hv => ?_, fun v hv => ?_, fun v hv => ?_, fun v hv => ?_⟩
    · obtain rfl := Option.some.inj (henter.symm.trans hv)
      exact ⟨by decide +kernel, by decide +kernel⟩
    · exact nomatch hexit.symm.trans hv
    · obtain rfl := Option.some.inj (hhold.symm.trans hv)
      exact ⟨by decide +kernel, by decide +kernel⟩
    · obtain rfl := Option.some.inj (hmode.symm.trans hv)
      exact .inr (by decide +kernel)
  offset _ hvalues := nomatch hvalues

/-- The enter threshold set to 1, the exit threshold to 0.5, over 200 ms. -/
def tune : RunningStep ℚ :=
  .services (.handleFrame .cdc Msg.setNudgeSettings.code
    [0, 0, 128, 63, 0, 0, 0, 63, 200, 0, 0, 0] 0)

/-- A board with a tuned settings file, tuned again from the console. -/
theorem inLimits_iff_tuned : ∃ steps s, Path (running hostErrc true) (bootedOn tunedFile) steps s ∧
    s.shared.store.settings.nudgeDistanceThreshold = 1 ∧ s.shared.store.InLimits := by
  have hrun : (runOption (Running.next hostErrc true) (bootedOn tunedFile) [tune]).any (fun s =>
      decide (s.shared.store.settings.nudgeDistanceThreshold = 1)) = true := by
    decide +kernel
  obtain ⟨s, steps, hpath, htuned⟩ := path_of_runOption_any (running hostErrc true).init hrun
  exact ⟨steps, s, hpath, of_decide_eq_true htuned,
    (inLimits_iff hostErrc true tunedFile (bootedOn_booted tunedFile)).mpr tunedFile_inLimits
      steps s hpath⟩

/-- A hand-edited enter threshold above 1 is live from boot. -/
theorem not_inLimits_handEdited :
    ¬ ∀ (files : StoreFile → Option (List UInt8)) (booted : Running ℚ SimOta),
      booted.Booted files → ∀ steps s, Path (running hostErrc true) booted steps s →
        s.shared.store.InLimits := by
  intro h
  let handEdited := settingsFile ["nudge_distance_threshold=2"]
  have hlimits := h handEdited (bootedOn handEdited) (bootedOn_booted handEdited) [] _ (.nil _)
  have henter : fle (bootedOn (settingsFile ["nudge_distance_threshold=2"])
      ).shared.store.settings.nudgeDistanceThreshold 1 = false := by
    decide +kernel
  exact Bool.noConfusion (henter.symm.trans hlimits.settings.enter.2)

end OmegaStick
