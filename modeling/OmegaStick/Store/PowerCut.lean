import OmegaStick.Calibration.SaveCycles
import OmegaStick.Store.Basic

/-!
# Saving under a power cut

`save_to_flash` overwrites both files in place.  This file settles what a power
cut after any number of its filesystem operations leaves for the next boot: the
previous or the new content of each file, except between the truncation of a
file and its flush, where the file is empty.  An empty calibration file does
not load, and an empty settings file loads with the rule for files older than
the nudge switch.  A live calibration that is not usable replaces a usable one
as any other does, so that a cut after the calibration file's flush needs the
live one to be usable too (`survivesCut_iff`).
-/

namespace OmegaStick

open FileStore

variable {F : Type*} [MachineFloat F] [FloatText F]

/-- The files a completed save of `snapshot` leaves. -/
def savedFiles (snapshot : OmegaStore F) : StoreFile → Option (List UInt8)
  | .calibration => some (calibrationText snapshot.center snapshot.range)
  | .settings => some (settingsText snapshot.settings)

/-- The files the next boot finds when the power is lost after `cut` filesystem
operations of saving `live` over the saved `previous` state. -/
def filesAfterCut (previous live : OmegaStore F) (cut : ℕ) : StoreFile → Option (List UInt8) :=
  (FileStore.applyAll ⟨savedFiles previous, fun _ => none⟩
    (live.saveToFlashOps.take cut)).powerCut.durable

/-- The cut falls between a file's truncation and the flush of its new content. -/
def CutInsideWrite (live : OmegaStore F) (cut : ℕ) (file : StoreFile) : Prop :=
  Op.openTruncate file ∈ live.saveToFlashOps.take cut ∧
    Op.flush file ∉ live.saveToFlashOps.take cut

instance (live : OmegaStore F) (cut : ℕ) (file : StoreFile) :
    Decidable (CutInsideWrite live cut file) :=
  inferInstanceAs (Decidable (_ ∧ _))

/-- The calibration file has its new content. -/
def CalibrationReplaced (live : OmegaStore F) (cut : ℕ) : Prop :=
  Op.flush .calibration ∈ live.saveToFlashOps.take cut

instance (live : OmegaStore F) (cut : ℕ) : Decidable (CalibrationReplaced live cut) :=
  inferInstanceAs (Decidable (_ ∈ _))

/-- A calibration that passes `check_usable` with its numbers as their texts read. -/
def OmegaStore.UsableAsRead (snapshot : OmegaStore F) : Prop :=
  checkUsable snapshot.center.asRead snapshot.range.asRead loadRatioTolerance = true

/-- A calibration file that loads and passes `check_usable`. -/
def UsableFile (F : Type*) [MachineFloat F] [FloatText F] (file : Option (List UInt8)) : Prop :=
  (loadCalibration (F := F) .default .default file).1 = none

/-- What saving promises at a power cut. -/
structure SurvivesCut (previous live : OmegaStore F) (cut : ℕ) : Prop where
  /-- Each file holds exactly the previous or exactly the new content. -/
  content : ∀ file, filesAfterCut previous live cut file = savedFiles previous file ∨
    filesAfterCut previous live cut file = savedFiles live file
  /-- A usable calibration stays usable. -/
  usable : UsableFile F (savedFiles previous .calibration) →
    UsableFile F (filesAfterCut previous live cut .calibration)
  /-- No setting falls back to a default or to the old-file rule. -/
  settings :
    loadSettings (F := F) .default (filesAfterCut previous live cut .settings) =
        loadSettings .default (savedFiles previous .settings) ∨
      loadSettings (F := F) .default (filesAfterCut previous live cut .settings) =
        loadSettings .default (savedFiles live .settings)

/-! ## What a cut leaves of each file -/

/-- Completed operations on the calibration file. -/
theorem filesAfterCut_calibration (previous live : OmegaStore F) (cut : ℕ) :
    filesAfterCut previous live cut .calibration =
      if cut = 0 then savedFiles previous .calibration
      else if cut ≤ 16 then some []
      else savedFiles live .calibration := by
  have hother : ∀ (files : FileStore StoreFile) (k : ℕ),
      (files.applyAll ((saveSettingsOps live.settings).take k)).durable .calibration =
        files.durable .calibration := by
    intro files k
    refine applyAll_durable_of_ne fun op hop heq => ?_
    have := path_of_mem_replaceInPlace (List.mem_of_mem_take hop)
    simp [this] at heq
  unfold filesAfterCut OmegaStore.saveToFlashOps
  rw [powerCut_durable, List.take_append, applyAll_append, hother, saveCalibrationOps,
    durable_take_replaceInPlace]
  rfl

/-- Completed operations on the settings file: the first 18 are the calibration
file's. -/
theorem filesAfterCut_settings (previous live : OmegaStore F) (cut : ℕ) :
    filesAfterCut previous live cut .settings =
      if cut ≤ 18 then savedFiles previous .settings
      else if cut - 18 ≤ (settingsLines live.settings).length + 1 then some []
      else savedFiles live .settings := by
  have hother : ((FileStore.applyAll ⟨savedFiles previous, fun _ => none⟩
      ((saveCalibrationOps live.center live.range).take cut)).durable .settings) =
        savedFiles previous .settings := by
    refine applyAll_durable_of_ne fun op hop heq => ?_
    have := path_of_mem_replaceInPlace (List.mem_of_mem_take hop)
    simp [this] at heq
  have hlen : (saveCalibrationOps live.center live.range).length = 18 := rfl
  unfold filesAfterCut OmegaStore.saveToFlashOps
  rw [powerCut_durable, List.take_append, applyAll_append, hlen, saveSettingsOps,
    durable_take_replaceInPlace, hother]
  simp only [Nat.sub_eq_zero_iff_le]
  rfl

/-! ## Where the cut falls -/

/-- A file's operations are its own half of the save. -/
theorem mem_saveToFlashOps_take {live : OmegaStore F} {cut : ℕ} {op : Op StoreFile} :
    op ∈ live.saveToFlashOps.take cut ↔
      op ∈ (saveCalibrationOps live.center live.range).take cut ∨
        op ∈ (saveSettingsOps live.settings).take (cut - 18) := by
  have hlen : (saveCalibrationOps live.center live.range).length = 18 := rfl
  rw [OmegaStore.saveToFlashOps, List.take_append, List.mem_append, hlen]

theorem cutInsideWrite_calibration {live : OmegaStore F} {cut : ℕ} :
    CutInsideWrite live cut .calibration ↔ 0 < cut ∧ cut ≤ 16 := by
  have hsettings : ∀ {op : Op StoreFile} {k : ℕ}, op.path = .calibration →
      op ∉ (saveSettingsOps live.settings).take k := by
    intro op k hpath hmem
    have := path_of_mem_replaceInPlace (List.mem_of_mem_take hmem)
    simp [hpath] at this
  have hlen : (calibrationLines live.center live.range).length = 15 := rfl
  rw [CutInsideWrite, mem_saveToFlashOps_take, mem_saveToFlashOps_take,
    or_iff_left (hsettings rfl), or_iff_left (hsettings rfl), saveCalibrationOps,
    openTruncate_mem_take_replaceInPlace, flush_mem_take_replaceInPlace, hlen]
  omega

theorem cutInsideWrite_settings {live : OmegaStore F} {cut : ℕ} :
    CutInsideWrite live cut .settings ↔
      18 < cut ∧ cut - 18 ≤ (settingsLines live.settings).length + 1 := by
  have hcalibration : ∀ {op : Op StoreFile} {k : ℕ}, op.path = .settings →
      op ∉ (saveCalibrationOps live.center live.range).take k := by
    intro op k hpath hmem
    have := path_of_mem_replaceInPlace (List.mem_of_mem_take hmem)
    simp [hpath] at this
  rw [CutInsideWrite, mem_saveToFlashOps_take, mem_saveToFlashOps_take,
    or_iff_right (hcalibration rfl), or_iff_right (hcalibration rfl), saveSettingsOps,
    openTruncate_mem_take_replaceInPlace, flush_mem_take_replaceInPlace]
  omega

/-- A cut inside a file's write leaves it empty. -/
theorem filesAfterCut_of_cutInsideWrite {previous live : OmegaStore F} {cut : ℕ}
    {file : StoreFile} (h : CutInsideWrite live cut file) :
    filesAfterCut previous live cut file = some [] := by
  cases file with
  | calibration =>
      obtain ⟨hlow, hhigh⟩ := cutInsideWrite_calibration.mp h
      rw [filesAfterCut_calibration, if_neg (by omega), if_pos hhigh]
  | settings =>
      obtain ⟨hlow, hhigh⟩ := cutInsideWrite_settings.mp h
      rw [filesAfterCut_settings, if_neg (by omega), if_pos hhigh]

/-- Any other cut leaves the previous or the new content. -/
theorem filesAfterCut_of_not_cutInsideWrite {previous live : OmegaStore F} {cut : ℕ}
    {file : StoreFile} (h : ¬ CutInsideWrite live cut file) :
    filesAfterCut previous live cut file = savedFiles previous file ∨
      filesAfterCut previous live cut file = savedFiles live file := by
  cases file with
  | calibration =>
      rw [cutInsideWrite_calibration] at h
      rw [filesAfterCut_calibration]
      by_cases hzero : cut = 0
      · exact .inl (if_pos hzero)
      · exact .inr (by rw [if_neg hzero, if_neg (by omega)])
  | settings =>
      rw [cutInsideWrite_settings] at h
      rw [filesAfterCut_settings]
      by_cases hbefore : cut ≤ 18
      · exact .inl (if_pos hbefore)
      · exact .inr (by rw [if_neg hbefore, if_neg (by omega)])

theorem savedFiles_ne_empty (snapshot : OmegaStore F) (file : StoreFile) :
    savedFiles snapshot file ≠ some [] := by
  cases file with
  | calibration => simpa [savedFiles] using calibrationText_ne_nil _ _
  | settings => simpa [savedFiles] using settingsText_ne_nil _

/-- A file cut inside its write holds neither content. -/
theorem not_survivesCut_of_cutInsideWrite {previous live : OmegaStore F} {cut : ℕ}
    {file : StoreFile} (h : CutInsideWrite live cut file) : ¬ SurvivesCut previous live cut := by
  intro hsurvives
  have hempty : filesAfterCut previous live cut file = some [] :=
    filesAfterCut_of_cutInsideWrite h
  rcases hsurvives.content file with hold | hnew
  · exact savedFiles_ne_empty previous file (hold.symm.trans hempty)
  · exact savedFiles_ne_empty live file (hnew.symm.trans hempty)

/-- Outside its write, the calibration file is the new one once it was replaced. -/
theorem filesAfterCut_calibration_of_not_cutInsideWrite {previous live : OmegaStore F} {cut : ℕ}
    (h : ¬ CutInsideWrite live cut .calibration) :
    filesAfterCut previous live cut .calibration =
      if CalibrationReplaced live cut then savedFiles live .calibration
      else savedFiles previous .calibration := by
  have hsettings : ∀ {op : Op StoreFile}, op.path = .calibration →
      op ∉ (saveSettingsOps live.settings).take (cut - 18) := by
    intro op hpath hmem
    have := path_of_mem_replaceInPlace (List.mem_of_mem_take hmem)
    simp [hpath] at this
  have hlen : (calibrationLines live.center live.range).length = 15 := rfl
  have hreplaced : CalibrationReplaced live cut ↔ 16 < cut := by
    rw [CalibrationReplaced, mem_saveToFlashOps_take, or_iff_left (hsettings rfl),
      saveCalibrationOps, flush_mem_take_replaceInPlace, hlen]
    omega
  rw [cutInsideWrite_calibration] at h
  rw [filesAfterCut_calibration]
  by_cases hafter : 16 < cut
  · rw [if_pos (hreplaced.mpr hafter), if_neg (by omega), if_neg (by omega)]
  · rw [if_neg (mt hreplaced.mp hafter), if_pos (by omega)]

theorem usableFile_savedFiles_iff [ReadableText F] (snapshot : OmegaStore F) :
    UsableFile F (savedFiles snapshot .calibration) ↔ snapshot.UsableAsRead := by
  rw [UsableFile, savedFiles, loadCalibration_calibrationText, OmegaStore.UsableAsRead]
  split <;> simp_all

/-- **When saving survives a power cut**: exactly when the cut falls inside neither write
and, once a usable calibration was replaced, the live one is usable too. -/
theorem survivesCut_iff [ReadableText F] (previous live : OmegaStore F) (cut : ℕ) :
    SurvivesCut previous live cut ↔
      (∀ file, ¬ CutInsideWrite live cut file) ∧
        (CalibrationReplaced live cut → previous.UsableAsRead → live.UsableAsRead) := by
  simp only [← usableFile_savedFiles_iff]
  constructor
  · intro h
    have houtside : ∀ file, ¬ CutInsideWrite live cut file := fun file hinside =>
      not_survivesCut_of_cutInsideWrite hinside h
    refine ⟨houtside, fun hreplaced hprevious => ?_⟩
    have husable := h.usable hprevious
    rwa [filesAfterCut_calibration_of_not_cutInsideWrite (houtside _), if_pos hreplaced] at husable
  · rintro ⟨houtside, hkept⟩
    refine ⟨fun file => filesAfterCut_of_not_cutInsideWrite (houtside file),
      fun hprevious => ?_, ?_⟩
    · rw [filesAfterCut_calibration_of_not_cutInsideWrite (houtside _)]
      split
      · exact hkept ‹_› hprevious
      · exact hprevious
    · rcases filesAfterCut_of_not_cutInsideWrite (houtside .settings) with h | h
      · exact .inl (by rw [h])
      · exact .inr (by rw [h])

/-! ## A calibration and a switch that are lost -/

/-- A board with a usable calibration and nudge clicks off. -/
def calibratedBoard : OmegaStore ℚ where
  center := { (CenterResult.default : CenterResult ℚ) with noiseRadius := 1 }
  range := { (RangeResult.default : RangeResult ℚ) with usableRadius := 10 }
  settings := .default

/-- Between the two writes the power may be lost. -/
theorem survivesCut_calibratedBoard : SurvivesCut calibratedBoard calibratedBoard 18 := by
  refine (survivesCut_iff calibratedBoard calibratedBoard 18).mpr ⟨?_, fun _ husable => husable⟩
  intro file
  cases file with
  | calibration => exact fun h => absurd (cutInsideWrite_calibration.mp h).2 (by decide)
  | settings => exact fun h => absurd (cutInsideWrite_settings.mp h).1 (by decide)

/-- Power lost right after the first file was opened: the saved calibration was
usable and is gone.  Power lost right after the second one was: nudge clicks,
saved off, come back on. -/
theorem not_survivesCut_after_open :
    (UsableFile ℚ (savedFiles calibratedBoard .calibration) ∧
      ¬ UsableFile ℚ (filesAfterCut calibratedBoard calibratedBoard 1 .calibration) ∧
      ¬ SurvivesCut calibratedBoard calibratedBoard 1) ∧
    (calibratedBoard.settings.nudgeEnabled = false ∧
      (loadSettings (F := ℚ) .default
        (filesAfterCut calibratedBoard calibratedBoard 19 .settings)).2.nudgeEnabled = true ∧
      ¬ SurvivesCut calibratedBoard calibratedBoard 19) := by
  have hfirst : CutInsideWrite calibratedBoard 1 .calibration :=
    cutInsideWrite_calibration.mpr ⟨by decide, by decide⟩
  have hsecond : CutInsideWrite calibratedBoard 19 .settings :=
    cutInsideWrite_settings.mpr ⟨by decide, by decide⟩
  refine ⟨⟨by unfold UsableFile; decide +kernel, ?_, not_survivesCut_of_cutInsideWrite hfirst⟩,
    rfl, ?_, not_survivesCut_of_cutInsideWrite hsecond⟩
  · rw [filesAfterCut_of_cutInsideWrite hfirst]
    unfold UsableFile
    decide +kernel
  · rw [filesAfterCut_of_cutInsideWrite hsecond]
    decide +kernel

end OmegaStick
