import OmegaStick.Firmware.HealthCheck

/-!
# The reset log

`ResetLog` of `reset_log.hpp`, what `main.cpp` records in it at boot, and what
the crash-loop check reads out of it.  The log is a ring: what it still holds is
always the end of everything that was recorded, and so are the runs charged to
a slot.  Here a boot finds what the last one recorded; the file it is kept in is
the subject of `ResetLogFile` and the modules over it.
-/

namespace OmegaStick

open FirmwareHealthCheck

/-! ## Reset reasons -/

/-- `esp_reset_reason_t` -/
inductive ResetReason where
  | unknown
  | powerOn
  | ext
  | sw
  | panic
  | intWdt
  | taskWdt
  | wdt
  | deepSleep
  | brownout
  | sdio
  | usb
  | jtag
  | efuse
  | pwrGlitch
  | cpuLockup
  deriving DecidableEq, Repr

namespace ResetReason

/-- The platform's code. -/
def code : ResetReason → ℤ
  | unknown => 0
  | powerOn => 1
  | ext => 2
  | sw => 3
  | panic => 4
  | intWdt => 5
  | taskWdt => 6
  | wdt => 7
  | deepSleep => 8
  | brownout => 9
  | sdio => 10
  | usb => 11
  | jtag => 12
  | efuse => 13
  | pwrGlitch => 14
  | cpuLockup => 15

/-- `reset_reason_name` -/
def name : ResetReason → String
  | unknown => "unknown"
  | powerOn => "power-on"
  | ext => "external pin"
  | sw => "software"
  | panic => "panic"
  | intWdt => "interrupt watchdog"
  | taskWdt => "task watchdog"
  | wdt => "watchdog"
  | deepSleep => "deep sleep"
  | brownout => "brownout"
  | sdio => "sdio"
  | usb => "usb"
  | jtag => "jtag"
  | efuse => "efuse error"
  | pwrGlitch => "power glitch"
  | cpuLockup => "cpu lockup"

/-- `reset_reason_is_abnormal` -/
def isAbnormal : ResetReason → Bool
  | panic | intWdt | taskWdt | wdt | brownout | efuse | pwrGlitch | cpuLockup => true
  | _ => false

/-- `reset_reason_is_crash` -/
def isCrash : ResetReason → Bool
  | panic | intWdt | taskWdt | wdt | cpuLockup => true
  | _ => false

/-- The same of a code, as the log keeps it. -/
def codeIsCrash (code : ℤ) : Bool :=
  [panic, intWdt, taskWdt, wdt, cpuLockup].any fun reason => reason.code == code

theorem codeIsCrash_code (reason : ResetReason) : codeIsCrash reason.code = reason.isCrash := by
  cases reason <;> rfl

end ResetReason

/-! ## The log -/

/-- `ResetLog::Entry` -/
structure ResetLog.Entry where
  boot : UInt32
  reason : ℤ
  abnormal : Bool
  name : List UInt8
  slot : List UInt8
  deriving DecidableEq, Repr

/-- A boot as the crash-loop check takes it. -/
def ResetLog.Entry.bootRecord (entry : ResetLog.Entry) : BootRecord :=
  ⟨entry.slot, ResetReason.codeIsCrash entry.reason⟩

structure ResetLog where
  maxEntries : ℕ
  bootCount : UInt32
  /-- Oldest first. -/
  entries : List ResetLog.Entry
  deriving DecidableEq, Repr

/-- `RESET_LOG_ENTRIES` -/
def resetLogEntries : ℕ := 16

namespace ResetLog

def new (maxEntries : ℕ) : ResetLog := ⟨maxEntries, 0, []⟩

def trim (log : ResetLog) : ResetLog :=
  { log with entries := log.entries.drop (log.entries.length - log.maxEntries) }

def record (log : ResetLog) (reason : ℤ) (name : List UInt8) (abnormal : Bool)
    (slot : List UInt8) : ResetLog :=
  let bootCount := log.bootCount + 1
  trim
    { log with
      bootCount := bootCount
      entries := log.entries ++ [⟨bootCount, reason, abnormal, name, slot⟩] }

/-- What `main.cpp` records of a boot. -/
def recordBoot (log : ResetLog) (reason : ResetReason) (slot : List UInt8) : ResetLog :=
  log.record reason.code (ascii reason.name) reason.isAbnormal slot

/-- The boots for the crash-loop check, oldest first. -/
def boots (log : ResetLog) : List BootRecord := log.entries.map Entry.bootRecord

/-- The log keeps the end of what was recorded. -/
theorem boots_recordBoot (log : ResetLog) (reason : ResetReason) (slot : List UInt8) :
    (log.recordBoot reason slot).boots <:+ log.boots ++ [⟨slot, reason.isCrash⟩] := by
  have hrecorded : log.boots ++ [⟨slot, reason.isCrash⟩] =
      (log.entries ++ [(⟨log.bootCount + 1, reason.code, reason.isAbnormal, ascii reason.name,
        slot⟩ : ResetLog.Entry)]).map Entry.bootRecord := by
    simp [boots, Entry.bootRecord, ResetReason.codeIsCrash_code]
  rw [hrecorded]
  exact (List.drop_suffix _ _).map _

end ResetLog

/-! ## The runs of a slot -/

/-- A last boot ends the run of the one before it. -/
theorem zip_tail_concat {α : Type*} (boots : List α) (last boot : α) :
    (boots ++ [last] ++ [boot]).zip (boots ++ [last] ++ [boot]).tail =
      (boots ++ [last]).zip (boots ++ [last]).tail ++ [(last, boot)] := by
  induction boots with
  | nil => rfl
  | cons first boots ih =>
      simp only [List.cons_append, List.tail_cons] at ih ⊢
      cases boots with
      | nil => simp
      | cons second boots =>
          simp only [List.cons_append, List.zip_cons_cons, List.tail_cons] at ih ⊢
          rw [ih]

/-- The runs that the end of a history tells of are the last ones. -/
theorem crashesWhileRunning_suffix {recent boots : List BootRecord} (h : recent <:+ boots)
    (slot : List UInt8) : crashesWhileRunning recent slot <:+ crashesWhileRunning boots slot := by
  obtain ⟨before, rfl⟩ := h
  induction before with
  | nil => exact List.suffix_refl _
  | cons first before ih =>
      refine ih.trans ?_
      rw [List.cons_append]
      unfold crashesWhileRunning
      rcases before ++ recent with _ | ⟨second, rest⟩
      · simp
      · refine List.IsSuffix.map _ (List.IsSuffix.filter _ ?_)
        exact List.suffix_cons _ _

/-- The last `threshold` runs crashed. -/
theorem lastAllCrashed_iff {crashes : List Bool} {threshold : ℕ} (hpos : threshold ≠ 0) :
    lastAllCrashed crashes threshold = true ↔ List.replicate threshold true <:+ crashes := by
  simp only [lastAllCrashed, Bool.and_eq_true, bne_iff_ne, ne_eq, hpos, not_false_eq_true,
    true_and, decide_eq_true_eq, List.all_eq_true, id_eq]
  constructor
  · rintro ⟨hlength, hall⟩
    have hlast : crashes.drop (crashes.length - threshold) = List.replicate threshold true := by
      refine List.eq_replicate_iff.mpr ⟨?_, hall⟩
      rw [List.length_drop]
      omega
    rw [← hlast]
    exact List.drop_suffix _ _
  · rintro ⟨before, rfl⟩
    simp

end OmegaStick
