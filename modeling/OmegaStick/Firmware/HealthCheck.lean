import OmegaStick.Service.Handler

/-!
# The rollback health check

`FirmwareHealthCheck` of `firmware_health_check.hpp`: the backstop for a
pending image, the crash-loop handover and its marker.  What the class asks of
`espp::Ota` comes in as arguments, so that the same functions run over the
service's engine and over the bare slots.
-/

namespace OmegaStick

namespace FirmwareHealthCheck

/-! ## The backstop -/

def rollbackDeadline : Time := seconds 120

def checkInterval : Time := seconds 1

def rollbackHold : Time := milliseconds 100

/-- What `tick()` asks of the caller. -/
inductive Action where
  | none
  | holdOutput
  | rollBack
  deriving DecidableEq, Repr

end FirmwareHealthCheck

open FirmwareHealthCheck in
/-- The members of one health check. -/
structure FirmwareHealthCheck where
  pending : Bool
  holding : Bool
  holdStart : Time
  start : Time
  lastCheck : Time
  deriving DecidableEq, Repr

namespace FirmwareHealthCheck

/-- The constructor. -/
def new (isPendingVerify : Bool) (now : Time) : FirmwareHealthCheck :=
  ⟨isPendingVerify, false, 0, now, now⟩

/-- `tick()`, with what the engine says of the running image. -/
def tick (health : FirmwareHealthCheck) (isPendingVerify : Bool) (now : Time) :
    Action × FirmwareHealthCheck :=
  if health.holding then
    if now - health.holdStart < rollbackHold then (.none, health)
    else (.rollBack, { health with holding := false })
  else if !health.pending then (.none, health)
  else if now - health.lastCheck < checkInterval then (.none, health)
  else
    let health := { health with lastCheck := now }
    if !isPendingVerify then (.none, { health with pending := false })
    else if rollbackDeadline ≤ now - health.start then
      (.holdOutput, { health with pending := false, holding := true, holdStart := now })
    else (.none, health)

/-- What an action says of the hold: it goes up, comes down, or stays. -/
theorem tick_holding (health : FirmwareHealthCheck) (isPendingVerify : Bool) (now : Time) :
    match health.tick isPendingVerify now with
    | (.holdOutput, health') => health.holding = false ∧ health'.holding = true
    | (.rollBack, health') => health.holding = true ∧ health'.holding = false
    | (.none, health') => health'.holding = health.holding := by
  unfold tick
  cases hholding : health.holding with
  | true =>
      simp only [ite_true]
      by_cases hearly : now - health.holdStart < rollbackHold
      · rw [if_pos hearly]; exact hholding
      · rw [if_neg hearly]; exact ⟨trivial, rfl⟩
  | false =>
      simp only [Bool.false_eq_true, ite_false]
      by_cases hpending : (!health.pending) = true
      · rw [if_pos hpending]; exact hholding
      · rw [if_neg hpending]
        by_cases hsoon : now - health.lastCheck < checkInterval
        · rw [if_pos hsoon]; exact hholding
        · rw [if_neg hsoon]
          by_cases hconfirmed : (!isPendingVerify) = true
          · simp only [if_pos hconfirmed]
          · by_cases hdeadline : rollbackDeadline ≤ now - health.start
            · simp only [if_neg hconfirmed, if_pos hdeadline, and_self]
            · simp only [if_neg hconfirmed, if_neg hdeadline]

section Engine

variable {O : Type*} [OtaEngine O]

/-- `rollback_now()`: `none` when it restarts the device. -/
def rollbackNow (ota : O) : Option O :=
  if !OtaEngine.isPendingVerify ota then some ota
  else
    match OtaEngine.markAppInvalidAndRollback ota with
    | (none, _) => none
    | (some _, ota) => some ota

/-- `run_health_check()`: the counter and the engine after it; `none` when the
device restarts. -/
def run (health : FirmwareHealthCheck) (now : Time) (ota : O) (outputHolds : ℤ) :
    Option (FirmwareHealthCheck × O × ℤ) :=
  match health.tick (OtaEngine.isPendingVerify ota) now with
  | (.holdOutput, health) => some (health, ota, outputHolds + 1)
  | (.rollBack, health) => (rollbackNow ota).map fun ota => (health, ota, outputHolds - 1)
  | (.none, health) => some (health, ota, outputHolds)

/-- One call moves the counter by the change of the check's own hold, and the
engine only through a failed rollback. -/
theorem run_some {health health' : FirmwareHealthCheck} {now : Time} {ota ota' : O}
    {outputHolds outputHolds' : ℤ}
    (h : health.run now ota outputHolds = some (health', ota', outputHolds')) :
    outputHolds' = outputHolds - health.holding.toInt + health'.holding.toInt ∧
      (ota' = ota ∨ (OtaEngine.markAppInvalidAndRollback ota).1.isSome ∧
        ota' = (OtaEngine.markAppInvalidAndRollback ota).2) := by
  unfold run at h
  have htick := health.tick_holding (OtaEngine.isPendingVerify ota) now
  rcases hresult : health.tick (OtaEngine.isPendingVerify ota) now with ⟨_ | _ | _, after⟩
  all_goals rw [hresult] at h htick
  · cases h
    exact ⟨by rw [htick]; omega, .inl rfl⟩
  · cases h
    exact ⟨by simp [htick.1, htick.2], .inl rfl⟩
  · simp only [Option.map_eq_some_iff, Prod.mk.injEq] at h
    obtain ⟨engine, hback, rfl, rfl, rfl⟩ := h
    refine ⟨by simp [htick.1, htick.2], ?_⟩
    unfold rollbackNow at hback
    split at hback
    · exact .inl (Option.some.inj hback).symm
    · rcases hmark : OtaEngine.markAppInvalidAndRollback ota with ⟨_ | ec, rejected⟩
      · simp [hmark] at hback
      · rw [hmark] at hback
        exact .inr ⟨rfl, (Option.some.inj hback).symm⟩

end Engine

/-! ## What one call does -/

/-- Whether `tick()` gets to its call of `is_pending_verify()`. -/
def checks (health : FirmwareHealthCheck) (now : Time) : Bool :=
  !health.holding && health.pending && !decide (now - health.lastCheck < checkInterval)

/-- The outcomes of `tick()`, with what brings each about. -/
inductive Ticked (health : FirmwareHealthCheck) (isPendingVerify : Bool) (now : Time) :
    Action × FirmwareHealthCheck → Prop where
  | keepsHolding (hholding : health.holding = true) (hchecks : health.checks now = false)
      (hearly : now - health.holdStart < rollbackHold) :
      Ticked health isPendingVerify now (.none, health)
  | rollsBack (hholding : health.holding = true) (hchecks : health.checks now = false)
      (hlate : rollbackHold ≤ now - health.holdStart) :
      Ticked health isPendingVerify now (.rollBack, { health with holding := false })
  | idle (hholding : health.holding = false) (hchecks : health.checks now = false) :
      Ticked health isPendingVerify now (.none, health)
  | confirmed (hholding : health.holding = false) (hpending : health.pending = true)
      (hchecks : health.checks now = true) (hconfirmed : isPendingVerify = false) :
      Ticked health isPendingVerify now (.none, { health with lastCheck := now, pending := false })
  | waits (hholding : health.holding = false) (hpending : health.pending = true)
      (hchecks : health.checks now = true) (hstill : isPendingVerify = true)
      (hearly : now - health.start < rollbackDeadline) :
      Ticked health isPendingVerify now (.none, { health with lastCheck := now })
  | raises (hholding : health.holding = false) (hpending : health.pending = true)
      (hchecks : health.checks now = true) (hstill : isPendingVerify = true)
      (hlate : rollbackDeadline ≤ now - health.start) :
      Ticked health isPendingVerify now
        (.holdOutput,
          { health with lastCheck := now, pending := false, holding := true, holdStart := now })

theorem ticked (health : FirmwareHealthCheck) (isPendingVerify : Bool) (now : Time) :
    Ticked health isPendingVerify now (health.tick isPendingVerify now) := by
  obtain ⟨pending, holding, holdStart, start, lastCheck⟩ := health
  unfold tick
  cases holding with
  | true =>
      by_cases hearly : now - holdStart < rollbackHold
      · simp only [ite_true, if_pos hearly]
        exact .keepsHolding rfl rfl hearly
      · simp only [ite_true, if_neg hearly]
        exact .rollsBack rfl rfl (not_lt.mp hearly)
  | false =>
      cases pending with
      | false => exact .idle rfl rfl
      | true =>
          simp only [Bool.false_eq_true, Bool.not_true, ite_false]
          by_cases hsoon : now - lastCheck < checkInterval
          · rw [if_pos hsoon]
            exact .idle rfl (by simp [checks, hsoon])
          · rw [if_neg hsoon]
            have hchecks : checks ⟨true, false, holdStart, start, lastCheck⟩ now = true := by
              simp [checks, hsoon]
            cases isPendingVerify with
            | false => exact .confirmed rfl rfl hchecks rfl
            | true =>
                simp only [Bool.not_true, Bool.false_eq_true, ite_false]
                by_cases hlate : rollbackDeadline ≤ now - start
                · rw [if_pos hlate]
                  exact .raises rfl rfl hchecks rfl hlate
                · rw [if_neg hlate]
                  exact .waits rfl rfl hchecks rfl (not_le.mp hlate)

theorem checks_iff {health : FirmwareHealthCheck} {now : Time} :
    health.checks now = true ↔
      health.holding = false ∧ health.pending = true ∧ checkInterval ≤ now - health.lastCheck := by
  simp [checks, and_assoc]

theorem tick_holdOutput_iff {health : FirmwareHealthCheck} {isPendingVerify : Bool} {now : Time} :
    (health.tick isPendingVerify now).1 = .holdOutput ↔
      health.checks now = true ∧ isPendingVerify = true ∧
        rollbackDeadline ≤ now - health.start := by
  have h := health.ticked isPendingVerify now
  revert h
  generalize health.tick isPendingVerify now = result
  intro h
  cases h with
  | keepsHolding _ hchecks | rollsBack _ hchecks | idle _ hchecks => simp [hchecks]
  | confirmed _ _ _ hconfirmed => simp [hconfirmed]
  | waits _ _ _ _ hearly => simp [not_le.mpr hearly]
  | raises _ _ hchecks hstill hlate => simp [hchecks, hstill, hlate]

theorem tick_rollBack_iff {health : FirmwareHealthCheck} {isPendingVerify : Bool} {now : Time} :
    (health.tick isPendingVerify now).1 = .rollBack ↔
      health.holding = true ∧ rollbackHold ≤ now - health.holdStart := by
  have h := health.ticked isPendingVerify now
  revert h
  generalize health.tick isPendingVerify now = result
  intro h
  cases h with
  | keepsHolding hholding _ hearly => simp [not_le.mpr hearly]
  | rollsBack hholding _ hlate => simp [hholding, hlate]
  | idle hholding | confirmed hholding | waits hholding | raises hholding => simp [hholding]

section Run

variable [OtaEngine O] {health health' : FirmwareHealthCheck} {now : Time} {ota ota' : O}
  {outputHolds outputHolds' : ℤ}

/-- It only does not return from a rollback, and only of an image still pending. -/
theorem run_none (h : health.run now ota outputHolds = none) :
    (health.tick (OtaEngine.isPendingVerify ota) now).1 = .rollBack ∧
          OtaEngine.isPendingVerify ota = true := by
  unfold run at h
  rcases hresult : health.tick (OtaEngine.isPendingVerify ota) now with ⟨_ | _ | _, after⟩
  all_goals simp only [hresult, reduceCtorEq, Option.map_eq_none_iff] at h
  refine ⟨rfl, ?_⟩
  unfold rollbackNow at h
  cases hpending : OtaEngine.isPendingVerify ota with
  | false => simp [hpending] at h
  | true => rfl

theorem run_returns (h : health.run now ota outputHolds = some (health', ota', outputHolds')) :
    health' = (health.tick (OtaEngine.isPendingVerify ota) now).2 ∧
      (OtaEngine.isPendingVerify ota = false → ota' = ota) ∧
      outputHolds' - outputHolds = match (health.tick (OtaEngine.isPendingVerify ota) now).1 with
        | .holdOutput => 1
        | .rollBack => -1
        | .none => 0 := by
  unfold run at h
  rcases hresult : health.tick (OtaEngine.isPendingVerify ota) now with ⟨_ | _ | _, after⟩
  all_goals simp only [hresult] at h
  · cases h
    exact ⟨rfl, fun _ => rfl, by dsimp only; omega⟩
  · cases h
    exact ⟨rfl, fun _ => rfl, by dsimp only; omega⟩
  · simp only [Option.map_eq_some_iff, Prod.mk.injEq] at h
    obtain ⟨engine, hback, rfl, rfl, rfl⟩ := h
    refine ⟨rfl, fun hconfirmed => ?_, by dsimp only; omega⟩
    simpa [rollbackNow, hconfirmed] using hback.symm

end Run

/-! ## The handover marker -/

/-- `HANDOVER_REQUESTED`, set just before the handover restart. -/
def handoverRequested : UInt32 := 0x4F484F31

/-- `HANDOVER_DONE`: a handover happened since power-on. -/
def handoverDone : UInt32 := 0x4F484F32

/-- What one boot learns from the marker. -/
structure HandoverMarker where
  bootedByHandover : Bool
  handedOverSincePowerOn : Bool
  deriving DecidableEq, Repr

/-- `take_handover_marker`: what the marker says, and its value for this boot. -/
def takeHandoverMarker (marker : UInt32) (powerOn : Bool) : HandoverMarker × UInt32 :=
  let booted := !powerOn && marker == handoverRequested
  let handedOver := !powerOn && (booted || marker == handoverDone)
  (⟨booted, handedOver⟩, if handedOver then handoverDone else 0)

/-! ## The crash-loop handover -/

/-- `CRASH_LOOP_RESETS` -/
def crashLoopResets : ℕ := 3

/-- One boot as the reset log records it. -/
structure BootRecord where
  slot : List UInt8
  /-- Whether the reset that started the boot was a crash. -/
  crash : Bool
  deriving DecidableEq, Repr

/-- `crashes_while_running`: the reset recorded at a boot is charged to the
slot of the boot before it. -/
def crashesWhileRunning (boots : List BootRecord) (slot : List UInt8) : List Bool :=
  ((boots.zip boots.tail).filter fun pair => pair.1.slot == slot).map fun pair => pair.2.crash

/-- The last `threshold` entries are all crashes. -/
def lastAllCrashed (recentCrashes : List Bool) (threshold : ℕ) : Bool :=
  threshold != 0 && decide (threshold ≤ recentCrashes.length) &&
    (recentCrashes.drop (recentCrashes.length - threshold)).all id

/-- `revert_if_crash_looping` over the two slots: whether the other slot was
made the boot slot. -/
def revertIfCrashLooping {D : Type*} (flash : Flash D) (recentCrashes : List Bool)
    (threshold : ℕ) : Bool × Flash D :=
  let other := Flash.otherOf flash.running
  if !lastAllCrashed recentCrashes threshold then (false, flash)
  else if flash.pendingVerify then (false, flash)
  else if (flash.describe other).isNone then (false, flash)
  else if flash.stateOf other = some .invalid || flash.stateOf other = some .aborted then
    (false, flash)
  else
    match flash.setBoot other with
    | (some _, flash) => (false, flash)
    | (none, flash) => (true, flash)

/-- `accept_after_handover` -/
def acceptAfterHandover {D : Type*} (flash : Flash D) (bootedByHandover : Bool) : Flash D :=
  if !bootedByHandover || !flash.pendingVerify then flash else flash.markValid

end FirmwareHealthCheck

end OmegaStick
