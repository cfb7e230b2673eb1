import OmegaStick.Library.Transition
import OmegaStick.Firmware.SimOta
import OmegaStick.Device.HoldContract

/-!
# One counter, two services

Two calibration services share one OTA engine and one counter of output holds,
and the health check of the polling loop counts as a third holder.  Every
locked section is one step, in any interleaving: a request's handler, what runs
after its reply, `abort_update`, `expire_stale_update`, and one call of the
health check.

Two contracts side by side are the invariant `SharedHold`
(`sharedHold_iff_contract`), so a section that keeps the contract of its own
service keeps the invariant.
-/

namespace OmegaStick

open OtaEngine TransitionSystem

variable {F O : Type*}

/-! ## Two services -/

theorem LinkId.exists_iff {P : LinkId → Prop} : (∃ id, P id) ↔ P .vendor ∨ P .cdc := by
  constructor
  · rintro ⟨_ | _, h⟩
    · exact .inl h
    · exact .inr h
  · rintro (h | h)
    · exact ⟨_, h⟩
    · exact ⟨_, h⟩

/-- Both services, what they share, and the polling loop's health check. -/
structure TwoServices (F O : Type*) where
  services : LinkId → CalibrationService
  shared : Shared F O (Device F)
  health : FirmwareHealthCheck

/-- One locked section, or one call of the health check. -/
inductive TwoServicesStep (F : Type*) where
  | handleFrame (id : LinkId) (type : UInt8) (payload : List UInt8) (now : Time)
  | runAfterReply (id : LinkId) (queued : Bool)
  | abortUpdate (id : LinkId)
  | expireStaleUpdate (id : LinkId) (maxIdle now : Time) (locked : Bool)
  | healthCheck (now : Time)
  /-- The rest of the firmware: anything but the engine and the counter. -/
  | others (store : OmegaStore F) (device : Device F)

/-- The service a step runs in. -/
def TwoServicesStep.service {F : Type*} : TwoServicesStep F → Option LinkId
  | .handleFrame id .. | .runAfterReply id _ | .abortUpdate id | .expireStaleUpdate id .. => some id
  | .healthCheck _ | .others .. => none

namespace TwoServices

/-- One service, with what it shares. -/
def link (s : TwoServices F O) (id : LinkId) : Link F O (Device F) :=
  { toCalibrationService := s.services id, toShared := s.shared }

def withLink (s : TwoServices F O) (id : LinkId) (l : Link F O (Device F)) : TwoServices F O :=
  { s with
    services := fun i => if i = id then l.toCalibrationService else s.services i
    shared := l.toShared }

/-- A service that changed nothing. -/
theorem withLink_link (s : TwoServices F O) (id : LinkId) : s.withLink id (s.link id) = s := by
  have hservices : (fun i => if i = id then s.services id else s.services i) = s.services := by
    funext i
    by_cases h : i = id
    · rw [if_pos h, h]
    · rw [if_neg h]
  simp only [withLink, link, hservices]

@[simp] theorem withLink_services_self (s : TwoServices F O) (id : LinkId)
    (l : Link F O (Device F)) : (s.withLink id l).services id = l.toCalibrationService := by
  simp [withLink]

@[simp] theorem withLink_services_other (s : TwoServices F O) (id : LinkId)
    (l : Link F O (Device F)) : (s.withLink id l).services id.other = s.services id.other := by
  cases id <;> rfl

@[simp] theorem withLink_shared (s : TwoServices F O) (id : LinkId) (l : Link F O (Device F)) :
    (s.withLink id l).shared = l.toShared := rfl

@[simp] theorem withLink_health (s : TwoServices F O) (id : LinkId) (l : Link F O (Device F)) :
    (s.withLink id l).health = s.health := rfl

variable [MachineFloat F] [FloatBits F] [OtaEngine O] (errc : ErrcTable) (ota : Bool)

/-- One step; `none` when the health check restarts the device. -/
def next (s : TwoServices F O) : TwoServicesStep F → Option (TwoServices F O)
  | .handleFrame id type payload now =>
      some (s.withLink id
        ((s.link id).handleFrameLocked (calibrationConfig errc ota) type payload now).2)
  | .runAfterReply id queued =>
      some (s.withLink id ((s.link id).runAfterReply (calibrationConfig errc ota) queued).2)
  | .abortUpdate id =>
      some (s.withLink id ((s.link id).abortUpdate (calibrationConfig errc ota)))
  | .expireStaleUpdate id maxIdle now locked =>
      some (s.withLink id
        ((s.link id).expireStaleUpdate (calibrationConfig errc ota) maxIdle now locked).2)
  | .healthCheck now =>
      (s.health.run now s.shared.ota s.shared.outside.outputHolds).map
        fun (health, engine, outputHolds) =>
          { s with
            health := health
            shared := { s.shared with
              ota := engine
              outside := { s.shared.outside with outputHolds := outputHolds } } }
  | .others store device =>
      some { s with
        shared := { s.shared with
          store := store
          outside := { device with outputHolds := s.shared.outside.outputHolds } } }

end TwoServices

/-- Fresh services and a fresh health check, no session and no hold. -/
def twoServices [MachineFloat F] [FloatBits F] [OtaEngine O] (errc : ErrcTable) (ota : Bool) :
    TransitionSystem (TwoServices F O) (TwoServicesStep F) :=
  .ofOption
    (fun s => (∀ id, s.services id = .new) ∧ sessionActive s.shared.ota = false ∧
      s.shared.outside.outputHolds = 0 ∧ s.health.holding = false)
    (TwoServices.next errc ota)

/-! ## The invariant -/

/-- What holds of the flags, the session and the counter. -/
structure SharedHold (session : O → Option (List UInt8)) (s : TwoServices F O) : Prop where
  atMostOneOwner : ∀ id, (s.services id).otaOwner = true → (s.services id.other).otaOwner = false
  session_owned : (session s.shared.ota).isSome = true ↔ ∃ id, (s.services id).otaOwner = true
  owner_holding : ∀ id, (s.services id).otaOwner = true → (s.services id).holding = true
  counter : s.shared.outside.outputHolds =
    (s.services .vendor).holding.toInt + (s.services .cdc).holding.toInt + s.health.holding.toInt

section Invariant

variable {session : O → Option (List UInt8)} {s : TwoServices F O}

/-- The counter never goes negative, and is positive exactly when someone holds. -/
theorem SharedHold.outputHolds_nonneg (h : SharedHold session s) :
    0 ≤ s.shared.outside.outputHolds := by
  rw [h.counter]
  cases (s.services .vendor).holding <;> cases (s.services .cdc).holding <;>
    cases s.health.holding <;> decide

theorem SharedHold.outputHolds_pos_iff (h : SharedHold session s) :
    0 < s.shared.outside.outputHolds ↔
      (∃ id, (s.services id).holding = true) ∨ s.health.holding = true := by
  rw [h.counter, LinkId.exists_iff]
  cases (s.services .vendor).holding <;> cases (s.services .cdc).holding <;>
    cases s.health.holding <;> decide

/-- The holds that are not this service's. -/
def otherHolds (s : TwoServices F O) (id : LinkId) : ℤ :=
  (s.services id.other).holding.toInt + s.health.holding.toInt

/-- The invariant is the contract of either service. -/
theorem sharedHold_iff_contract (id : LinkId) :
    SharedHold session s ↔
      HoldContract session (s.services id.other).otaOwner (otherHolds s id) (s.link id) ∧
        ((s.services id.other).otaOwner = true → (s.services id.other).holding = true) := by
  constructor
  · intro h
    have howned := h.session_owned
    rw [LinkId.exists_iff] at howned
    refine ⟨⟨h.owner_holding id, h.atMostOneOwner id, ?_, ?_⟩, h.owner_holding id.other⟩
    · rw [Bool.eq_iff_iff, Bool.or_eq_true]
      cases id with
      | vendor => exact howned
      | cdc => exact howned.trans or_comm
    · rw [show (s.link id).outside.outputHolds = _ from h.counter]
      cases id <;> simp only [otherHolds, LinkId.other, TwoServices.link] <;> omega
  · rintro ⟨h, hother⟩
    have howned := h.session_owned
    rw [Bool.eq_iff_iff, Bool.or_eq_true] at howned
    refine ⟨?_, ?_, ?_, ?_⟩
    · have hself := h.exclusive
      have hcontra : (s.services id.other).otaOwner = true → (s.services id).otaOwner = false := by
        intro hother
        cases howner : (s.services id).otaOwner with
        | false => rfl
        | true => exact absurd hother (by simp [hself howner])
      intro i
      cases id <;> cases i <;> first | exact hself | exact hcontra
    · rw [LinkId.exists_iff]
      cases id with
      | vendor => exact howned
      | cdc => exact howned.trans or_comm
    · have hself := h.owner_holding
      intro i
      cases id <;> cases i <;> first | exact hself | exact hother
    · have hcounter := h.counter
      cases id <;> simp only [otherHolds, LinkId.other, TwoServices.link] at hcounter <;> omega

/-- A section of one service that keeps its contract keeps the invariant, and
leaves the other service's hold and session as they were. -/
theorem SharedHold.withLink (hs : SharedHold session s) (id : LinkId) {l : Link F O (Device F)}
    (hkeeps : Keeps session (s.services id.other).otaOwner (otherHolds s id) (s.link id) l) :
    SharedHold session (s.withLink id l) ∧
      ((s.services id.other).otaOwner = true →
        session (s.withLink id l).shared.ota = session s.shared.ota) := by
  obtain ⟨hcontract, hother⟩ := (sharedHold_iff_contract id).mp hs
  obtain ⟨hl, hsession⟩ := hkeeps hcontract
  refine ⟨(sharedHold_iff_contract id).mpr ⟨?_, ?_⟩, hsession⟩
  · have hlink : (s.withLink id l).link id = l := by
      simp [TwoServices.link]
    simpa [hlink, otherHolds] using hl
  · simpa using hother

variable [OtaEngine O]

theorem SharedHold.healthCheck (hota : LawfulOta session) (hs : SharedHold session s)
    {now : Time} {health : FirmwareHealthCheck} {engine : O} {outputHolds : ℤ}
    (hrun : s.health.run now s.shared.ota s.shared.outside.outputHolds =
      some (health, engine, outputHolds)) :
    SharedHold session
      { s with
        health := health
        shared := { s.shared with
          ota := engine
          outside := { s.shared.outside with outputHolds := outputHolds } } } := by
  obtain ⟨hholds, hengine⟩ := FirmwareHealthCheck.run_some hrun
  have hsession : session engine = session s.shared.ota := by
    rcases hengine with rfl | ⟨hfailed, rfl⟩
    · rfl
    · exact hota.markAppInvalid _ hfailed
  refine ⟨hs.atMostOneOwner, ?_, hs.owner_holding, ?_⟩
  · rw [hsession]; exact hs.session_owned
  · have := hs.counter
    simp only
    omega

end Invariant

/-! ## Every interleaving -/

section Runs

variable [MachineFloat F] [FloatBits F] [OtaEngine O] {session : O → Option (List UInt8)}
  {errc : ErrcTable} {ota : Bool} {s t : TwoServices F O}

/-- One step keeps the invariant; a step of one service leaves an upload of the
other one as it was. -/
theorem SharedHold.next (hota : LawfulOta session) (hs : SharedHold session s)
    {step : TwoServicesStep F} (ht : s.next errc ota step = some t) :
    SharedHold session t ∧ ∀ id, step.service = some id →
      (s.services id.other).otaOwner = true →
        t.services id.other = s.services id.other ∧
          session t.shared.ota = session s.shared.ota := by
  have hsection : ∀ (id : LinkId) (l : Link F O (Device F)),
      Keeps session (s.services id.other).otaOwner (otherHolds s id) (s.link id) l →
      t = s.withLink id l → step.service = some id →
      SharedHold session t ∧ ∀ id, step.service = some id →
        (s.services id.other).otaOwner = true →
          t.services id.other = s.services id.other ∧
            session t.shared.ota = session s.shared.ota := by
    rintro id l hkeeps rfl hservice
    obtain ⟨hnext, hsession⟩ := hs.withLink id hkeeps
    refine ⟨hnext, fun i hi howner => ?_⟩
    obtain rfl : id = i := Option.some.inj (hservice.symm.trans hi)
    exact ⟨by simp, hsession howner⟩
  cases step with
  | handleFrame id type payload now =>
      exact hsection id _ (keeps_handleFrameLocked hota _ type payload now)
        (Option.some.inj ht).symm rfl
  | runAfterReply id queued =>
      exact hsection id _ (keeps_runAfterReply hota _ queued) (Option.some.inj ht).symm rfl
  | abortUpdate id =>
      exact hsection id _ (keeps_abortUpdate hota _) (Option.some.inj ht).symm rfl
  | expireStaleUpdate id maxIdle now locked =>
      exact hsection id _ (keeps_expireStaleUpdate hota _ maxIdle now locked)
        (Option.some.inj ht).symm rfl
  | healthCheck now =>
      simp only [TwoServices.next, Option.map_eq_some_iff] at ht
      obtain ⟨⟨health, engine, outputHolds⟩, hrun, rfl⟩ := ht
      exact ⟨hs.healthCheck hota hrun, fun id hid => by simp [TwoServicesStep.service] at hid⟩
  | others store device =>
      obtain rfl := Option.some.inj ht
      exact ⟨⟨hs.atMostOneOwner, hs.session_owned, hs.owner_holding, hs.counter⟩,
        fun id hid => by simp [TwoServicesStep.service] at hid⟩

/-- **In every interleaving** at most one service owns the engine's session,
one does exactly while a session is active, an owner holds the output, and the
counter is the number of holders; no step of a service touches the hold or the
session of the other one's upload. -/
theorem sharedHold_of_reachable (hota : LawfulOta session)
    (hs : (twoServices errc ota).Reachable s) :
    SharedHold session s ∧ 0 ≤ s.shared.outside.outputHolds ∧
      (0 < s.shared.outside.outputHolds ↔
        (∃ id, (s.services id).holding = true) ∨ s.health.holding = true) ∧
      ∀ step t id, s.next errc ota step = some t → step.service = some id →
        (s.services id.other).otaOwner = true →
          t.services id.other = s.services id.other ∧
            session t.shared.ota = session s.shared.ota := by
  have hinvariant : SharedHold session s := by
    refine Reachable.invariant (I := SharedHold session) ?_ ?_ hs
    · rintro s ⟨hservices, hactive, hholds, hhealth⟩
      rw [hota.active] at hactive
      refine ⟨?_, ?_, ?_, ?_⟩
      · simp [hservices, CalibrationService.new]
      · simp [hservices, hactive, CalibrationService.new]
      · simp [hservices, CalibrationService.new]
      · simp [hservices, hholds, hhealth, CalibrationService.new]
    · intro s step t hs ht
      exact (hs.next hota ht).1
  exact ⟨hinvariant, hinvariant.outputHolds_nonneg, hinvariant.outputHolds_pos_iff,
    fun step t id ht => (hinvariant.next hota ht).2 id⟩

end Runs

/-! ## The simulator's engine -/

/-- The bytes of the simulator's running upload. -/
def SimOta.session (ota : SimOta) : Option (List UInt8) :=
  if ota.active then some ota.image else none

theorem SimOta.lawful : LawfulOta SimOta.session where
  active o := by
    change o.active = _
    unfold session
    cases o.active <;> rfl
  begin_active size o hactive := by
    change o.active = true at hactive
    simp [OtaEngine.begin, SimOta.begin, hactive]
  -- an upload is refused while one is active or an image is pending
  begin_ok size o := by
    simp only [OtaEngine.begin, SimOta.begin]
    by_cases hactive : o.active = true
    · simp [hactive]
    · by_cases hpending : o.flash.pendingVerify = true
      · simp [hactive, hpending]
      · simp [hactive, hpending, session]
  begin_failed size o := by
    simp only [OtaEngine.begin, SimOta.begin]
    by_cases hactive : o.active = true
    · simp [hactive]
    · by_cases hpending : o.flash.pendingVerify = true
      · simp [hactive, hpending]
      · simp [hactive, hpending]
  write_ok data o := by
    simp only [OtaEngine.write, SimOta.write]
    by_cases hactive : o.active = true
    · simp only [hactive, Bool.not_true, Bool.false_eq_true, ite_false]
      split <;> simp [session, hactive]
    · simp [hactive]
  write_failed data o := by
    simp only [OtaEngine.write, SimOta.write]
    by_cases hactive : o.active = true
    · simp only [hactive, Bool.not_true, Bool.false_eq_true, ite_false]
      split <;> simp
    · simp [hactive, session]
  finished o := by
    simp only [OtaEngine.finish, SimOta.finish]
    by_cases hactive : o.active = true
    · simp only [hactive, Bool.not_true, Bool.false_eq_true, ite_false]
      split <;> simp [session]
    · simp [hactive, session]
  aborted o := rfl
  markAppValid o := rfl
  markAppInvalid o := by
    simp only [OtaEngine.markAppInvalidAndRollback, session]
    split <;> simp
  setBootOther o := rfl

def freshTwoServices : TwoServices ℚ SimOta where
  services _ := .new
  shared :=
    { store := ⟨.default, .default, .default⟩
      ota := .new (.format default)
      outside := ⟨.idle, 0, false, .new, none, none, 0, []⟩ }
  health := .new false 0

/-- The vendor link began an upload. -/
def vendorUpload : TwoServices ℚ SimOta :=
  freshTwoServices.withLink .vendor
    ((freshTwoServices.link .vendor).handleFrameLocked (calibrationConfig hostErrc true) 0x58
      [0, 16, 0, 0] 0).2

/-- An upload on the vendor link survives everything the other link does next. -/
theorem sharedHold_vendorUpload :
    (vendorUpload.services .vendor).otaOwner = true ∧ SharedHold SimOta.session vendorUpload ∧
      ∀ step t, vendorUpload.next hostErrc true step = some t → step.service = some .cdc →
        t.services .vendor = vendorUpload.services .vendor ∧
          t.shared.ota.session = vendorUpload.shared.ota.session := by
  have hreachable : (twoServices hostErrc true).Reachable vendorUpload :=
    .step (.init ⟨fun _ => rfl, rfl, rfl, rfl⟩)
      (show freshTwoServices.next hostErrc true (.handleFrame .vendor 0x58 [0, 16, 0, 0] 0) =
        some vendorUpload from rfl)
  have howner : (vendorUpload.services .vendor).otaOwner = true := by decide
  obtain ⟨hinvariant, -, -, hother⟩ := sharedHold_of_reachable SimOta.lawful hreachable
  exact ⟨howner, hinvariant, fun step t ht hservice => hother step t .cdc ht hservice howner⟩

end OmegaStick
