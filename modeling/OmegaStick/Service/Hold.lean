import OmegaStick.Library.Transition
import OmegaStick.Firmware.SimOta
import OmegaStick.Service.Effects

/-!
# The hold before a reboot

One service, any sequence of calls: requests with whatever the transport says
of their replies, `abort_update`, `expire_stale_update`, and anything the rest
of the device does to the shared state in between.  Once a deferred reboot has
started, the output should stay held.

`holdEffect` says of every request what it does to the hold, in terms of the
state before it and of what the engine answers: it keeps it, releases it, or
raises it and defers an action.  `handleRequest_holding` proves that of the
handlers, `step_holding_iff` turns it into an exact condition for one call, and
`Path.forall_iff` carries it to whole runs.
-/

namespace OmegaStick

open OtaEngine TransitionSystem

variable {F O R : Type*}

/-! ## Calls -/

/-- One call, and what its environment decides. -/
inductive ServiceCall (F O R : Type*) where
  /-- `handle_frame`; `sent` is whether the transport takes the reply. -/
  | request (type : UInt8) (payload : List UInt8) (now : Time) (sent : Bool)
  | abortUpdate
  /-- `locked` is whether the try-lock got the mutex. -/
  | expireStaleUpdate (maxIdle now : Time) (locked : Bool)
  /-- The rest of the device moves the shared state. -/
  | others (shared : Shared F O R)

/-- A service in its device, and whether a deferred reboot has started. -/
structure Rebooting (F O R : Type*) where
  link : Link F O R
  rebooting : Bool

section Calls

variable [MachineFloat F] [FloatBits F] [OtaEngine O] (cfg : CalibrationService.Config F R)

def Rebooting.next (s : Rebooting F O R) : ServiceCall F O R → Rebooting F O R
  | .request type payload now sent =>
      let (started, link) := s.link.handleFrame cfg type payload now sent
      ⟨link, s.rebooting || started.isSome⟩
  | .abortUpdate => { s with link := s.link.abortUpdate cfg }
  | .expireStaleUpdate maxIdle now locked =>
      { s with link := (s.link.expireStaleUpdate cfg maxIdle now locked).2 }
  | .others shared => { s with link := { s.link with toShared := shared } }

/-- A fresh service on any device. -/
def serviceCalls : TransitionSystem (Rebooting F O R) (ServiceCall F O R) :=
  .ofFun (fun s => s.link.toCalibrationService = .new ∧ s.rebooting = false)
    (Rebooting.next cfg)

end Calls

/-- The output is held from the start of a reboot on. -/
def HeldUntilReboot (s : Rebooting F O R) : Prop := s.rebooting = true → s.link.holding = true

instance (s : Rebooting F O R) : Decidable (HeldUntilReboot s) :=
  inferInstanceAs (Decidable (_ → _))

/-! ## What a request does to the hold -/

/-- A request's effect on a hold that is up. -/
inductive HoldEffect where
  | keep
  | release
  /-- Raised, with an action deferred; `owns` is whether the service then owns
  a running upload. -/
  | defer (owns : Bool)
  deriving DecidableEq, Repr

section Effect

variable [OtaEngine O]

variable (cfg : CalibrationService.Config F R)

/-- What a request does to the hold, from the state before it and the engine's
answers. -/
def holdEffect (l : Link F O R) (msg : Msg) (payload : List UInt8) : HoldEffect :=
  match msg with
  | .otaAbort => if cfg.ota && l.otaOwner then .release else .keep
  | .otaData =>
      if l.otaDataAccepted cfg payload && (write (payload.drop 4) l.ota).1.isSome then .release
      else .keep
  | .otaFinish =>
      if cfg.ota && l.otaOwner then
        if (finish l.ota).1.isSome then .release else .defer false
      else .keep
  | .otaBegin =>
      if l.otaBeginAccepted cfg payload && l.ownsSession &&
          (begin (getU32 payload) (abort l.ota)).1.isSome then .release
      else .keep
  | .revert =>
      if cfg.ota && payload.isEmpty then
        let ota := if l.ownsSession then abort l.ota else l.ota
        if Link.revertRefused ota || (setBootOther ota).1.isSome then
          if l.ownsSession then .release else .keep
        else .defer (l.otaOwner && !l.ownsSession && sessionActive (setBootOther ota).2)
      else .keep
  | .restart => if payload.isEmpty && cfg.restart then .defer l.ownsSession else .keep
  | .setInputMode =>
      if (Link.switchedMode l.store payload).isSome then .defer l.ownsSession else .keep
  | _ => .keep

/-- The calls that release the hold: a request with that effect, or one whose
reply is not queued while no upload of this service runs; the abort of an
upload this service owns; its expiry. -/
def releasesHold (l : Link F O R) : ServiceCall F O R → Bool
  | .request type payload _ sent =>
      match (Msg.ofCode type).map fun msg => holdEffect cfg l msg payload with
      | some .release => true
      | some (.defer owns) => !sent && !owns
      | _ => false
  | .abortUpdate => cfg.ota && l.otaOwner
  | .expireStaleUpdate maxIdle now locked =>
      locked && cfg.ota && l.otaOwner &&
        (!sessionActive l.ota || decide (maxIdle ≤ now - l.otaLastActivity))
  | .others _ => false

end Effect

/-! ## The handlers have that effect -/

/-- What an effect says of the state after the request. -/
def HoldEffect.Describes [OtaEngine O] (l l' : Link F O R) : HoldEffect → Prop
  | .keep => (l.holding = true → l'.holding = true) ∧ l'.afterReply = l.afterReply
  | .release => l'.holding = false ∧ l'.afterReply = l.afterReply
  | .defer owns => l'.holding = true ∧ l'.afterReply.isSome ∧ l'.ownsSession = owns

section Handlers

variable [OtaEngine O] (cfg : CalibrationService.Config F R)

theorem HoldEffect.describes_keep_self (l : Link F O R) : HoldEffect.keep.Describes l l :=
  ⟨id, rfl⟩

theorem handleOtaAbort_describes (l : Link F O R) (payload : List UInt8) :
    (holdEffect cfg l .otaAbort payload).Describes l (l.handleOtaAbort cfg).2 := by
  rw [Link.handleOtaAbort_snd, holdEffect]
  split
  · exact ⟨by simp, by simp [Link.abortOwn]⟩
  · exact HoldEffect.describes_keep_self l

theorem handleOtaData_describes (l : Link F O R) (payload : List UInt8) (now : Time) :
    (holdEffect cfg l .otaData payload).Describes l (l.handleOtaData cfg payload now).2 := by
  rw [Link.handleOtaData_snd, holdEffect]
  cases l.otaDataAccepted cfg payload with
  | false => exact HoldEffect.describes_keep_self l
  | true =>
      rcases write (payload.drop 4) l.ota with ⟨_ | ec, ota⟩
      · exact ⟨id, rfl⟩
      · exact ⟨by simp, by simp⟩

theorem handleOtaFinish_describes (l : Link F O R) (payload : List UInt8) :
    (holdEffect cfg l .otaFinish payload).Describes l (l.handleOtaFinish cfg).2 := by
  rw [Link.handleOtaFinish_snd, holdEffect]
  cases cfg.ota && l.otaOwner with
  | false => exact HoldEffect.describes_keep_self l
  | true =>
      rcases finish l.ota with ⟨_ | ec, ota⟩
      · exact ⟨by simp [Link.defer], rfl, by simp [Link.defer, Link.ownsSession]⟩
      · exact ⟨by simp, by simp⟩

theorem handleOtaBegin_describes (l : Link F O R) (payload : List UInt8) (now : Time) :
    (holdEffect cfg l .otaBegin payload).Describes l (l.handleOtaBegin cfg payload now).2 := by
  have hota : (l.otaBeginHeld cfg).ota = if l.ownsSession then abort l.ota else l.ota := by
    rw [Link.otaBeginHeld, Link.holdOutput_ota]
    split <;> rfl
  have hafter : (l.otaBeginHeld cfg).afterReply = l.afterReply := by
    rw [Link.otaBeginHeld, Link.holdOutput_afterReply]
    split <;> rfl
  have hheld : (l.otaBeginHeld cfg).holding = true := Link.holdOutput_holding ..
  rw [Link.handleOtaBegin_snd, holdEffect, hota]
  cases l.otaBeginAccepted cfg payload with
  | false => exact HoldEffect.describes_keep_self l
  | true =>
      cases howns : l.ownsSession with
      | true =>
          simp only [Bool.and_self, Bool.true_and, ite_true]
          rcases begin (getU32 payload) (abort l.ota) with ⟨_ | ec, ota⟩
          · exact ⟨fun _ => hheld, hafter⟩
          · simp only [Link.otaBeginReleases, howns, Bool.or_true, ite_true, Option.isSome_some]
            exact ⟨by simp, by simp [hafter]⟩
      | false =>
          simp only [Bool.and_false, Bool.false_and, Bool.false_eq_true, ite_false, ite_true]
          rcases begin (getU32 payload) l.ota with ⟨_ | ec, ota⟩
          · exact ⟨fun _ => hheld, hafter⟩
          · refine ⟨fun hholding => ?_, ?_⟩
            · simp [Link.otaBeginReleases, hholding, howns, hheld]
            · simp only
              split <;> simp [hafter]

theorem handleRevert_describes (l : Link F O R) (payload : List UInt8) :
    (holdEffect cfg l .revert payload).Describes l (l.handleRevert cfg payload).2 := by
  have hota : (l.revertStarted cfg).ota = if l.ownsSession then abort l.ota else l.ota := by
    unfold Link.revertStarted
    split <;> simp [Link.abortOwn]
  have hafter : (l.revertStarted cfg).afterReply = l.afterReply := by
    unfold Link.revertStarted
    split <;> simp [Link.abortOwn]
  have howner : (l.revertStarted cfg).otaOwner = (l.otaOwner && !l.ownsSession) := by
    unfold Link.revertStarted
    cases l.ownsSession <;> simp [Link.abortOwn]
  have hrefused : ∀ ota : O,
      (if l.ownsSession then HoldEffect.release else .keep).Describes l
        { l.revertStarted cfg with ota := ota } := by
    intro ota
    cases howns : l.ownsSession with
    | true => exact ⟨by simp [Link.revertStarted, howns], by simp [hafter]⟩
    | false => exact ⟨by simp [Link.revertStarted, howns], by simp [hafter]⟩
  rw [Link.handleRevert_snd, holdEffect, ← hota]
  cases cfg.ota && payload.isEmpty with
  | false => exact HoldEffect.describes_keep_self l
  | true =>
      simp only [ite_true]
      by_cases hbusy : Link.revertRefused (l.revertStarted cfg).ota = true
      · simpa only [hbusy, Bool.true_or, ite_true] using hrefused (l.revertStarted cfg).ota
      · simp only [hbusy, Bool.false_or, Bool.false_eq_true, ite_false]
        rcases hboot : setBootOther (l.revertStarted cfg).ota with ⟨_ | err, ota⟩
        · exact ⟨by simp [Link.defer], rfl, by simp [Link.defer, Link.ownsSession, howner]⟩
        · exact hrefused ota

theorem handleRestart_describes (l : Link F O R) (payload : List UInt8) :
    (holdEffect cfg l .restart payload).Describes l (l.handleRestart cfg payload).2 := by
  rw [Link.handleRestart_snd, holdEffect]
  split
  · exact ⟨by simp [Link.defer], rfl, by simp [Link.defer, Link.ownsSession]⟩
  · exact HoldEffect.describes_keep_self l

theorem handleSetInputMode_describes (l : Link F O R) (payload : List UInt8) :
    (holdEffect cfg l .setInputMode payload).Describes l (l.handleSetInputMode cfg payload).2 := by
  rw [Link.handleSetInputMode_snd, holdEffect]
  cases Link.switchedMode l.store payload with
  | none => exact HoldEffect.describes_keep_self l
  | some mode => exact ⟨by simp [Link.defer], rfl, by simp [Link.defer, Link.ownsSession]⟩

theorem Link.SameService.describes {l l' : Link F O R} (h : l.SameService l') :
    HoldEffect.keep.Describes l l' :=
  ⟨fun hholding => by rw [h.service]; exact hholding, by rw [h.service]⟩

variable [MachineFloat F] [FloatBits F]

/-- Every request has the effect `holdEffect` says. -/
theorem handleRequest_describes (l : Link F O R) (msg : Msg) (payload : List UInt8) (now : Time) :
    (holdEffect cfg l msg payload).Describes l (l.handleRequest cfg msg payload now).2 := by
  cases msg with
  | otaBegin => exact handleOtaBegin_describes cfg l payload now
  | otaData => exact handleOtaData_describes cfg l payload now
  | otaFinish => exact handleOtaFinish_describes cfg l payload
  | otaAbort => exact handleOtaAbort_describes cfg l payload
  | revert => exact handleRevert_describes cfg l payload
  | restart => exact handleRestart_describes cfg l payload
  | setInputMode => exact handleSetInputMode_describes cfg l payload
  | markValid =>
      rw [Link.handleRequest, Link.handleMarkValid_snd]
      split <;> exact ⟨id, rfl⟩
  | getState | setManualOffset | setDeadzoneOverride | setNudgeSettings | saveToFlash
  | startCalibration | getFwInfo | getDiagnostics | setNudgeEnabled =>
      exact (l.handleRequest_sameService cfg (by decide) payload now).describes
  | state | calibrationResult | fwInfo | diagnostics | ok | error =>
      exact HoldEffect.describes_keep_self l

end Handlers

/-! ## Outside a request -/

section Outside

variable [OtaEngine O] (cfg : CalibrationService.Config F R)

theorem runAfterReply_of_none {l : Link F O R} (queued : Bool) (h : l.afterReply = none) :
    l.runAfterReply cfg queued = (none, l) := by
  unfold Link.runAfterReply
  rw [h]

/-- Starting a deferred action leaves the hold as it is. -/
theorem runAfterReply_of_queued {l : Link F O R} (h : l.afterReply.isSome) :
    (l.runAfterReply cfg true).2.holding = l.holding ∧
      (l.runAfterReply cfg true).2.afterReply = none := by
  obtain ⟨action, haction⟩ := Option.isSome_iff_exists.mp h
  unfold Link.runAfterReply
  rw [haction]
  cases action with
  | otaRestart | restart => exact ⟨rfl, rfl⟩
  | setInputMode mode =>
      simp only [ite_true, Link.setInputMode]
      split <;> exact ⟨rfl, rfl⟩

/-- A dropped action leaves the hold to a running upload. -/
theorem runAfterReply_of_not_queued {l : Link F O R} (h : l.afterReply.isSome)
    (hholding : l.holding = true) :
    (l.runAfterReply cfg false).1 = none ∧
      (l.runAfterReply cfg false).2.holding = l.ownsSession ∧
      (l.runAfterReply cfg false).2.afterReply = none := by
  obtain ⟨action, haction⟩ := Option.isSome_iff_exists.mp h
  unfold Link.runAfterReply
  rw [haction]
  cases howns : l.ownsSession with
  | true =>
      have hkept : Link.ownsSession { l with afterReply := none } = true := howns
      simp only [hkept, Bool.false_eq_true, ite_false, ite_true]
      exact ⟨trivial, hholding, trivial⟩
  | false =>
      have hgone : Link.ownsSession { l with afterReply := none } = false := howns
      simp [hgone]

theorem abortUpdate_afterReply (l : Link F O R) :
    (l.abortUpdate cfg).afterReply = l.afterReply := by
  unfold Link.abortUpdate
  split
  · exact Link.holdOutput_afterReply ..
  · rfl

theorem expireStaleUpdate_afterReply (l : Link F O R) (maxIdle now : Time) (locked : Bool) :
    (l.expireStaleUpdate cfg maxIdle now locked).2.afterReply = l.afterReply := by
  unfold Link.expireStaleUpdate
  split
  · rfl
  · split
    · exact Link.holdOutput_afterReply ..
    · split
      · rfl
      · exact Link.holdOutput_afterReply ..

theorem abortUpdate_holding (l : Link F O R) (hholding : l.holding = true) :
    (l.abortUpdate cfg).holding = true ↔ releasesHold cfg l .abortUpdate = false := by
  unfold Link.abortUpdate releasesHold
  split
  · rename_i h
    simp [h, Link.abortOwn]
  · rename_i h
    simp [h, hholding]

theorem expireStaleUpdate_holding (l : Link F O R) (hholding : l.holding = true)
    (maxIdle now : Time) (locked : Bool) :
    (l.expireStaleUpdate cfg maxIdle now locked).2.holding = true ↔
      releasesHold cfg l (.expireStaleUpdate maxIdle now locked) = false := by
  unfold Link.expireStaleUpdate
  simp only [releasesHold]
  by_cases hguard : (!locked || !cfg.ota || !l.otaOwner) = true
  · rw [if_pos hguard]
    refine ⟨fun _ => ?_, fun _ => hholding⟩
    revert hguard
    cases locked <;> cases cfg.ota <;> cases l.otaOwner <;> simp
  · rw [if_neg hguard]
    have hopen : (locked && cfg.ota && l.otaOwner) = true := by
      revert hguard
      cases locked <;> cases cfg.ota <;> cases l.otaOwner <;> simp
    rw [hopen, Bool.true_and]
    by_cases hactive : sessionActive l.ota = true
    · by_cases hidle : now - l.otaLastActivity < maxIdle
      · simp [hactive, hidle, hholding]
      · simp [hactive, hidle, Link.abortOwn, not_lt.mp hidle]
    · simp [hactive]

end Outside

/-! ## One call -/

section Step

variable [MachineFloat F] [FloatBits F] [OtaEngine O] (cfg : CalibrationService.Config F R)

/-- A request that defers an action is answered. -/
theorem isSome_reply_of_afterReply {l : Link F O R} {msg : Msg} {payload : List UInt8} {now : Time}
    (hafter : l.afterReply = none)
    (hdefer : (l.handleRequest cfg msg payload now).2.afterReply.isSome) :
    (l.handleRequest cfg msg payload now).1.isSome := by
  cases msg with
  | state | calibrationResult | fwInfo | diagnostics | ok | error =>
      simp [Link.handleRequest, hafter] at hdefer
  | getState | setManualOffset | setDeadzoneOverride | setNudgeSettings | setInputMode
  | saveToFlash | startCalibration | restart | otaBegin | otaData | otaFinish | otaAbort
  | getFwInfo | markValid | revert | getDiagnostics | setNudgeEnabled => rfl

/-- What a whole request does to the hold, with nothing deferred before it. -/
structure RequestHold (l : Link F O R) (call : ServiceCall F O R)
    (r : Option AfterReply × Link F O R) : Prop where
  settled : r.2.afterReply = none
  released : l.holding = true → (r.2.holding = true ↔ releasesHold cfg l call = false)
  started : r.1.isSome → r.2.holding = true

theorem handleFrame_requestHold {l : Link F O R} (hafter : l.afterReply = none) (type : UInt8)
    (payload : List UInt8) (now : Time) (sent : Bool) :
    RequestHold cfg l (.request type payload now sent)
      (l.handleFrame cfg type payload now sent) := by
  unfold Link.handleFrame Link.handleFrameLocked
  cases hcode : Msg.ofCode type with
  | none =>
      simp only [runAfterReply_of_none cfg _ hafter]
      exact ⟨hafter, fun hholding => by simp [hholding, releasesHold, hcode], by simp⟩
  | some msg =>
      have hdescribes := handleRequest_describes cfg l msg payload now
      have hreply : (l.handleRequest cfg msg payload now).2.afterReply.isSome →
          (l.handleRequest cfg msg payload now).1.isSome :=
        isSome_reply_of_afterReply cfg hafter
      simp only
      -- what a request does to the hold is known from `holdEffect`
      revert hdescribes hreply
      generalize l.handleRequest cfg msg payload now = r
      intro hdescribes hreply
      cases heffect : holdEffect cfg l msg payload with
      | keep =>
          rw [heffect] at hdescribes
          have hnone := hdescribes.2.trans hafter
          simp only [runAfterReply_of_none cfg _ hnone]
          refine ⟨hnone, fun hholding => ?_, by simp⟩
          simp [hdescribes.1 hholding, releasesHold, hcode, heffect]
      | release =>
          rw [heffect] at hdescribes
          have hnone := hdescribes.2.trans hafter
          simp only [runAfterReply_of_none cfg _ hnone]
          refine ⟨hnone, fun _ => ?_, by simp⟩
          simp [hdescribes.1, releasesHold, hcode, heffect]
      | defer owns =>
          rw [heffect] at hdescribes
          obtain ⟨hheld, hdefer, howns⟩ := hdescribes
          have hanswered : r.1.isNone = false := by simpa using hreply hdefer
          rw [hanswered, Bool.false_or]
          cases sent with
          -- the reply was queued, and the deferred action decides
          | true =>
              obtain ⟨hsame, hnone⟩ := runAfterReply_of_queued cfg hdefer
              refine ⟨hnone, fun _ => ?_, fun _ => hsame.trans hheld⟩
              simp [hsame, hheld, releasesHold, hcode, heffect]
          -- it was not, and the action is dropped: the hold is released
          | false =>
              obtain ⟨hstarted, hholding, hnone⟩ :=
                runAfterReply_of_not_queued cfg hdefer hheld
              refine ⟨hnone, fun _ => ?_, fun h => by simp [hstarted] at h⟩
              simp [hholding, howns, releasesHold, hcode, heffect]

/-- Nothing is deferred between two calls. -/
def Settled (s : Rebooting F O R) : Prop := s.link.afterReply = none

theorem Settled.next {s : Rebooting F O R} (hs : Settled s) (call : ServiceCall F O R) :
    Settled (s.next cfg call) := by
  cases call with
  | request type payload now sent =>
      exact (handleFrame_requestHold cfg hs type payload now sent).settled
  | abortUpdate => exact (abortUpdate_afterReply cfg s.link).trans hs
  | expireStaleUpdate maxIdle now locked =>
      exact (expireStaleUpdate_afterReply cfg s.link maxIdle now locked).trans hs
  | others shared => exact hs

/-- One call keeps the output held through a reboot exactly when it is not one
of the calls that release the hold. -/
theorem heldUntilReboot_next_iff {s : Rebooting F O R} (hs : Settled s) (hheld : HeldUntilReboot s)
    (call : ServiceCall F O R) :
    HeldUntilReboot (s.next cfg call) ↔
      (s.rebooting = true → releasesHold cfg s.link call = false) := by
  cases hrebooting : s.rebooting with
  | true =>
      have hholding := hheld hrebooting
      cases call with
      | request type payload now sent =>
          have h := (handleFrame_requestHold cfg hs type payload now sent).released hholding
          simp [HeldUntilReboot, Rebooting.next, hrebooting, h]
      | abortUpdate =>
          simp [HeldUntilReboot, Rebooting.next, hrebooting, abortUpdate_holding cfg _ hholding]
      | expireStaleUpdate maxIdle now locked =>
          simp [HeldUntilReboot, Rebooting.next, hrebooting,
            expireStaleUpdate_holding cfg _ hholding maxIdle now locked]
      | others shared => simp [HeldUntilReboot, Rebooting.next, hrebooting, hholding, releasesHold]
  | false =>
      cases call with
      | request type payload now sent =>
          have h := (handleFrame_requestHold cfg hs type payload now sent).started
          simpa [HeldUntilReboot, Rebooting.next, hrebooting] using h
      | abortUpdate | expireStaleUpdate | others =>
          simp [HeldUntilReboot, Rebooting.next, hrebooting]

/-! ## Every run -/

/-- **The output stays held until the reboot exactly in the runs that contain,
after a reboot has started, no call that releases the hold.** -/
theorem heldUntilReboot_iff {s t : Rebooting F O R}
    {steps : List (Rebooting F O R × ServiceCall F O R × Rebooting F O R)}
    (hinit : (serviceCalls cfg).init s) (hrun : Path (serviceCalls cfg) s steps t) :
    (∀ x ∈ steps, HeldUntilReboot x.2.2) ↔
      ∀ x ∈ steps, x.1.rebooting = true → releasesHold cfg x.1.link x.2.1 = false := by
  refine Path.forall_iff (I := Settled) (Q := HeldUntilReboot)
    (C := fun s call => s.rebooting = true → releasesHold cfg s.link call = false)
    ?_ ?_ hrun ?_ ?_
  · rintro s call t hs rfl
    exact hs.next cfg call
  · rintro s call t hs hheld rfl
    exact heldUntilReboot_next_iff cfg hs hheld call
  · exact congrArg CalibrationService.afterReply hinit.1
  · intro h
    simp [hinit.2] at h

end Step

/-! ## An upload begun and aborted while the reboot is on its way -/

/-- A service with the simulator's engine, and a counter behind `output_hold`. -/
def simServiceConfig : CalibrationService.Config ℚ ℤ where
  moduleId := kModule
  errc := hostErrc
  startCalibration := none
  restart := true
  ota := true
  diagnostics := none
  outputHold := some fun hold holds => if hold then holds + 1 else holds - 1
  saveToFlash _ holds := (none, holds)
  onCalibrationChanged _ holds := holds
  onModeChanged _ _ holds := holds

def freshSimService : Rebooting ℚ SimOta ℤ :=
  ⟨⟨.new, ⟨⟨.default, .default, .default⟩, .new (.format default), 0⟩⟩, false⟩

/-- RESTART, OTA_BEGIN and OTA_ABORT, each answered OK. -/
def restartThenAbort : List (ServiceCall ℚ SimOta ℤ) :=
  [.request 0x57 [] 0 true, .request 0x58 [0, 16, 0, 0] 0 true, .request 0x5B [] 0 true]

/-- RESTART alone, then an upload that goes on: the output stays held. -/
theorem heldUntilReboot_restartThenBegin :
    (runSteps (Rebooting.next simServiceConfig) freshSimService (restartThenAbort.take 2)).Forall
      fun x => HeldUntilReboot x.2.2 := by
  rw [List.forall_iff_forall_mem]
  exact (heldUntilReboot_iff simServiceConfig ⟨rfl, rfl⟩ (path_runSteps _ _ _ _)).mpr (by decide)

/-- The abort of an upload begun after RESTART releases the output before the
reboot. -/
theorem not_heldUntilReboot_restartThenAbort :
    ¬ ∀ steps t, Path (serviceCalls simServiceConfig) freshSimService steps t →
      HeldUntilReboot t := by
  intro h
  have hlast : ¬ HeldUntilReboot
      (restartThenAbort.foldl (Rebooting.next simServiceConfig) freshSimService) := by decide
  exact hlast (h _ _ (path_runSteps _ _ _ _))

end OmegaStick
