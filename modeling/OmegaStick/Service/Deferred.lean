import OmegaStick.Service.Hold

/-!
# Deferred actions under concurrent calls

`handle_frame` takes the service's mutex twice: for the handler, which may
defer an action in `after_reply_`, and for the exchange of `run_after_reply`,
which takes the action out again.  In between the reply is sent without the
mutex, so other calls, from another task or from inside the transport, may pass
there.  This file interleaves the three steps of any number of calls.

Every call keeps what it deferred, what became of its reply, and by whose
exchange its action was started or dropped.  `OwnReply` is the promise that
this was its own exchange and agrees with its own reply.  Whose action is in
the slot decides it: `ownReply_next_iff` is the step, `ownReply_iff` the run.
-/

namespace OmegaStick

open OtaEngine TransitionSystem

variable {F O R : Type*}

/-! ## What a request defers -/

section Deferred

variable [OtaEngine O] (cfg : CalibrationService.Config F R)

/-- The action a request puts in `after_reply_`. -/
def deferredAction (l : Link F O R) (msg : Msg) (payload : List UInt8) : Option AfterReply :=
  match msg with
  | .restart => if payload.isEmpty && cfg.restart then some .restart else none
  | .setInputMode => (Link.switchedMode l.store payload).map .setInputMode
  | .otaFinish =>
      if cfg.ota && l.otaOwner && (finish l.ota).1.isNone then some .otaRestart else none
  | .revert =>
      let ota := (l.revertStarted cfg).ota
      if cfg.ota && payload.isEmpty && !Link.revertRefused ota && (setBootOther ota).1.isNone then
        some .otaRestart
      else none
  | _ => none

theorem handleOtaBegin_afterReply (l : Link F O R) (payload : List UInt8) (now : Time) :
    (l.handleOtaBegin cfg payload now).2.afterReply = l.afterReply := by
  have h := handleOtaBegin_describes cfg l payload now
  cases heffect : holdEffect cfg l .otaBegin payload with
  | keep | release => rw [heffect] at h; exact h.2
  | defer owns =>
      simp only [holdEffect] at heffect
      split at heffect <;> cases heffect

theorem handleOtaData_afterReply (l : Link F O R) (payload : List UInt8) (now : Time) :
    (l.handleOtaData cfg payload now).2.afterReply = l.afterReply := by
  have h := handleOtaData_describes cfg l payload now
  cases heffect : holdEffect cfg l .otaData payload with
  | keep | release => rw [heffect] at h; exact h.2
  | defer owns =>
      simp only [holdEffect] at heffect
      split at heffect <;> cases heffect

theorem handleOtaFinish_afterReply (l : Link F O R) (payload : List UInt8) :
    (l.handleOtaFinish cfg).2.afterReply =
      (deferredAction cfg l .otaFinish payload).or l.afterReply := by
  rw [Link.handleOtaFinish_snd, deferredAction]
  cases cfg.ota && l.otaOwner with
  | false => rfl
  | true =>
      rcases finish l.ota with ⟨_ | ec, ota⟩
      · rfl
      · simp

theorem handleOtaAbort_afterReply (l : Link F O R) :
    (l.handleOtaAbort cfg).2.afterReply = l.afterReply := by
  rw [Link.handleOtaAbort_snd]
  split
  · exact Link.holdOutput_afterReply ..
  · rfl

theorem handleRevert_afterReply (l : Link F O R) (payload : List UInt8) :
    (l.handleRevert cfg payload).2.afterReply =
      (deferredAction cfg l .revert payload).or l.afterReply := by
  have hafter : (l.revertStarted cfg).afterReply = l.afterReply := by
    unfold Link.revertStarted
    split <;> simp [Link.abortOwn]
  rw [Link.handleRevert_snd]
  simp only [deferredAction]
  cases cfg.ota && payload.isEmpty with
  | false => rfl
  | true =>
      cases Link.revertRefused (l.revertStarted cfg).ota with
      | true => exact hafter
      | false =>
          rcases setBootOther (l.revertStarted cfg).ota with ⟨_ | err, ota⟩
          · rfl
          · exact hafter

theorem handleRestart_afterReply (l : Link F O R) (payload : List UInt8) :
    (l.handleRestart cfg payload).2.afterReply =
      (deferredAction cfg l .restart payload).or l.afterReply := by
  rw [Link.handleRestart_snd, deferredAction]
  split <;> rfl

theorem handleSetInputMode_afterReply (l : Link F O R) (payload : List UInt8) :
    (l.handleSetInputMode cfg payload).2.afterReply =
      (deferredAction cfg l .setInputMode payload).or l.afterReply := by
  rw [Link.handleSetInputMode_snd, deferredAction]
  cases Link.switchedMode l.store payload <;> rfl

variable [MachineFloat F] [FloatBits F]

/-- The slot after a handler: what it deferred, or else what was there. -/
theorem handleRequest_afterReply (l : Link F O R) (msg : Msg) (payload : List UInt8) (now : Time) :
    (l.handleRequest cfg msg payload now).2.afterReply =
      (deferredAction cfg l msg payload).or l.afterReply := by
  cases msg with
  | otaBegin => exact handleOtaBegin_afterReply cfg l payload now
  | otaData => exact handleOtaData_afterReply cfg l payload now
  | otaFinish => exact handleOtaFinish_afterReply cfg l payload
  | otaAbort => exact handleOtaAbort_afterReply cfg l
  | revert => exact handleRevert_afterReply cfg l payload
  | restart => exact handleRestart_afterReply cfg l payload
  | setInputMode => exact handleSetInputMode_afterReply cfg l payload
  | markValid =>
      rw [Link.handleRequest, Link.handleMarkValid_snd]
      split <;> rfl
  | getState | setManualOffset | setDeadzoneOverride | setNudgeSettings | saveToFlash
  | startCalibration | getFwInfo | getDiagnostics | setNudgeEnabled =>
      exact congrArg CalibrationService.afterReply
        (l.handleRequest_sameService cfg (by decide) payload now).service
  | state | calibrationResult | fwInfo | diagnostics | ok | error => rfl

/-- What a frame defers; one of another protocol defers nothing. -/
def deferredByFrame (l : Link F O R) (type : UInt8) (payload : List UInt8) : Option AfterReply :=
  (Msg.ofCode type).bind fun msg => deferredAction cfg l msg payload

theorem handleFrameLocked_afterReply (l : Link F O R) (type : UInt8) (payload : List UInt8)
    (now : Time) :
    (l.handleFrameLocked cfg type payload now).2.afterReply =
      (deferredByFrame cfg l type payload).or l.afterReply := by
  unfold Link.handleFrameLocked deferredByFrame
  cases Msg.ofCode type with
  | none => rfl
  | some msg => exact handleRequest_afterReply cfg l msg payload now

end Deferred

/-! ## Calls -/

/-- A `handle_frame` call whose locked handler has run. -/
structure HandledCall where
  reply : Option Frame
  /-- What its handler put in the slot. -/
  deferred : Option AfterReply
  /-- What `send` returned, once it has. -/
  queued : Option Bool
  returned : Bool
  /-- The calls whose exchange started its action. -/
  ran : List ℕ
  /-- The calls whose exchange dropped its action. -/
  dropped : List ℕ
  deriving DecidableEq, Repr

/-- The call's action is taken out of the slot by the exchange of the call
`id`, and started or dropped. -/
def HandledCall.takenBy (call : HandledCall) (id : ℕ) (started : Bool) : HandledCall :=
  if started then { call with ran := id :: call.ran }
  else { call with dropped := id :: call.dropped }

namespace HandledCall

@[simp] theorem takenBy_deferred (call : HandledCall) (id : ℕ) (started : Bool) :
    (call.takenBy id started).deferred = call.deferred := by
  cases started <;> rfl

@[simp] theorem takenBy_returned (call : HandledCall) (id : ℕ) (started : Bool) :
    (call.takenBy id started).returned = call.returned := by
  cases started <;> rfl

@[simp] theorem takenBy_queued (call : HandledCall) (id : ℕ) (started : Bool) :
    (call.takenBy id started).queued = call.queued := by
  cases started <;> rfl

theorem mem_takenBy {call : HandledCall} {id : ℕ} {started : Bool} {k : ℕ} :
    k ∈ (call.takenBy id started).ran ++ (call.takenBy id started).dropped ↔
      k = id ∨ k ∈ call.ran ++ call.dropped := by
  cases started with
  | true => exact List.mem_cons
  | false =>
      simp only [takenBy, Bool.false_eq_true, ite_false, List.mem_append, List.mem_cons]
      exact or_left_comm

end HandledCall

/-- The action a call deferred is started or dropped by its own exchange only,
once its reply is queued or refused, and at most once; when the call has
returned it was started exactly if the reply was queued. -/
structure HandledCall.Own (id : ℕ) (call : HandledCall) : Prop where
  byItself : ∀ k ∈ call.ran ++ call.dropped, k = id
  once : call.ran.length ≤ 1
  afterQueued : call.ran ≠ [] → call.queued = some true
  settled : call.returned = true → (call.ran ≠ [] ↔ call.queued = some true)

/-- The atomic steps, of the call `id` or of the rest of the device. -/
inductive CallStep (F O R : Type*) where
  | handle (id : ℕ) (type : UInt8) (payload : List UInt8) (now : Time)
  /-- `sent` is what the transport says of the reply. -/
  | send (id : ℕ) (sent : Bool)
  | exchange (id : ℕ)
  | abortUpdate
  | expireStaleUpdate (maxIdle now : Time) (locked : Bool)
  | others (shared : Shared F O R)

/-- One service and the calls made on it. -/
structure Calls (F O R : Type*) where
  link : Link F O R
  calls : ℕ → Option HandledCall
  /-- The call whose action is in the slot. -/
  owner : Option ℕ

namespace Calls

def set (s : Calls F O R) (id : ℕ) (call : HandledCall) : Calls F O R :=
  { s with calls := Function.update s.calls id (some call) }

/-- The exchange of `id` takes the owner's action out, and starts it or drops it. -/
def taken (s : Calls F O R) (id : ℕ) (started : Bool) : Calls F O R :=
  match s.owner with
  | none => s
  | some k =>
      match s.calls k with
      | none => s
      | some call =>
          { s.set k (call.takenBy id started) with owner := none }

section Step

variable [MachineFloat F] [FloatBits F] [OtaEngine O] (cfg : CalibrationService.Config F R)

def next (s : Calls F O R) : CallStep F O R → Option (Calls F O R)
  | .handle id type payload now =>
      match s.calls id with
      | some _ => none
      | none =>
          let (reply, link) := s.link.handleFrameLocked cfg type payload now
          let deferred := deferredByFrame cfg s.link type payload
          some { s.set id ⟨reply, deferred, none, false, [], []⟩ with
            link := link
            owner := if deferred.isSome then some id else s.owner }
  | .send id sent =>
      match s.calls id with
      | some { reply, deferred, queued := none, returned, ran, dropped } =>
          some (s.set id ⟨reply, deferred, some (reply.isNone || sent), returned, ran, dropped⟩)
      | _ => none
  | .exchange id =>
      match s.calls id with
      | some { reply, deferred, queued := some queued, returned := false, ran, dropped } =>
          let (started, link) := s.link.runAfterReply cfg queued
          let returned := s.set id ⟨reply, deferred, some queued, true, ran, dropped⟩
          some { returned.taken id started.isSome with link := link }
      | _ => none
  | .abortUpdate => some { s with link := s.link.abortUpdate cfg }
  | .expireStaleUpdate maxIdle now locked =>
      some { s with link := (s.link.expireStaleUpdate cfg maxIdle now locked).2 }
  | .others shared => some { s with link := { s.link with toShared := shared } }

/-- Calls on a fresh service, in any order. -/
def system : TransitionSystem (Calls F O R) (CallStep F O R) :=
  .ofOption (fun s => s.link.toCalibrationService = .new ∧ s.calls = (fun _ => none) ∧
    s.owner = none) (next cfg)

end Step

/-- **A deferred action belongs to its own reply.** -/
def OwnReply (s : Calls F O R) : Prop :=
  ∀ id call, s.calls id = some call → call.deferred.isSome → call.Own id

/-- The steps that find the right action in the slot: an exchange finds its own
call's action there, or nothing when its call has none to run. -/
def takesOwn (s : Calls F O R) : CallStep F O R → Bool
  | .exchange id =>
      match s.calls id with
      | some call =>
          s.owner == some id ||
            (s.owner == none && !(call.deferred.isSome && call.queued == some true))
      | none => true
  | _ => true

/-! ## Whose action is in the slot -/

@[simp] theorem set_calls (s : Calls F O R) (id : ℕ) (call : HandledCall) :
    (s.set id call).calls = Function.update s.calls id (some call) := rfl

@[simp] theorem set_owner (s : Calls F O R) (id : ℕ) (call : HandledCall) :
    (s.set id call).owner = s.owner := rfl

@[simp] theorem set_link (s : Calls F O R) (id : ℕ) (call : HandledCall) :
    (s.set id call).link = s.link := rfl

section Steps

variable [OtaEngine O] (cfg : CalibrationService.Config F R)

theorem runAfterReply_fst (l : Link F O R) (queued : Bool) :
    (l.runAfterReply cfg queued).1 = if queued then l.afterReply else none := by
  unfold Link.runAfterReply
  cases l.afterReply <;> cases queued <;> rfl

theorem runAfterReply_afterReply (l : Link F O R) (queued : Bool) :
    (l.runAfterReply cfg queued).2.afterReply = none := by
  cases hafter : l.afterReply with
  | none => rw [runAfterReply_of_none cfg queued hafter, hafter]
  | some action =>
      cases queued with
      | true => exact (runAfterReply_of_queued cfg (Option.isSome_of_eq_some hafter)).2
      | false =>
          unfold Link.runAfterReply
          rw [hafter]
          simp only [Bool.false_eq_true, ite_false]
          split
          · rfl
          · exact Link.holdOutput_afterReply ..

variable [MachineFloat F] [FloatBits F] {cfg}

theorem next_handle {s t : Calls F O R} {id : ℕ} {type : UInt8} {payload : List UInt8}
    {now : Time} (h : s.next cfg (.handle id type payload now) = some t) :
    s.calls id = none ∧
      t.calls = Function.update s.calls id
        (some ⟨(s.link.handleFrameLocked cfg type payload now).1,
          deferredByFrame cfg s.link type payload, none, false, [], []⟩) ∧
      t.link = (s.link.handleFrameLocked cfg type payload now).2 ∧
      t.owner =
        if (deferredByFrame cfg s.link type payload).isSome then some id else s.owner := by
  simp only [next] at h
  split at h
  · cases h
  · rename_i hfresh
    cases h
    exact ⟨hfresh, rfl, rfl, rfl⟩

theorem next_send {s t : Calls F O R} {id : ℕ} {sent : Bool}
    (h : s.next cfg (.send id sent) = some t) :
    ∃ call, s.calls id = some call ∧ call.queued = none ∧
      t = s.set id { call with queued := some (call.reply.isNone || sent) } := by
  simp only [next] at h
  split at h
  · rename_i hcall
    cases h
    exact ⟨_, hcall, rfl, rfl⟩
  · cases h

theorem next_exchange {s t : Calls F O R} {id : ℕ} (h : s.next cfg (.exchange id) = some t) :
    ∃ call queued, s.calls id = some call ∧ call.queued = some queued ∧ call.returned = false ∧
      t = { (s.set id { call with returned := true }).taken id
              (s.link.runAfterReply cfg queued).1.isSome with
            link := (s.link.runAfterReply cfg queued).2 } := by
  simp only [next] at h
  split at h
  · rename_i hcall
    cases h
    exact ⟨_, _, hcall, rfl, rfl, rfl⟩
  · cases h

end Steps

/-- What holds of the bookkeeping in any run: the slot is occupied exactly when
it has an owner, which deferred an action, and only calls that have returned
took anything out of it. -/
structure Tracked (s : Calls F O R) : Prop where
  empty : s.owner = none → s.link.afterReply = none
  owned : ∀ k, s.owner = some k →
    s.link.afterReply.isSome ∧ ∃ call, s.calls k = some call ∧ call.deferred.isSome
  takers : ∀ id call, s.calls id = some call → ∀ k ∈ call.ran ++ call.dropped,
    ∃ taker, s.calls k = some taker ∧ taker.returned = true
  replied : ∀ id call, s.calls id = some call → call.returned = true → call.queued.isSome

/-- Under `OwnReply`, an action is untouched until its own call returns. -/
theorem Tracked.untouched {s : Calls F O R} (hs : Tracked s) {id : ℕ} {call : HandledCall}
    (hcall : s.calls id = some call) (hown : call.Own id) (hreturned : call.returned = false) :
    call.ran = [] ∧ call.dropped = [] := by
  have hnone : ∀ k, k ∉ call.ran ++ call.dropped := by
    intro k hk
    obtain ⟨taker, htaker, hdone⟩ := hs.takers id call hcall k hk
    rw [hown.byItself k hk, hcall, Option.some_inj] at htaker
    rw [← htaker, hreturned] at hdone
    cases hdone
  exact List.append_eq_nil_iff.mp (List.eq_nil_iff_forall_not_mem.mpr hnone)

/-- A call as a step leaves it: what it deferred stays, and what has taken its
action or its reply has is there. -/
structure Grown (t : Calls F O R) (call later : HandledCall) : Prop where
  deferred : later.deferred = call.deferred
  returned : call.returned = true → later.returned = true
  replied : later.returned = true → later.queued.isSome
  takers : ∀ k ∈ later.ran ++ later.dropped, k ∈ call.ran ++ call.dropped ∨
    ∃ taker, t.calls k = some taker ∧ taker.returned = true

theorem Tracked.grown_refl {s : Calls F O R} (hs : Tracked s) (t : Calls F O R) {id : ℕ}
    {call : HandledCall} (hcall : s.calls id = some call) : Grown t call call :=
  ⟨rfl, fun h => h, hs.replied id call hcall, fun _ hk => .inl hk⟩

/-- A step that keeps every call, and adds only one nobody took anything of. -/
theorem Tracked.of_grown {s t : Calls F O R} (hs : Tracked s)
    (hkept : ∀ id call, s.calls id = some call →
      ∃ later, t.calls id = some later ∧ Grown t call later)
    (hnew : ∀ id later, t.calls id = some later → s.calls id = none →
      later.returned = false ∧ later.ran ++ later.dropped = [])
    (hempty : t.owner = none → t.link.afterReply = none)
    (howned : ∀ k, t.owner = some k →
      t.link.afterReply.isSome ∧ ∃ call, t.calls k = some call ∧ call.deferred.isSome) :
    Tracked t := by
  refine ⟨hempty, howned, ?_, ?_⟩
  · intro id later hlater k hk
    cases hcall : s.calls id with
    | none => simp [(hnew id later hlater hcall).2] at hk
    | some call =>
        obtain ⟨later', hlater', hgrown⟩ := hkept id call hcall
        rw [hlater, Option.some_inj] at hlater'
        subst hlater'
        rcases hgrown.takers k hk with hk | htaker
        · obtain ⟨taker, htaker, hreturned⟩ := hs.takers id call hcall k hk
          obtain ⟨laterTaker, hlaterTaker, hgrownTaker⟩ := hkept k taker htaker
          exact ⟨laterTaker, hlaterTaker, hgrownTaker.returned hreturned⟩
        · exact htaker
  · intro id later hlater hreturned
    cases hcall : s.calls id with
    | none =>
        rw [(hnew id later hlater hcall).1] at hreturned
        cases hreturned
    | some call =>
        obtain ⟨later', hlater', hgrown⟩ := hkept id call hcall
        rw [hlater, Option.some_inj] at hlater'
        subst hlater'
        exact hgrown.replied hreturned

/-- An exchange by its three cases: the slot is empty, holds the action of the
call itself, or of another one. -/
inductive Exchanged (s t : Calls F O R) (id : ℕ) (call : HandledCall) (queued : Bool) : Prop where
  | nothing : s.owner = none →
      t.calls = Function.update s.calls id (some { call with returned := true }) →
      Exchanged s t id call queued
  | own : s.owner = some id →
      t.calls = Function.update s.calls id
        (some (HandledCall.takenBy { call with returned := true } id queued)) →
      Exchanged s t id call queued
  | other (k : ℕ) (theirs : HandledCall) : k ≠ id → s.owner = some k → s.calls k = some theirs →
      theirs.deferred.isSome →
      t.calls = Function.update (Function.update s.calls id (some { call with returned := true })) k
        (some (theirs.takenBy id queued)) →
      Exchanged s t id call queued

section Invariant

variable [OtaEngine O] [MachineFloat F] [FloatBits F] {cfg : CalibrationService.Config F R}

theorem Tracked.exchange {s t : Calls F O R} {id : ℕ} (hs : Tracked s)
    (h : s.next cfg (.exchange id) = some t) :
    ∃ call queued, s.calls id = some call ∧ call.queued = some queued ∧ call.returned = false ∧
      t.owner = none ∧ t.link.afterReply = none ∧ Exchanged s t id call queued := by
  obtain ⟨call, queued, hcall, hqueued, hreturned, rfl⟩ := next_exchange h
  refine ⟨call, queued, hcall, hqueued, hreturned, ?_, runAfterReply_afterReply cfg _ queued, ?_⟩
  · cases howner : s.owner with
    | none => simp [taken, howner]
    | some k =>
        obtain ⟨-, theirs, htheirs, -⟩ := hs.owned k howner
        by_cases hk : k = id
        · simp [taken, howner, hk]
        · simp [taken, howner, hk, htheirs]
  · cases howner : s.owner with
    | none => exact .nothing howner (by simp [taken, howner])
    | some k =>
        obtain ⟨hslot, theirs, htheirs, hdeferred⟩ := hs.owned k howner
        have hstarted : (s.link.runAfterReply cfg queued).1.isSome = queued := by
          rw [runAfterReply_fst]
          cases queued with
          | true => exact hslot
          | false => rfl
        by_cases hk : k = id
        · subst hk
          refine .own howner ?_
          simp [taken, howner, hstarted]
        · refine .other k theirs hk howner htheirs hdeferred ?_
          simp [taken, howner, hstarted, hk, htheirs]

omit [OtaEngine O] [MachineFloat F] [FloatBits F] in
/-- Nothing but the link moves, and its slot stays. -/
theorem Tracked.withLink {s : Calls F O R} (hs : Tracked s) {l : Link F O R}
    (hslot : l.afterReply = s.link.afterReply) : Tracked { s with link := l } where
  empty hnone := hslot.trans (hs.empty hnone)
  owned k hk := by
    change l.afterReply.isSome ∧ _
    rw [hslot]
    exact hs.owned k hk
  takers := hs.takers
  replied := hs.replied

theorem Tracked.handle {s t : Calls F O R} {id : ℕ} {type : UInt8} {payload : List UInt8}
    {now : Time} (hs : Tracked s) (h : s.next cfg (.handle id type payload now) = some t) :
    Tracked t := by
  obtain ⟨hfresh, hcalls, hlink, howner⟩ := next_handle h
  have hslot := handleFrameLocked_afterReply cfg s.link type payload now
  rw [← hlink] at hslot
  have hold : ∀ k call, s.calls k = some call → t.calls k = some call := by
    intro k call hcall
    have hk : k ≠ id := by
      rintro rfl
      rw [hfresh] at hcall
      cases hcall
    rw [hcalls, Function.update_of_ne hk, hcall]
  refine hs.of_grown (fun k call hcall => ⟨call, hold k call hcall, hs.grown_refl t hcall⟩)
    ?_ ?_ ?_
  · intro k later hlater hnone
    by_cases hk : k = id
    · rw [hcalls, hk, Function.update_self, Option.some_inj] at hlater
      rw [← hlater]
      exact ⟨rfl, rfl⟩
    · rw [hcalls, Function.update_of_ne hk, hnone] at hlater
      cases hlater
  · intro hnone
    rw [howner] at hnone
    split at hnone
    · cases hnone
    · rename_i hdeferred
      rw [hslot, Option.not_isSome_iff_eq_none.mp hdeferred, Option.none_or, hs.empty hnone]
  · intro k hk
    rw [howner] at hk
    split at hk
    · rename_i hdeferred
      cases hk
      exact ⟨by rw [hslot, Option.or_of_isSome hdeferred]; exact hdeferred, _,
        by rw [hcalls, Function.update_self], hdeferred⟩
    · rename_i hdeferred
      obtain ⟨hsome, call, hcall, hcallDeferred⟩ := hs.owned k hk
      rw [hslot, Option.not_isSome_iff_eq_none.mp hdeferred, Option.none_or]
      exact ⟨hsome, call, hold k call hcall, hcallDeferred⟩

theorem Tracked.send {s t : Calls F O R} {id : ℕ} {sent : Bool} (hs : Tracked s)
    (h : s.next cfg (.send id sent) = some t) : Tracked t := by
  obtain ⟨call, hcall, -, rfl⟩ := next_send h
  set later : HandledCall := { call with queued := some (call.reply.isNone || sent) } with hlater
  have hkept : ∀ k other, s.calls k = some other →
      ∃ after, (s.set id later).calls k = some after ∧ Grown (s.set id later) other after := by
    intro k other hother
    by_cases hk : k = id
    · rw [hk, hcall, Option.some_inj] at hother
      subst hother
      exact ⟨later, by rw [hk, set_calls, Function.update_self],
        rfl, fun h => h, fun _ => rfl, fun _ hk => .inl hk⟩
    · exact ⟨other, by rw [set_calls, Function.update_of_ne hk, hother], hs.grown_refl _ hother⟩
  refine hs.of_grown hkept ?_ hs.empty ?_
  · intro k after hafter hnone
    have hk : k ≠ id := by
      rintro rfl
      rw [hcall] at hnone
      cases hnone
    rw [set_calls, Function.update_of_ne hk, hnone] at hafter
    cases hafter
  · intro k hk
    obtain ⟨hsome, other, hother, hdeferred⟩ := hs.owned k hk
    obtain ⟨after, hafter, hgrown⟩ := hkept k other hother
    exact ⟨hsome, after, hafter, hgrown.deferred ▸ hdeferred⟩

omit [OtaEngine O] [MachineFloat F] [FloatBits F] in
theorem Exchanged.kept {s t : Calls F O R} {id : ℕ} {call : HandledCall} {queued : Bool}
    (hs : Tracked s) (hcall : s.calls id = some call) (hqueued : call.queued = some queued)
    (h : Exchanged s t id call queued) (k : ℕ) (before : HandledCall)
    (hbefore : s.calls k = some before) :
    ∃ after, t.calls k = some after ∧ Grown t before after := by
  have hreplied : call.queued.isSome := Option.isSome_of_eq_some hqueued
  have hreturned : Grown t call { call with returned := true } :=
    ⟨rfl, fun _ => rfl, fun _ => hreplied, fun _ hk => .inl hk⟩
  cases h with
  | nothing _ hcalls =>
      by_cases hk : k = id
      -- the call of this exchange
      · rw [hk, hcall, Option.some_inj] at hbefore
        rw [hcalls, hk, Function.update_self, ← hbefore]
        exact ⟨_, rfl, hreturned⟩
      · rw [hcalls, Function.update_of_ne hk]
        exact ⟨before, hbefore, hs.grown_refl t hbefore⟩
  | own _ hcalls =>
      have hself := congrFun hcalls id
      rw [Function.update_self] at hself
      by_cases hk : k = id
      · rw [hk, hcall, Option.some_inj] at hbefore
        rw [hk, ← hbefore]
        refine ⟨_, hself, by simp, by simp, by simp [hreplied], fun j hj => ?_⟩
        rcases HandledCall.mem_takenBy.mp hj with rfl | hj
        · exact .inr ⟨_, hself, by simp⟩
        · exact .inl hj
      · rw [hcalls, Function.update_of_ne hk]
        exact ⟨before, hbefore, hs.grown_refl t hbefore⟩
  | other owner theirs hne _ htheirs _ hcalls =>
      have hself := congrFun hcalls id
      rw [Function.update_of_ne hne.symm, Function.update_self] at hself
      by_cases hk : k = owner
      -- the call whose action was taken
      · rw [hk, htheirs, Option.some_inj] at hbefore
        rw [hcalls, hk, Function.update_self, ← hbefore]
        refine ⟨_, rfl, by simp, by simp, ?_, fun j hj => ?_⟩
        · simpa using hs.replied owner theirs htheirs
        rcases HandledCall.mem_takenBy.mp hj with rfl | hj
        · exact .inr ⟨_, hself, rfl⟩
        · exact .inl hj
      · by_cases hid : k = id
        · rw [hid, hcall, Option.some_inj] at hbefore
          rw [hid, ← hbefore]
          exact ⟨_, hself, hreturned⟩
        · rw [hcalls, Function.update_of_ne hk, Function.update_of_ne hid]
          exact ⟨before, hbefore, hs.grown_refl t hbefore⟩

omit [OtaEngine O] [MachineFloat F] [FloatBits F] in
theorem Exchanged.old {s t : Calls F O R} {id : ℕ} {call : HandledCall} {queued : Bool}
    (hcall : s.calls id = some call) (h : Exchanged s t id call queued) {k : ℕ}
    (hnone : s.calls k = none) : t.calls k = none := by
  have hk : k ≠ id := by
    rintro rfl
    rw [hcall] at hnone
    cases hnone
  cases h with
  | nothing _ hcalls => rw [hcalls, Function.update_of_ne hk, hnone]
  | own _ hcalls => rw [hcalls, Function.update_of_ne hk, hnone]
  | other owner theirs _ _ htheirs _ hcalls =>
      have howner : k ≠ owner := by
        rintro rfl
        rw [htheirs] at hnone
        cases hnone
      rw [hcalls, Function.update_of_ne howner, Function.update_of_ne hk, hnone]

theorem Tracked.next {s t : Calls F O R} (hs : Tracked s) (step : CallStep F O R)
    (h : s.next cfg step = some t) : Tracked t := by
  cases step with
  | handle id type payload now => exact hs.handle h
  | send id sent => exact hs.send h
  | exchange id =>
      obtain ⟨call, queued, hcall, hqueued, -, howner, hslot, hexchanged⟩ := hs.exchange h
      refine hs.of_grown (hexchanged.kept hs hcall hqueued) ?_ (fun _ => hslot) ?_
      · intro k later hlater hnone
        rw [hexchanged.old hcall hnone] at hlater
        cases hlater
      · intro k hk
        rw [howner] at hk
        cases hk
  | abortUpdate =>
      cases h
      exact hs.withLink (abortUpdate_afterReply cfg s.link)
  | expireStaleUpdate maxIdle now locked =>
      cases h
      exact hs.withLink (expireStaleUpdate_afterReply cfg s.link maxIdle now locked)
  | others shared =>
      cases h
      exact hs.withLink rfl

/-! ## One step -/

omit [OtaEngine O] [MachineFloat F] [FloatBits F] in
/-- Where one call changes, the promise is about that call. -/
theorem ownReply_update {s t : Calls F O R} {id : ℕ} {call : HandledCall} (hs : OwnReply s)
    (hcalls : t.calls = Function.update s.calls id (some call)) :
    OwnReply t ↔ (call.deferred.isSome → call.Own id) := by
  unfold OwnReply
  rw [hcalls]
  constructor
  · intro h
    exact h id call (Function.update_self ..)
  · intro h k other hother
    by_cases hk : k = id
    · rw [hk, Function.update_self, Option.some_inj] at hother
      rw [hk, ← hother]
      exact h
    · rw [Function.update_of_ne hk] at hother
      exact hs k other hother

/-- The promise is kept by every step but an exchange that finds the wrong
action in the slot. -/
theorem ownReply_next_iff {s t : Calls F O R} (hs : Tracked s) (hown : OwnReply s)
    (step : CallStep F O R) (h : s.next cfg step = some t) :
    OwnReply t ↔ takesOwn s step = true := by
  cases step with
  -- steps that are no part of a call
  | abortUpdate | expireStaleUpdate | others =>
      cases h
      exact iff_of_true hown rfl
  | handle id type payload now =>
      obtain ⟨-, hcalls, -, -⟩ := next_handle h
      rw [ownReply_update hown hcalls]
      exact iff_of_true (fun _ => ⟨by simp, by simp, by simp, by simp⟩) rfl
  | send id sent =>
      obtain ⟨call, hcall, hunsent, rfl⟩ := next_send h
      rw [ownReply_update hown (set_calls ..)]
      refine iff_of_true (fun hdeferred => ?_) rfl
      have hcallOwn := hown id call hcall hdeferred
      -- a call returns after its reply was sent
      have hreturned : call.returned = false := by
        by_contra hdone
        have hqueued := hs.replied id call hcall (by simpa using hdone)
        simp [hunsent] at hqueued
      obtain ⟨hran, hdropped⟩ := hs.untouched hcall hcallOwn hreturned
      exact ⟨hcallOwn.byItself, hcallOwn.once, by simp [hran], by simp [hreturned]⟩
  | exchange id =>
      obtain ⟨call, queued, hcall, hqueued, hreturned, -, -, hexchanged⟩ := hs.exchange h
      have htakes : takesOwn s (.exchange id) = (s.owner == some id ||
          (s.owner == none && !(call.deferred.isSome && queued))) := by
        simp [takesOwn, hcall, hqueued]
      rw [htakes]
      cases hexchanged with
      -- nothing was in the slot: right for a call that deferred nothing or lost its reply
      | nothing howner hcalls =>
          rw [ownReply_update hown hcalls, howner]
          cases hdeferred : call.deferred.isSome with
          | false => simp
          | true =>
              obtain ⟨hran, hdropped⟩ :=
                hs.untouched hcall (hown id call hcall hdeferred) hreturned
              cases queued with
              | false =>
                  refine iff_of_true (fun _ => ?_) (by simp)
                  exact ⟨by simp [hran, hdropped], by simp [hran], by simp [hran],
                    by simp [hran, hqueued]⟩
              | true =>
                  refine iff_of_false (fun hcallOwn => ?_) (by simp)
                  exact ((hcallOwn rfl).settled rfl).mpr hqueued hran
      -- the slot held the call's own action
      | own howner hcalls =>
          rw [ownReply_update hown hcalls]
          refine iff_of_true (fun hdeferred => ?_) (by simp [howner])
          rw [HandledCall.takenBy_deferred] at hdeferred
          obtain ⟨hran, hdropped⟩ :=
            hs.untouched hcall (hown id call hcall hdeferred) hreturned
          cases queued with
          | true => exact ⟨by simp [HandledCall.takenBy, hran, hdropped],
              by simp [HandledCall.takenBy, hran], by simp [HandledCall.takenBy, hqueued],
              by simp [HandledCall.takenBy, hqueued]⟩
          | false => exact ⟨by simp [HandledCall.takenBy, hran, hdropped],
              by simp [HandledCall.takenBy, hran], by simp [HandledCall.takenBy, hran],
              by simp [HandledCall.takenBy, hran, hqueued]⟩
      -- and here one of another call, which is taken by the wrong exchange
      | other owner theirs hne howner htheirs hdeferred hcalls =>
          refine iff_of_false (fun hall => ?_) (by simp [howner, hne])
          have htaken := (hall owner (theirs.takenBy id queued)
            (by rw [hcalls, Function.update_self]) (by simpa using hdeferred)).byItself id
              (HandledCall.mem_takenBy.mpr (.inl rfl))
          exact hne htaken.symm

/-! ## Every run -/

/-- **A deferred action belongs to its own reply exactly in the runs whose
exchanges all find the right action in the slot.** -/
theorem ownReply_iff {s t : Calls F O R}
    {steps : List (Calls F O R × CallStep F O R × Calls F O R)}
    (hinit : (system cfg).init s) (hrun : Path (system cfg) s steps t) :
    (∀ x ∈ steps, OwnReply x.2.2) ↔ ∀ x ∈ steps, takesOwn x.1 x.2.1 = true := by
  obtain ⟨hnew, hcalls, howner⟩ := hinit
  refine Path.forall_iff (I := Tracked) (Q := OwnReply) (C := fun s step => takesOwn s step = true)
    ?_ ?_ hrun ?_ ?_
  · intro s step t hs h
    exact hs.next step h
  · intro s step t hs hown h
    exact ownReply_next_iff hs hown step h
  · refine ⟨fun _ => congrArg CalibrationService.afterReply hnew, ?_, ?_, ?_⟩
    · simp [howner]
    · simp [hcalls]
    · simp [hcalls]
  · intro id call hcall
    simp [hcalls] at hcall

end Invariant

/-! ## A request that overtakes a RESTART -/

def freshCalls : Calls ℚ SimOta ℤ := ⟨freshSimService.link, fun _ => none, none⟩

theorem freshCalls_init : (system simServiceConfig).init freshCalls := ⟨rfl, rfl, rfl⟩

/-- RESTART and then GET_STATE, one after the other. -/
def restartThenState : List (CallStep ℚ SimOta ℤ) :=
  [.handle 0 0x57 [] 0, .send 0 true, .exchange 0, .handle 1 0x50 [] 0, .send 1 true, .exchange 1]

/-- Calls that do not overlap find their own action. -/
theorem ownReply_restartThenState :
    ∃ steps t, Path (system simServiceConfig) freshCalls steps t ∧
      (∀ x ∈ steps, OwnReply x.2.2) ∧ (t.calls 0).map HandledCall.ran = some [0] := by
  have hrun : (runOption (fun s step => if takesOwn s step then s.next simServiceConfig step
      else none) freshCalls restartThenState).map (fun t => (t.calls 0).map HandledCall.ran) =
        some (some [0]) := by decide +kernel
  obtain ⟨t, ht, hran⟩ := Option.map_eq_some_iff.mp hrun
  obtain ⟨steps, hpath, hall⟩ := path_of_runOption_guarded _ ht
  exact ⟨steps, t, hpath, (ownReply_iff freshCalls_init hpath).mpr hall, hran⟩

/-- GET_STATE passes while the reply of RESTART is on its way, and its own
reply is refused. -/
def stateDuringRestart : List (CallStep ℚ SimOta ℤ) :=
  [.handle 0 0x57 [] 0, .handle 1 0x50 [] 0, .send 1 false, .exchange 1, .send 0 true, .exchange 0]

/-- The refused reply of GET_STATE drops the restart, which RESTART's own reply
has promised. -/
theorem not_ownReply_stateDuringRestart :
    ¬ ∀ s : Calls ℚ SimOta ℤ, Reachable (system simServiceConfig) s → OwnReply s := by
  intro hall
  have hrun : (runOption (fun s step => s.next simServiceConfig step) freshCalls
      stateDuringRestart).map (fun t => (t.calls 0).map fun call =>
        (call.deferred, call.ran, call.dropped)) = some (some (some .restart, [], [1])) := by
    decide +kernel
  obtain ⟨t, ht, hcall⟩ := Option.map_eq_some_iff.mp hrun
  obtain ⟨call, hcall, hfields⟩ := Option.map_eq_some_iff.mp hcall
  simp only [Prod.mk.injEq] at hfields
  obtain ⟨hdeferred, -, hdropped⟩ := hfields
  obtain ⟨steps, hpath⟩ := path_of_runOption _ ht
  have hown := hall t (hpath.reachable (.init freshCalls_init)) 0 call hcall
    (by rw [hdeferred]; rfl)
  exact absurd (hown.byItself 1 (by simp [hdropped])) (by decide)

end Calls

end OmegaStick
