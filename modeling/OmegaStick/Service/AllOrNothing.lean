import OmegaStick.Service.Hold

/-!
# Requests and the live state

What one request does to the live center, range and settings: a request answered with
ERROR, or ignored, leaves them as they were, and one answered with OK replaces exactly
the fields it names (`carried`).  The mode alone is replaced outside the handler, once
the reply was queued.  `Edits` is what one handler does, and a request's whole effect
follows from it (`all_or_nothing`).
-/

namespace OmegaStick

open MachineFloat TransitionSystem

variable {F O R : Type*}

/-- The store with the fields a SET request names replaced by what its payload carries. -/
def carried [FloatBits F] (msg : Msg) (payload : List UInt8) (store : OmegaStore F) :
    OmegaStore F :=
  match msg with
  | .setManualOffset =>
      { store with
        center := { store.center with
          manualOffsetX := getF32 payload 0
          manualOffsetY := getF32 payload 4 } }
  | .setDeadzoneOverride =>
      { store with
        settings := { store.settings with
          manualCenterDeadzone :=
            if payload.getD 0 0 &&& 0x01 != 0 then some (getF32 payload 1) else none
          manualRangeDeadzone :=
            if payload.getD 0 0 &&& 0x02 != 0 then some (getF32 payload 5) else none } }
  | .setNudgeSettings =>
      { store with
        settings := { store.settings with
          nudgeDistanceThreshold := getF32 payload 0
          nudgeExitThreshold := getF32 payload 4
          nudgeHoldTime := (getU32 (payload.drop 8)).toNat } }
  | .setNudgeEnabled =>
      { store with settings := { store.settings with nudgeEnabled := payload.getD 0 0 == 1 } }
  | .setInputMode =>
      { store with settings := { store.settings with inputMode := ⟨payload.getD 0 0⟩ } }
  | _ => store

/-- The SET requests that take effect in their handler. -/
def settingRequests : List Msg :=
  [.setManualOffset, .setDeadzoneOverride, .setNudgeSettings, .setNudgeEnabled]

def AnsweredOk (reply : Option Frame) : Prop :=
  ∃ frame, reply = some frame ∧ frame.type = Msg.ok.code

instance (reply : Option Frame) : Decidable (AnsweredOk reply) :=
  decidable_of_iff (reply.any (·.type == Msg.ok.code)) (by
    cases reply with
    | none => simp [AnsweredOk]
    | some frame => simp [AnsweredOk])

/-- Answered with ERROR, or ignored. -/
def Refused (reply : Option Frame) : Prop :=
  ∀ frame, reply = some frame → frame.type = Msg.error.code

theorem Refused.not_answeredOk {reply : Option Frame} (h : Refused reply) : ¬ AnsweredOk reply := by
  rintro ⟨frame, rfl, hok⟩
  exact absurd ((h frame rfl).symm.trans hok) (by decide)

namespace Link

variable (cfg : CalibrationService.Config F R)

/-! ## What a handler does to the store -/

/-- A handler's answer: a refusal that changes nothing, or OK with the store edited and
nothing deferred. -/
inductive Edits (l : Link F O R) (edited : OmegaStore F) : Frame × Link F O R → Prop
  | refused (reply : Frame) (htype : reply.type = Msg.error.code) : Edits l edited (reply, l)
  | edited (reply : Frame) (htype : reply.type = Msg.ok.code) (l' : Link F O R)
      (hstore : l'.store = edited) (hafter : l'.afterReply = l.afterReply) :
      Edits l edited (reply, l')

section Handlers

variable [MachineFloat F] [FloatBits F]

theorem handleSetManualOffset_edits (l : Link F O R) (payload : List UInt8) :
    Edits l (carried .setManualOffset payload l.store) (l.handleSetManualOffset cfg payload) := by
  unfold handleSetManualOffset
  split
  · exact .refused _ rfl
  · dsimp only
    split
    · exact .refused _ rfl
    · exact .edited _ rfl _ rfl rfl

theorem handleSetDeadzoneOverride_edits (l : Link F O R) (payload : List UInt8) :
    Edits l (carried .setDeadzoneOverride payload l.store)
      (l.handleSetDeadzoneOverride cfg payload) := by
  unfold handleSetDeadzoneOverride
  split
  · exact .refused _ rfl
  · dsimp only
    split
    · exact .refused _ rfl
    · split
      · exact .refused _ rfl
      · exact .edited _ rfl _ rfl rfl

theorem handleSetNudgeSettings_edits (l : Link F O R) (payload : List UInt8) :
    Edits l (carried .setNudgeSettings payload l.store) (l.handleSetNudgeSettings cfg payload) := by
  unfold handleSetNudgeSettings
  split
  · exact .refused _ rfl
  · dsimp only
    split
    · exact .refused _ rfl
    · split
      · exact .refused _ rfl
      · exact .edited _ rfl _ rfl rfl

omit [MachineFloat F] in
theorem handleSetNudgeEnabled_edits (l : Link F O R) (payload : List UInt8) :
    Edits l (carried .setNudgeEnabled payload l.store) (l.handleSetNudgeEnabled cfg payload) := by
  unfold handleSetNudgeEnabled
  split
  · split
    · exact .refused _ rfl
    · exact .edited _ rfl _ rfl rfl
  · exact .refused _ rfl

/-- The handlers of the settings that take effect at once. -/
theorem handleRequest_edits [OtaEngine O] {msg : Msg} (hmsg : msg ∈ settingRequests)
    (l : Link F O R) (payload : List UInt8) (now : Time) :
    ∃ answer, Edits l (carried msg payload l.store) answer ∧
      l.handleRequest cfg msg payload now = (some answer.1, answer.2) := by
  simp only [settingRequests, List.mem_cons, List.not_mem_nil, or_false] at hmsg
  rcases hmsg with rfl | rfl | rfl | rfl
  · exact ⟨_, handleSetManualOffset_edits cfg l payload, rfl⟩
  · exact ⟨_, handleSetDeadzoneOverride_edits cfg l payload, rfl⟩
  · exact ⟨_, handleSetNudgeSettings_edits cfg l payload, rfl⟩
  · exact ⟨_, handleSetNudgeEnabled_edits cfg l payload, rfl⟩

end Handlers

/-! ## The requests that name no setting -/

/-- The store is as it was, and no mode switch is deferred. -/
structure KeepsStore (l l' : Link F O R) : Prop where
  store : l'.store = l.store
  afterReply : ∀ mode, l'.afterReply = some (.setInputMode mode) →
    l.afterReply = some (.setInputMode mode)

theorem KeepsStore.refl (l : Link F O R) : KeepsStore l l := ⟨rfl, fun _ h => h⟩

theorem KeepsStore.holdOutput {l l' : Link F O R} (h : KeepsStore l l') (hold : Bool) :
    KeepsStore l (l'.holdOutput cfg hold) :=
  ⟨(holdOutput_store cfg l' hold).trans h.store,
    fun mode hmode => h.afterReply mode ((holdOutput_afterReply cfg l' hold).symm.trans hmode)⟩

theorem KeepsStore.defer {l l' : Link F O R} (h : KeepsStore l l') {action : AfterReply}
    (haction : ∀ mode, action ≠ .setInputMode mode) : KeepsStore l (l'.defer action) :=
  ⟨h.store, fun mode hmode => absurd (Option.some.inj hmode) (haction mode)⟩

section Ota

variable [OtaEngine O]

theorem handleOtaBegin_keepsStore (l : Link F O R) (payload : List UInt8) (now : Time) :
    KeepsStore l (l.handleOtaBegin cfg payload now).2 := by
  have hheld : KeepsStore l (l.otaBeginHeld cfg) := by
    refine KeepsStore.holdOutput cfg ?_ true
    split
    · exact ⟨rfl, fun _ h => h⟩
    · exact .refl l
  rw [handleOtaBegin_snd]
  split
  · split
    · dsimp only
      split
      · refine KeepsStore.holdOutput cfg ?_ false
        exact ⟨hheld.store, hheld.afterReply⟩
      · exact ⟨hheld.store, hheld.afterReply⟩
    · exact ⟨hheld.store, hheld.afterReply⟩
  · exact .refl l

theorem handleOtaData_keepsStore (l : Link F O R) (payload : List UInt8) (now : Time) :
    KeepsStore l (l.handleOtaData cfg payload now).2 := by
  rw [handleOtaData_snd]
  split
  · split
    · refine KeepsStore.holdOutput cfg ?_ false
      exact ⟨rfl, fun _ h => h⟩
    · exact ⟨rfl, fun _ h => h⟩
  · exact .refl l

theorem handleOtaFinish_keepsStore (l : Link F O R) : KeepsStore l (l.handleOtaFinish cfg).2 := by
  rw [handleOtaFinish_snd]
  split
  · split
    · refine KeepsStore.holdOutput cfg ?_ false
      exact ⟨rfl, fun _ h => h⟩
    · refine KeepsStore.defer (KeepsStore.holdOutput cfg ?_ true) nofun
      exact ⟨rfl, fun _ h => h⟩
  · exact .refl l

theorem handleOtaAbort_keepsStore (l : Link F O R) : KeepsStore l (l.handleOtaAbort cfg).2 := by
  rw [handleOtaAbort_snd]
  split
  · refine KeepsStore.holdOutput cfg ?_ false
    exact ⟨rfl, fun _ h => h⟩
  · exact .refl l

theorem handleRevert_keepsStore (l : Link F O R) (payload : List UInt8) :
    KeepsStore l (l.handleRevert cfg payload).2 := by
  have hstarted : KeepsStore l (l.revertStarted cfg) := by
    unfold revertStarted
    split
    · refine KeepsStore.holdOutput cfg ?_ false
      exact ⟨rfl, fun _ h => h⟩
    · exact .refl l
  rw [handleRevert_snd]
  split
  · split
    · exact hstarted
    · split
      · exact ⟨hstarted.store, hstarted.afterReply⟩
      · refine KeepsStore.defer (KeepsStore.holdOutput cfg ?_ true) nofun
        exact ⟨hstarted.store, hstarted.afterReply⟩
  · exact .refl l

theorem handleMarkValid_keepsStore (l : Link F O R) : KeepsStore l (l.handleMarkValid cfg).2 := by
  rw [handleMarkValid_snd]
  split <;> exact ⟨rfl, fun _ h => h⟩

theorem abortUpdate_keepsStore (l : Link F O R) : KeepsStore l (l.abortUpdate cfg) := by
  have haborted : KeepsStore l l.abortOwn := ⟨rfl, fun _ h => h⟩
  unfold abortUpdate
  split
  · exact haborted.holdOutput cfg false
  · exact .refl l

theorem expireStaleUpdate_keepsStore (l : Link F O R) (maxIdle now : Time) (locked : Bool) :
    KeepsStore l (l.expireStaleUpdate cfg maxIdle now locked).2 := by
  have haborted : KeepsStore l l.abortOwn := ⟨rfl, fun _ h => h⟩
  have hdisowned : KeepsStore l { l with otaOwner := false } := ⟨rfl, fun _ h => h⟩
  unfold expireStaleUpdate
  split
  · exact .refl l
  split
  · exact hdisowned.holdOutput cfg false
  split
  · exact .refl l
  · exact haborted.holdOutput cfg false

end Ota

theorem handleRestart_keepsStore (l : Link F O R) (payload : List UInt8) :
    KeepsStore l (l.handleRestart cfg payload).2 := by
  rw [handleRestart_snd]
  split
  · exact (KeepsStore.holdOutput cfg (.refl l) true).defer nofun
  · exact .refl l

theorem handleSaveToFlash_keepsStore (l : Link F O R) :
    KeepsStore l (l.handleSaveToFlash cfg).2 := by
  unfold handleSaveToFlash
  split <;> exact ⟨rfl, fun _ h => h⟩

theorem handleStartCalibration_keepsStore (l : Link F O R) (payload : List UInt8) :
    KeepsStore l (l.handleStartCalibration cfg payload).2 := by
  unfold handleStartCalibration
  split
  · exact .refl l
  · split
    · exact .refl l
    · split <;> exact ⟨rfl, fun _ h => h⟩

section Request

variable [MachineFloat F] [FloatBits F] [OtaEngine O]

theorem handleRequest_keepsStore {msg : Msg} (hmsg : msg ∉ settingRequests)
    (hmode : msg ≠ .setInputMode) (l : Link F O R) (payload : List UInt8) (now : Time) :
    KeepsStore l (l.handleRequest cfg msg payload now).2 := by
  cases msg with
  | setManualOffset | setDeadzoneOverride | setNudgeSettings | setNudgeEnabled =>
      exact absurd (by decide) hmsg
  | setInputMode => exact absurd rfl hmode
  | otaBegin => exact handleOtaBegin_keepsStore cfg l payload now
  | otaData => exact handleOtaData_keepsStore cfg l payload now
  | otaFinish => exact handleOtaFinish_keepsStore cfg l
  | otaAbort => exact handleOtaAbort_keepsStore cfg l
  | revert => exact handleRevert_keepsStore cfg l payload
  | markValid => exact handleMarkValid_keepsStore cfg l
  | restart => exact handleRestart_keepsStore cfg l payload
  | saveToFlash => exact handleSaveToFlash_keepsStore cfg l
  | startCalibration => exact handleStartCalibration_keepsStore cfg l payload
  | getFwInfo =>
      change KeepsStore l (l.handleGetFwInfo cfg).2
      rw [handleGetFwInfo_snd]
      exact .refl l
  | getDiagnostics =>
      simp only [handleRequest, handleGetDiagnostics]
      split <;> exact .refl l
  | getState | state | calibrationResult | fwInfo | diagnostics | ok | error => exact .refl l

/-! ## A whole request -/

omit [MachineFloat F] [FloatBits F] in
/-- Only a deferred mode switch whose reply was queued touches the store after the reply. -/
theorem runAfterReply_store (l : Link F O R) (queued : Bool) :
    (l.runAfterReply cfg queued).2.store =
      match l.afterReply with
      | some (.setInputMode mode) => if queued then (l.store.setInputMode mode).2 else l.store
      | _ => l.store := by
  unfold runAfterReply
  rcases hafter : l.afterReply with _ | action
  · rfl
  · cases queued with
    | true =>
        cases action with
        | otaRestart | restart => rfl
        | setInputMode mode =>
            simp only [ite_true, Link.setInputMode]
            rcases l.store.setInputMode mode with ⟨_ | _, store⟩ <;> rfl
    | false =>
        have hkept : (if ({ l with afterReply := none } : Link F O R).ownsSession then
            ({ l with afterReply := none } : Link F O R)
          else ({ l with afterReply := none } : Link F O R).holdOutput cfg false).store =
            l.store := by
          split
          · rfl
          · exact holdOutput_store ..
        cases action with
        | otaRestart | restart => exact hkept
        | setInputMode mode => exact hkept

/-- The reply to one frame, `none` when it is ignored. -/
def replyTo (l : Link F O R) (type : UInt8) (payload : List UInt8) (now : Time) : Option Frame :=
  (l.handleFrameLocked cfg type payload now).1

/-- The live center, range and settings after one frame. -/
def liveAfter (l : Link F O R) (type : UInt8) (payload : List UInt8) (now : Time) (sent : Bool) :
    OmegaStore F :=
  (l.handleFrame cfg type payload now sent).2.store

/-- What a SET_INPUT_MODE is answered: a refusal, OK for the mode that is active, or OK
with the switch deferred. -/
inductive Switches (l : Link F O R) (mode : InputMode) : Frame × Link F O R → Prop
  | refused (reply : Frame) (htype : reply.type = Msg.error.code) : Switches l mode (reply, l)
  | active (reply : Frame) (htype : reply.type = Msg.ok.code)
      (hsame : l.store.settings.inputMode = mode) : Switches l mode (reply, l)
  | deferred (reply : Frame) (htype : reply.type = Msg.ok.code)
      (hother : l.store.settings.inputMode ≠ mode) (l' : Link F O R)
      (hstore : l'.store = l.store) (hafter : l'.afterReply = some (.setInputMode mode)) :
      Switches l mode (reply, l')

omit [MachineFloat F] [FloatBits F] [OtaEngine O] in
theorem handleSetInputMode_switches (l : Link F O R) (payload : List UInt8) :
    Switches l ⟨payload.getD 0 0⟩ (l.handleSetInputMode cfg payload) := by
  unfold handleSetInputMode
  split
  · split
    · exact .refused _ rfl
    · split
      · rename_i hsame
        exact .active _ rfl hsame
      · rename_i hother
        exact .deferred _ rfl hother _ (holdOutput_store ..) rfl
  · exact .refused _ rfl

/-- What one frame does to the live state. -/
structure AllOrNothing (l : Link F O R) (type : UInt8) (payload : List UInt8) (now : Time)
    (sent : Bool) : Prop where
  refused : Refused (l.replyTo cfg type payload now) →
    l.liveAfter cfg type payload now sent = l.store
  edited : ∀ msg ∈ settingRequests, type = msg.code →
    AnsweredOk (l.replyTo cfg type payload now) →
      l.liveAfter cfg type payload now sent = carried msg payload l.store
  switched : type = Msg.setInputMode.code →
    (l.liveAfter cfg type payload now sent ≠ l.store ↔
      l.store.settings.inputMode ≠ ⟨payload.getD 0 0⟩ ∧
        AnsweredOk (l.replyTo cfg type payload now) ∧ sent = true) ∧
    (l.liveAfter cfg type payload now sent ≠ l.store →
      l.liveAfter cfg type payload now sent = carried .setInputMode payload l.store)
  others : (∀ msg ∈ .setInputMode :: settingRequests, type ≠ msg.code) →
    l.liveAfter cfg type payload now sent = l.store

theorem liveAfter_of_keepsStore {l : Link F O R} {type : UInt8} {payload : List UInt8} {now : Time}
    (hafter : l.afterReply = none)
    (h : KeepsStore l (l.handleFrameLocked cfg type payload now).2) (sent : Bool) :
    l.liveAfter cfg type payload now sent = l.store := by
  have hnone : ∀ mode,
      (l.handleFrameLocked cfg type payload now).2.afterReply ≠ some (.setInputMode mode) :=
    fun mode hmode => by
      have hbefore := h.afterReply mode hmode
      rw [hafter] at hbefore
      cases hbefore
  unfold liveAfter handleFrame
  dsimp only
  rw [runAfterReply_store]
  split
  · rename_i mode hmode
    exact absurd hmode (hnone mode)
  · exact h.store

omit [MachineFloat F] in
/-- A mode that is not active is another store. -/
theorem carried_setInputMode_ne {store : OmegaStore F} {payload : List UInt8}
    (h : store.settings.inputMode ≠ ⟨payload.getD 0 0⟩) :
    carried .setInputMode payload store ≠ store := fun hsame =>
  h (congrArg (fun store => store.settings.inputMode) hsame).symm

theorem handleFrameLocked_of_ofCode {type : UInt8} {msg : Msg} (h : Msg.ofCode type = some msg)
    (l : Link F O R) (payload : List UInt8) (now : Time) :
    l.handleFrameLocked cfg type payload now = l.handleRequest cfg msg payload now := by
  unfold handleFrameLocked
  rw [h]

/-- The type byte names one request. -/
theorem eq_of_ofCode {type : UInt8} {msg msg' : Msg} (h : Msg.ofCode type = some msg)
    (hmsg : msg' ∈ Msg.requests) (htype : type = msg'.code) : msg' = msg := by
  rw [htype, Msg.ofCode_code hmsg] at h
  exact Option.some.inj h

theorem mem_requests_of_setting {msg : Msg} (h : msg ∈ settingRequests) : msg ∈ Msg.requests := by
  revert msg
  decide

/-- A request whose handler edits the store at once. -/
theorem allOrNothing_of_edits {l : Link F O R} (hafter : l.afterReply = none) {type : UInt8}
    {msg : Msg} (hcode : Msg.ofCode type = some msg) (hmsg : msg ∈ settingRequests)
    (payload : List UInt8) (now : Time) (sent : Bool) :
    AllOrNothing cfg l type payload now sent := by
  obtain ⟨answer, hedits, hanswer⟩ := handleRequest_edits cfg hmsg l payload now
  rw [← handleFrameLocked_of_ofCode cfg hcode] at hanswer
  have hnotMode : type ≠ Msg.setInputMode.code := fun htype => by
    have hmode := eq_of_ofCode hcode (by decide) htype
    rw [← hmode] at hmsg
    exact absurd hmsg (by decide)
  have hname : ∀ msg' ∈ settingRequests, type = msg'.code → msg' = msg :=
    fun msg' hmsg' htype => eq_of_ofCode hcode (mem_requests_of_setting hmsg') htype
  have hothers : ¬ ∀ msg' ∈ .setInputMode :: settingRequests, type ≠ msg'.code := fun hall =>
    hall msg (List.mem_cons_of_mem _ hmsg) (Msg.code_of_ofCode hcode).symm
  have hstore : l.liveAfter cfg type payload now sent = answer.2.store := by
    unfold liveAfter handleFrame
    rw [hanswer]
    have hnone : answer.2.afterReply = none := by
      cases hedits with
      | refused => exact hafter
      | edited _ _ _ _ hkept => exact hkept.trans hafter
    simp only [runAfterReply_of_none cfg _ hnone]
  have hreply : l.replyTo cfg type payload now = some answer.1 := congrArg Prod.fst hanswer
  refine ⟨?_, ?_, fun htype => absurd htype hnotMode, fun hall => absurd hall hothers⟩
  · intro hrefused
    rw [hstore]
    cases hedits with
    | refused => rfl
    | edited reply htype =>
        exact absurd ((hrefused reply hreply).symm.trans htype) (by decide)
  · intro msg' hmsg' htype hok
    obtain rfl := hname msg' hmsg' htype
    rw [hstore]
    cases hedits with
    | refused reply htype =>
        obtain ⟨frame, hframe, hok⟩ := hok
        obtain rfl := Option.some.inj (hreply.symm.trans hframe)
        exact absurd (htype.symm.trans hok) (by decide)
    | edited _ _ l' hedited => exact hedited

/-- SET_INPUT_MODE, whose switch waits for the reply to be queued. -/
theorem allOrNothing_setInputMode {l : Link F O R} (hafter : l.afterReply = none) {type : UInt8}
    (hcode : Msg.ofCode type = some .setInputMode) (payload : List UInt8) (now : Time)
    (sent : Bool) : AllOrNothing cfg l type payload now sent := by
  have hanswer : l.handleFrameLocked cfg type payload now =
      (some (l.handleSetInputMode cfg payload).1, (l.handleSetInputMode cfg payload).2) :=
    handleFrameLocked_of_ofCode cfg hcode l payload now
  have hswitches := handleSetInputMode_switches cfg l payload
  revert hanswer hswitches
  generalize l.handleSetInputMode cfg payload = answer
  intro hanswer hswitches
  have hreply : l.replyTo cfg type payload now = some answer.1 := congrArg Prod.fst hanswer
  -- what is live is the store after the deferred switch
  have hlive : l.liveAfter cfg type payload now sent =
      (answer.2.runAfterReply cfg sent).2.store := by
    unfold liveAfter handleFrame
    rw [hanswer]
    rfl
  rw [runAfterReply_store] at hlive
  have hnotSetting : ∀ msg ∈ settingRequests, type ≠ msg.code := fun msg hmsg htype => by
    have hmode := eq_of_ofCode hcode (mem_requests_of_setting hmsg) htype
    rw [hmode] at hmsg
    exact absurd hmsg (by decide)
  have hothers : ¬ ∀ msg ∈ .setInputMode :: settingRequests, type ≠ msg.code := fun hall =>
    hall .setInputMode (List.mem_cons_self ..) (Msg.code_of_ofCode hcode).symm
  refine ⟨?_, fun msg hmsg htype => absurd htype (hnotSetting msg hmsg), fun _ => ?_,
    fun hall => absurd hall hothers⟩
  -- a refused request has deferred nothing
  · intro hrefused
    have hnotOk := hrefused.not_answeredOk
    rw [hreply] at hnotOk
    cases hswitches with
    | refused => simpa [hafter] using hlive
    | active reply htype => exact absurd ⟨reply, rfl, htype⟩ hnotOk
    | deferred reply htype => exact absurd ⟨reply, rfl, htype⟩ hnotOk
  -- an accepted one changes the mode, once its reply is queued
  · rw [hreply]
    cases hswitches with
    | refused reply htype =>
        have hkept : l.liveAfter cfg type payload now sent = l.store := by
          simpa [hafter] using hlive
        refine ⟨⟨fun hne => absurd hkept hne, ?_⟩, fun hne => absurd hkept hne⟩
        rintro ⟨-, ⟨frame, hframe, hok⟩, -⟩
        obtain rfl := Option.some.inj hframe
        exact absurd (htype.symm.trans hok) (by decide)
    | active reply htype hsame =>
        have hkept : l.liveAfter cfg type payload now sent = l.store := by
          simpa [hafter] using hlive
        exact ⟨⟨fun hne => absurd hkept hne, fun hother => absurd hsame hother.1⟩,
          fun hne => absurd hkept hne⟩
    | deferred reply htype hother l' hstore hdeferred =>
        rw [hdeferred] at hlive
        dsimp only at hlive
        cases sent with
        | false =>
            -- the reply was not queued, and the switch is dropped
            have hkept : l.liveAfter cfg type payload now false = l.store := by
              rw [hlive]
              exact hstore
            exact ⟨⟨fun hne => absurd hkept hne, fun hsent => Bool.noConfusion hsent.2.2⟩,
              fun hne => absurd hkept hne⟩
        | true =>
            have hswitched : l.liveAfter cfg type payload now true =
                carried .setInputMode payload l.store := by
              rw [hlive, if_pos rfl, hstore, OmegaStore.setInputMode, if_neg hother]
              rfl
            rw [hswitched]
            exact ⟨⟨fun _ => ⟨hother, ⟨reply, rfl, htype⟩, rfl⟩,
              fun _ => carried_setInputMode_ne hother⟩, fun _ => rfl⟩

/-- One frame, with nothing deferred before it. -/
theorem allOrNothing {l : Link F O R} (hafter : l.afterReply = none) (type : UInt8)
    (payload : List UInt8) (now : Time) (sent : Bool) :
    AllOrNothing cfg l type payload now sent := by
  cases hcode : Msg.ofCode type with
  | none =>
      have hlocked : KeepsStore l (l.handleFrameLocked cfg type payload now).2 := by
        unfold handleFrameLocked
        rw [hcode]
        exact .refl l
      have hkept := liveAfter_of_keepsStore cfg hafter hlocked sent
      have hnot : ∀ msg ∈ Msg.requests, type ≠ msg.code := fun msg hmsg htype => by
        rw [htype, Msg.ofCode_code hmsg] at hcode
        cases hcode
      exact ⟨fun _ => hkept,
        fun msg hmsg htype => absurd htype (hnot msg (mem_requests_of_setting hmsg)),
        fun htype => absurd htype (hnot _ (by decide)), fun _ => hkept⟩
  | some msg =>
      by_cases hset : msg ∈ settingRequests
      · exact allOrNothing_of_edits cfg hafter hcode hset payload now sent
      by_cases hmode : msg = .setInputMode
      · subst hmode
        exact allOrNothing_setInputMode cfg hafter hcode payload now sent
      have hlocked : KeepsStore l (l.handleFrameLocked cfg type payload now).2 := by
        rw [handleFrameLocked_of_ofCode cfg hcode]
        exact handleRequest_keepsStore cfg hset hmode l payload now
      have hkept := liveAfter_of_keepsStore cfg hafter hlocked sent
      refine ⟨fun _ => hkept, fun msg' hmsg' htype => ?_, fun htype => ?_, fun _ => hkept⟩
      · obtain rfl := eq_of_ofCode hcode (mem_requests_of_setting hmsg') htype
        exact absurd hmsg' hset
      · exact absurd (eq_of_ofCode hcode (by decide) htype).symm hmode

/-- **Requests are all-or-nothing.**  In every state that requests handled one at a time
can leave, for any frame and whatever the transport says of the reply: a refused or
ignored frame leaves the live center, range and settings as they were; the four SET
requests that take effect at once replace, when answered OK, exactly what they name by
what they carry; the mode is replaced exactly when it differs and its OK was queued;
and no other frame changes anything. -/
theorem all_or_nothing {s : Rebooting F O R} (hs : Reachable (serviceCalls cfg) s) (type : UInt8)
    (payload : List UInt8) (now : Time) (sent : Bool) :
    AllOrNothing cfg s.link type payload now sent := by
  have hsettled : Settled s := by
    refine Reachable.invariant (T := serviceCalls cfg) ?_ ?_ hs
    · intro s hinit
      exact congrArg CalibrationService.afterReply hinit.1
    · rintro s call t hsettled rfl
      exact hsettled.next cfg call
  exact allOrNothing cfg hsettled type payload now sent

end Request

/-- Nudge clicks, off at first, are switched on at the simulated service, even if the reply is
lost. -/
theorem all_or_nothing_nudgeOn :
    freshSimService.link.store.settings.nudgeEnabled = false ∧
      (freshSimService.link.liveAfter simServiceConfig Msg.setNudgeEnabled.code [1] 0
        false).settings.nudgeEnabled = true := by
  have hfresh : Reachable (serviceCalls simServiceConfig) freshSimService := .init ⟨rfl, rfl⟩
  have hedited := (all_or_nothing simServiceConfig hfresh Msg.setNudgeEnabled.code [1] 0
    false).edited .setNudgeEnabled (by decide) rfl ⟨buildOk kModule 0, by decide, rfl⟩
  refine ⟨rfl, ?_⟩
  rw [hedited]
  rfl

end Link

end OmegaStick
