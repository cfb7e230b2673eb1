import OmegaStick.Service.Handler

/-!
# What a request leaves behind

The handlers interleave checks, replies and state changes.  This file keeps
only the state: for each request one predicate that says when it is accepted,
and one equation for the link after it.  A refused request leaves the link as
it was.
-/

namespace OmegaStick

open OtaEngine

variable {F O R : Type*}

namespace Link

/-! ## Firmware update requests -/

section Ota

variable [OtaEngine O] (cfg : CalibrationService.Config F R)

def otaBeginAccepted (l : Link F O R) (payload : List UInt8) : Bool :=
  cfg.ota && decide (payload.length = 4) && !isPendingVerify l.ota

def otaDataAccepted (l : Link F O R) (payload : List UInt8) : Bool :=
  cfg.ota && l.otaOwner && decide (4 < payload.length) &&
    decide ((getU32 payload).toNat = bytesWritten l.ota)

/-- The link after OTA_BEGIN took a stale upload down and raised the hold. -/
def otaBeginHeld (l : Link F O R) : Link F O R :=
  (if l.ownsSession then l.abortOwn else l).holdOutput cfg true

/-- OTA_BEGIN gives the hold back when its own upload was the reason for it. -/
def otaBeginReleases (l : Link F O R) : Bool := !l.holding || l.ownsSession

theorem handleOtaBegin_snd (l : Link F O R) (payload : List UInt8) (now : Time) :
    (l.handleOtaBegin cfg payload now).2 =
      if l.otaBeginAccepted cfg payload then
        match begin (getU32 payload) (l.otaBeginHeld cfg).ota with
        | (some _, ota) =>
            let failed : Link F O R := { l.otaBeginHeld cfg with ota := ota }
            if l.otaBeginReleases then failed.holdOutput cfg false else failed
        | (none, ota) =>
            { l.otaBeginHeld cfg with ota := ota, otaOwner := true, otaLastActivity := now }
      else l := by
  have hwas : (if l.ownsSession then l.abortOwn else l).holding = l.holding := by
    split <;> rfl
  unfold handleOtaBegin otaBeginAccepted
  cases hota : cfg.ota with
  | false => rfl
  | true =>
      by_cases hlen : payload.length = 4
      · cases hpending : isPendingVerify l.ota with
        | true => simp [hlen]
        | false =>
            simp only [hlen, otaBeginHeld, otaBeginReleases, hwas, Bool.not_true,
              Bool.false_eq_true, ite_false, ne_eq, not_true_eq_false, decide_true,
              Bool.not_false, Bool.and_self, ite_true]
            rcases begin (getU32 payload) _ with ⟨_ | error, ota⟩ <;> rfl
      · simp [hlen]

theorem handleOtaData_snd (l : Link F O R) (payload : List UInt8) (now : Time) :
    (l.handleOtaData cfg payload now).2 =
      if l.otaDataAccepted cfg payload then
        match write (payload.drop 4) l.ota with
        | (some _, ota) =>
            ({ l with ota := ota, otaOwner := false } : Link F O R).holdOutput cfg false
        | (none, ota) => { l with ota := ota, otaLastActivity := now }
      else l := by
  unfold handleOtaData otaDataAccepted
  rw [← Bool.not_and]
  cases cfg.ota && l.otaOwner with
  | false => rfl
  | true =>
      by_cases hlen : 4 < payload.length
      · by_cases hoffset : (getU32 payload).toNat = bytesWritten l.ota
        · simp only [hlen, hoffset, Nat.not_le.mpr hlen, Bool.not_true, Bool.false_eq_true,
            ite_false, ne_eq, not_true_eq_false, decide_true, Bool.and_self, ite_true]
          rcases write (payload.drop 4) l.ota with ⟨_ | error, ota⟩ <;> rfl
        · simp [hlen, hoffset, Nat.not_le.mpr hlen]
      · simp [hlen, Nat.not_lt.mp hlen]

theorem handleOtaFinish_snd (l : Link F O R) :
    (l.handleOtaFinish cfg).2 =
      if cfg.ota && l.otaOwner then
        match finish l.ota with
        | (some _, ota) =>
            ({ l with ota := ota, otaOwner := false } : Link F O R).holdOutput cfg false
        | (none, ota) =>
            (({ l with ota := ota, otaOwner := false } : Link F O R).holdOutput cfg true).defer
              .otaRestart
      else l := by
  unfold handleOtaFinish
  rw [← Bool.not_and]
  cases cfg.ota && l.otaOwner with
  | false => rfl
  | true =>
      simp only [Bool.not_true, Bool.false_eq_true, ite_false, ite_true]
      rcases finish l.ota with ⟨_ | error, ota⟩ <;> rfl

theorem handleOtaAbort_snd (l : Link F O R) :
    (l.handleOtaAbort cfg).2 =
      if cfg.ota && l.otaOwner then l.abortOwn.holdOutput cfg false else l := rfl

theorem handleGetFwInfo_snd (l : Link F O R) : (l.handleGetFwInfo cfg).2 = l := by
  unfold handleGetFwInfo
  split <;> rfl

/-- REVERT finds an upload, no image, or a selection that cannot be written. -/
def revertRefused (ota : O) : Bool :=
  sessionActive ota || ((otherLabel ota).bind fun _ => otherDescription ota).isNone

/-- The link after REVERT took an abandoned upload of its own down. -/
def revertStarted (l : Link F O R) : Link F O R :=
  if l.ownsSession then l.abortOwn.holdOutput cfg false else l

theorem handleRevert_snd (l : Link F O R) (payload : List UInt8) :
    (l.handleRevert cfg payload).2 =
      if cfg.ota && payload.isEmpty then
        if revertRefused (l.revertStarted cfg).ota then l.revertStarted cfg
        else
          match setBootOther (l.revertStarted cfg).ota with
          | (some _, ota) => { l.revertStarted cfg with ota := ota }
          | (none, ota) =>
              (({ l.revertStarted cfg with ota := ota } : Link F O R).holdOutput cfg true).defer
                .otaRestart
      else l := by
  have hstart : (if l.ownsSession then l.abortOwn.holdOutput cfg false else l) =
      l.revertStarted cfg := rfl
  unfold handleRevert
  cases hota : cfg.ota with
  | false => rfl
  | true =>
      cases payload with
      | cons b rest => rfl
      | nil =>
          simp only [hstart, revertRefused, Bool.not_true, Bool.false_eq_true, ite_false,
            ne_eq, not_true_eq_false, List.isEmpty_nil, Bool.and_self, ite_true]
          by_cases hactive : sessionActive (l.revertStarted cfg).ota = true
          · simp [hactive]
          · by_cases hnone : ((otherLabel (l.revertStarted cfg).ota).bind
                fun _ => otherDescription (l.revertStarted cfg).ota).isNone = true
            · simp [hactive, hnone]
            · simp only [hactive, hnone, Bool.false_eq_true, ite_false, Bool.or_self]
              rcases setBootOther (l.revertStarted cfg).ota with ⟨_ | error, ota⟩ <;> rfl

theorem handleMarkValid_snd (l : Link F O R) :
    (l.handleMarkValid cfg).2 =
      if cfg.ota then { l with ota := (markAppValid l.ota).2 } else l := by
  unfold handleMarkValid
  cases hota : cfg.ota with
  | false => rfl
  | true =>
      simp only [Bool.not_true, Bool.false_eq_true, ite_false, ite_true]
      rcases markAppValid l.ota with ⟨_ | error, ota⟩ <;> rfl

end Ota

/-! ## Requests that defer an action -/

section Requests

variable (cfg : CalibrationService.Config F R)

theorem handleRestart_snd (l : Link F O R) (payload : List UInt8) :
    (l.handleRestart cfg payload).2 =
      if payload.isEmpty && cfg.restart then (l.holdOutput cfg true).defer .restart else l := by
  unfold handleRestart
  cases payload with
  | cons b rest => rfl
  | nil => cases cfg.restart <;> rfl

/-- The mode a SET_INPUT_MODE payload switches the store to. -/
def switchedMode (store : OmegaStore F) (payload : List UInt8) : Option InputMode :=
  match payload with
  | [mode] => if mode ≤ 1 ∧ store.settings.inputMode ≠ ⟨mode⟩ then some ⟨mode⟩ else none
  | _ => none

theorem handleSetInputMode_snd (l : Link F O R) (payload : List UInt8) :
    (l.handleSetInputMode cfg payload).2 =
      match switchedMode l.store payload with
      | some mode => (l.holdOutput cfg true).defer (.setInputMode mode)
      | none => l := by
  unfold handleSetInputMode switchedMode
  rcases payload with _ | ⟨mode, _ | ⟨b, rest⟩⟩
  · rfl
  · by_cases hmode : mode ≤ 1
    · have : ¬ 1 < mode := UInt8.not_lt.mpr hmode
      by_cases hsame : l.store.settings.inputMode = ⟨mode⟩
      · simp [hsame, this]
      · simp [hsame, hmode, this]
    · have : 1 < mode := UInt8.not_le.mp hmode
      simp [hmode, this]
  · rfl

/-! ## Requests that leave the service and the engine alone -/

/-- The service's own members and the engine are as they were. -/
structure SameService (l l' : Link F O R) : Prop where
  service : l'.toCalibrationService = l.toCalibrationService
  ota : l'.ota = l.ota

theorem SameService.refl (l : Link F O R) : SameService l l := ⟨rfl, rfl⟩

variable [MachineFloat F] [FloatBits F] [OtaEngine O]

/-- The requests of the console that neither touch an upload nor defer anything. -/
def plainRequests : List Msg :=
  [.getState, .setManualOffset, .setDeadzoneOverride, .setNudgeSettings, .saveToFlash,
    .startCalibration, .getFwInfo, .getDiagnostics, .setNudgeEnabled]

theorem handleRequest_sameService {msg : Msg} (hmsg : msg ∈ plainRequests) (l : Link F O R)
    (payload : List UInt8) (now : Time) :
    SameService l (l.handleRequest cfg msg payload now).2 := by
  simp only [plainRequests, List.mem_cons, List.not_mem_nil, or_false] at hmsg
  rcases hmsg with rfl | rfl | rfl | rfl | rfl | rfl | rfl | rfl | rfl
  all_goals simp only [handleRequest]
  · exact .refl l
  · unfold handleSetManualOffset
    simp only
    split_ifs <;> exact ⟨rfl, rfl⟩
  · unfold handleSetDeadzoneOverride
    simp only
    split_ifs <;> exact ⟨rfl, rfl⟩
  · unfold handleSetNudgeSettings
    simp only
    split_ifs <;> exact ⟨rfl, rfl⟩
  · unfold handleSaveToFlash
    split <;> exact ⟨rfl, rfl⟩
  · unfold handleStartCalibration
    split_ifs
    · exact ⟨rfl, rfl⟩
    · split
      · exact ⟨rfl, rfl⟩
      · split <;> exact ⟨rfl, rfl⟩
  · rw [handleGetFwInfo_snd]
    exact .refl l
  · unfold handleGetDiagnostics
    split <;> exact ⟨rfl, rfl⟩
  · unfold handleSetNudgeEnabled
    split
    · split_ifs <;> exact ⟨rfl, rfl⟩
    · exact ⟨rfl, rfl⟩

end Requests

end Link

/-! ## What the injected functions leave alone -/

/-- Nothing the configuration injects changes `observe` of the outside, but
perhaps what START_CALIBRATION calls. -/
structure CalibrationService.Config.Leaves {γ : Type*} (cfg : CalibrationService.Config F R)
    (observe : R → γ) : Prop where
  outputHold : ∀ forward, cfg.outputHold = some forward →
    ∀ hold outside, observe (forward hold outside) = observe outside
  saveToFlash : ∀ store outside, observe (cfg.saveToFlash store outside).2 = observe outside
  onCalibrationChanged : ∀ store outside,
    observe (cfg.onCalibrationChanged store outside) = observe outside
  onModeChanged : ∀ mode store outside,
    observe (cfg.onModeChanged mode store outside) = observe outside

namespace CalibrationService.Config.Leaves

variable {γ : Type*} {cfg : CalibrationService.Config F R} {observe : R → γ}

theorem holdOutput (h : cfg.Leaves observe) (l : Link F O R) (hold : Bool) :
    observe (l.holdOutput cfg hold).outside = observe l.outside := by
  unfold Link.holdOutput
  split
  · rfl
  · dsimp only
    split
    · rename_i forward hforward
      exact h.outputHold forward hforward hold l.outside
    · rfl

variable [OtaEngine O]

theorem abortUpdate (h : cfg.Leaves observe) (l : Link F O R) :
    observe (l.abortUpdate cfg).outside = observe l.outside := by
  unfold Link.abortUpdate
  split
  · exact h.holdOutput _ false
  · rfl

theorem expireStaleUpdate (h : cfg.Leaves observe) (l : Link F O R) (maxIdle now : Time)
    (locked : Bool) :
    observe (l.expireStaleUpdate cfg maxIdle now locked).2.outside = observe l.outside := by
  unfold Link.expireStaleUpdate
  split_ifs
  · rfl
  · exact h.holdOutput _ false
  · rfl
  · exact h.holdOutput _ false

theorem runAfterReply (h : cfg.Leaves observe) (l : Link F O R) (queued : Bool) :
    observe (l.runAfterReply cfg queued).2.outside = observe l.outside := by
  unfold Link.runAfterReply
  split
  · rfl
  · rename_i action haction
    cases queued with
    | true =>
        cases action with
        | otaRestart | restart => rfl
        | setInputMode mode =>
            simp only [ite_true, Link.setInputMode]
            split
            · exact h.onModeChanged _ _ _
            · rfl
    | false =>
        simp only [Bool.false_eq_true, ite_false]
        split
        · rfl
        · exact h.holdOutput _ false

theorem handleOtaBegin (h : cfg.Leaves observe) (l : Link F O R) (payload : List UInt8)
    (now : Time) : observe (l.handleOtaBegin cfg payload now).2.outside = observe l.outside := by
  have hheld : observe (l.otaBeginHeld cfg).outside = observe l.outside := by
    refine (h.holdOutput _ true).trans ?_
    split <;> rfl
  rw [Link.handleOtaBegin_snd]
  split
  · split
    · dsimp only
      split
      · exact (h.holdOutput _ false).trans hheld
      · exact hheld
    · exact hheld
  · rfl

theorem handleOtaData (h : cfg.Leaves observe) (l : Link F O R) (payload : List UInt8)
    (now : Time) : observe (l.handleOtaData cfg payload now).2.outside = observe l.outside := by
  rw [Link.handleOtaData_snd]
  split
  · split
    · exact h.holdOutput _ false
    · rfl
  · rfl

theorem handleOtaFinish (h : cfg.Leaves observe) (l : Link F O R) :
    observe (l.handleOtaFinish cfg).2.outside = observe l.outside := by
  rw [Link.handleOtaFinish_snd]
  split
  · split
    · exact h.holdOutput _ false
    · exact h.holdOutput _ true
  · rfl

theorem handleRevert (h : cfg.Leaves observe) (l : Link F O R) (payload : List UInt8) :
    observe (l.handleRevert cfg payload).2.outside = observe l.outside := by
  have hstarted : observe (l.revertStarted cfg).outside = observe l.outside := by
    unfold Link.revertStarted
    split
    · exact h.holdOutput _ false
    · rfl
  rw [Link.handleRevert_snd]
  split
  · split
    · exact hstarted
    · split
      · exact hstarted
      · exact (h.holdOutput _ true).trans hstarted
  · rfl

theorem handleMarkValid (l : Link F O R) :
    observe (l.handleMarkValid cfg).2.outside = observe l.outside := by
  rw [Link.handleMarkValid_snd]
  split <;> rfl

omit [OtaEngine O] in
theorem handleRestart (h : cfg.Leaves observe) (l : Link F O R) (payload : List UInt8) :
    observe (l.handleRestart cfg payload).2.outside = observe l.outside := by
  rw [Link.handleRestart_snd]
  split
  · exact h.holdOutput _ true
  · rfl

omit [OtaEngine O] in
theorem handleSetInputMode (h : cfg.Leaves observe) (l : Link F O R)
    (payload : List UInt8) :
    observe (l.handleSetInputMode cfg payload).2.outside = observe l.outside := by
  rw [Link.handleSetInputMode_snd]
  split
  · exact h.holdOutput _ true
  · rfl

variable [MachineFloat F] [FloatBits F]

omit [OtaEngine O] in
theorem handleSetManualOffset (h : cfg.Leaves observe) (l : Link F O R)
    (payload : List UInt8) :
    observe (l.handleSetManualOffset cfg payload).2.outside = observe l.outside := by
  unfold Link.handleSetManualOffset
  simp only
  split_ifs
  · rfl
  · rfl
  · exact h.onCalibrationChanged _ _

omit [OtaEngine O] in
theorem handleSetDeadzoneOverride (h : cfg.Leaves observe) (l : Link F O R)
    (payload : List UInt8) :
    observe (l.handleSetDeadzoneOverride cfg payload).2.outside = observe l.outside := by
  unfold Link.handleSetDeadzoneOverride
  simp only
  split_ifs
  all_goals first | rfl | exact h.onCalibrationChanged _ _

omit [OtaEngine O] [MachineFloat F] [FloatBits F] in
theorem handleSaveToFlash (h : cfg.Leaves observe) (l : Link F O R) :
    observe (l.handleSaveToFlash cfg).2.outside = observe l.outside := by
  have hsaved := h.saveToFlash l.store l.outside
  unfold Link.handleSaveToFlash
  split
  all_goals
    rename_i heq
    rw [heq] at hsaved
    exact hsaved

/-- Only START_CALIBRATION changes what the injected functions leave alone. -/
theorem handleRequest (h : cfg.Leaves observe) {msg : Msg} (hmsg : msg ≠ .startCalibration)
    (l : Link F O R) (payload : List UInt8) (now : Time) :
    observe (l.handleRequest cfg msg payload now).2.outside = observe l.outside := by
  cases msg with
  | startCalibration => exact absurd rfl hmsg
  | otaBegin => exact h.handleOtaBegin l payload now
  | otaData => exact h.handleOtaData l payload now
  | otaFinish => exact h.handleOtaFinish l
  | otaAbort => exact h.abortUpdate l
  | revert => exact h.handleRevert l payload
  | markValid => exact handleMarkValid l
  | restart => exact h.handleRestart l payload
  | setInputMode => exact h.handleSetInputMode l payload
  | setManualOffset => exact h.handleSetManualOffset l payload
  | setDeadzoneOverride => exact h.handleSetDeadzoneOverride l payload
  | saveToFlash => exact h.handleSaveToFlash l
  | getFwInfo => exact congrArg (observe ·.outside) (l.handleGetFwInfo_snd cfg)
  | getDiagnostics =>
      simp only [Link.handleRequest, Link.handleGetDiagnostics]
      split <;> rfl
  | setNudgeSettings =>
      simp only [Link.handleRequest, Link.handleSetNudgeSettings]
      split_ifs <;> rfl
  | setNudgeEnabled =>
      simp only [Link.handleRequest, Link.handleSetNudgeEnabled]
      split
      · split_ifs <;> rfl
      · rfl
  | getState | state | calibrationResult | fwInfo | diagnostics | ok | error => rfl

theorem handleFrameLocked (h : cfg.Leaves observe) {type : UInt8}
    (htype : type ≠ Msg.startCalibration.code) (l : Link F O R) (payload : List UInt8)
    (now : Time) :
    observe (l.handleFrameLocked cfg type payload now).2.outside = observe l.outside := by
  unfold Link.handleFrameLocked
  split
  · rename_i msg hcode
    refine h.handleRequest ?_ l payload now
    rintro rfl
    exact htype (Msg.code_of_ofCode hcode).symm
  · rfl

end CalibrationService.Config.Leaves

end OmegaStick
