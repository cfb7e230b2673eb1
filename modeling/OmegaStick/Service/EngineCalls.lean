import OmegaStick.Service.Effects

/-!
# What the service's calls of the engine keep

A property of the OTA engine that each of the calls a service makes keeps is
kept by every section of the service: by a request's handler, by what runs after
its reply, and by the two ways an upload ends outside a request.  What only
`finish` changes, every request but OTA_FINISH keeps.  The rollback of the health
check is not among these calls.
-/

namespace OmegaStick

open OtaEngine

variable {F O R : Type*}

/-- The calls a service makes, `finish` apart, keep `P`. -/
structure EngineKeepsUnfinished [OtaEngine O] (P : O → Prop) : Prop where
  begin : ∀ (size : UInt32) (o : O), P o → P (begin size o).2
  write : ∀ data (o : O), P o → P (write data o).2
  abort : ∀ o, P o → P (abort o)
  markAppValid : ∀ o, P o → P (markAppValid o).2
  setBootOther : ∀ o, P o → P (setBootOther o).2

/-- The calls a service makes keep `P`. -/
structure EngineKeeps [OtaEngine O] (P : O → Prop) : Prop extends EngineKeepsUnfinished P where
  finish : ∀ o, P o → P (finish o).2

namespace EngineKeepsUnfinished

variable [OtaEngine O] {P : O → Prop} {cfg : CalibrationService.Config F R} {l : Link F O R}

omit [OtaEngine O] in
theorem holdOutput (hP : P l.ota) (hold : Bool) : P (l.holdOutput cfg hold).ota := by
  rw [Link.holdOutput_ota]
  exact hP

theorem abortOwn (h : EngineKeepsUnfinished P) (hP : P l.ota) :
    P (l.abortOwn.holdOutput cfg false).ota :=
  holdOutput (h.abort l.ota hP) false

theorem otaBeginHeld (h : EngineKeepsUnfinished P) (hP : P l.ota) : P (l.otaBeginHeld cfg).ota := by
  unfold Link.otaBeginHeld
  refine holdOutput ?_ true
  split
  · exact h.abort l.ota hP
  · exact hP

theorem handleOtaBegin (h : EngineKeepsUnfinished P) (hP : P l.ota) (payload : List UInt8)
    (now : Time) : P (l.handleOtaBegin cfg payload now).2.ota := by
  rw [Link.handleOtaBegin_snd]
  split
  · have hheld : P (l.otaBeginHeld cfg).ota := h.otaBeginHeld hP
    have hbegun := h.begin (getU32 payload) _ hheld
    split
    all_goals
      rename_i heq
      rw [heq] at hbegun
    · dsimp only
      split
      · exact holdOutput hbegun false
      · exact hbegun
    · exact hbegun
  · exact hP

theorem handleOtaData (h : EngineKeepsUnfinished P) (hP : P l.ota) (payload : List UInt8)
    (now : Time) : P (l.handleOtaData cfg payload now).2.ota := by
  rw [Link.handleOtaData_snd]
  split
  · have hwritten := h.write (payload.drop 4) l.ota hP
    split
    all_goals
      rename_i heq
      rw [heq] at hwritten
    · exact holdOutput hwritten false
    · exact hwritten
  · exact hP

theorem abortUpdate (h : EngineKeepsUnfinished P) (hP : P l.ota) : P (l.abortUpdate cfg).ota := by
  unfold Link.abortUpdate
  split
  · exact h.abortOwn hP
  · exact hP

theorem handleRevert (h : EngineKeepsUnfinished P) (hP : P l.ota) (payload : List UInt8) :
    P (l.handleRevert cfg payload).2.ota := by
  have hstarted : P (l.revertStarted cfg).ota := by
    unfold Link.revertStarted
    split
    · exact h.abortOwn hP
    · exact hP
  rw [Link.handleRevert_snd]
  split
  · split
    · exact hstarted
    · have hselected := h.setBootOther _ hstarted
      split
      all_goals
        rename_i heq
        rw [heq] at hselected
      · exact hselected
      · exact holdOutput hselected true
  · exact hP

theorem handleMarkValid (h : EngineKeepsUnfinished P) (hP : P l.ota) :
    P (l.handleMarkValid cfg).2.ota := by
  rw [Link.handleMarkValid_snd]
  split
  · exact h.markAppValid l.ota hP
  · exact hP

omit [OtaEngine O] in
theorem handleRestart (hP : P l.ota) (payload : List UInt8) :
    P (l.handleRestart cfg payload).2.ota := by
  rw [Link.handleRestart_snd]
  split
  · exact holdOutput hP true
  · exact hP

omit [OtaEngine O] in
theorem handleSetInputMode (hP : P l.ota) (payload : List UInt8) :
    P (l.handleSetInputMode cfg payload).2.ota := by
  rw [Link.handleSetInputMode_snd]
  split
  · exact holdOutput hP true
  · exact hP

/-- `run_after_reply` makes no call at all. -/
theorem runAfterReply (hP : P l.ota) (queued : Bool) : P (l.runAfterReply cfg queued).2.ota := by
  unfold Link.runAfterReply
  split
  · exact hP
  · rename_i action _
    cases queued with
    | true =>
        cases action with
        | otaRestart | restart => exact hP
        | setInputMode mode =>
            simp only [ite_true, Link.setInputMode]
            split <;> exact hP
    | false =>
        simp only [Bool.false_eq_true, ite_false]
        split
        · exact hP
        · rw [Link.holdOutput_ota]
          exact hP

theorem expireStaleUpdate (h : EngineKeepsUnfinished P) (hP : P l.ota) (maxIdle now : Time)
    (locked : Bool) : P (l.expireStaleUpdate cfg maxIdle now locked).2.ota := by
  unfold Link.expireStaleUpdate
  split_ifs
  · exact hP
  · rw [Link.holdOutput_ota]
    exact hP
  · exact hP
  · exact h.abortOwn hP

variable [MachineFloat F] [FloatBits F]

/-- Every request but OTA_FINISH. -/
theorem handleRequest (h : EngineKeepsUnfinished P) (hP : P l.ota) {msg : Msg}
    (hfinish : msg ≠ .otaFinish) (payload : List UInt8) (now : Time) :
    P (l.handleRequest cfg msg payload now).2.ota := by
  by_cases hplain : msg ∈ Link.plainRequests
  · rw [(Link.handleRequest_sameService cfg hplain l payload now).ota]
    exact hP
  cases msg with
  | otaBegin => exact h.handleOtaBegin hP payload now
  | otaData => exact h.handleOtaData hP payload now
  | otaFinish => exact absurd rfl hfinish
  | otaAbort => exact h.abortUpdate hP
  | revert => exact h.handleRevert hP payload
  | markValid => exact h.handleMarkValid hP
  | restart => exact handleRestart hP payload
  | setInputMode => exact handleSetInputMode hP payload
  | state | calibrationResult | fwInfo | diagnostics | ok | error => exact hP
  | getState | setManualOffset | setDeadzoneOverride | setNudgeSettings | saveToFlash
  | startCalibration | getFwInfo | getDiagnostics | setNudgeEnabled =>
      exact absurd (by decide) hplain

end EngineKeepsUnfinished

namespace EngineKeeps

variable [OtaEngine O] {P : O → Prop} {cfg : CalibrationService.Config F R} {l : Link F O R}

theorem handleOtaFinish (h : EngineKeeps P) (hP : P l.ota) : P (l.handleOtaFinish cfg).2.ota := by
  rw [Link.handleOtaFinish_snd]
  split
  · have hfinished := h.finish l.ota hP
    split
    all_goals
      rename_i heq
      rw [heq] at hfinished
    · exact EngineKeepsUnfinished.holdOutput hfinished false
    · exact EngineKeepsUnfinished.holdOutput hfinished true
  · exact hP

variable [MachineFloat F] [FloatBits F]

theorem handleRequest (h : EngineKeeps P) (hP : P l.ota) (msg : Msg) (payload : List UInt8)
    (now : Time) : P (l.handleRequest cfg msg payload now).2.ota := by
  by_cases hfinish : msg = .otaFinish
  · rw [hfinish]
    exact h.handleOtaFinish hP
  · exact h.toEngineKeepsUnfinished.handleRequest hP hfinish payload now

theorem handleFrameLocked (h : EngineKeeps P) (hP : P l.ota) (type : UInt8)
    (payload : List UInt8) (now : Time) :
    P (l.handleFrameLocked cfg type payload now).2.ota := by
  unfold Link.handleFrameLocked
  split
  · exact h.handleRequest hP _ payload now
  · exact hP

end EngineKeeps

end OmegaStick
