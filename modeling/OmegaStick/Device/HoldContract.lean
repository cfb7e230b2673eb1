import OmegaStick.Firmware.HealthCheck
import OmegaStick.Device.Wiring

/-!
# What one service does to the hold and the session

`HoldContract` is what holds of a single service, relative to what everybody
else does: whether the other service owns the engine's session, and how many
holds are not this service's.  The handful of state changes a service makes
each keep it (`Keeps`), and every locked section is a chain of them.

The engine is any `O` that behaves as `espp::Ota` is documented to
(`LawfulOta`): what `session` observes of it is `none` between sessions, and
the bytes received so far during one.
-/

namespace OmegaStick

open OtaEngine

/-! ## The engine's documented behaviour -/

/-- `begin` fails while a session is active; a failed write, any finish, and
abort end the session; nothing else starts or ends one. -/
structure LawfulOta {O : Type*} [OtaEngine O] (session : O → Option (List UInt8)) : Prop where
  active : ∀ o, sessionActive o = (session o).isSome
  begin_active : ∀ (size : UInt32) (o : O), sessionActive o = true → (begin size o).1.isSome
  begin_ok : ∀ (size : UInt32) (o : O), (begin size o).1 = none → session (begin size o).2 = some []
  begin_failed : ∀ (size : UInt32) (o : O), (begin size o).1.isSome →
    session (begin size o).2 = session o
  write_ok : ∀ data (o : O), (write data o).1 = none →
    session (write data o).2 = (session o).map fun received => received ++ data
  write_failed : ∀ data (o : O), (write data o).1.isSome → session (write data o).2 = none
  finished : ∀ o, session (finish o).2 = none
  aborted : ∀ o, session (abort o) = none
  markAppValid : ∀ o, session (markAppValid o).2 = session o
  markAppInvalid : ∀ o, (markAppInvalidAndRollback o).1.isSome →
    session (markAppInvalidAndRollback o).2 = session o
  setBootOther : ∀ o, session (setBootOther o).2 = session o

variable {F O : Type*}

/-! ## The contract of one service -/

/-- What holds of a service in its device, where `otherOwner` is whether the
other service owns a session and `others` counts the holds that are not this
service's. -/
structure HoldContract (session : O → Option (List UInt8)) (otherOwner : Bool) (others : ℤ)
    (l : Link F O (Device F)) : Prop where
  owner_holding : l.otaOwner = true → l.holding = true
  exclusive : l.otaOwner = true → otherOwner = false
  session_owned : (session l.ota).isSome = (l.otaOwner || otherOwner)
  counter : l.outside.outputHolds = l.holding.toInt + others

/-- A state change that keeps the contract, and does not touch a session of
the other service. -/
def Keeps (session : O → Option (List UInt8)) (otherOwner : Bool) (others : ℤ)
    (l l' : Link F O (Device F)) : Prop :=
  HoldContract session otherOwner others l →
    HoldContract session otherOwner others l' ∧
      (otherOwner = true → session l'.ota = session l.ota)

section Contract

variable {session : O → Option (List UInt8)} {otherOwner : Bool} {others : ℤ}
  {l l' l'' : Link F O (Device F)}

theorem Keeps.refl (l : Link F O (Device F)) : Keeps session otherOwner others l l :=
  fun h => ⟨h, fun _ => rfl⟩

theorem Keeps.trans (h₁ : Keeps session otherOwner others l l')
    (h₂ : Keeps session otherOwner others l' l'') : Keeps session otherOwner others l l'' := by
  intro h
  obtain ⟨h', hsession⟩ := h₁ h
  obtain ⟨h'', hsession'⟩ := h₂ h'
  exact ⟨h'', fun hother => (hsession' hother).trans (hsession hother)⟩

/-- A change of anything but the flags, the counter and the engine. -/
theorem Keeps.of_eq (howner : l'.otaOwner = l.otaOwner) (hholding : l'.holding = l.holding)
    (hota : l'.ota = l.ota) (hcounter : l'.outside.outputHolds = l.outside.outputHolds) :
    Keeps session otherOwner others l l' := by
  intro h
  refine ⟨⟨?_, ?_, ?_, ?_⟩, fun _ => by rw [hota]⟩
  · rw [howner, hholding]; exact h.owner_holding
  · rw [howner]; exact h.exclusive
  · rw [hota, howner]; exact h.session_owned
  · rw [hcounter, hholding]; exact h.counter

theorem Keeps.defer (action : AfterReply) : Keeps session otherOwner others l (l.defer action) :=
  .of_eq rfl rfl rfl rfl

/-- A change of the engine that neither starts nor ends a session. -/
theorem Keeps.of_session {ota : O} (hactive : (session ota).isSome = (session l.ota).isSome)
    (hsession : otherOwner = true → l.otaOwner = false → session ota = session l.ota)
    (activity : Time) :
    Keeps session otherOwner others l { l with ota := ota, otaLastActivity := activity } := by
  intro h
  refine ⟨⟨h.owner_holding, h.exclusive, hactive.trans h.session_owned, h.counter⟩, ?_⟩
  intro hother
  refine hsession hother ?_
  cases howner : l.otaOwner with
  | false => rfl
  | true => exact absurd hother (by simp [h.exclusive howner])

/-- The end of this service's own session. -/
theorem Keeps.endSession {ota : O} (howner : l.otaOwner = true) (hota : session ota = none) :
    Keeps session otherOwner others l { l with ota := ota, otaOwner := false } := by
  intro h
  have hother := h.exclusive howner
  refine ⟨⟨fun hfalse => by simp at hfalse, fun hfalse => by simp at hfalse, ?_, h.counter⟩, ?_⟩
  · simp [hota, hother]
  · intro htrue
    simp [hother] at htrue

/-- A new session, begun while none was active and the hold was up. -/
theorem Keeps.startSession {ota : O} (hholding : l.holding = true) (hfree : session l.ota = none)
    (hota : session ota = some []) (activity : Time) :
    Keeps session otherOwner others l
      { l with ota := ota, otaOwner := true, otaLastActivity := activity } := by
  intro h
  have hother : otherOwner = false := by
    have hnone : l.otaOwner = false ∧ otherOwner = false := by
      simpa [hfree] using h.session_owned.symm
    exact hnone.2
  refine ⟨⟨fun _ => hholding, fun _ => hother, by simp [hota], h.counter⟩, ?_⟩
  intro htrue
  simp [hother] at htrue

variable [MachineFloat F] {errc : ErrcTable} {ota : Bool}

theorem outputHolds_holdOutput (l : Link F O (Device F)) (hold : Bool) :
    (l.holdOutput (calibrationConfig errc ota) hold).outside.outputHolds =
      l.outside.outputHolds - l.holding.toInt + hold.toInt := by
  unfold Link.holdOutput
  by_cases hedge : hold = l.holding
  · rw [if_pos hedge, hedge]
    omega
  · rw [if_neg hedge]
    have hwas : l.holding = !hold := by
      revert hedge
      cases hold <;> cases l.holding <;> simp
    cases hold with
    | false => simp [hwas, calibrationConfig, Device.outputHold]
    | true => simp [hwas, calibrationConfig, Device.outputHold]

/-- The hold goes up, or comes down while this service owns no session. -/
theorem Keeps.holdOutput {hold : Bool} (h : hold = true ∨ l.otaOwner = false) :
    Keeps session otherOwner others l (l.holdOutput (calibrationConfig errc ota) hold) := by
  intro hl
  refine ⟨⟨?_, ?_, ?_, ?_⟩, fun _ => by simp⟩
  · rw [Link.holdOutput_otaOwner, Link.holdOutput_holding]
    rcases h with h | h
    · exact fun _ => h
    · simp [h]
  · rw [Link.holdOutput_otaOwner]; exact hl.exclusive
  · rw [Link.holdOutput_ota, Link.holdOutput_otaOwner]; exact hl.session_owned
  · rw [outputHolds_holdOutput, Link.holdOutput_holding, hl.counter]
    omega

end Contract

/-! ## The locked sections keep the contract -/

section Sections

variable [OtaEngine O] [MachineFloat F] {session : O → Option (List UInt8)}
  {otherOwner : Bool} {others : ℤ} {errc : ErrcTable} {ota : Bool}

/-- `abort(); ota_owner_ = false; hold_output(false)` -/
theorem keeps_abortOwn (hota : LawfulOta session) {l : Link F O (Device F)}
    (howner : l.otaOwner = true) :
    Keeps session otherOwner others l
      (l.abortOwn.holdOutput (calibrationConfig errc ota) false) :=
  (Keeps.endSession howner (hota.aborted l.ota)).trans (.holdOutput (.inr rfl))

theorem keeps_handleOtaAbort (hota : LawfulOta session) (l : Link F O (Device F)) :
    Keeps session otherOwner others l (l.handleOtaAbort (calibrationConfig errc ota)).2 := by
  rw [Link.handleOtaAbort_snd]
  split
  · rename_i h
    exact keeps_abortOwn hota (Bool.and_eq_true_iff.mp h).2
  · exact .refl l

theorem keeps_abortUpdate (hota : LawfulOta session) (l : Link F O (Device F)) :
    Keeps session otherOwner others l (l.abortUpdate (calibrationConfig errc ota)) :=
  keeps_handleOtaAbort hota l

theorem keeps_handleOtaData (hota : LawfulOta session) (l : Link F O (Device F))
    (payload : List UInt8) (now : Time) :
    Keeps session otherOwner others l
      (l.handleOtaData (calibrationConfig errc ota) payload now).2 := by
  rw [Link.handleOtaData_snd]
  split
  · rename_i haccepted
    have howner : l.otaOwner = true := by
      simp only [Link.otaDataAccepted, Bool.and_eq_true] at haccepted
      exact haccepted.1.1.2
    have hok := hota.write_ok (payload.drop 4) l.ota
    have hfailed := hota.write_failed (payload.drop 4) l.ota
    rcases hwrite : write (payload.drop 4) l.ota with ⟨_ | ec, engine⟩
    · rw [hwrite] at hok
      refine .of_session ?_ (fun _ hfalse => absurd hfalse (by simp [howner])) now
      rw [hok rfl, Option.isSome_map]
    · rw [hwrite] at hfailed
      exact (Keeps.endSession howner (hfailed rfl)).trans (.holdOutput (.inr rfl))
  · exact .refl l

theorem keeps_handleOtaFinish (hota : LawfulOta session) (l : Link F O (Device F)) :
    Keeps session otherOwner others l (l.handleOtaFinish (calibrationConfig errc ota)).2 := by
  rw [Link.handleOtaFinish_snd]
  split
  · rename_i h
    have howner := (Bool.and_eq_true_iff.mp h).2
    have hfinished := hota.finished l.ota
    rcases hfinish : finish l.ota with ⟨_ | ec, engine⟩
    · rw [hfinish] at hfinished
      exact ((Keeps.endSession howner hfinished).trans (.holdOutput (.inl rfl))).trans
        (.defer .otaRestart)
    · rw [hfinish] at hfinished
      exact (Keeps.endSession howner hfinished).trans (.holdOutput (.inr rfl))
  · exact .refl l

/-- OTA_BEGIN up to the engine's `begin`: a stale session of this service is
taken down, and the hold is up. -/
theorem keeps_otaBeginHeld (hota : LawfulOta session) (l : Link F O (Device F)) :
    Keeps session otherOwner others l (l.otaBeginHeld (calibrationConfig errc ota)) := by
  unfold Link.otaBeginHeld
  split
  · rename_i howns
    have howner := (Bool.and_eq_true_iff.mp howns).1
    exact (Keeps.endSession howner (hota.aborted l.ota)).trans (.holdOutput (.inl rfl))
  · exact .holdOutput (.inl rfl)

/-- OTA_BEGIN only gives the hold back when this service owns no session. -/
theorem otaBeginHeld_not_owner {l : Link F O (Device F)}
    (hl : HoldContract session otherOwner others l) (hreleases : l.otaBeginReleases = true) :
    (l.otaBeginHeld (calibrationConfig errc ota)).otaOwner = false := by
  rw [Link.otaBeginHeld, Link.holdOutput_otaOwner]
  cases howns : l.ownsSession with
  | true => rfl
  | false =>
      have hholding : l.holding = false := by
        simpa [Link.otaBeginReleases, howns] using hreleases
      cases howner : l.otaOwner with
      | false => exact howner
      | true => simp [hl.owner_holding howner] at hholding

theorem keeps_handleOtaBegin (hota : LawfulOta session) (l : Link F O (Device F))
    (payload : List UInt8) (now : Time) :
    Keeps session otherOwner others l
      (l.handleOtaBegin (calibrationConfig errc ota) payload now).2 := by
  intro hl
  rw [Link.handleOtaBegin_snd]
  split
  · have hheld : Keeps session otherOwner others l
        (l.otaBeginHeld (calibrationConfig errc ota)) := keeps_otaBeginHeld hota l
    refine hheld.trans ?_ hl
    have hnotOwner : l.otaBeginReleases = true →
        (l.otaBeginHeld (calibrationConfig errc ota)).otaOwner = false :=
      otaBeginHeld_not_owner hl
    have hholding : (l.otaBeginHeld (calibrationConfig errc ota)).holding = true :=
      Link.holdOutput_holding ..
    clear hheld
    revert hnotOwner hholding
    generalize l.otaBeginHeld (calibrationConfig errc ota) = held
    intro hnotOwner hholding
    have hactive := hota.begin_active (getU32 payload) held.ota
    have hok := hota.begin_ok (getU32 payload) held.ota
    have hfailed := hota.begin_failed (getU32 payload) held.ota
    rcases hbegin : begin (getU32 payload) held.ota with ⟨_ | ec, engine⟩
    · rw [hbegin] at hactive hok
      have hfree : session held.ota = none := by
        rw [hota.active] at hactive
        simpa using hactive
      exact .startSession hholding hfree (hok rfl) now
    · rw [hbegin] at hfailed
      have hsame := hfailed rfl
      have hkeeps : Keeps session otherOwner others held { held with ota := engine } :=
        .of_session (congrArg Option.isSome hsame) (fun _ _ => hsame) held.otaLastActivity
      simp only
      split
      · rename_i hreleases
        exact hkeeps.trans (.holdOutput (.inr (hnotOwner hreleases)))
      · exact hkeeps
  · exact (Keeps.refl l) hl

theorem keeps_handleRevert (hota : LawfulOta session) (l : Link F O (Device F))
    (payload : List UInt8) :
    Keeps session otherOwner others l
      (l.handleRevert (calibrationConfig errc ota) payload).2 := by
  rw [Link.handleRevert_snd]
  have hstarted : Keeps session otherOwner others l
      (l.revertStarted (calibrationConfig errc ota)) := by
    unfold Link.revertStarted
    split
    · rename_i howns
      exact keeps_abortOwn hota (Bool.and_eq_true_iff.mp howns).1
    · exact .refl l
  split
  · split
    · exact hstarted
    · refine hstarted.trans ?_
      generalize l.revertStarted (calibrationConfig errc ota) = started
      have hsame := hota.setBootOther started.ota
      rcases hboot : setBootOther started.ota with ⟨_ | err, engine⟩
      all_goals
        rw [hboot] at hsame
        have hkeeps : Keeps session otherOwner others started { started with ota := engine } :=
          .of_session (congrArg Option.isSome hsame) (fun _ _ => hsame) started.otaLastActivity
      · exact (hkeeps.trans (.holdOutput (.inl rfl))).trans (.defer .otaRestart)
      · exact hkeeps
  · exact .refl l

theorem keeps_handleMarkValid (hota : LawfulOta session) (l : Link F O (Device F)) :
    Keeps session otherOwner others l (l.handleMarkValid (calibrationConfig errc ota)).2 := by
  rw [Link.handleMarkValid_snd]
  have hsame := hota.markAppValid l.ota
  split
  · exact .of_session (congrArg Option.isSome hsame) (fun _ _ => hsame) l.otaLastActivity
  · exact .refl l

omit [OtaEngine O] in
theorem keeps_handleRestart (l : Link F O (Device F)) (payload : List UInt8) :
    Keeps session otherOwner others l
      (l.handleRestart (calibrationConfig errc ota) payload).2 := by
  rw [Link.handleRestart_snd]
  split
  · exact (Keeps.holdOutput (.inl rfl)).trans (.defer .restart)
  · exact .refl l

omit [OtaEngine O] in
theorem keeps_handleSetInputMode (l : Link F O (Device F)) (payload : List UInt8) :
    Keeps session otherOwner others l
      (l.handleSetInputMode (calibrationConfig errc ota) payload).2 := by
  rw [Link.handleSetInputMode_snd]
  split
  · exact (Keeps.holdOutput (.inl rfl)).trans (.defer _)
  · exact .refl l

theorem keeps_expireStaleUpdate (hota : LawfulOta session) (l : Link F O (Device F))
    (maxIdle now : Time) (locked : Bool) :
    Keeps session otherOwner others l
      (l.expireStaleUpdate (calibrationConfig errc ota) maxIdle now locked).2 := by
  unfold Link.expireStaleUpdate
  split
  · exact .refl l
  · rename_i hguard
    have howner : l.otaOwner = true := by
      revert hguard
      cases l.otaOwner <;> simp
    split
    · rename_i hended
      have hnone : session l.ota = none := by
        rw [hota.active] at hended
        simpa using hended
      dsimp only
      exact (Keeps.endSession howner hnone).trans (.holdOutput (.inr rfl))
    · split
      · exact .refl l
      · dsimp only
        exact keeps_abortOwn hota howner

/-- What runs after a reply only gives the hold back when no upload of this
service runs, which under the contract is when it owns no session. -/
theorem keeps_runAfterReply (hota : LawfulOta session) (l : Link F O (Device F)) (queued : Bool) :
    Keeps session otherOwner others l
      (l.runAfterReply (calibrationConfig errc ota) queued).2 := by
  unfold Link.runAfterReply
  split
  · exact .refl l
  · rename_i action haction
    have htaken : Keeps session otherOwner others l { l with afterReply := none } :=
      .of_eq rfl rfl rfl rfl
    cases queued with
    | true =>
        refine htaken.trans ?_
        cases action with
        | otaRestart | restart => exact .refl _
        | setInputMode mode =>
            simp only [ite_true, Link.setInputMode]
            split <;> exact .of_eq rfl rfl rfl rfl
    | false =>
        intro hl
        refine htaken.trans ?_ hl
        simp only [Bool.false_eq_true, ite_false]
        split
        · exact .refl _
        · rename_i howns
          refine .holdOutput (.inr ?_)
          cases howner : l.otaOwner with
          | false => rfl
          | true =>
              have hactive : sessionActive l.ota = true := by
                rw [hota.active, hl.session_owned, howner, Bool.true_or]
              exact absurd (Bool.and_eq_true_iff.mpr ⟨howner, hactive⟩) howns

variable [FloatBits F]

/-- A request that leaves the service alone leaves the counter alone too. -/
theorem outputHolds_handleRequest {msg : Msg} (hmsg : msg ∈ Link.plainRequests)
    (l : Link F O (Device F)) (payload : List UInt8) (now : Time) :
    (l.handleRequest (calibrationConfig errc ota) msg payload now).2.outside.outputHolds =
      l.outside.outputHolds := by
  simp only [Link.plainRequests, List.mem_cons, List.not_mem_nil, or_false] at hmsg
  rcases hmsg with rfl | rfl | rfl | rfl | rfl | rfl | rfl | rfl | rfl
  all_goals simp only [Link.handleRequest]
  · rfl
  · unfold Link.handleSetManualOffset
    simp only
    split_ifs <;> rfl
  · unfold Link.handleSetDeadzoneOverride
    simp only
    split_ifs <;> rfl
  · unfold Link.handleSetNudgeSettings
    simp only
    split_ifs <;> rfl
  · unfold Link.handleSaveToFlash
    split
    all_goals
      rename_i heq
      exact congrArg Device.outputHolds (congrArg Prod.snd heq).symm
  · unfold Link.handleStartCalibration
    split_ifs
    · rfl
    · simp only [calibrationConfig, Device.startCalibration]
      cases l.outside.recalibrationGate <;> rfl
  · rw [Link.handleGetFwInfo_snd]
  · rfl
  · unfold Link.handleSetNudgeEnabled
    split
    · split_ifs <;> rfl
    · rfl

theorem keeps_plainRequest {msg : Msg} (hmsg : msg ∈ Link.plainRequests)
    (l : Link F O (Device F)) (payload : List UInt8) (now : Time) :
    Keeps session otherOwner others l
      (l.handleRequest (calibrationConfig errc ota) msg payload now).2 := by
  have hsame := l.handleRequest_sameService (calibrationConfig errc ota) hmsg payload now
  exact .of_eq (by rw [hsame.service]) (by rw [hsame.service]) hsame.ota
    (outputHolds_handleRequest hmsg l payload now)

/-- Every request keeps the contract. -/
theorem keeps_handleRequest (hota : LawfulOta session) (l : Link F O (Device F)) (msg : Msg)
    (payload : List UInt8) (now : Time) :
    Keeps session otherOwner others l
      (l.handleRequest (calibrationConfig errc ota) msg payload now).2 := by
  cases msg with
  | otaBegin => exact keeps_handleOtaBegin hota l payload now
  | otaData => exact keeps_handleOtaData hota l payload now
  | otaFinish => exact keeps_handleOtaFinish hota l
  | otaAbort => exact keeps_handleOtaAbort hota l
  | revert => exact keeps_handleRevert hota l payload
  | restart => exact keeps_handleRestart l payload
  | setInputMode => exact keeps_handleSetInputMode l payload
  | markValid => exact keeps_handleMarkValid hota l
  | getState | setManualOffset | setDeadzoneOverride | setNudgeSettings | saveToFlash
  | startCalibration | getFwInfo | getDiagnostics | setNudgeEnabled =>
      exact keeps_plainRequest (by decide) l payload now
  | state | calibrationResult | fwInfo | diagnostics | ok | error => exact .refl l

theorem keeps_handleFrameLocked (hota : LawfulOta session) (l : Link F O (Device F)) (type : UInt8)
    (payload : List UInt8) (now : Time) :
    Keeps session otherOwner others l
      (l.handleFrameLocked (calibrationConfig errc ota) type payload now).2 := by
  unfold Link.handleFrameLocked
  split
  · exact keeps_handleRequest hota l _ payload now
  · exact .refl l

end Sections

end OmegaStick
