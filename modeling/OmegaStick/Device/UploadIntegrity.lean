import OmegaStick.Service.AllOrNothing
import OmegaStick.Device.SharedHold

/-!
# What an upload consists of

`Uploading` keeps, beside the two services, the chunks each link had accepted since its
last accepted OTA_BEGIN: those of the OTA_DATA requests answered OK.  While a service
owns the engine's session the session's bytes are the data of its link's chunks, which
follow each other from offset 0 (`Uploading.Assembled`); so what the engine finishes
when OTA_FINISH is answered OK is exactly what was accepted (`upload_integrity`).

A step that is not an accepted OTA_BEGIN or OTA_DATA of the link either ends its session
or leaves it alone (`KeepsUpload`).
-/

namespace OmegaStick

open OtaEngine TransitionSystem

variable {F O : Type*}

/-! ## Chunks -/

/-- One OTA_DATA request. -/
structure Chunk where
  offset : UInt32
  data : List UInt8
  deriving DecidableEq, Repr

/-- The bytes the chunks carry, in order. -/
def assemble (chunks : List Chunk) : List UInt8 := chunks.flatMap Chunk.data

/-- Each chunk starts where the one before it ends, the first one at `offset`. -/
def Contiguous : ℕ → List Chunk → Prop
  | _, [] => True
  | offset, chunk :: rest =>
      chunk.offset.toNat = offset ∧ Contiguous (offset + chunk.data.length) rest

@[simp] theorem assemble_append (chunks : List Chunk) (chunk : Chunk) :
    assemble (chunks ++ [chunk]) = assemble chunks ++ chunk.data := by
  simp [assemble]

theorem contiguous_append {offset : ℕ} {chunks : List Chunk} {chunk : Chunk} :
    Contiguous offset (chunks ++ [chunk]) ↔
      Contiguous offset chunks ∧ chunk.offset.toNat = offset + (assemble chunks).length := by
  induction chunks generalizing offset with
  | nil => simp [Contiguous, assemble]
  | cons first rest ih =>
      simp only [List.cons_append, Contiguous, ih, assemble, List.flatMap_cons, List.length_append,
        Nat.add_assoc]
      exact and_assoc.symm

/-! ## The engine -/

/-- `bytes_written` is the total of the session's bytes. -/
structure CountingOta [OtaEngine O] (session : O → Option (List UInt8)) : Prop extends
    LawfulOta session where
  bytesWritten : ∀ o received, session o = some received → bytesWritten o = received.length

theorem not_answeredOk_of_error {reply : Frame} (h : reply.type = Msg.error.code) :
    ¬ AnsweredOk (some reply) := by
  rintro ⟨frame, hframe, hok⟩
  obtain rfl := Option.some.inj hframe
  exact absurd (h.symm.trans hok) (by decide)

/-! ## What one service does to its upload -/

/-- The service's upload is as it was, or over. -/
def KeepsUpload (session : O → Option (List UInt8)) (l l' : Link F O (Device F)) : Prop :=
  l'.otaOwner = true → l.otaOwner = true ∧ session l'.ota = session l.ota

section Sections

variable {session : O → Option (List UInt8)} {l l' : Link F O (Device F)} {errc : ErrcTable}
  {ota : Bool}

theorem KeepsUpload.refl (l : Link F O (Device F)) : KeepsUpload session l l :=
  fun howner => ⟨howner, rfl⟩

theorem KeepsUpload.of_not_owner (h : l'.otaOwner = false) : KeepsUpload session l l' :=
  fun howner => Bool.noConfusion (howner.symm.trans h)

theorem KeepsUpload.trans {l'' : Link F O (Device F)} (h₁ : KeepsUpload session l l')
    (h₂ : KeepsUpload session l' l'') : KeepsUpload session l l'' := by
  intro howner
  obtain ⟨howner', hsession'⟩ := h₂ howner
  obtain ⟨howner'', hsession''⟩ := h₁ howner'
  exact ⟨howner'', hsession'.trans hsession''⟩

/-- A change of anything but the owner flag and the session. -/
theorem KeepsUpload.of_eq (howner : l'.otaOwner = l.otaOwner)
    (hsession : session l'.ota = session l.ota) : KeepsUpload session l l' :=
  fun h => ⟨howner.symm.trans h, hsession⟩

variable [MachineFloat F] [OtaEngine O]

/-- What OTA_DATA is answered: a refusal that changes nothing, a failed write that ends
the session, or OK with the total so far. -/
inductive DataAnswer (l : Link F O (Device F)) (payload : List UInt8) (now : Time) :
    Frame × Link F O (Device F) → Prop
  | refused (reply : Frame) (htype : reply.type = Msg.error.code) :
      DataAnswer l payload now (reply, l)
  | failed (reply : Frame) (htype : reply.type = Msg.error.code) (l' : Link F O (Device F))
      (hended : l'.otaOwner = false) : DataAnswer l payload now (reply, l')
  | accepted (howner : l.otaOwner = true)
      (hoffset : (getU32 payload).toNat = bytesWritten l.ota) (engine : O)
      (hwrite : write (payload.drop 4) l.ota = (none, engine)) :
      DataAnswer l payload now
        (buildOk kModule (UInt32.ofNat (bytesWritten engine)),
          { l with ota := engine, otaLastActivity := now })

theorem handleOtaData_answer (l : Link F O (Device F)) (payload : List UInt8) (now : Time) :
    DataAnswer l payload now (l.handleOtaData (calibrationConfig errc ota) payload now) := by
  unfold Link.handleOtaData
  split
  · exact .refused _ rfl
  · rename_i howned
    simp only [Bool.or_eq_true, Bool.not_eq_true', not_or, Bool.not_eq_false] at howned
    split
    · exact .refused _ rfl
    · split
      · exact .refused _ rfl
      · rename_i hoffset
        split
        · exact .failed _ rfl _ (Link.holdOutput_otaOwner ..)
        · rename_i engine hwrite
          exact .accepted howned.2 (not_not.mp hoffset) engine hwrite

/-- Without a session of its own, with no data, or with another offset than the engine's
count, OTA_DATA is refused. -/
theorem handleOtaData_refused {l : Link F O (Device F)} {payload : List UInt8} (now : Time)
    (h : l.otaOwner = false ∨ payload.length ≤ 4 ∨
      (getU32 payload).toNat ≠ bytesWritten l.ota) :
    ∃ reply : Frame, reply.type = Msg.error.code ∧
      l.handleOtaData (calibrationConfig errc ota) payload now = (reply, l) := by
  unfold Link.handleOtaData
  split
  · exact ⟨_, rfl, rfl⟩
  · rename_i howned
    simp only [Bool.or_eq_true, Bool.not_eq_true', not_or, Bool.not_eq_false] at howned
    split
    · exact ⟨_, rfl, rfl⟩
    · rename_i hlength
      split
      · exact ⟨_, rfl, rfl⟩
      · rename_i hoffset
        rcases h with hnotOwner | hshort | hother
        · exact Bool.noConfusion (howned.2.symm.trans hnotOwner)
        · exact absurd hshort hlength
        · exact absurd hother hoffset

/-- What OTA_BEGIN is answered, by a service that owns the session if it runs one. -/
inductive BeginAnswer (session : O → Option (List UInt8)) (l : Link F O (Device F)) :
    Frame × Link F O (Device F) → Prop
  | refused (reply : Frame) (htype : reply.type = Msg.error.code) (l' : Link F O (Device F))
      (hkept : KeepsUpload session l l') : BeginAnswer session l (reply, l')
  | started (reply : Frame) (htype : reply.type = Msg.ok.code) (l' : Link F O (Device F))
      (hempty : session l'.ota = some []) : BeginAnswer session l (reply, l')

theorem handleOtaBegin_answer (hota : LawfulOta session) {l : Link F O (Device F)}
    (hactive : l.otaOwner = true → sessionActive l.ota = true) (payload : List UInt8) (now : Time) :
    BeginAnswer session l (l.handleOtaBegin (calibrationConfig errc ota) payload now) := by
  unfold Link.handleOtaBegin
  split
  · exact .refused _ rfl _ (.refl l)
  · split
    · exact .refused _ rfl _ (.refl l)
    · split
      · exact .refused _ rfl _ (.refl l)
      · -- a session of its own was aborted, so it owns none before `begin`
        have hnotOwner : (if l.ownsSession then l.abortOwn else l).otaOwner = false := by
          cases howner : l.otaOwner with
          | false => split <;> first | rfl | exact howner
          | true => rw [if_pos (by simp [Link.ownsSession, howner, hactive howner])]; rfl
        dsimp only
        revert hnotOwner
        generalize (if l.ownsSession then l.abortOwn else l) = cleared
        intro hnotOwner
        split
        · refine .refused _ rfl _ (.of_not_owner ?_)
          split
          · rw [Link.holdOutput_otaOwner]
            exact (Link.holdOutput_otaOwner ..).trans hnotOwner
          · exact (Link.holdOutput_otaOwner ..).trans hnotOwner
        · rename_i engine hbegin
          have hempty := hota.begin_ok (getU32 payload)
            (cleared.holdOutput (calibrationConfig errc ota) true).ota
          rw [hbegin] at hempty
          exact .started _ rfl _ (hempty rfl)

omit [OtaEngine O] in
theorem keepsUpload_holdOutput (l : Link F O (Device F)) (hold : Bool) :
    KeepsUpload session l (l.holdOutput (calibrationConfig errc ota) hold) :=
  .of_eq (Link.holdOutput_otaOwner ..) (congrArg session (Link.holdOutput_ota ..))

/-- OTA_FINISH is answered OK to the owner of the session only, and only when the
engine has finished that session. -/
theorem finished_of_handleOtaFinish {l : Link F O (Device F)}
    (hok : AnsweredOk (some (l.handleOtaFinish (calibrationConfig errc ota)).1)) :
    l.otaOwner = true ∧
      finish l.ota = (none, (l.handleOtaFinish (calibrationConfig errc ota)).2.ota) := by
  revert hok
  unfold Link.handleOtaFinish
  split
  · exact fun hok => absurd hok (not_answeredOk_of_error rfl)
  · rename_i howned
    simp only [Bool.or_eq_true, Bool.not_eq_true', not_or, Bool.not_eq_false] at howned
    rcases hfinish : finish l.ota with ⟨_ | ec, engine⟩
    · refine fun _ => ⟨howned.2, ?_⟩
      simp only [Link.succeed, Link.defer, Link.holdOutput_ota]
    · exact fun hok => absurd hok (not_answeredOk_of_error rfl)

theorem keepsUpload_handleOtaFinish (l : Link F O (Device F)) :
    KeepsUpload session l (l.handleOtaFinish (calibrationConfig errc ota)).2 := by
  rw [Link.handleOtaFinish_snd]
  split
  · split
    · exact .of_not_owner (Link.holdOutput_otaOwner ..)
    · exact .of_not_owner (Link.holdOutput_otaOwner ..)
  · exact .refl l

theorem keepsUpload_abortUpdate (l : Link F O (Device F)) :
    KeepsUpload session l (l.abortUpdate (calibrationConfig errc ota)) := by
  unfold Link.abortUpdate
  split
  · exact .of_not_owner (Link.holdOutput_otaOwner ..)
  · exact .refl l

theorem keepsUpload_handleRevert (hota : LawfulOta session) (l : Link F O (Device F))
    (payload : List UInt8) :
    KeepsUpload session l (l.handleRevert (calibrationConfig errc ota) payload).2 := by
  have hstarted : KeepsUpload session l (l.revertStarted (calibrationConfig errc ota)) := by
    unfold Link.revertStarted
    split
    · exact .of_not_owner (Link.holdOutput_otaOwner ..)
    · exact .refl l
  rw [Link.handleRevert_snd]
  split
  · split
    · exact hstarted
    · refine hstarted.trans ?_
      generalize l.revertStarted (calibrationConfig errc ota) = started
      have hsame := hota.setBootOther started.ota
      rcases hboot : setBootOther started.ota with ⟨_ | err, engine⟩
      all_goals
        rw [hboot] at hsame
        have hkept : KeepsUpload session started { started with ota := engine } := .of_eq rfl hsame
      · exact hkept.trans (keepsUpload_holdOutput _ true)
      · exact hkept
  · exact .refl l

theorem keepsUpload_handleMarkValid (hota : LawfulOta session) (l : Link F O (Device F)) :
    KeepsUpload session l (l.handleMarkValid (calibrationConfig errc ota)).2 := by
  rw [Link.handleMarkValid_snd]
  split
  · exact .of_eq rfl (hota.markAppValid l.ota)
  · exact .refl l

omit [OtaEngine O] in
theorem keepsUpload_handleRestart (l : Link F O (Device F)) (payload : List UInt8) :
    KeepsUpload session l (l.handleRestart (calibrationConfig errc ota) payload).2 := by
  rw [Link.handleRestart_snd]
  split
  · exact keepsUpload_holdOutput l true
  · exact .refl l

omit [OtaEngine O] in
theorem keepsUpload_handleSetInputMode (l : Link F O (Device F)) (payload : List UInt8) :
    KeepsUpload session l (l.handleSetInputMode (calibrationConfig errc ota) payload).2 := by
  rw [Link.handleSetInputMode_snd]
  split
  · exact keepsUpload_holdOutput l true
  · exact .refl l

theorem keepsUpload_runAfterReply (l : Link F O (Device F)) (queued : Bool) :
    KeepsUpload session l (l.runAfterReply (calibrationConfig errc ota) queued).2 := by
  unfold Link.runAfterReply
  split
  · exact .refl l
  · rename_i action haction
    cases queued with
    | true =>
        cases action with
        | otaRestart | restart => exact .of_eq rfl rfl
        | setInputMode mode =>
            simp only [ite_true, Link.setInputMode]
            split <;> exact .of_eq rfl rfl
    | false =>
        simp only [Bool.false_eq_true, ite_false]
        split
        · exact .of_eq rfl rfl
        · exact .of_eq (Link.holdOutput_otaOwner ..) (congrArg session (Link.holdOutput_ota ..))

theorem keepsUpload_expireStaleUpdate (l : Link F O (Device F)) (maxIdle now : Time)
    (locked : Bool) :
    KeepsUpload session l
      (l.expireStaleUpdate (calibrationConfig errc ota) maxIdle now locked).2 := by
  unfold Link.expireStaleUpdate
  split_ifs
  · exact .refl l
  · exact .of_not_owner (Link.holdOutput_otaOwner ..)
  · exact .refl l
  · exact .of_not_owner (Link.holdOutput_otaOwner ..)

variable [FloatBits F]

theorem keepsUpload_plainRequest {msg : Msg} (hmsg : msg ∈ Link.plainRequests)
    (l : Link F O (Device F)) (payload : List UInt8) (now : Time) :
    KeepsUpload session l
      (l.handleRequest (calibrationConfig errc ota) msg payload now).2 := by
  have hsame := l.handleRequest_sameService (calibrationConfig errc ota) hmsg payload now
  exact .of_eq (by rw [hsame.service]) (by rw [hsame.ota])

/-- Only OTA_BEGIN and OTA_DATA start or move an upload. -/
theorem keepsUpload_handleRequest (hota : LawfulOta session) {msg : Msg} (hbegin : msg ≠ .otaBegin)
    (hdata : msg ≠ .otaData) (l : Link F O (Device F)) (payload : List UInt8) (now : Time) :
    KeepsUpload session l
      (l.handleRequest (calibrationConfig errc ota) msg payload now).2 := by
  cases msg with
  | otaBegin => exact absurd rfl hbegin
  | otaData => exact absurd rfl hdata
  | otaFinish => exact keepsUpload_handleOtaFinish l
  | otaAbort => exact keepsUpload_abortUpdate l
  | revert => exact keepsUpload_handleRevert hota l payload
  | markValid => exact keepsUpload_handleMarkValid hota l
  | restart => exact keepsUpload_handleRestart l payload
  | setInputMode => exact keepsUpload_handleSetInputMode l payload
  | getState | setManualOffset | setDeadzoneOverride | setNudgeSettings | saveToFlash
  | startCalibration | getFwInfo | getDiagnostics | setNudgeEnabled =>
      exact keepsUpload_plainRequest (by decide) l payload now
  | state | calibrationResult | fwInfo | diagnostics | ok | error => exact .refl l

end Sections

/-! ## The chunks a link had accepted -/

/-- The chunks accepted since the last accepted OTA_BEGIN, after a request and its reply. -/
def noteReply (reply : Option Frame) (type : UInt8) (payload : List UInt8) (chunks : List Chunk) :
    List Chunk :=
  if AnsweredOk reply then
    if type = Msg.otaBegin.code then []
    else if type = Msg.otaData.code then chunks ++ [⟨getU32 payload, payload.drop 4⟩]
    else chunks
  else chunks

theorem noteReply_of_not_ok {reply : Option Frame} (h : ¬ AnsweredOk reply) (type : UInt8)
    (payload : List UInt8) (chunks : List Chunk) :
    noteReply reply type payload chunks = chunks := by
  rw [noteReply, if_neg h]

theorem noteReply_of_other {type : UInt8} (hbegin : type ≠ Msg.otaBegin.code)
    (hdata : type ≠ Msg.otaData.code) (reply : Option Frame) (payload : List UInt8)
    (chunks : List Chunk) : noteReply reply type payload chunks = chunks := by
  rw [noteReply, if_neg hbegin, if_neg hdata, ite_self]

/-- The chunks are what the engine's session received. -/
def Receives (session : O → Option (List UInt8)) (l : Link F O (Device F)) (chunks : List Chunk) :
    Prop :=
  l.otaOwner = true → session l.ota = some (assemble chunks) ∧ Contiguous 0 chunks

section Receives

variable {session : O → Option (List UInt8)} {l l' : Link F O (Device F)} {errc : ErrcTable}
  {ota : Bool} {chunks : List Chunk}

theorem Receives.of_keepsUpload (h : Receives session l chunks) (hkept : KeepsUpload session l l') :
    Receives session l' chunks := by
  intro howner
  obtain ⟨hbefore, hsession⟩ := hkept howner
  rw [hsession]
  exact h hbefore

variable [MachineFloat F] [OtaEngine O]

theorem Receives.handleOtaBegin (hota : LawfulOta session) (h : Receives session l chunks)
    (hactive : l.otaOwner = true → sessionActive l.ota = true) (payload : List UInt8) (now : Time) :
    Receives session (l.handleOtaBegin (calibrationConfig errc ota) payload now).2
      (noteReply (some (l.handleOtaBegin (calibrationConfig errc ota) payload now).1)
        Msg.otaBegin.code payload chunks) := by
  have hanswer : BeginAnswer session l
      (l.handleOtaBegin (calibrationConfig errc ota) payload now) :=
    handleOtaBegin_answer hota hactive payload now
  revert hanswer
  generalize l.handleOtaBegin (calibrationConfig errc ota) payload now = answer
  intro hanswer
  cases hanswer with
  | refused reply htype l' hkept =>
      rw [noteReply_of_not_ok (not_answeredOk_of_error htype)]
      exact h.of_keepsUpload hkept
  | started reply htype l' hempty =>
      have hok : AnsweredOk (some reply) := ⟨reply, rfl, htype⟩
      rw [noteReply, if_pos hok, if_pos rfl]
      exact fun _ => ⟨hempty, trivial⟩

omit [MachineFloat F] in
/-- The chunk an OTA_DATA answered OK carries goes to the end of the session. -/
theorem Receives.write (hota : CountingOta session) (h : Receives session l chunks)
    (howner : l.otaOwner = true) {payload : List UInt8}
    (hoffset : (getU32 payload).toNat = bytesWritten l.ota) {engine : O}
    (hwrite : write (payload.drop 4) l.ota = (none, engine)) :
    session engine = some (assemble (chunks ++ [⟨getU32 payload, payload.drop 4⟩])) ∧
      Contiguous 0 (chunks ++ [⟨getU32 payload, payload.drop 4⟩]) := by
  obtain ⟨hsession, hcontiguous⟩ := h howner
  have hwritten := hota.write_ok (payload.drop 4) l.ota
  rw [hwrite, hsession] at hwritten
  refine ⟨?_, contiguous_append.mpr ⟨hcontiguous, ?_⟩⟩
  · rw [assemble_append]
    exact hwritten rfl
  · rw [hoffset, hota.bytesWritten l.ota _ hsession, Nat.zero_add]

theorem Receives.handleOtaData (hota : CountingOta session) (h : Receives session l chunks)
    (payload : List UInt8) (now : Time) :
    Receives session (l.handleOtaData (calibrationConfig errc ota) payload now).2
      (noteReply (some (l.handleOtaData (calibrationConfig errc ota) payload now).1)
        Msg.otaData.code payload chunks) := by
  have hanswer : DataAnswer l payload now
      (l.handleOtaData (calibrationConfig errc ota) payload now) :=
    handleOtaData_answer l payload now
  revert hanswer
  generalize l.handleOtaData (calibrationConfig errc ota) payload now = answer
  intro hanswer
  cases hanswer with
  | refused reply htype =>
      rw [noteReply_of_not_ok (not_answeredOk_of_error htype)]
      exact h
  | failed reply htype l' hended =>
      -- a failed write ends the session, so that nothing is owned any more
      rw [noteReply_of_not_ok (not_answeredOk_of_error htype)]
      exact h.of_keepsUpload (.of_not_owner hended)
  | accepted howner hoffset engine hwrite =>
      have hok : AnsweredOk (some (buildOk kModule (UInt32.ofNat (bytesWritten engine)))) :=
        ⟨_, rfl, rfl⟩
      rw [noteReply, if_pos hok, if_neg (by decide), if_pos rfl]
      exact fun _ => h.write hota howner hoffset hwrite

variable [FloatBits F]

theorem Receives.handleFrameLocked (hota : CountingOta session) (h : Receives session l chunks)
    (type : UInt8) (payload : List UInt8) (now : Time) :
    Receives session (l.handleFrameLocked (calibrationConfig errc ota) type payload now).2
      (noteReply (l.replyTo (calibrationConfig errc ota) type payload now) type payload
        chunks) := by
  have hactive : l.otaOwner = true → sessionActive l.ota = true := fun howner => by
    rw [hota.active, (h howner).1]
    rfl
  unfold Link.replyTo
  cases hcode : Msg.ofCode type with
  | none =>
      have hignored : l.handleFrameLocked (calibrationConfig errc ota) type payload now =
          (none, l) := by
        unfold Link.handleFrameLocked
        rw [hcode]
      rw [hignored, noteReply_of_not_ok (by rintro ⟨frame, hframe, -⟩; cases hframe)]
      exact h
  | some msg =>
      obtain rfl := Msg.code_of_ofCode hcode
      rw [Link.handleFrameLocked_of_ofCode (calibrationConfig errc ota) hcode]
      -- only two of the requests touch the chunks; the others keep the upload
      by_cases hbegin : msg = .otaBegin
      · subst hbegin
        exact h.handleOtaBegin hota.toLawfulOta hactive payload now
      by_cases hdata : msg = .otaData
      · subst hdata
        exact h.handleOtaData hota payload now
      have hname : ∀ msg', msg' ∈ Msg.requests → msg.code = msg'.code → msg' = msg :=
        fun msg' hmsg' hsame => Link.eq_of_ofCode hcode hmsg' hsame
      rw [noteReply_of_other (fun hsame => hbegin (hname _ (by decide) hsame).symm)
        fun hsame => hdata (hname _ (by decide) hsame).symm]
      exact h.of_keepsUpload
        (keepsUpload_handleRequest hota.toLawfulOta hbegin hdata l payload now)

end Receives

/-! ## Every interleaving -/

/-- Both services, and the chunks each link had accepted since its last accepted OTA_BEGIN. -/
structure Uploading (F O : Type*) where
  services : TwoServices F O
  accepted : LinkId → List Chunk

section Runs

variable [MachineFloat F] [FloatBits F] [OtaEngine O] (errc : ErrcTable) (ota : Bool)

namespace Uploading

/-- The reply to a frame on a link. -/
def reply (s : Uploading F O) (id : LinkId) (type : UInt8) (payload : List UInt8) (now : Time) :
    Option Frame :=
  (s.services.link id).replyTo (calibrationConfig errc ota) type payload now

/-- The chunks after a step. -/
def acceptedAfter (s : Uploading F O) : TwoServicesStep F → LinkId → List Chunk
  | .handleFrame id type payload now, i =>
      if i = id then noteReply (s.reply errc ota id type payload now) type payload (s.accepted id)
      else s.accepted i
  | _, i => s.accepted i

def next (s : Uploading F O) (step : TwoServicesStep F) : Option (Uploading F O) :=
  (s.services.next errc ota step).map fun services => ⟨services, s.acceptedAfter errc ota step⟩

/-- What an owned session received is what its link had accepted. -/
structure Assembled (session : O → Option (List UInt8)) (s : Uploading F O) : Prop where
  shared : SharedHold session s.services
  received : ∀ id, Receives session (s.services.link id) (s.accepted id)

end Uploading

/-- Fresh services, and nothing accepted. -/
def uploading : TransitionSystem (Uploading F O) (TwoServicesStep F) :=
  .ofOption
    (fun s => (twoServices errc ota).init s.services ∧ ∀ id, s.accepted id = [])
    (Uploading.next errc ota)

variable {errc ota} {session : O → Option (List UInt8)}

omit [MachineFloat F] [FloatBits F] [OtaEngine O] in
/-- A step of one service keeps what the other one's session received. -/
theorem Uploading.Assembled.withLink {s : Uploading F O} (h : s.Assembled session)
    {id : LinkId} {l : Link F O (Device F)} {accepted : LinkId → List Chunk}
    (hshared : SharedHold session (s.services.withLink id l))
    (hsession : (s.services.services id.other).otaOwner = true →
      session l.ota = session s.services.shared.ota)
    (hself : Receives session l (accepted id))
    (hother : accepted id.other = s.accepted id.other) :
    Uploading.Assembled session ⟨s.services.withLink id l, accepted⟩ := by
  have hlink : (s.services.withLink id l).link id = l := by simp [TwoServices.link]
  have hkept : Receives session ((s.services.withLink id l).link id.other) (accepted id.other) := by
    intro howner
    have hbefore : (s.services.services id.other).otaOwner = true := by
      simpa [TwoServices.link] using howner
    rw [hother]
    have hreceived := h.received id.other hbefore
    rw [show ((s.services.withLink id l).link id.other).ota = l.ota from rfl, hsession hbefore]
    exact hreceived
  refine ⟨hshared, fun i => ?_⟩
  rcases LinkId.eq_or_eq_other i id with rfl | rfl
  · show Receives session ((s.services.withLink i l).link i) (accepted i)
    rw [hlink]
    exact hself
  · exact hkept

theorem Uploading.Assembled.next (hota : CountingOta session) {s t : Uploading F O}
    (h : s.Assembled session) {step : TwoServicesStep F} (ht : s.next errc ota step = some t) :
    t.Assembled session := by
  simp only [Uploading.next, Option.map_eq_some_iff] at ht
  obtain ⟨services, hservices, rfl⟩ := ht
  obtain ⟨hshared, hothers⟩ := h.shared.next hota.toLawfulOta hservices
  cases step with
  | handleFrame id type payload now =>
      obtain rfl := Option.some.inj hservices
      refine h.withLink hshared (fun howner => (hothers id rfl howner).2) ?_ ?_
      · simp only [Uploading.acceptedAfter, if_pos]
        exact (h.received id).handleFrameLocked hota type payload now
      · simp only [Uploading.acceptedAfter, if_neg id.other_ne]
  | runAfterReply id queued =>
      obtain rfl := Option.some.inj hservices
      exact h.withLink hshared (fun howner => (hothers id rfl howner).2)
        ((h.received id).of_keepsUpload (keepsUpload_runAfterReply _ queued)) rfl
  | abortUpdate id =>
      obtain rfl := Option.some.inj hservices
      exact h.withLink hshared (fun howner => (hothers id rfl howner).2)
        ((h.received id).of_keepsUpload (keepsUpload_abortUpdate _)) rfl
  | expireStaleUpdate id maxIdle now locked =>
      obtain rfl := Option.some.inj hservices
      exact h.withLink hshared (fun howner => (hothers id rfl howner).2)
        ((h.received id).of_keepsUpload (keepsUpload_expireStaleUpdate _ maxIdle now locked)) rfl
  | healthCheck now =>
      simp only [TwoServices.next, Option.map_eq_some_iff] at hservices
      obtain ⟨⟨health, engine, outputHolds⟩, hrun, rfl⟩ := hservices
      -- the image the health check rejects is the running one, not the uploaded one
      have hsession : session engine = session s.services.shared.ota := by
        rcases (FirmwareHealthCheck.run_some hrun).2 with rfl | ⟨hfailed, rfl⟩
        · rfl
        · exact hota.markAppInvalid _ hfailed
      exact ⟨hshared, fun id => (h.received id).of_keepsUpload (.of_eq rfl hsession)⟩
  | others store device =>
      obtain rfl := Option.some.inj hservices
      exact ⟨hshared, fun id => (h.received id).of_keepsUpload (.of_eq rfl rfl)⟩

theorem assembled_of_reachable (hota : CountingOta session) {s : Uploading F O}
    (hs : (uploading errc ota).Reachable s) : s.Assembled session := by
  refine Reachable.invariant (I := Uploading.Assembled session) ?_ ?_ hs
  · rintro s ⟨hinit, -⟩
    refine ⟨(sharedHold_of_reachable hota.toLawfulOta (.init hinit)).1, fun id howner => ?_⟩
    have hfresh : (s.services.services id).otaOwner = false := by rw [hinit.1 id]; rfl
    exact Bool.noConfusion (howner.symm.trans hfresh)
  · intro s step t h ht
    exact h.next hota ht

/-- A request's reply is its handler's answer. -/
theorem Uploading.reply_of_request (s : Uploading F O) (id : LinkId) {msg : Msg}
    (hmsg : msg ∈ Msg.requests) (payload : List UInt8) (now : Time) :
    s.reply errc ota id msg.code payload now =
      ((s.services.link id).handleRequest (calibrationConfig errc ota) msg payload now).1 :=
  congrArg Prod.fst (Link.handleFrameLocked_of_ofCode (calibrationConfig errc ota)
    (Msg.ofCode_code hmsg) _ payload now)

theorem handleFrameLocked_otaData (l : Link F O (Device F)) (payload : List UInt8) (now : Time) :
    l.handleFrameLocked (calibrationConfig errc ota) Msg.otaData.code payload now =
      (some (l.handleOtaData (calibrationConfig errc ota) payload now).1,
        (l.handleOtaData (calibrationConfig errc ota) payload now).2) :=
  Link.handleFrameLocked_of_ofCode (calibrationConfig errc ota) (Msg.ofCode_code (by decide)) l
    payload now

/-- An OTA_FINISH answered OK has finished the session of its link's chunks. -/
theorem Uploading.Assembled.otaFinish_ok {s : Uploading F O} (h : s.Assembled session)
    (id : LinkId) (payload : List UInt8) (now : Time)
    (hok : AnsweredOk (s.reply errc ota id Msg.otaFinish.code payload now)) :
    ∃ t, s.next errc ota (.handleFrame id Msg.otaFinish.code payload now) = some t ∧
      finish s.services.shared.ota = (none, t.services.shared.ota) ∧
      session s.services.shared.ota = some (assemble (s.accepted id)) ∧
      Contiguous 0 (s.accepted id) := by
  have hrequest : (s.services.link id).handleFrameLocked (calibrationConfig errc ota)
      Msg.otaFinish.code payload now =
        (some ((s.services.link id).handleOtaFinish (calibrationConfig errc ota)).1,
          ((s.services.link id).handleOtaFinish (calibrationConfig errc ota)).2) :=
    Link.handleFrameLocked_of_ofCode (calibrationConfig errc ota) (Msg.ofCode_code (by decide)) _
      payload now
  rw [s.reply_of_request id (by decide)] at hok
  obtain ⟨howner, hfinish⟩ := finished_of_handleOtaFinish hok
  refine ⟨_, rfl, ?_, h.received id howner⟩
  simp only [hrequest]
  exact hfinish

/-- An OTA_DATA answered OK adds its data, and reports the total. -/
theorem Uploading.Assembled.otaData_ok (hota : CountingOta session) {s : Uploading F O}
    (h : s.Assembled session) (id : LinkId) (payload : List UInt8) (now : Time)
    (hok : AnsweredOk (s.reply errc ota id Msg.otaData.code payload now)) :
    ∃ t, s.next errc ota (.handleFrame id Msg.otaData.code payload now) = some t ∧
      t.accepted id = s.accepted id ++ [⟨getU32 payload, payload.drop 4⟩] ∧
      session t.services.shared.ota = some (assemble (t.accepted id)) ∧
      s.reply errc ota id Msg.otaData.code payload now =
        some (buildOk kModule (UInt32.ofNat (assemble (t.accepted id)).length)) := by
  have hdata : (s.services.link id).handleFrameLocked (calibrationConfig errc ota) Msg.otaData.code
      payload now = _ := handleFrameLocked_otaData (s.services.link id) payload now
  have hanswer : DataAnswer (s.services.link id) payload now
      ((s.services.link id).handleOtaData (calibrationConfig errc ota) payload now) :=
    handleOtaData_answer _ payload now
  have hreplied : s.reply errc ota id Msg.otaData.code payload now =
      some ((s.services.link id).handleOtaData (calibrationConfig errc ota) payload now).1 :=
    congrArg Prod.fst hdata
  refine ⟨_, rfl, ?_⟩
  simp only [Uploading.acceptedAfter, if_pos, hreplied, hdata] at hok ⊢
  revert hanswer hok
  generalize (s.services.link id).handleOtaData (calibrationConfig errc ota) payload now = answer
  intro hanswer hok
  cases hanswer with
  | refused reply htype => exact absurd hok (not_answeredOk_of_error htype)
  | failed reply htype => exact absurd hok (not_answeredOk_of_error htype)
  | accepted howner hoffset engine hwrite =>
      obtain ⟨hsession, hcontiguous⟩ := (h.received id).write hota howner hoffset hwrite
      have hnoted : noteReply (some (buildOk kModule (UInt32.ofNat (bytesWritten engine))))
          Msg.otaData.code payload (s.accepted id) =
            s.accepted id ++ [⟨getU32 payload, payload.drop 4⟩] := by
        rw [noteReply, if_pos hok, if_neg (by decide), if_pos rfl]
      rw [hnoted]
      refine ⟨rfl, hsession, ?_⟩
      rw [hota.bytesWritten engine _ hsession]

/-- An OTA_DATA that is not the owner's, too short or at another offset changes nothing. -/
theorem Uploading.otaData_refused {s : Uploading F O} {id : LinkId}
    {payload : List UInt8} (now : Time)
    (hbad : (s.services.services id).otaOwner = false ∨ payload.length ≤ 4 ∨
      (getU32 payload).toNat ≠ bytesWritten s.services.shared.ota) :
    (∃ frame : Frame, frame.type = Msg.error.code ∧
      s.reply errc ota id Msg.otaData.code payload now = some frame) ∧
    s.next errc ota (.handleFrame id Msg.otaData.code payload now) = some s := by
  have hdata : (s.services.link id).handleFrameLocked (calibrationConfig errc ota) Msg.otaData.code
      payload now = _ := handleFrameLocked_otaData (s.services.link id) payload now
  obtain ⟨frame, htype, hrefused⟩ : ∃ reply : Frame, reply.type = Msg.error.code ∧
      (s.services.link id).handleOtaData (calibrationConfig errc ota) payload now =
        (reply, s.services.link id) := handleOtaData_refused now hbad
  rw [hrefused] at hdata
  have hreplied : s.reply errc ota id Msg.otaData.code payload now = some frame :=
    congrArg Prod.fst hdata
  refine ⟨⟨frame, htype, hreplied⟩, ?_⟩
  have hservices : s.services.withLink id (s.services.link id) = s.services :=
    s.services.withLink_link id
  have haccepted : s.acceptedAfter errc ota (.handleFrame id Msg.otaData.code payload now) =
      s.accepted := by
    funext i
    simp only [Uploading.acceptedAfter, hreplied,
      noteReply_of_not_ok (not_answeredOk_of_error htype)]
    split
    · rename_i hsame
      rw [hsame]
    · rfl
  simp only [Uploading.next, TwoServices.next, hdata, Option.map_some, hservices, haccepted]

/-- **Upload integrity.**  In every interleaving of both services' requests with what
runs after replies, aborts, expiries and the health check: when an OTA_FINISH is
answered OK, the engine's `finish` has succeeded, and the session it was called on
consists exactly of the data of the OTA_DATA requests its link was answered OK since its
last accepted OTA_BEGIN, in order, their offsets contiguous from 0; an OTA_DATA is
answered OK with the total so far, and adds its data; and one that is not the owner's,
too short or at another offset is answered ERROR and changes nothing. -/
theorem upload_integrity (hota : CountingOta session) {s : Uploading F O}
    (hs : (uploading errc ota).Reachable s) (id : LinkId) (payload : List UInt8) (now : Time) :
    (AnsweredOk (s.reply errc ota id Msg.otaFinish.code payload now) →
      ∃ t, s.next errc ota (.handleFrame id Msg.otaFinish.code payload now) = some t ∧
        finish s.services.shared.ota = (none, t.services.shared.ota) ∧
        session s.services.shared.ota = some (assemble (s.accepted id)) ∧
        Contiguous 0 (s.accepted id)) ∧
    (AnsweredOk (s.reply errc ota id Msg.otaData.code payload now) →
      ∃ t, s.next errc ota (.handleFrame id Msg.otaData.code payload now) = some t ∧
        t.accepted id = s.accepted id ++ [⟨getU32 payload, payload.drop 4⟩] ∧
        session t.services.shared.ota = some (assemble (t.accepted id)) ∧
        s.reply errc ota id Msg.otaData.code payload now =
          some (buildOk kModule (UInt32.ofNat (assemble (t.accepted id)).length))) ∧
    ((s.services.services id).otaOwner = false ∨ payload.length ≤ 4 ∨
        (getU32 payload).toNat ≠ bytesWritten s.services.shared.ota →
      (∃ frame : Frame, frame.type = Msg.error.code ∧
        s.reply errc ota id Msg.otaData.code payload now = some frame) ∧
      s.next errc ota (.handleFrame id Msg.otaData.code payload now) = some s) := by
  have hassembled := assembled_of_reachable hota hs
  exact ⟨hassembled.otaFinish_ok id payload now, hassembled.otaData_ok hota id payload now,
    Uploading.otaData_refused now⟩

end Runs

/-! ## The simulator's engine -/

theorem SimOta.counting : CountingOta SimOta.session where
  toLawfulOta := SimOta.lawful
  bytesWritten o received h := by
    unfold SimOta.session at h
    split at h
    · exact congrArg List.length (Option.some.inj h)
    · cases h

/-- The smallest image the simulator takes: the magic, and an empty descriptor. -/
def smallestImage : List UInt8 :=
  0xE9 :: List.replicate 31 0 ++ [0x32, 0x54, 0xCD, 0xAB] ++ List.replicate 252 0

/-- The image in two chunks, the first of them sent twice. -/
def twoChunks : List (TwoServicesStep ℚ) :=
  [.handleFrame .vendor Msg.otaBegin.code [32, 1, 0, 0] 0,
    .handleFrame .vendor Msg.otaData.code ([0, 0, 0, 0] ++ smallestImage.take 200) 1,
    .handleFrame .vendor Msg.otaData.code ([0, 0, 0, 0] ++ smallestImage.take 200) 2,
    .handleFrame .vendor Msg.otaData.code ([200, 0, 0, 0] ++ smallestImage.drop 200) 3]

def freshUploading : Uploading ℚ SimOta := ⟨freshTwoServices, fun _ => []⟩

/-- The second copy is refused, and the finished image is the two chunks. -/
theorem upload_integrity_twoChunks :
    ∃ s : Uploading ℚ SimOta, (uploading hostErrc true).Reachable s ∧
      (s.accepted .vendor).length = 2 ∧
      ∃ t, s.next hostErrc true (.handleFrame .vendor Msg.otaFinish.code [] 4) = some t ∧
        s.services.shared.ota.finish = (none, t.services.shared.ota) ∧
        s.services.shared.ota.session = some (assemble (s.accepted .vendor)) ∧
        Contiguous 0 (s.accepted .vendor) := by
  have hrun : (runOption (Uploading.next hostErrc true) freshUploading twoChunks).any (fun s =>
      decide ((s.accepted .vendor).length = 2) &&
        decide (AnsweredOk (s.reply hostErrc true .vendor Msg.otaFinish.code [] 4))) = true := by
    decide +kernel
  obtain ⟨s, steps, hpath, hfinal⟩ :=
    path_of_runOption_any (uploading (F := ℚ) hostErrc true).init hrun
  simp only [Bool.and_eq_true, decide_eq_true_eq] at hfinal
  have hinit : (uploading (F := ℚ) hostErrc true).init freshUploading :=
    ⟨⟨fun _ => rfl, rfl, rfl, rfl⟩, fun _ => rfl⟩
  have hreached : (uploading hostErrc true).Reachable s := hpath.reachable (.init hinit)
  exact ⟨s, hreached, hfinal.1,
    (upload_integrity SimOta.counting hreached .vendor [] 4).1 hfinal.2⟩

end OmegaStick
