import OmegaStick.Library.StopAndWait
import OmegaStick.Console.Transactions
import OmegaStick.Device.UploadIntegrity
import OmegaStick.Service.EngineCalls

/-!
# An upload from end to end

The page's `runFlash` over the link to the device: OTA_BEGIN, the image in chunks, and
OTA_FINISH, each one `transact` that is not retried, so an instance of `StopAndWait`.
While the upload runs the page may refresh what it shows, which no OK answers; once the
upload failed it may look which firmware the device will start, and abort or restart.

Everything else at the device goes on as it likes: the other link's requests, what runs
after replies, aborts, expiries and the health check.  Requests, and replies, may be lost.
The link is quiet when the page starts: a late OK of an earlier request would be taken for
an acceptance.

What was finished is told by the engine itself: `RecordedOta` runs an engine and writes down
each one its `finish` succeeds on.  `Station.Holds` is what the device keeps while the page
is at a request.
-/

namespace OmegaStick

open OtaEngine TransitionSystem Console

variable {F O : Type*}

/-! ## The page's requests -/

/-- The arguments of one `transact`. -/
structure UploadRequest where
  type : Msg
  payload : List UInt8
  deriving DecidableEq, Repr

/-- `OTA_CHUNK` -/
def otaChunk : ℕ := 4000

/-- The chunks of the image from `off` on. -/
def chunksFrom (img : List UInt8) (off : ℕ) : List Chunk :=
  if off < img.length then
    ⟨UInt32.ofNat off, (img.drop off).take otaChunk⟩ :: chunksFrom img (off + otaChunk)
  else []
termination_by img.length - off
decreasing_by simp only [otaChunk]; omega

def Chunk.request (chunk : Chunk) : UploadRequest := ⟨.otaData, putU32 chunk.offset ++ chunk.data⟩

@[simp] theorem Chunk.request_type (chunk : Chunk) : chunk.request.type = .otaData := rfl

/-- The requests of `runFlash`, in order. -/
def uploadPlan (img : List UInt8) : List UploadRequest :=
  ⟨.otaBegin, putU32 (UInt32.ofNat img.length)⟩ ::
    ((chunksFrom img 0).map Chunk.request ++ [⟨.otaFinish, []⟩])

theorem assemble_chunksFrom (img : List UInt8) (off : ℕ) :
    assemble (chunksFrom img off) = img.drop off := by
  fun_induction chunksFrom img off with
  | case1 off hoff ih =>
      rw [assemble, List.flatMap_cons, ← assemble, ih, ← List.drop_drop]
      exact List.take_append_drop otaChunk _
  | case2 off hoff => simp [assemble, List.drop_of_length_le (Nat.le_of_not_lt hoff)]

/-- The chunk a request carries is the one the device accepts. -/
theorem chunk_of_request (chunk : Chunk) :
    (⟨getU32 chunk.request.payload, chunk.request.payload.drop 4⟩ : Chunk) = chunk := by
  cases chunk with
  | mk offset data =>
      simp only [Chunk.request, getU32_putU32]
      rfl

/-- What the plan asks at each place. -/
inductive Planned (img : List UInt8) (request : UploadRequest) : ℕ → Prop where
  | begin (heq : request = ⟨.otaBegin, putU32 (UInt32.ofNat img.length)⟩) : Planned img request 0
  | data {k : ℕ} (hk : k < (chunksFrom img 0).length)
      (heq : request = (chunksFrom img 0)[k].request) : Planned img request (k + 1)
  | finish (heq : request = ⟨.otaFinish, []⟩) :
      Planned img request ((chunksFrom img 0).length + 1)

theorem planned_of_get {img : List UInt8} {request : UploadRequest} {n : ℕ}
    (h : (uploadPlan img)[n]? = some request) : Planned img request n := by
  cases n with
  | zero => exact .begin (Option.some.inj h).symm
  | succ k =>
      simp only [uploadPlan, List.getElem?_cons_succ] at h
      rcases Nat.lt_or_ge k (chunksFrom img 0).length with hk | hk
      · rw [List.getElem?_append_left (by simpa using hk), List.getElem?_map,
          List.getElem?_eq_getElem hk] at h
        exact .data hk (Option.some.inj h).symm
      · rw [List.getElem?_append_right (by simpa using hk), List.length_map] at h
        obtain hzero : k - (chunksFrom img 0).length = 0 := by
          by_contra hne
          obtain ⟨m, hm⟩ := Nat.exists_eq_succ_of_ne_zero hne
          rw [hm] at h
          exact nomatch h
        obtain rfl : k = (chunksFrom img 0).length := by omega
        rw [Nat.sub_self] at h
        exact .finish (Option.some.inj h).symm

theorem request_of_plan {img : List UInt8} {request : UploadRequest} {n : ℕ}
    (h : (uploadPlan img)[n]? = some request) : request.type ∈ Msg.requests := by
  cases planned_of_get h with
  | begin heq => simp [heq, Msg.requests]
  | data hk heq => simp [heq, Msg.requests]
  | finish heq => simp [heq, Msg.requests]

theorem length_uploadPlan (img : List UInt8) :
    (uploadPlan img).length = (chunksFrom img 0).length + 2 := by
  simp [uploadPlan]

/-! ## What the page makes of a reply -/

/-- A frame of the device as the page's parser returns it. -/
def Frame.parsed (frame : Frame) : ParsedFrame :=
  ⟨if frame.reply then flagsRequest ||| flagsReplyBit else flagsRequest, frame.reply, none,
    frame.moduleId, frame.type, frame.payload⟩

section Page

variable [BrowserText]

/-- The calls of `runFlash`: an OK is expected, and nothing is retried. -/
def uploadCall : Call Unit := ⟨.otaData, [Msg.ok.code], 1, ()⟩

/-- What a call of `runFlash` settles to, if a frame settles it. -/
def uploadSettles (frame : Frame) : Option (Unit × Console.Settled) :=
  ((Transactions.new.transact uploadCall).dispatchFrame moduleCalibration frame.parsed).1

def uploadAccepts (frame : Frame) : Bool :=
  match uploadSettles frame with
  | some (_, .resolved _) => true
  | _ => false

def uploadRefuses (frame : Frame) : Bool :=
  match uploadSettles frame with
  | some (_, .rejected _) => true
  | _ => false

omit [BrowserText] in
theorem takes_uploadCall (frame : Frame) :
    uploadCall.takes moduleCalibration frame.parsed = true ↔
      frame.moduleId = kModule ∧ frame.reply = true ∧
        (frame.type = Msg.ok.code ∨ frame.type = Msg.error.code) := by
  have hdiscovery : moduleCalibration ≠ moduleDiscovery := by decide
  have hok : Msg.ok.code ≠ Msg.calibrationResult.code := by decide
  have herror : Msg.error.code ≠ Msg.calibrationResult.code := by decide
  have hmodule : moduleCalibration = kModule := rfl
  unfold Call.takes uploadCall Frame.parsed
  grind

/-- Only the service's OK is an acceptance. -/
theorem uploadAccepts_iff (frame : Frame) :
    uploadAccepts frame = true ↔
      frame.moduleId = kModule ∧ frame.reply = true ∧ frame.type = Msg.ok.code := by
  have herror : Msg.error.code ≠ Msg.ok.code := by decide
  have htakes := takes_uploadCall frame
  have htype : frame.parsed.type = frame.type := rfl
  unfold uploadAccepts uploadSettles Transactions.dispatchFrame
  simp only [Transactions.transact, Transactions.new, Transactions.attempt, htype]
  cases htaken : uploadCall.takes moduleCalibration frame.parsed with
  | false =>
      rw [htaken] at htakes
      simp only [Bool.not_false, if_true]
      refine iff_of_false (by simp) ?_
      rintro ⟨hmodule, hreply, hok⟩
      exact Bool.noConfusion (htakes.mpr ⟨hmodule, hreply, .inl hok⟩)
  | true =>
      obtain ⟨hmodule, hreply, hanswer⟩ := htakes.mp htaken
      simp only [Bool.not_true, Bool.false_eq_true, if_false]
      rcases hanswer with hok | hrefused
      · rw [if_neg (by rw [hok]; exact herror.symm)]
        exact iff_of_true rfl ⟨hmodule, hreply, hok⟩
      · rw [if_pos hrefused]
        refine iff_of_false (by simp [Transactions.reject, Call.retries, uploadCall]) ?_
        rintro ⟨-, -, hok⟩
        exact herror (hrefused.symm.trans hok)

end Page

/-! ## An engine that is watched -/

/-- An engine, and the ones `finish` succeeded on, as they were before it, oldest first. -/
structure RecordedOta (O : Type*) where
  engine : O
  finished : List O

namespace RecordedOta

variable [OtaEngine O]

/-- The engine's own calls; a `finish` that succeeds is written down. -/
instance : OtaEngine (RecordedOta O) where
  sessionActive o := sessionActive o.engine
  bytesWritten o := bytesWritten o.engine
  isPendingVerify o := isPendingVerify o.engine
  begin size o := ((begin size o.engine).1, { o with engine := (begin size o.engine).2 })
  write data o := ((write data o.engine).1, { o with engine := (write data o.engine).2 })
  finish o := ((finish o.engine).1,
    ⟨(finish o.engine).2,
      if (finish o.engine).1.isNone then o.finished ++ [o.engine] else o.finished⟩)
  abort o := { o with engine := abort o.engine }
  markAppValid o := ((markAppValid o.engine).1, { o with engine := (markAppValid o.engine).2 })
  markAppInvalidAndRollback o :=
    ((markAppInvalidAndRollback o.engine).1,
      { o with engine := (markAppInvalidAndRollback o.engine).2 })
  runningPartitionLabel o := runningPartitionLabel o.engine
  bootPartitionLabel o := bootPartitionLabel o.engine
  appDescription o := appDescription o.engine
  otherLabel o := otherLabel o.engine
  otherDescription o := otherDescription o.engine
  otherState o := otherState o.engine
  otherVerifies o := otherVerifies o.engine
  setBootOther o := ((setBootOther o.engine).1, { o with engine := (setBootOther o.engine).2 })

/-- A watched engine keeps the laws of its engine. -/
theorem counting {session : O → Option (List UInt8)} (hota : CountingOta session) :
    CountingOta fun o : RecordedOta O => session o.engine where
  active o := hota.active o.engine
  begin_active size o := hota.begin_active size o.engine
  begin_ok size o := hota.begin_ok size o.engine
  begin_failed size o := hota.begin_failed size o.engine
  write_ok data o := hota.write_ok data o.engine
  write_failed data o := hota.write_failed data o.engine
  finished o := hota.finished o.engine
  aborted o := hota.aborted o.engine
  markAppValid o := hota.markAppValid o.engine
  markAppInvalid o := hota.markAppInvalid o.engine
  setBootOther o := hota.setBootOther o.engine
  bytesWritten o := hota.bytesWritten o.engine

/-- Nothing but `finish` writes anything down. -/
theorem keeps_finished (finished : List O) :
    EngineKeepsUnfinished fun o : RecordedOta O => o.finished = finished where
  begin _ _ h := h
  write _ _ h := h
  abort _ h := h
  markAppValid _ h := h
  setBootOther _ h := h

theorem finished_of_ok {o o' : RecordedOta O} (h : finish o = (none, o')) :
    o'.finished = o.finished ++ [o.engine] := by
  obtain ⟨herror, rfl⟩ := Prod.mk.inj h
  simp [herror]

theorem finished_of_error {o o' : RecordedOta O} {ec : ErrorCode} (h : finish o = (some ec, o')) :
    o'.finished = o.finished := by
  obtain ⟨herror, rfl⟩ := Prod.mk.inj h
  simp [herror]

/-- An OTA_FINISH that is not answered OK has finished nothing. -/
theorem finished_of_handleOtaFinish {cfg : CalibrationService.Config F (Device F)}
    {l : Link F (RecordedOta O) (Device F)}
    (hok : (l.handleOtaFinish cfg).1.type ≠ Msg.ok.code) :
    (l.handleOtaFinish cfg).2.ota.finished = l.ota.finished := by
  revert hok
  unfold Link.handleOtaFinish
  split
  · exact fun _ => rfl
  · rcases hfinish : finish l.ota with ⟨_ | ec, engine⟩
    · exact fun hok => absurd rfl hok
    · intro _
      simp only [Link.fail, Link.holdOutput_ota]
      exact finished_of_error hfinish

end RecordedOta

/-! ## The device -/

section Answers

variable [OtaEngine O] (cfg : CalibrationService.Config F (Device F))

/-- A reply of the service. -/
def FromService (frame : Frame) : Prop := frame.moduleId = cfg.moduleId ∧ frame.reply = true

variable {cfg} {l : Link F O (Device F)}

omit [OtaEngine O] in
theorem fromService_fail (ec : ErrorCode) (context : List UInt8) :
    FromService cfg (l.fail cfg ec context).1 := ⟨rfl, rfl⟩

omit [OtaEngine O] in
theorem fromService_succeed (value : UInt32) : FromService cfg (l.succeed cfg value).1 :=
  ⟨rfl, rfl⟩

theorem fromService_handleOtaBegin (payload : List UInt8) (now : Time) :
    FromService cfg (l.handleOtaBegin cfg payload now).1 := by
  unfold Link.handleOtaBegin
  split_ifs
  · exact fromService_fail _ _
  · exact fromService_fail _ _
  · exact fromService_fail _ _
  all_goals
    dsimp only
    split
    · exact fromService_fail _ _
    · exact fromService_succeed _

theorem fromService_handleOtaData (payload : List UInt8) (now : Time) :
    FromService cfg (l.handleOtaData cfg payload now).1 := by
  unfold Link.handleOtaData
  split_ifs
  · exact fromService_fail _ _
  · exact fromService_fail _ _
  · exact fromService_fail _ _
  · split
    · exact fromService_fail _ _
    · exact fromService_succeed _

theorem fromService_handleOtaFinish : FromService cfg (l.handleOtaFinish cfg).1 := by
  unfold Link.handleOtaFinish
  split_ifs
  · exact fromService_fail _ _
  · split
    · exact fromService_fail _ _
    · exact fromService_succeed _

end Answers

/-- What the page refreshes while it uploads: when a calibration ends. -/
def refreshes : List Msg := [.getState, .getDiagnostics, .getFwInfo]

/-- What the page asks once an upload failed. -/
def closings : List Msg := [.otaAbort, .getFwInfo, .restart]

/-- The device with a watched engine, and what the engine had finished on requests of the
link, oldest first. -/
structure Station (F O : Type*) where
  uploading : Uploading F (RecordedOta O)
  finished : List O

section Runs

variable [MachineFloat F] [FloatBits F] [OtaEngine O] (errc : ErrcTable) (ota : Bool)
  (session : O → Option (List UInt8)) (id : LinkId)

namespace Station

def engine (s : Station F O) : RecordedOta O := s.uploading.services.shared.ota

/-- The device serves a request of the link; what the engine writes down meanwhile, the link
had it finish. -/
def Serve (s : Station F O) (request : UploadRequest) (reply : Frame) (t : Station F O) : Prop :=
  ∃ now, s.uploading.reply errc ota id request.type.code request.payload now = some reply ∧
    s.uploading.next errc ota (.handleFrame id request.type.code request.payload now) =
      some t.uploading ∧
    t.finished = s.finished ++ t.engine.finished.drop s.engine.finished.length

/-- Any other step of the device. -/
def Other (s t : Station F O) : Prop :=
  ∃ step, (∀ type payload now, step ≠ .handleFrame id type payload now) ∧
    s.uploading.next errc ota step = some t.uploading ∧ t.finished = s.finished

end Station

/-- `runFlash` with an image, over one of the links. -/
def runFlash [BrowserText] (img : List UInt8) :
    StopAndWait (Station F O) UploadRequest Frame where
  plan := uploadPlan img
  serve := Station.Serve errc ota id
  other := Station.Other errc ota id
  accepts := uploadAccepts
  refuses := uploadRefuses
  unsolicited reply := reply.moduleId ≠ kModule ∨ reply.type = Msg.calibrationResult.code
  beside request := request.type ∈ refreshes
  closing request := request.type ∈ closings

variable {errc ota session id}

namespace Station

variable {s t : Station F O} {request : UploadRequest} {reply : Frame} {img : List UInt8} {n : ℕ}

theorem Serve.accepted (h : Serve errc ota id s request reply t) :
    t.uploading.accepted id =
      noteReply (some reply) request.type.code request.payload (s.uploading.accepted id) := by
  obtain ⟨now, hreply, hnext, -⟩ := h
  simp only [Uploading.next, Option.map_eq_some_iff] at hnext
  obtain ⟨services, -, hnext⟩ := hnext
  rw [← hnext, ← hreply]
  simp [Uploading.acceptedAfter]

/-- The session of a watched engine. -/
abbrev recorded (session : O → Option (List UInt8)) (o : RecordedOta O) : Option (List UInt8) :=
  session o.engine

theorem Serve.assembled (hota : CountingOta session)
    (h : Serve errc ota id s request reply t) (hs : s.uploading.Assembled (recorded session)) :
    t.uploading.Assembled (recorded session) := by
  obtain ⟨now, -, hnext, -⟩ := h
  exact hs.next (RecordedOta.counting hota) hnext

/-- A served request is one section of the link's service. -/
theorem Serve.handled (h : Serve errc ota id s request reply t)
    (hmsg : request.type ∈ Msg.requests) :
    ∃ now, (s.uploading.services.link id).handleRequest (calibrationConfig errc ota) request.type
        request.payload now = (some reply, t.uploading.services.link id) ∧
      t.finished = s.finished ++ t.engine.finished.drop s.engine.finished.length := by
  obtain ⟨now, hreply, hnext, hfinished⟩ := h
  refine ⟨now, Prod.ext ?_ ?_, hfinished⟩
  · rw [← s.uploading.reply_of_request id hmsg]
    exact hreply
  · simp only [Uploading.next, TwoServices.next, Option.map_some, Option.some.injEq] at hnext
    rw [← Link.handleFrameLocked_of_ofCode (calibrationConfig errc ota) (Msg.ofCode_code hmsg),
      ← hnext]
    simp [TwoServices.link]

/-- Nothing but OTA_FINISH finishes an image, and only when it is answered OK. -/
theorem Serve.finished_of_ne (h : Serve errc ota id s request reply t)
    (hmsg : request.type ∈ Msg.requests)
    (hne : request.type ≠ .otaFinish ∨ reply.type ≠ Msg.ok.code) : t.finished = s.finished := by
  obtain ⟨now, hrequest, hfinished⟩ := h.handled hmsg
  have hkept : t.engine.finished = s.engine.finished := by
    show (t.uploading.services.link id).ota.finished = s.engine.finished
    by_cases htype : request.type = .otaFinish
    · rw [htype] at hrequest
      obtain ⟨hreply, hlink⟩ := Prod.mk.inj hrequest
      rw [← hlink]
      refine RecordedOta.finished_of_handleOtaFinish ?_
      rw [Option.some.inj hreply]
      exact hne.resolve_left (not_not.mpr htype)
    · have hlink : _ = t.uploading.services.link id := congrArg Prod.snd hrequest
      rw [← hlink]
      exact (RecordedOta.keeps_finished _).handleRequest rfl htype _ _
  rw [hfinished, hkept, List.drop_length, List.append_nil]

/-- An OTA_FINISH answered OK had the engine finish what the link had accepted. -/
theorem Serve.finished (hs : s.uploading.Assembled (recorded session))
    (h : Serve errc ota id s ⟨.otaFinish, []⟩ reply t) (hok : reply.type = Msg.ok.code) :
    ∃ engine, session engine = some (assemble (s.uploading.accepted id)) ∧
      t.finished = s.finished ++ [engine] := by
  obtain ⟨now, hrequest, hfinished⟩ := h.handled (by decide)
  obtain ⟨hreply, hlink⟩ := Prod.mk.inj hrequest
  obtain ⟨howner, hfinish⟩ := finished_of_handleOtaFinish ⟨reply, hreply, hok⟩
  refine ⟨s.engine.engine, (hs.received id howner).1, ?_⟩
  have hwritten : t.engine.finished = s.engine.finished ++ [s.engine.engine] := by
    show (t.uploading.services.link id).ota.finished = _
    rw [← hlink]
    exact RecordedOta.finished_of_ok hfinish
  rw [hfinished, hwritten, List.drop_left]

/-- What the device keeps while `n` of the page's requests were accepted. -/
structure Holds (session : O → Option (List UInt8)) (id : LinkId) (img : List UInt8) (n : ℕ)
    (s : Station F O) : Prop where
  assembled : s.uploading.Assembled (recorded session)
  unfinished : n ≤ (chunksFrom img 0).length + 1 → s.finished = []
  accepted : 1 ≤ n → n ≤ (chunksFrom img 0).length + 1 →
    s.uploading.accepted id = (chunksFrom img 0).take (n - 1)
  finished : (chunksFrom img 0).length + 1 < n → s.finished.map session = [some img]

omit [MachineFloat F] [FloatBits F] [OtaEngine O] in
/-- A step that neither adds to the chunks nor finishes an image. -/
theorem Holds.of_eq (h : s.Holds session id img n)
    (hassembled : t.uploading.Assembled (recorded session))
    (haccepted : t.uploading.accepted id = s.uploading.accepted id)
    (hfinished : t.finished = s.finished) : t.Holds session id img n :=
  ⟨hassembled, fun hn => hfinished.trans (h.unfinished hn),
    fun hpos hn => haccepted.trans (h.accepted hpos hn),
    fun hn => (congrArg (List.map session) hfinished).trans (h.finished hn)⟩

theorem Holds.refused (hota : CountingOta session) (h : s.Holds session id img n)
    (hplan : (uploadPlan img)[n]? = some request)
    (hserve : Serve errc ota id s request reply t) (hok : reply.type ≠ Msg.ok.code) :
    t.Holds session id img n := by
  refine h.of_eq (hserve.assembled hota h.assembled) ?_
    (hserve.finished_of_ne (request_of_plan hplan) (.inr hok))
  rw [hserve.accepted, noteReply_of_not_ok]
  rintro ⟨frame, hframe, hframeOk⟩
  obtain rfl := Option.some.inj hframe
  exact hok hframeOk

/-- A request that is no part of an upload. -/
theorem Holds.aside (hota : CountingOta session) (h : s.Holds session id img n)
    (hserve : Serve errc ota id s request reply t)
    (htype : request.type ∈ refreshes ++ closings) : t.Holds session id img n := by
  have hother : ∀ msg ∈ refreshes ++ closings, msg.code ≠ Msg.otaBegin.code ∧
      msg.code ≠ Msg.otaData.code ∧ msg ≠ .otaFinish ∧ msg ∈ Msg.requests := by decide
  obtain ⟨hbegin, hdata, hfinish, hmsg⟩ := hother _ htype
  refine h.of_eq (hserve.assembled hota h.assembled) ?_ (hserve.finished_of_ne hmsg (.inl hfinish))
  rw [hserve.accepted, noteReply_of_other hbegin hdata]

/-- The next request of the plan was answered OK. -/
theorem Holds.next (hota : CountingOta session) (h : s.Holds session id img n)
    (hplan : (uploadPlan img)[n]? = some request)
    (hserve : Serve errc ota id s request reply t) (hok : reply.type = Msg.ok.code) :
    t.Holds session id img (n + 1) := by
  have hassembled := hserve.assembled hota h.assembled
  have hnoted := hserve.accepted
  rw [noteReply, if_pos ⟨reply, rfl, hok⟩] at hnoted
  cases planned_of_get hplan with
  | begin heq =>
      subst heq
      have hunfinished : t.finished = [] :=
        (hserve.finished_of_ne (request_of_plan hplan) (.inl (by simp))).trans
          (h.unfinished (by omega))
      exact ⟨hassembled, fun _ => hunfinished, fun _ _ => by simpa using hnoted,
        fun hn => by omega⟩
  | @data k hk heq =>
      subst heq
      have hunfinished : t.finished = [] :=
        (hserve.finished_of_ne (request_of_plan hplan) (.inl (by simp))).trans
          (h.unfinished (by omega))
      refine ⟨hassembled, fun _ => hunfinished, fun _ _ => ?_, fun hn => by omega⟩
      rw [Chunk.request_type, if_neg (by decide), if_pos rfl, chunk_of_request,
        h.accepted (by omega) (by omega)] at hnoted
      rw [hnoted]
      simp only [Nat.add_sub_cancel]
      exact List.take_append_getElem hk
  | finish heq =>
      subst heq
      have hall : s.uploading.accepted id = chunksFrom img 0 := by
        rw [h.accepted (by omega) le_rfl, Nat.add_sub_cancel, List.take_length]
      refine ⟨hassembled, fun hn => by omega, fun _ hn => by omega, fun _ => ?_⟩
      obtain ⟨engine, himage, hfinished⟩ := hserve.finished h.assembled hok
      rw [hall, assemble_chunksFrom] at himage
      rw [hfinished, h.unfinished le_rfl]
      simp [himage]

/-- Nothing but OTA_FINISH and the two requests of an upload is answered OK meanwhile. -/
theorem Serve.not_ok (h : Serve errc ota id s request reply t)
    (htype : request.type ∈ refreshes) : reply.type ≠ Msg.ok.code := by
  obtain ⟨now, hreply, -, -⟩ := h
  have hrequest : request.type ∈ Msg.requests := by
    revert htype
    generalize request.type = msg
    revert msg
    decide
  rw [s.uploading.reply_of_request id hrequest] at hreply
  simp only [refreshes, List.mem_cons, List.not_mem_nil, or_false] at htype
  rcases htype with htype | htype | htype
  all_goals rw [htype] at hreply
  · obtain rfl := Option.some.inj hreply
    exact show Msg.state.code ≠ Msg.ok.code by decide
  · obtain rfl := Option.some.inj hreply
    exact show Msg.diagnostics.code ≠ Msg.ok.code by decide
  · obtain rfl := Option.some.inj hreply
    unfold Link.handleGetFwInfo
    split
    · exact show Msg.error.code ≠ Msg.ok.code by decide
    · exact show Msg.fwInfo.code ≠ Msg.ok.code by decide

end Station

variable [BrowserText]

/-- The page takes the service's OK for an acceptance. -/
theorem Station.Serve.accepts_of_ok {s t : Station F O} {request : UploadRequest} {reply : Frame}
    {img : List UInt8} {n : ℕ} (h : Serve errc ota id s request reply t)
    (hplan : (uploadPlan img)[n]? = some request) (hok : reply.type = Msg.ok.code) :
    uploadAccepts reply = true := by
  obtain ⟨now, hreply, -, -⟩ := h
  have hfrom : FromService (calibrationConfig (F := F) errc ota) reply := by
    cases planned_of_get hplan with
    | begin heq =>
        subst heq
        have hrequest : Msg.otaBegin ∈ Msg.requests := by decide
        rw [s.uploading.reply_of_request id hrequest] at hreply
        obtain rfl := Option.some.inj hreply
        exact fromService_handleOtaBegin _ now
    | data hk heq =>
        subst heq
        rw [Chunk.request_type, s.uploading.reply_of_request id (by decide)] at hreply
        obtain rfl := Option.some.inj hreply
        exact fromService_handleOtaData _ now
    | finish heq =>
        subst heq
        rw [s.uploading.reply_of_request id (by decide)] at hreply
        obtain rfl := Option.some.inj hreply
        exact fromService_handleOtaFinish
  exact (uploadAccepts_iff _).mpr ⟨hfrom.1, hfrom.2, hok⟩

/-- The device serves the page's requests as the page counts them. -/
theorem serves_runFlash (hota : CountingOta session) (img : List UInt8) :
    (runFlash errc ota id img).Serves (Station.Holds (F := F) session id img) where
  accepted h hplan hserve haccepts :=
    h.next hota hplan hserve ((uploadAccepts_iff _).mp haccepts).2.2
  refused h hplan hserve hrefused := by
    refine h.refused hota hplan hserve fun hok => ?_
    exact Bool.noConfusion (hrefused.symm.trans (hserve.accepts_of_ok hplan hok))
  beside h hbeside hserve := by
    refine ⟨h.aside hota hserve (List.mem_append_left _ hbeside), ?_⟩
    rw [Bool.eq_false_iff]
    intro haccepts
    exact hserve.not_ok hbeside ((uploadAccepts_iff _).mp haccepts).2.2
  closing h hclosing hserve := h.aside hota hserve (List.mem_append_right _ hclosing)
  other h hother := by
    obtain ⟨step, hne, hnext, hfinished⟩ := hother
    have hassembled := h.assembled.next (RecordedOta.counting hota) hnext
    refine h.of_eq hassembled ?_ hfinished
    simp only [Uploading.next, Option.map_eq_some_iff] at hnext
    obtain ⟨services, -, hnext⟩ := hnext
    rw [← hnext]
    cases step with
    | handleFrame other type payload now =>
        have hother : id ≠ other := fun heq => hne type payload now (heq ▸ rfl)
        exact if_neg hother
    | runAfterReply | abortUpdate | expireStaleUpdate | healthCheck | others => rfl
  unsolicited hreply := by
    rw [Bool.eq_false_iff]
    intro haccepts
    obtain ⟨hmodule, -, hok⟩ := (uploadAccepts_iff _).mp haccepts
    rcases hreply with hother | hresult
    · exact hother hmodule
    · exact absurd (hresult.symm.trans hok) (by decide)

/-- The device when the page starts: however it got there, and with nothing of the page's
finished yet. -/
def Station.Fresh (errc : ErrcTable) (ota : Bool) (s : Station F O) : Prop :=
  (OmegaStick.uploading errc ota).Reachable s.uploading ∧ s.finished = []

omit [BrowserText] in
theorem Station.Fresh.holds (hota : CountingOta session) {s : Station F O}
    (h : s.Fresh errc ota) (img : List UInt8) : s.Holds session id img 0 :=
  ⟨assembled_of_reachable (RecordedOta.counting hota) h.1, fun _ => h.2,
    fun hpos => absurd hpos (by decide), fun hn => absurd hn (Nat.not_lt_zero _)⟩

/-- **An upload from end to end.**  From a page that starts on a quiet link, whatever the
device does meanwhile and whatever is lost: what the engine finishes on the link's requests
is the very image of the page, and at most once; it has finished it once the page saw
OTA_FINISH accepted; and it has not while the page has not got that far. -/
theorem upload_end_to_end (hota : CountingOta session) {img : List UInt8}
    {s : StopAndWait.State (Station F O) UploadRequest Frame}
    (hs : ((runFlash errc ota id img).system (Station.Fresh errc ota)).Reachable s) :
    (s.server.finished = [] ∨ s.server.finished.map session = [some img]) ∧
      (s.client = .ready (uploadPlan img).length →
        s.server.finished.map session = [some img]) ∧
      (s.client.accepted < (chunksFrom img 0).length + 1 → s.server.finished = []) := by
  have hstage := (serves_runFlash hota img).of_reachable (fun s hs => hs.holds hota img) hs
  have hone : ∀ {n : ℕ}, s.server.Holds session id img n →
      s.server.finished = [] ∨ s.server.finished.map session = [some img] := by
    intro n h
    rcases Nat.lt_or_ge ((chunksFrom img 0).length + 1) n with hn | hn
    · exact .inr (h.finished hn)
    · exact .inl (h.unfinished hn)
  refine ⟨?_, fun hclient => ?_, fun hbefore => ?_⟩
  · rcases hstage.progress with h | h
    · exact hone h
    · exact hone h
  · refine (hstage.server_of_ready hclient).finished ?_
    rw [length_uploadPlan]
    omega
  · rcases hstage.progress with h | h
    · exact h.unfinished (by omega)
    · exact h.unfinished (by omega)

end Runs

end OmegaStick
