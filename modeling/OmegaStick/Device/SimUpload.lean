import OmegaStick.Device.UploadEndToEnd

/-!
# Uploads to the simulator

Which images `runFlash` can upload to the simulator's engine: those with a descriptor.  One
way the engine's answers are followed through the plan, the other way an OTA_FINISH answered
OK is one of an image with a descriptor.
-/

namespace OmegaStick

open OtaEngine TransitionSystem Console

variable {F O : Type*}

section Runs

variable {errc : ErrcTable} {id : LinkId} {img : List UInt8}

/-- The chunks follow each other, as far as an offset can be told. -/
theorem contiguous_chunksFrom (hlength : img.length ≤ 2 ^ 32) (off : ℕ) :
    Contiguous off (chunksFrom img off) := by
  fun_induction chunksFrom img off with
  | case1 off hoff ih =>
      refine ⟨?_, ?_⟩
      · rw [UInt32.toNat_ofNat']
        omega
      · rw [List.length_take, List.length_drop]
        rcases Nat.lt_or_ge (off + otaChunk) img.length with hmore | hlast
        · rwa [Nat.min_eq_left (by omega)]
        · rw [chunksFrom, if_neg (Nat.not_lt.mpr hlast)]
          trivial
  | case2 off hoff => trivial

theorem Contiguous.left {offset : ℕ} {first second : List Chunk}
    (h : Contiguous offset (first ++ second)) : Contiguous offset first := by
  induction first generalizing offset with
  | nil => trivial
  | cons chunk rest ih => exact ⟨h.1, ih h.2⟩

theorem Contiguous.offset_getElem {offset k : ℕ} {chunks : List Chunk}
    (h : Contiguous offset chunks) (hk : k < chunks.length) :
    chunks[k].offset.toNat = offset + (assemble (chunks.take k)).length := by
  rw [← List.take_append_drop (k + 1) chunks, ← List.take_append_getElem hk] at h
  exact (contiguous_append.mp h.left).2

theorem data_ne_nil {off : ℕ} {chunk : Chunk} (h : chunk ∈ chunksFrom img off) :
    chunk.data ≠ [] := by
  fun_induction chunksFrom img off with
  | case1 off hoff ih =>
      rcases List.mem_cons.mp h with rfl | h
      · rw [← List.length_pos_iff, List.length_take, List.length_drop]
        simp only [otaChunk]
        omega
      · exact ih h
  | case2 off hoff => exact absurd h List.not_mem_nil

variable [MachineFloat F] [FloatBits F]

/-- A request that its handler answers is one step of the device. -/
theorem Station.serve_of_answer [OtaEngine O] {ota : Bool} (id : LinkId) (s : Station F O)
    {msg : Msg} (hmsg : msg ∈ Msg.requests) (payload : List UInt8) (now : Time) {reply : Frame}
    {l : Link F (RecordedOta O) (Device F)}
    (hanswer : (s.uploading.services.link id).handleRequest (calibrationConfig errc ota) msg
      payload now = (some reply, l)) :
    ∃ t, Station.Serve errc ota id s ⟨msg, payload⟩ reply t ∧
      t.uploading.services.link id = l := by
  have hframe : (s.uploading.services.link id).handleFrameLocked (calibrationConfig errc ota)
      msg.code payload now = (some reply, l) :=
    (Link.handleFrameLocked_of_ofCode (calibrationConfig errc ota) (Msg.ofCode_code hmsg) _
      payload now).trans hanswer
  let uploading : Uploading F (RecordedOta O) :=
    ⟨s.uploading.services.withLink id l,
      s.uploading.acceptedAfter errc ota (.handleFrame id msg.code payload now)⟩
  let finished := s.finished ++
    uploading.services.shared.ota.finished.drop s.engine.finished.length
  refine ⟨⟨uploading, finished⟩, ⟨now, ?_, ?_, rfl⟩, ?_⟩
  · exact congrArg Prod.fst hframe
  · simp only [Uploading.next, TwoServices.next, hframe, Option.map_some, uploading]
  · simp [uploading, TwoServices.link]

/-- The engine runs an upload of the link's, and this is what it has of it. -/
structure SimReceived (l : Link F (RecordedOta SimOta) (Device F)) (received : List UInt8) :
    Prop where
  owner : l.otaOwner = true
  active : l.ota.engine.active = true
  image : l.ota.engine.image = received

omit [FloatBits F] in
theorem handleOtaBegin_sim (errc : ErrcTable) {l : Link F (RecordedOta SimOta) (Device F)}
    (hactive : l.ota.engine.active = false)
    (hpending : l.ota.engine.flash.pendingVerify = false) (size : UInt32) (now : Time) :
    ∃ l', l.handleOtaBegin (calibrationConfig errc true) (putU32 size) now =
      (buildOk kModule 0, l') ∧ SimReceived l' [] := by
  have hnotOwn : l.ownsSession = false := by
    simp [Link.ownsSession, OtaEngine.sessionActive, hactive]
  have hlength : ¬ (putU32 size).length ≠ 4 := by simp [putU32]
  have hconfig : ¬ (!(calibrationConfig (F := F) errc true).ota) = true := by
    simp [calibrationConfig]
  have hnotPending : ¬ isPendingVerify l.ota = true := by
    simp [OtaEngine.isPendingVerify, hpending]
  have hbegin : (OtaEngine.begin (getU32 (putU32 size))
      (l.holdOutput (calibrationConfig errc true) true).ota).1 = none := by
    rw [Link.holdOutput_ota]
    simp [OtaEngine.begin, SimOta.begin, hactive, hpending]
  have hnew : (OtaEngine.begin (getU32 (putU32 size))
      (l.holdOutput (calibrationConfig errc true) true).ota).2.engine.active = true ∧
      (OtaEngine.begin (getU32 (putU32 size))
        (l.holdOutput (calibrationConfig errc true) true).ota).2.engine.image = [] := by
    rw [Link.holdOutput_ota]
    simp [OtaEngine.begin, SimOta.begin, hactive, hpending]
  unfold Link.handleOtaBegin
  rw [if_neg hconfig, if_neg hlength, if_neg hnotPending]
  simp only [hnotOwn, Bool.false_eq_true, if_false]
  revert hbegin hnew
  generalize OtaEngine.begin (getU32 (putU32 size))
    (l.holdOutput (calibrationConfig errc true) true).ota = begun
  obtain ⟨error, engine⟩ := begun
  rintro rfl ⟨hnewActive, himage⟩
  exact ⟨_, rfl, rfl, hnewActive, himage⟩

omit [FloatBits F] in
theorem handleOtaData_sim (errc : ErrcTable) {l : Link F (RecordedOta SimOta) (Device F)}
    {received : List UInt8} (h : SimReceived l received) {chunk : Chunk} (hdata : chunk.data ≠ [])
    (hoffset : chunk.offset.toNat = received.length) (now : Time) :
    ∃ value l', l.handleOtaData (calibrationConfig errc true) chunk.request.payload now =
      (buildOk kModule value, l') ∧ SimReceived l' (received ++ chunk.data) := by
  have howned : ¬ (!(calibrationConfig (F := F) errc true).ota || !l.otaOwner) = true := by
    simp [calibrationConfig, h.owner]
  have hlength : ¬ chunk.request.payload.length ≤ 4 := by
    have hpos := List.length_pos_iff.mpr hdata
    simp only [Chunk.request, putU32, List.length_append, List.length_cons, List.length_nil]
    omega
  have hcount : ¬ (getU32 chunk.request.payload).toNat ≠ bytesWritten l.ota := by
    rw [Chunk.request, getU32_putU32, hoffset, ← h.image]
    exact not_not.mpr rfl
  have hdrop : chunk.request.payload.drop 4 = chunk.data := rfl
  have hwrite : (OtaEngine.write chunk.data l.ota).1 = none ∧
      (OtaEngine.write chunk.data l.ota).2.engine.active = true ∧
      (OtaEngine.write chunk.data l.ota).2.engine.image = received ++ chunk.data := by
    simp only [OtaEngine.write, SimOta.write, h.active, Bool.not_true, Bool.false_eq_true, if_false,
      ← h.image]
    split <;> simp
  unfold Link.handleOtaData
  rw [if_neg howned, if_neg hlength, if_neg hcount, hdrop]
  revert hwrite
  generalize OtaEngine.write chunk.data l.ota = written
  obtain ⟨error, engine⟩ := written
  rintro ⟨rfl, hactive, himage⟩
  exact ⟨_, _, rfl, h.owner, hactive, himage⟩

omit [FloatBits F] in
theorem handleOtaFinish_sim (errc : ErrcTable) {l : Link F (RecordedOta SimOta) (Device F)}
    {received : List UInt8} (h : SimReceived l received)
    (hvalid : (parseImageDesc received).isSome = true) :
    ∃ l', l.handleOtaFinish (calibrationConfig errc true) = (buildOk kModule 0, l') := by
  have howned : ¬ (!(calibrationConfig (F := F) errc true).ota || !l.otaOwner) = true := by
    simp [calibrationConfig, h.owner]
  have hfinish : (OtaEngine.finish l.ota).1 = none := by
    obtain ⟨desc, hdesc⟩ := Option.isSome_iff_exists.mp hvalid
    simp [OtaEngine.finish, SimOta.finish, h.active, h.image, hdesc]
  unfold Link.handleOtaFinish
  rw [if_neg howned]
  revert hfinish
  generalize OtaEngine.finish l.ota = finished
  obtain ⟨error, engine⟩ := finished
  rintro rfl
  exact ⟨_, rfl⟩

omit [FloatBits F] in
/-- An OTA_FINISH is answered OK for an image with a descriptor only. -/
theorem isSome_of_handleOtaFinish_sim {l : Link F (RecordedOta SimOta) (Device F)} {ota : Bool}
    (hok : (l.handleOtaFinish (calibrationConfig errc ota)).1.type = Msg.ok.code) :
    (parseImageDesc l.ota.engine.image).isSome = true := by
  have herror : Msg.error.code ≠ Msg.ok.code := by decide
  unfold Link.handleOtaFinish at hok
  split at hok
  · exact absurd hok herror
  · simp only [OtaEngine.finish, SimOta.finish] at hok
    cases hactive : l.ota.engine.active with
    | false =>
        simp only [hactive] at hok
        exact absurd hok herror
    | true =>
        simp only [hactive, Bool.not_true, Bool.false_eq_true, if_false] at hok
        cases hdesc : parseImageDesc l.ota.engine.image with
        | some desc => rfl
        | none =>
            simp only [hdesc] at hok
            exact absurd hok herror

/-- How far the simulator's engine is with the page's upload. -/
def SimStage (img : List UInt8) (id : LinkId) : ℕ → Station F SimOta → Prop
  | 0, s => s.engine.engine.active = false ∧
      s.engine.engine.flash.pendingVerify = false
  | n + 1, s => n ≤ (chunksFrom img 0).length →
      SimReceived (s.uploading.services.link id) (assemble ((chunksFrom img 0).take n))

variable [BrowserText]

/-- A valid image's next request is accepted. -/
theorem SimStage.next (hlength : img.length ≤ 2 ^ 32)
    (hvalid : (parseImageDesc img).isSome = true) {n : ℕ} {s : Station F SimOta}
    {request : UploadRequest} (h : SimStage img id n s)
    (hplan : (uploadPlan img)[n]? = some request) :
    ∃ reply t, Station.Serve errc true id s request reply t ∧
      uploadAccepts reply = true ∧ SimStage img id (n + 1) t := by
  have haccepts : ∀ value, uploadAccepts (buildOk kModule value) = true := fun value =>
    (uploadAccepts_iff _).mpr ⟨rfl, rfl, rfl⟩
  cases planned_of_get hplan with
  | begin heq =>
      subst heq
      have hidle : (s.uploading.services.link id).ota.engine.active = false := h.1
      obtain ⟨l, hl, hreceived⟩ :=
        handleOtaBegin_sim errc hidle h.2 (UInt32.ofNat img.length) 0
      have hrequest : Msg.otaBegin ∈ Msg.requests := by decide
      obtain ⟨t, hserve, hlink⟩ := s.serve_of_answer id hrequest _ 0
        (congrArg (fun r => (some r.1, r.2)) hl)
      exact ⟨_, t, hserve, haccepts 0, fun _ => hlink ▸ hreceived⟩
  | @data k hk heq =>
      subst heq
      have hoffset := (contiguous_chunksFrom hlength 0).offset_getElem hk
      rw [Nat.zero_add] at hoffset
      obtain ⟨value, l, hl, hreceived⟩ :=
        handleOtaData_sim errc (h hk.le) (data_ne_nil (List.getElem_mem hk)) hoffset 0
      have hrequest : Msg.otaData ∈ Msg.requests := by decide
      obtain ⟨t, hserve, hlink⟩ := s.serve_of_answer id hrequest _ 0
        (congrArg (fun r => (some r.1, r.2)) hl)
      refine ⟨_, t, hserve, haccepts value, fun _ => ?_⟩
      rw [hlink, ← List.take_append_getElem hk, assemble_append]
      exact hreceived
  | finish heq =>
      subst heq
      have hreceived := h le_rfl
      rw [List.take_length, assemble_chunksFrom] at hreceived
      obtain ⟨l, hl⟩ := handleOtaFinish_sim errc hreceived hvalid
      have hrequest : Msg.otaFinish ∈ Msg.requests := by decide
      obtain ⟨t, hserve, -⟩ := s.serve_of_answer id hrequest [] 0
        (congrArg (fun r => (some r.1, r.2)) hl)
      exact ⟨_, t, hserve, haccepts 0, fun hn => absurd hn (by omega)⟩

/-- The simulator's engine accepts what has a descriptor only. -/
theorem serves_runFlash_sim (ota : Bool) (img : List UInt8) :
    (runFlash (F := F) errc ota id img).Serves fun n s =>
      s.Holds SimOta.session id img n ∧
        ((chunksFrom img 0).length + 1 < n → (parseImageDesc img).isSome = true) := by
  have hserves : (runFlash (F := F) errc ota id img).Serves
      (Station.Holds SimOta.session id img) := serves_runFlash SimOta.counting img
  refine ⟨?_, fun h hplan hserve hrefused => ⟨hserves.refused h.1 hplan hserve hrefused, h.2⟩,
    fun h hbeside hserve => ⟨⟨(hserves.beside h.1 hbeside hserve).1, h.2⟩,
      (hserves.beside h.1 hbeside hserve).2⟩,
    fun h hclosing hserve => ⟨hserves.closing h.1 hclosing hserve, h.2⟩,
    fun h hother => ⟨hserves.other h.1 hother, h.2⟩, hserves.unsolicited⟩
  intro n s request reply t h hplan hserve haccepts
  refine ⟨hserves.accepted h.1 hplan hserve haccepts, fun hn => ?_⟩
  cases planned_of_get hplan with
  | begin heq => omega
  | data hk heq => omega
  | finish heq =>
      subst heq
      have hok := ((uploadAccepts_iff reply).mp haccepts).2.2
      have hall : s.uploading.accepted id = chunksFrom img 0 := by
        rw [h.1.accepted (by omega) le_rfl, Nat.add_sub_cancel, List.take_length]
      obtain ⟨now, hreply, -, -⟩ := hserve
      have hrequest : Msg.otaFinish ∈ Msg.requests := by decide
      rw [s.uploading.reply_of_request id hrequest] at hreply
      obtain rfl := Option.some.inj hreply
      -- what the engine finished is what the link had accepted, which is the image
      have himage : SimOta.session s.engine.engine = some img := by
        have hreceived := h.1.assembled.received id ((finished_of_handleOtaFinish ⟨_, rfl, hok⟩).1)
        rw [hall, assemble_chunksFrom] at hreceived
        exact hreceived.1
      have hvalid := isSome_of_handleOtaFinish_sim hok
      unfold SimOta.session at himage
      split at himage
      · rw [← Option.some.inj himage]
        exact hvalid
      · exact nomatch himage

/-- **The upload of an image can be carried out** over a quiet link, on a simulator that runs a
confirmed image and no upload, exactly when the image has a descriptor. -/
theorem upload_possible_iff (hlength : img.length ≤ 2 ^ 32) {start : Station F SimOta}
    (hstart : start.Fresh errc true)
    (hidle : start.engine.engine.active = false)
    (hconfirmed : start.engine.engine.flash.pendingVerify = false) :
    (∃ s, ((runFlash errc true id img).system (· = start)).Reachable s ∧
        s.client = .ready (uploadPlan img).length) ↔
      (parseImageDesc img).isSome = true := by
  constructor
  · rintro ⟨s, hs, hclient⟩
    have hstage := (serves_runFlash_sim (F := F) true img).of_reachable
      (fun _ heq => ⟨heq ▸ hstart.holds SimOta.counting img, fun hn => absurd hn (by omega)⟩) hs
    refine (hstage.server_of_ready hclient).2 ?_
    rw [length_uploadPlan]
    omega
  · intro hvalid
    have hready : SimStage img id 0 start := ⟨hidle, hconfirmed⟩
    obtain ⟨done, hreached, -⟩ := StopAndWait.exists_completed
      (E := runFlash errc true id img) (· = start)
      (fun h hplan => SimStage.next hlength hvalid h hplan) rfl hready
    exact ⟨_, hreached, rfl⟩

end Runs

/-! ## The smallest image -/

def freshStation : Station ℚ SimOta :=
  ⟨⟨{ freshTwoServices with shared := { freshTwoServices.shared with
      ota := ⟨freshTwoServices.shared.ota, []⟩ } }, fun _ => []⟩, []⟩

theorem fresh_freshStation : freshStation.Fresh hostErrc true :=
  ⟨.init ⟨⟨fun _ => rfl, rfl, rfl, rfl⟩, fun _ => rfl⟩, rfl⟩

theorem upload_possible_smallestImage :
    ∃ s, ((runFlash hostErrc true .vendor smallestImage).system
        (· = freshStation)).Reachable s ∧ s.client = .ready (uploadPlan smallestImage).length :=
  (upload_possible_iff (by decide +kernel) fresh_freshStation rfl rfl).mpr (by decide +kernel)

/-- An upload that is carried out has the engine finish the image once. -/
theorem upload_end_to_end_smallestImage :
    ∃ s, ((runFlash hostErrc true .vendor smallestImage).system
        (Station.Fresh (F := ℚ) hostErrc true)).Reachable s ∧
      s.client = .ready (uploadPlan smallestImage).length ∧
      s.server.finished.map SimOta.session = [some smallestImage] := by
  have hvalid : (parseImageDesc smallestImage).isSome = true := by decide +kernel
  have hready : SimStage smallestImage .vendor 0 freshStation := ⟨rfl, rfl⟩
  obtain ⟨done, hreached, -⟩ := StopAndWait.exists_completed
    (E := runFlash hostErrc true .vendor smallestImage)
    (Station.Fresh hostErrc true)
    (fun h hplan => SimStage.next (by decide +kernel) hvalid h hplan) fresh_freshStation hready
  exact ⟨_, hreached, rfl, (upload_end_to_end SimOta.counting hreached).2.1 rfl⟩

end OmegaStick
