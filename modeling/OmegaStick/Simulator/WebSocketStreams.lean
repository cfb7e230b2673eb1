import OmegaStick.Simulator.WebSocket

/-!
# What a client sends is what the decoder returns

A client's traffic are messages in masked fragments, with control frames anywhere between
the frames.  The decoder returns every message and every control frame where its last
frame ends, however the stream is cut, exactly when the control frames fit
(`Traffic.Roomy`): a control frame between two fragments counts for the size of the
message that is being put together.
-/

namespace OmegaStick

namespace WebSocket

/-! ## A frame that was encoded -/

section Frame

theorem length_mask (key payload : Bytes) : (mask key payload).length = payload.length :=
  List.length_mapIdx

theorem mask_mask (key payload : Bytes) : mask key (mask key payload) = payload := by
  unfold mask
  rw [List.mapIdx_mapIdx]
  refine List.ext_getElem (List.length_mapIdx ..) fun i h₁ h₂ => ?_
  rw [List.getElem_mapIdx]
  change payload[i] ^^^ _ ^^^ _ = payload[i]
  rw [UInt8.xor_assoc, UInt8.xor_self, UInt8.xor_zero]

/-- The bytes of a number, the high one first, are read as the number. -/
theorem foldl_bytes (n k acc : ℕ) :
    ((List.range k).reverse.map fun i => UInt8.ofNat (n >>> (i * 8))).foldl
      (fun len b => len <<< 8 ||| b.toNat) acc = acc * 256 ^ k + n % 256 ^ k := by
  induction k generalizing acc with
  | zero => simp [Nat.mod_one]
  | succ k ih =>
      have hbyte : (UInt8.ofNat (n >>> (k * 8))).toNat = n / 256 ^ k % 256 := by
        rw [UInt8.toNat_ofNat', Nat.shiftRight_eq_div_pow, Nat.mul_comm k 8, Nat.pow_mul]
      have hor : acc <<< 8 ||| (UInt8.ofNat (n >>> (k * 8))).toNat =
          acc * 256 + n / 256 ^ k % 256 := by
        rw [← Nat.shiftLeft_add_eq_or_of_lt (UInt8.toNat_lt _), hbyte, Nat.shiftLeft_eq]
      rw [List.range_succ, List.reverse_append, List.reverse_singleton, List.singleton_append,
        List.map_cons, List.foldl_cons, hor, ih, Nat.mod_pow_succ]
      ring

/-- The length of a masked frame is read back, wherever the rest of the frame ends. -/
theorem exists_lengthBytes {size : ℕ} (hsize : size < 2 ^ 64) :
    ∃ b1 more, lengthBytes 0x80 size = b1 :: more ∧ b1 &&& 0x80 ≠ 0 ∧
      (size ≤ 125 → (b1 &&& 0x7F).toNat = size) ∧
      ∀ b0 rest, readLength (b1 &&& 0x7F).toNat (b0 :: b1 :: (more ++ rest)) =
        some (size, more.length + 2) := by
  unfold lengthBytes
  split_ifs with hshort hmiddle
  · have hbyte : ∀ n < 126, 0x80 ||| UInt8.ofNat n &&& 0x80 ≠ 0 ∧
        ((0x80 ||| UInt8.ofNat n) &&& 0x7F).toNat = n := by decide +kernel
    have hmask : ∀ n < 126, (0x80 ||| UInt8.ofNat n) &&& 0x80 ≠ 0 := by decide +kernel
    have hvalue := (hbyte size hshort).2
    refine ⟨_, [], rfl, hmask size hshort, fun _ => hvalue, fun b0 rest => ?_⟩
    rw [hvalue, readLength, if_neg (by omega), if_neg (by omega)]
    rfl
  · refine ⟨0xFE, [UInt8.ofNat (size >>> 8), UInt8.ofNat size], rfl, by decide,
      fun h => absurd h (by omega), fun b0 rest => ?_⟩
    have hvalue : (0 <<< 8 ||| (UInt8.ofNat (size >>> 8)).toNat) <<< 8 |||
        (UInt8.ofNat size).toNat = 0 * 256 ^ 2 + size % 256 ^ 2 := foldl_bytes size 2 0
    have hlength : ¬ (b0 :: 0xFE :: ([UInt8.ofNat (size >>> 8), UInt8.ofNat size] ++
        rest)).length < 4 := by simp
    change (if _ then _ else _) = _
    rw [if_neg hlength]
    change some ((UInt8.ofNat (size >>> 8)).toNat <<< 8 ||| (UInt8.ofNat size).toNat, 4) = _
    rw [Nat.mod_eq_of_lt (by omega), Nat.zero_shiftLeft, Nat.zero_or, Nat.zero_mul,
      Nat.zero_add] at hvalue
    rw [hvalue]
    rfl
  · refine ⟨0xFF, (List.range 8).reverse.map fun i => UInt8.ofNat (size >>> (i * 8)), rfl,
      by decide, fun h => absurd h (by omega), fun b0 rest => ?_⟩
    have hvalue := foldl_bytes size 8 0
    rw [Nat.mod_eq_of_lt (by simpa using hsize), Nat.zero_mul, Nat.zero_add] at hvalue
    have hlength : ¬ (b0 :: 0xFF :: (((List.range 8).reverse.map fun i =>
        UInt8.ofNat (size >>> (i * 8))) ++ rest)).length < 10 := by simp
    change (if _ then _ else _) = _
    rw [if_neg hlength]
    have htake : (((b0 :: 0xFF :: (((List.range 8).reverse.map fun i =>
        UInt8.ofNat (size >>> (i * 8))) ++ rest)).drop 2).take 8) =
        (List.range 8).reverse.map fun i => UInt8.ofNat (size >>> (i * 8)) := by
      rw [List.drop_succ_cons, List.drop_succ_cons, List.drop_zero]
      exact List.take_left' (by simp)
    rw [htake, hvalue]
    simp

theorem ofCode_code (op : Op) : Op.ofCode op.code = some op := by cases op <;> rfl

/-- The first byte says which frame it is. -/
theorem firstByte (op : Op) (fin : Bool) :
    ((if fin then 0x80 else 0x00) ||| op.code) &&& 0x70 = 0 ∧
      decide (((if fin then 0x80 else 0x00) ||| op.code) &&& 0x80 ≠ 0) = fin ∧
      ((if fin then 0x80 else 0x00) ||| op.code) &&& 0x0F = op.code := by
  cases fin <;> cases op <;> decide

/-- What the parser makes of an encoded frame. -/
theorem parseOne_encodeFrame (a : Assembly) {op : Op} {payload key : Bytes} {fin : Bool}
    (hkey : key.length = 4) (hsize : payload.length < 2 ^ 64)
    (hcontrol : op.isControl = true → fin = true ∧ payload.length ≤ 125) :
    parseOne a (encodeFrame op payload fin (some key)) =
      if kMaxMessageSize < payload.length || kMaxMessageSize < a.msg.length + payload.length then
        .bad .tooBig
      else
        match a.accept op fin payload with
        | none => .bad .protocolError
        | some (t, out) =>
            .took (encodeFrame op payload fin (some key)).length t out := by
  obtain ⟨b1, more, hbytes, hmasked, hshort, hread⟩ := exists_lengthBytes hsize
  obtain ⟨hreserved, hfin, hcode⟩ := firstByte op fin
  have hframe : encodeFrame op payload fin (some key) =
      ((if fin then 0x80 else 0x00) ||| op.code) :: b1 :: (more ++ (key ++ mask key payload)) := by
    rw [encodeFrame]
    change _ :: (lengthBytes 0x80 payload.length ++ _) = _
    rw [hbytes]
    rfl
  have hlength : (encodeFrame op payload fin (some key)).length =
      more.length + 2 + 4 + payload.length := by
    rw [hframe]
    simp only [List.length_cons, List.length_append, hkey, length_mask]
    omega
  rw [hlength, hframe, parseOne]
  dsimp only
  have hopen : ¬ (decide (((if fin then 0x80 else 0x00) ||| op.code) &&& 0x70 ≠ 0) ||
      decide (b1 &&& 0x80 = 0)) = true := by
    rw [Bool.or_eq_true, decide_eq_true_eq, decide_eq_true_eq, not_or]
    exact ⟨not_not.mpr hreserved, hmasked⟩
  rw [if_neg hopen, hcode, ofCode_code]
  dsimp only
  have hsmall : ¬ (op.isControl && (!decide (((if fin then 0x80 else 0x00) ||| op.code) &&&
      0x80 ≠ 0) || decide (125 < (b1 &&& 0x7F).toNat))) = true := by
    rw [hfin]
    intro hbad
    rw [Bool.and_eq_true, Bool.or_eq_true, decide_eq_true_eq] at hbad
    obtain ⟨hfinal, hle⟩ := hcontrol hbad.1
    rw [hshort hle, hfinal] at hbad
    rcases hbad.2 with h | h
    · cases h
    · omega
  rw [if_neg hsmall, hread]
  dsimp only
  have hall : ¬ (((if fin then 0x80 else 0x00) ||| op.code) :: b1 ::
      (more ++ (key ++ mask key payload))).length < more.length + 2 + 4 + payload.length := by
    simp only [List.length_cons, List.length_append, hkey, length_mask]
    omega
  have hdropKey : (((if fin then 0x80 else 0x00) ||| op.code) :: b1 ::
      (more ++ (key ++ mask key payload))).drop (more.length + 2) = key ++ mask key payload := by
    rw [List.drop_succ_cons, List.drop_succ_cons, List.drop_left]
  have hdropPayload : (((if fin then 0x80 else 0x00) ||| op.code) :: b1 ::
      (more ++ (key ++ mask key payload))).drop (more.length + 2 + 4) = mask key payload := by
    rw [← hkey, ← List.drop_drop, hdropKey, List.drop_left]
  have htake : (mask key payload).take payload.length = mask key payload :=
    List.take_of_length_le (by rw [length_mask])
  rw [if_neg hall, hdropKey, hdropPayload, List.take_left' hkey, htake, mask_mask]
  cases haccept : a.accept op fin payload with
  | none => rw [hfin, haccept]
  | some accepted => rw [hfin, haccept]

end Frame

/-! ## A decoder and the stream so far -/

section Stream

/-- A decoder stands where the parser does. -/
theorem feedAll_eq {d : Decoder} {p : Progress UInt8 Assembly Message Refusal}
    (hstate : p.state = d.assembly) (hrefused : p.refused = d.status)
    (hrest : d.status = none → p.rest = d.buf) (chunks : List Bytes) :
    (d.feedAll chunks).1.status = (decoder.feedAll p chunks).refused ∧
      p.out ++ (d.feedAll chunks).2 = (decoder.feedAll p chunks).out := by
  induction chunks generalizing d p with
  | nil => exact ⟨hrefused.symm, List.append_nil _⟩
  | cons chunk chunks ih =>
      rw [Decoder.feedAll, Incremental.feedAll, List.foldl_cons, ← Incremental.feedAll,
        Decoder.feed, Incremental.feed, hrefused]
      cases hstatus : d.status with
      | some reason =>
          obtain ⟨hlater, hout⟩ := ih (d := d) (p := p) hstate hrefused hrest
          exact ⟨hlater, hout⟩
      | none =>
          rw [hstate, hrest hstatus]
          dsimp only
          obtain ⟨hlater, hout⟩ := ih
            (d := ⟨if (decoder.run d.assembly (d.buf ++ chunk)).refused.isSome then d.buf ++ chunk
              else (decoder.run d.assembly (d.buf ++ chunk)).rest,
              (decoder.run d.assembly (d.buf ++ chunk)).state,
              (decoder.run d.assembly (d.buf ++ chunk)).refused⟩)
            (p := { decoder.run d.assembly (d.buf ++ chunk) with
              out := p.out ++ (decoder.run d.assembly (d.buf ++ chunk)).out }) rfl rfl
            (fun h => by
              dsimp only at h ⊢
              rw [h]
              rfl)
          refine ⟨hlater, Eq.trans ?_ hout⟩
          rw [← List.append_assoc]
          rfl

/-- Where a new decoder and its parser start. -/
def idle : Assembly := ⟨[], .text, false⟩

/-- The pieces of a stream give what the whole stream gives. -/
theorem feedAll_new (chunks : List Bytes) :
    (Decoder.new.feedAll chunks).1.status = (decoder.run idle chunks.flatten).refused ∧
      (Decoder.new.feedAll chunks).2 = (decoder.run idle chunks.flatten).out := by
  obtain ⟨hstatus, hout⟩ := feedAll_eq (d := Decoder.new) (p := ⟨idle, [], [], none⟩) rfl rfl
    (fun _ => rfl) chunks
  obtain ⟨hrefused, hrun⟩ := Incremental.feedAll_eq_run (M := decoder)
    (p := ⟨idle, [], [], none⟩) rfl rfl chunks
  exact ⟨hstatus.trans hrefused, hout.trans hrun⟩

theorem feed_new (bytes : Bytes) :
    (Decoder.new.feed bytes).1.status = (decoder.run idle bytes).refused ∧
      (Decoder.new.feed bytes).2 = (decoder.run idle bytes).out := ⟨rfl, rfl⟩

end Stream

/-! ## Traffic -/

/-- A control frame as a client sends it. -/
structure ControlFrame where
  op : Op
  payload : Bytes
  key : Bytes
  isControl : op.isControl = true
  small : payload.length ≤ 125
  length_key : key.length = 4

/-- A fragment of a message, and the control frames the client sends behind it. -/
structure Fragment where
  payload : Bytes
  key : Bytes
  length_key : key.length = 4
  controls : List ControlFrame

/-- A message in fragments, of which the last one ends it. -/
structure ClientMessage where
  op : Op
  parts : List Fragment
  last : Fragment
  isData : op = .text ∨ op = .binary
  small : (parts.flatMap Fragment.payload ++ last.payload).length ≤ kMaxMessageSize

/-- What a client sends: control frames, then messages. -/
structure Traffic where
  before : List ControlFrame
  messages : List ClientMessage

/-- A frame's bytes, and what is returned where it ends. -/
def ControlFrame.piece (c : ControlFrame) : Bytes × List Message :=
  (encodeFrame c.op c.payload true (some c.key), [⟨c.op, c.payload⟩])

/-- The frames of a message of which `sent` has been sent; the next fragment has the opcode
`head`. -/
def piecesFrom (op : Op) : Op → Bytes → List Fragment → Fragment → List (Bytes × List Message)
  | head, sent, [], last =>
      (encodeFrame head last.payload true (some last.key), [⟨op, sent ++ last.payload⟩]) ::
        last.controls.map ControlFrame.piece
  | head, sent, part :: parts, last =>
      (encodeFrame head part.payload false (some part.key), []) ::
        (part.controls.map ControlFrame.piece ++
          piecesFrom op .continuation (sent ++ part.payload) parts last)

def ClientMessage.pieces (m : ClientMessage) : List (Bytes × List Message) :=
  piecesFrom m.op m.op [] m.parts m.last

def Traffic.pieces (t : Traffic) : List (Bytes × List Message) :=
  t.before.map ControlFrame.piece ++ t.messages.flatMap ClientMessage.pieces

/-- However a beginning of the stream is cut, the decoder has returned what ends in it. -/
def Traffic.Delivered (t : Traffic) : Prop :=
  ∀ chunks : List Bytes, chunks.flatten <+: t.pieces.flatMap Prod.fst →
    (Decoder.new.feedAll chunks).1.status = none ∧
      (Decoder.new.feedAll chunks).2 = Incremental.givenBy chunks.flatten.length t.pieces

/-- The control frames behind fragments that do not end the message fit beside what was
sent of it. -/
def roomyFrom : ℕ → List Fragment → Prop
  | _, [] => True
  | sent, part :: parts =>
      (∀ c ∈ part.controls,
        sent + part.payload.length + c.payload.length ≤ kMaxMessageSize) ∧
        roomyFrom (sent + part.payload.length) parts

def Traffic.Roomy (t : Traffic) : Prop := ∀ m ∈ t.messages, roomyFrom 0 m.parts

/-! ## Frame by frame -/

section Frames

variable {a : Assembly} {op head : Op} {sent : Bytes}

theorem step_control (a : Assembly) (c : ControlFrame) :
    decoder.step a c.piece.1 =
      if a.msg.length + c.payload.length ≤ kMaxMessageSize then
        .took c.piece.1.length a c.piece.2
      else .bad .tooBig := by
  have hsmall := c.small
  have hmax : kMaxMessageSize = 1048576 := rfl
  change parseOne a (encodeFrame c.op c.payload true (some c.key)) = _
  rw [parseOne_encodeFrame a c.length_key (by omega) fun _ => ⟨rfl, hsmall⟩]
  have haccept : a.accept c.op true c.payload = some (a, [⟨c.op, c.payload⟩]) :=
    if_pos c.isControl
  have hfits : (decide (kMaxMessageSize < c.payload.length) ||
      decide (kMaxMessageSize < a.msg.length + c.payload.length)) = true ↔
      ¬ a.msg.length + c.payload.length ≤ kMaxMessageSize := by
    rw [Bool.or_eq_true, decide_eq_true_eq, decide_eq_true_eq]
    omega
  rw [haccept]
  by_cases hle : a.msg.length + c.payload.length ≤ kMaxMessageSize
  · rw [if_neg (mt hfits.mp (not_not.mpr hle)), if_pos hle]
    rfl
  · rw [if_pos (hfits.mpr hle), if_neg hle]

/-- The decoder waits for a fragment with the opcode `head`, behind `sent`. -/
def Ready (op : Op) (a : Assembly) (head : Op) (sent : Bytes) : Prop :=
  (head = .continuation ∧ a = ⟨sent, op, true⟩) ∨
    (head = op ∧ sent = [] ∧ a.msg = [] ∧ a.inMessage = false)

theorem Ready.msg (h : Ready op a head sent) : a.msg = sent := by
  rcases h with ⟨-, rfl⟩ | ⟨-, rfl, hmsg, -⟩
  · rfl
  · exact hmsg

theorem step_fragment (h : Ready op a head sent) (hop : op = .text ∨ op = .binary) {f : Fragment}
    (hfits : (sent ++ f.payload).length ≤ kMaxMessageSize) (fin : Bool) :
    decoder.step a (encodeFrame head f.payload fin (some f.key)) =
      .took (encodeFrame head f.payload fin (some f.key)).length
        (Assembly.finish fin ⟨sent ++ f.payload, op, true⟩).1
        (Assembly.finish fin ⟨sent ++ f.payload, op, true⟩).2 := by
  have hmax : kMaxMessageSize = 1048576 := rfl
  have hdata : head.isControl = false := by
    rcases h with ⟨rfl, -⟩ | ⟨rfl, -⟩
    · rfl
    · rcases hop with rfl | rfl <;> rfl
  rw [List.length_append] at hfits
  change parseOne a _ = _
  rw [parseOne_encodeFrame a f.length_key (by omega)
    fun hcontrol => absurd hcontrol (by rw [hdata]; decide), h.msg]
  have hroom : ¬ (decide (kMaxMessageSize < f.payload.length) ||
      decide (kMaxMessageSize < sent.length + f.payload.length)) = true := by
    rw [Bool.or_eq_true, decide_eq_true_eq, decide_eq_true_eq]
    omega
  have haccept : a.accept head fin f.payload =
      some (Assembly.finish fin ⟨sent ++ f.payload, op, true⟩) := by
    rw [Assembly.accept, if_neg (by rw [hdata]; decide)]
    rcases h with ⟨rfl, rfl⟩ | ⟨rfl, rfl, -, hidle⟩
    · rfl
    · have hne : head ≠ .continuation := by rcases hop with rfl | rfl <;> decide
      rw [if_neg hne, if_neg (by rw [hidle]; decide)]
      rfl
  rw [if_neg hroom, haccept]

/-! ### Traffic that is taken -/

theorem accepts_controls {controls : List ControlFrame}
    (h : ∀ c ∈ controls, a.msg.length + c.payload.length ≤ kMaxMessageSize) :
    decoder.Accepts a (controls.map ControlFrame.piece) a := by
  induction controls with
  | nil => exact .nil a
  | cons c rest ih =>
      obtain ⟨hc, hrest⟩ := List.forall_mem_cons.mp h
      have hstep := step_control a c
      rw [if_pos hc] at hstep
      exact .cons hstep (ih hrest)

theorem small_controls (op : Op) (controls : List ControlFrame) :
    ∀ c ∈ controls, (⟨[], op, false⟩ : Assembly).msg.length + c.payload.length ≤
      kMaxMessageSize := by
  intro c _
  have hsmall := c.small
  have hmax : kMaxMessageSize = 1048576 := rfl
  rw [List.length_nil]
  omega

theorem accepts_from (hop : op = .text ∨ op = .binary) {parts : List Fragment} {last : Fragment}
    (h : Ready op a head sent)
    (hsmall : (sent ++ (parts.flatMap Fragment.payload ++ last.payload)).length ≤ kMaxMessageSize)
    (hroomy : roomyFrom sent.length parts) :
    decoder.Accepts a (piecesFrom op head sent parts last) ⟨[], op, false⟩ := by
  induction parts generalizing a head sent with
  | nil =>
      rw [piecesFrom]
      exact .cons (step_fragment h hop hsmall true) (accepts_controls (small_controls op _))
  | cons part parts ih =>
      rw [List.flatMap_cons, List.append_assoc, ← List.append_assoc] at hsmall
      obtain ⟨hcontrols, hlater⟩ := hroomy
      rw [← List.length_append] at hcontrols hlater
      have hfits : (sent ++ part.payload).length ≤ kMaxMessageSize := by
        rw [List.length_append] at hsmall
        omega
      rw [piecesFrom]
      exact .cons (step_fragment h hop hfits false)
        ((accepts_controls hcontrols).append (ih (.inl ⟨rfl, rfl⟩) hsmall hlater))

/-! ### Traffic that is not refused -/

theorem run_controls {controls : List ControlFrame} {later : Bytes}
    (h : (decoder.run a ((controls.map ControlFrame.piece).flatMap Prod.fst ++ later)).refused =
      none) :
    (∀ c ∈ controls, a.msg.length + c.payload.length ≤ kMaxMessageSize) ∧
      (decoder.run a later).refused = none := by
  induction controls with
  | nil => exact ⟨nofun, h⟩
  | cons c rest ih =>
      rw [List.map_cons, List.flatMap_cons, List.append_assoc] at h
      have hstep := step_control a c
      by_cases hc : a.msg.length + c.payload.length ≤ kMaxMessageSize
      · rw [if_pos hc] at hstep
        rw [Incremental.run_piece hstep] at h
        obtain ⟨hrest, hlater⟩ := ih h
        exact ⟨List.forall_mem_cons.mpr ⟨hc, hrest⟩, hlater⟩
      · -- the control frame is refused
        rw [if_neg hc] at hstep
        have hbad := decoder.step_append ((rest.map ControlFrame.piece).flatMap Prod.fst ++ later)
          (by rw [hstep]; nofun : decoder.step a c.piece.1 ≠ .more)
        rw [Incremental.run_of_bad (hbad.trans hstep)] at h
        cases h

theorem run_from (hop : op = .text ∨ op = .binary) {parts : List Fragment} {last : Fragment}
    (hready : Ready op a head sent)
    (hsmall : (sent ++ (parts.flatMap Fragment.payload ++ last.payload)).length ≤ kMaxMessageSize)
    {later : Bytes}
    (h : (decoder.run a ((piecesFrom op head sent parts last).flatMap Prod.fst ++ later)).refused =
      none) :
    roomyFrom sent.length parts ∧ (decoder.run ⟨[], op, false⟩ later).refused = none := by
  induction parts generalizing a head sent with
  | nil =>
      rw [piecesFrom, List.flatMap_cons, List.append_assoc,
        Incremental.run_piece (step_fragment hready hop hsmall true)] at h
      exact ⟨trivial, (run_controls h).2⟩
  | cons part parts ih =>
      rw [List.flatMap_cons, List.append_assoc, ← List.append_assoc] at hsmall
      have hfits : (sent ++ part.payload).length ≤ kMaxMessageSize := by
        rw [List.length_append] at hsmall
        omega
      rw [piecesFrom, List.flatMap_cons, List.append_assoc,
        Incremental.run_piece (step_fragment hready hop hfits false), List.flatMap_append,
        List.append_assoc] at h
      obtain ⟨hcontrols, hrest⟩ := run_controls h
      obtain ⟨hroomy, hlater⟩ := ih (.inl ⟨rfl, rfl⟩) hsmall hrest
      rw [roomyFrom, ← List.length_append]
      exact ⟨⟨hcontrols, hroomy⟩, hlater⟩

end Frames

/-! ## Whole streams -/

section Whole

theorem accepts_messages {messages : List ClientMessage} (op : Op)
    (hroomy : ∀ m ∈ messages, roomyFrom 0 m.parts) :
    ∃ a, decoder.Accepts ⟨[], op, false⟩ (messages.flatMap ClientMessage.pieces) a := by
  induction messages generalizing op with
  | nil => exact ⟨_, .nil _⟩
  | cons m messages ih =>
      obtain ⟨hm, hlater⟩ := List.forall_mem_cons.mp hroomy
      obtain ⟨a, ha⟩ := ih m.op hlater
      have hfirst : decoder.Accepts ⟨[], op, false⟩ m.pieces ⟨[], m.op, false⟩ :=
        accepts_from m.isData (.inr ⟨rfl, rfl, rfl, rfl⟩) m.small hm
      rw [List.flatMap_cons]
      exact ⟨a, hfirst.append ha⟩

theorem run_messages {messages : List ClientMessage} (op : Op)
    (h : (decoder.run ⟨[], op, false⟩
      ((messages.flatMap ClientMessage.pieces).flatMap Prod.fst)).refused = none) :
    ∀ m ∈ messages, roomyFrom 0 m.parts := by
  induction messages generalizing op with
  | nil => nofun
  | cons m messages ih =>
      rw [List.flatMap_cons, List.flatMap_append] at h
      obtain ⟨hm, hlater⟩ := run_from m.isData (.inr ⟨rfl, rfl, rfl, rfl⟩) m.small h
      exact List.forall_mem_cons.mpr ⟨hm, ih m.op hlater⟩

variable {t : Traffic}

theorem Traffic.Roomy.delivered (hroomy : t.Roomy) : t.Delivered := by
  intro chunks hchunks
  obtain ⟨a, hmessages⟩ := accepts_messages .text hroomy
  have haccepts : decoder.Accepts idle t.pieces a :=
    (accepts_controls (small_controls .text t.before)).append hmessages
  obtain ⟨hstatus, hout⟩ := feedAll_new chunks
  obtain ⟨hrefused, hgiven⟩ := Incremental.run_of_prefix haccepts hchunks
  exact ⟨hstatus.trans hrefused, hout.trans hgiven⟩

theorem Traffic.Delivered.roomy (hdelivered : t.Delivered) : t.Roomy := by
  -- the whole stream in one chunk
  have hwhole : [t.pieces.flatMap Prod.fst].flatten = t.pieces.flatMap Prod.fst :=
    List.flatten_singleton
  have hok := (hdelivered [t.pieces.flatMap Prod.fst] ⟨[], by rw [List.append_nil, hwhole]⟩).1
  rw [(feedAll_new _).1, hwhole, Traffic.pieces, List.flatMap_append] at hok
  exact run_messages .text (run_controls hok).2

/-- One frame that ends its message. -/
theorem feed_encodeFrame {op : Op} {payload key : Bytes} (hop : op ≠ .continuation)
    (hkey : key.length = 4) (hsize : payload.length ≤ kMaxMessageSize)
    (hcontrol : op.isControl = true → payload.length ≤ 125) :
    (Decoder.new.feed (encodeFrame op payload true (some key))).1.status = none ∧
      (Decoder.new.feed (encodeFrame op payload true (some key))).2 = [⟨op, payload⟩] := by
  have hmax : kMaxMessageSize = 1048576 := rfl
  obtain ⟨a, haccept⟩ : ∃ a, idle.accept op true payload = some (a, [⟨op, payload⟩]) := by
    rw [Assembly.accept, if_neg hop]
    by_cases h : op.isControl = true
    · rw [if_pos h]
      exact ⟨_, rfl⟩
    · rw [if_neg h]
      exact ⟨_, rfl⟩
  have hroom : ¬ (decide (kMaxMessageSize < payload.length) ||
      decide (kMaxMessageSize < idle.msg.length + payload.length)) = true := by
    rw [Bool.or_eq_true, decide_eq_true_eq, decide_eq_true_eq]
    change ¬ (_ ∨ kMaxMessageSize < 0 + payload.length)
    omega
  have hstep : decoder.step idle (encodeFrame op payload true (some key)) =
      .took (encodeFrame op payload true (some key)).length a [⟨op, payload⟩] := by
    change parseOne idle _ = _
    rw [parseOne_encodeFrame idle hkey (by omega) fun h => ⟨rfl, hcontrol h⟩, if_neg hroom, haccept]
  have haccepts : decoder.Accepts idle
      [(encodeFrame op payload true (some key), [⟨op, payload⟩])] a := .cons hstep (.nil a)
  have hall : encodeFrame op payload true (some key) <+:
      [(encodeFrame op payload true (some key), [(⟨op, payload⟩ : Message)])].flatMap Prod.fst := by
    exact ⟨[], by rw [List.append_nil, List.flatMap_singleton]⟩
  obtain ⟨hrefused, hout⟩ := Incremental.run_of_prefix haccepts hall
  obtain ⟨hstatus, hgiven⟩ := feed_new (encodeFrame op payload true (some key))
  refine ⟨hstatus.trans hrefused, hgiven.trans (hout.trans ?_)⟩
  rw [Incremental.givenBy, if_pos le_rfl, Incremental.givenBy, List.append_nil]

/-- **What a client sends is what the decoder returns**, each where its last frame ends,
exactly when the control frames between fragments fit; what the decoder makes of a stream
does not depend on how it is cut; and a frame is decoded to its payload under any key. -/
theorem decodes_iff (t : Traffic) :
    (t.Delivered ↔ t.Roomy) ∧
      (∀ chunks : List Bytes,
        (Decoder.new.feedAll chunks).1.status = (Decoder.new.feed chunks.flatten).1.status ∧
          (Decoder.new.feedAll chunks).2 = (Decoder.new.feed chunks.flatten).2) ∧
      ∀ (op : Op) (payload key : Bytes), op ≠ .continuation → key.length = 4 →
        payload.length ≤ kMaxMessageSize → (op.isControl = true → payload.length ≤ 125) →
          (Decoder.new.feed (encodeFrame op payload true (some key))).1.status = none ∧
            (Decoder.new.feed (encodeFrame op payload true (some key))).2 = [⟨op, payload⟩] :=
  ⟨⟨Traffic.Delivered.roomy, Traffic.Roomy.delivered⟩,
    fun chunks => ⟨(feedAll_new chunks).1.trans (feed_new _).1.symm,
      (feedAll_new chunks).2.trans (feed_new _).2.symm⟩,
    fun _ _ _ hop hkey hsize hcontrol => feed_encodeFrame hop hkey hsize hcontrol⟩

/-- A ping between two fragments, and a short text around it. -/
def pinged (payload : Bytes) (hsmall : payload.length ≤ kMaxMessageSize) : Traffic :=
  ⟨[], [⟨.text, [⟨payload, [1, 2, 3, 4], rfl, [⟨.ping, [0], [1, 2, 3, 4], rfl, by decide, rfl⟩]⟩],
    ⟨[], [1, 2, 3, 4], rfl, []⟩, .inl rfl, by simpa using hsmall⟩]⟩

theorem decodes_iff_pinged :
    (pinged [104, 105] (by decide)).Delivered ∧
      (Decoder.new.feed (encodeFrame .binary [7] true (some [1, 2, 3, 4]))).2 = [⟨.binary, [7]⟩] :=
  have hroomy : (pinged [104, 105] (by decide)).Roomy := by
    intro m hm
    obtain rfl := List.mem_singleton.mp hm
    refine ⟨?_, trivial⟩
    intro c hc
    obtain rfl := List.mem_singleton.mp hc
    decide
  have hdecodes := decodes_iff (pinged [104, 105] (by decide))
  ⟨hdecodes.1.mpr hroomy,
    (hdecodes.2.2 .binary [7] [1, 2, 3, 4] (by decide) rfl (by decide) (by decide)).2⟩

theorem length_lt_of_delivered {payload : Bytes} {hsmall : payload.length ≤ kMaxMessageSize}
    (h : (pinged payload hsmall).Delivered) : payload.length < kMaxMessageSize := by
  have hroomy := h.roomy _ (List.mem_singleton.mpr rfl)
  have hping : 0 + payload.length + 1 ≤ kMaxMessageSize :=
    hroomy.1 _ (List.mem_singleton.mpr rfl)
  omega

/-- A message of the largest size, all of it in the first fragment: the ping behind it is
counted as part of the message, and the stream is refused as too big. -/
theorem not_delivered_largest :
    ¬ (pinged (List.replicate kMaxMessageSize 0)
      (by rw [List.length_replicate])).Delivered := by
  intro h
  have hlt := length_lt_of_delivered h
  rw [List.length_replicate] at hlt
  exact lt_irrefl _ hlt

end Whole

end WebSocket

end OmegaStick
