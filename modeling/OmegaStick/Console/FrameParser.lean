import OmegaStick.Library.Scanner
import OmegaStick.Service.Wire

/-!
# The console's frame parser

The framing of `omega_protocol.js`: `crc32`, `buildFrame` and `FrameParser`.
The parser is a scanner: what it decides at a position depends on no byte it
has not seen.  Its clock, `lastActivity`, is read by `flushStale` alone and is
left out.
-/

namespace OmegaStick

namespace Console

/-! ## The checksum -/

/-- One round of the table's construction. -/
def crcRound (c : UInt32) : UInt32 :=
  if c &&& 1 ≠ 0 then (c >>> 1) ^^^ 0xEDB88320 else c >>> 1

/-- `CRC_TABLE` -/
def crcTable (i : UInt32) : UInt32 := crcRound^[8] i

def crc32 (bytes : List UInt8) : UInt32 :=
  ~~~ bytes.foldl (fun c byte => crcTable ((c ^^^ byte.toUInt32) &&& 0xFF) ^^^ (c >>> 8)) 0xFFFFFFFF

example : crc32 (ascii "123456789") = 0xCBF43926 := by decide +kernel

/-! ## Frames on the wire -/

def headerSize : ℕ := 9

def crcSize : ℕ := 4

/-- `MAX_PAYLOAD` -/
def maxPayload : ℕ := 4096

/-- `MAX_FRAME` -/
def maxFrame : ℕ := headerSize + maxPayload + crcSize

/-- `FLAGS_REQUEST` -/
def flagsRequest : UInt8 := 0x10

/-- `FLAGS_REPLY_BIT` -/
def flagsReplyBit : UInt8 := 0x01

/-- `FLAG_CORRELATION` -/
def flagCorrelation : UInt8 := 0x02

/-- What the checksum of a request covers. -/
def requestBody (moduleId type : UInt8) (payload : List UInt8) : List UInt8 :=
  [0x54, 0x4F, flagsRequest, moduleId, type] ++ putU32 (UInt32.ofNat payload.length) ++ payload

/-- `buildFrame`; `none` is the error for a payload that is too long. -/
def buildFrame (moduleId type : UInt8) (payload : List UInt8) : Option (List UInt8) :=
  if maxPayload < payload.length then none
  else
    some (requestBody moduleId type payload ++ putU32 (crc32 (requestBody moduleId type payload)))

/-- A frame as the parser returns it. -/
structure ParsedFrame where
  flags : UInt8
  reply : Bool
  correlation : Option UInt16
  moduleId : UInt8
  type : UInt8
  payload : List UInt8
  deriving DecidableEq, Repr

/-! ## One position -/

/-- The test of the inner loop: no frame can start here. -/
def noMagic : List UInt8 → Bool
  | [] => false
  | [first] => !(first == 0x54)
  | first :: second :: _ => !(first == 0x54 && second == 0x4F)

/-- The bytes the flags add to the header. -/
def headerExt (flags : UInt8) : ℕ := if flags &&& flagCorrelation ≠ 0 then 2 else 0

/-- The flags byte of the candidate at a position. -/
def flagsAt (merged : List UInt8) : UInt8 := merged.getD 2 0

/-- `headerSize`, with the correlation bytes. -/
def headerSizeAt (merged : List UInt8) : ℕ := headerSize + headerExt (flagsAt merged)

/-- `len` -/
def lenAt (merged : List UInt8) : ℕ := (getU32 (merged.drop (5 + headerExt (flagsAt merged)))).toNat

/-- `total` -/
def totalAt (merged : List UInt8) : ℕ := headerSizeAt merged + lenAt merged + crcSize

/-- The checksum the frame carries is that of its bytes. -/
def crcMatches (merged : List UInt8) : Bool :=
  let expected := getU32 (merged.drop (headerSizeAt merged + lenAt merged))
  let actual := crc32 (merged.take (headerSizeAt merged + lenAt merged))
  actual == expected

/-- The frame at a position. -/
def frameAt (merged : List UInt8) : ParsedFrame where
  flags := flagsAt merged
  reply := flagsAt merged &&& flagsReplyBit ≠ 0
  correlation :=
    if headerExt (flagsAt merged) = 0 then none
    else some ((merged.getD 5 0).toUInt16 ||| ((merged.getD 6 0).toUInt16 <<< 8))
  moduleId := merged.getD 3 0
  type := merged.getD 4 0
  payload := (merged.drop (headerSizeAt merged)).take (lenAt merged)

/-- What the parser makes of the bytes from a position on. -/
def lookAt (merged : List UInt8) : Look ParsedFrame :=
  if noMagic merged then .skip
  else if merged.length < 3 then .wait
  else if merged.length < headerSizeAt merged then .wait
  else if maxPayload < lenAt merged then .skip
  else if merged.length < totalAt merged then .wait
  else if !crcMatches merged then .skip
  else .take (totalAt merged) (frameAt merged)

/-! ## Later bytes change no decision -/

theorem noMagic_append {merged : List UInt8} (more : List UInt8) (h : 2 ≤ merged.length) :
    noMagic (merged ++ more) = noMagic merged := by
  match merged, h with
  | first :: second :: rest, _ => rfl

theorem noMagic_append_of_noMagic {merged : List UInt8} (more : List UInt8)
    (h : noMagic merged = true) : noMagic (merged ++ more) = true := by
  match merged, h with
  | [first], h =>
      cases more with
      | nil => simpa using h
      | cons second rest =>
          simp only [noMagic, Bool.not_eq_true', beq_eq_false_iff_ne] at h
          simp [noMagic, h]
  | first :: second :: rest, h => exact h

theorem getU32_append {data : List UInt8} (more : List UInt8) (h : 4 ≤ data.length) :
    getU32 (data ++ more) = getU32 data := by
  match data, h with
  | a :: b :: c :: d :: rest, _ => rfl

theorem getU32_drop_append {data : List UInt8} (more : List UInt8) {offset : ℕ}
    (h : offset + 4 ≤ data.length) :
    getU32 ((data ++ more).drop offset) = getU32 (data.drop offset) := by
  rw [List.drop_append_of_le_length (by omega), getU32_append]
  rw [List.length_drop]
  omega

theorem headerExt_le (flags : UInt8) : headerExt flags ≤ 2 := by
  unfold headerExt
  split_ifs <;> omega

section Append

variable {merged : List UInt8} (more : List UInt8)

theorem flagsAt_append (h : 3 ≤ merged.length) : flagsAt (merged ++ more) = flagsAt merged := by
  match merged, h with
  | a :: b :: c :: rest, _ => rfl

theorem headerSizeAt_append (h : 3 ≤ merged.length) :
    headerSizeAt (merged ++ more) = headerSizeAt merged := by
  rw [headerSizeAt, flagsAt_append more h, headerSizeAt]

theorem lenAt_append (h : headerSizeAt merged ≤ merged.length) :
    lenAt (merged ++ more) = lenAt merged := by
  unfold headerSizeAt headerSize at h
  rw [lenAt, flagsAt_append more (by omega), getU32_drop_append more (by omega), lenAt]

theorem totalAt_append (h : headerSizeAt merged ≤ merged.length) :
    totalAt (merged ++ more) = totalAt merged := by
  have hthree : 3 ≤ merged.length := by
    unfold headerSizeAt headerSize at h
    omega
  rw [totalAt, headerSizeAt_append more hthree, lenAt_append more h, totalAt]

theorem headerSizeAt_le_totalAt (merged : List UInt8) : headerSizeAt merged ≤ totalAt merged := by
  unfold totalAt
  omega

theorem crcMatches_append (h : totalAt merged ≤ merged.length) :
    crcMatches (merged ++ more) = crcMatches merged := by
  have hheader := (headerSizeAt_le_totalAt merged).trans h
  have hthree : 3 ≤ merged.length := by
    unfold headerSizeAt headerSize at hheader
    omega
  unfold totalAt crcSize at h
  unfold crcMatches
  rw [headerSizeAt_append more hthree, lenAt_append more hheader,
    getU32_drop_append more (by omega), List.take_append_of_le_length (by omega)]

theorem frameAt_append (h : totalAt merged ≤ merged.length) :
    frameAt (merged ++ more) = frameAt merged := by
  have hheader := (headerSizeAt_le_totalAt merged).trans h
  have hnine : 9 ≤ merged.length := by
    unfold headerSizeAt headerSize at hheader
    omega
  have hbyte : ∀ i < 9, (merged ++ more).getD i 0 = merged.getD i 0 := fun i hi => by
    rw [List.getD_eq_getElem?_getD, List.getD_eq_getElem?_getD,
      List.getElem?_append_left (by omega)]
  unfold totalAt crcSize at h
  unfold frameAt
  rw [flagsAt_append more (by omega), headerSizeAt_append more (by omega),
    lenAt_append more hheader, List.drop_append_of_le_length hheader,
    List.take_append_of_le_length (by rw [List.length_drop]; omega), hbyte 3 (by omega),
    hbyte 4 (by omega), hbyte 5 (by omega), hbyte 6 (by omega)]

/-- What was decided from the bytes at hand is decided from more of them. -/
theorem lookAt_append (h : lookAt merged ≠ .wait) : lookAt (merged ++ more) = lookAt merged := by
  have hlength := @List.length_append _ merged more
  by_cases hmagic : noMagic merged = true
  · rw [lookAt, if_pos (noMagic_append_of_noMagic more hmagic), lookAt, if_pos hmagic]
  by_cases hthree : merged.length < 3
  · rw [lookAt, if_neg hmagic, if_pos hthree] at h
    exact absurd rfl h
  by_cases hheader : merged.length < headerSizeAt merged
  · rw [lookAt, if_neg hmagic, if_neg hthree, if_pos hheader] at h
    exact absurd rfl h
  have hmagic' : ¬ noMagic (merged ++ more) = true := by
    rwa [noMagic_append more (by omega)]
  have hlen := @lenAt_append merged more (by omega)
  have hsize := @headerSizeAt_append merged more (by omega)
  by_cases hlong : maxPayload < lenAt merged
  · rw [lookAt, if_neg hmagic', if_neg (by omega), if_neg (by omega), if_pos (by omega), lookAt,
      if_neg hmagic, if_neg hthree, if_neg hheader, if_pos hlong]
  have htotal := @totalAt_append merged more (by omega)
  by_cases hshort : merged.length < totalAt merged
  · rw [lookAt, if_neg hmagic, if_neg hthree, if_neg hheader, if_neg hlong, if_pos hshort] at h
    exact absurd rfl h
  rw [lookAt, if_neg hmagic', if_neg (by omega), if_neg (by omega), if_neg (by omega),
    if_neg (by omega), crcMatches_append more (by omega), frameAt_append more (by omega), htotal,
    lookAt, if_neg hmagic, if_neg hthree, if_neg hheader, if_neg hlong, if_neg hshort]

end Append

theorem lookAt_nil : lookAt [] = .wait := rfl

/-- A frame is taken whole. -/
theorem totalAt_of_take {merged : List UInt8} {total : ℕ} {frame : ParsedFrame}
    (h : lookAt merged = .take total frame) :
    total = totalAt merged ∧ frame = frameAt merged ∧ totalAt merged ≤ merged.length ∧
      lenAt merged ≤ maxPayload ∧ crcMatches merged = true ∧ noMagic merged = false := by
  unfold lookAt at h
  split_ifs at h with hmagic hthree hheader hlong hshort hcrc
  obtain ⟨htotal, hframe⟩ := Look.take.inj h
  simp only [Bool.not_eq_true, Bool.not_eq_true'] at hmagic hcrc
  exact ⟨htotal.symm, hframe.symm, by omega, by omega, by simpa using hcrc, hmagic⟩

/-- The parser as a scanner. -/
def frameScanner : Scanner UInt8 ParsedFrame where
  look := lookAt
  look_nil := lookAt_nil
  take_length h := by
    obtain ⟨rfl, -, hle, -⟩ := totalAt_of_take h
    exact ⟨Nat.succ_pos _, hle⟩
  skip_append more h := by rw [lookAt_append more (by simp [h]), h]
  take_append more h := by rw [lookAt_append more (by simp [h]), h]

/-! ## The parser -/

/-- `FrameParser`: the bytes it waits on. -/
structure FrameParser where
  buf : List UInt8
  deriving DecidableEq, Repr

/-- What `feed` returns. -/
structure Fed where
  frames : List ParsedFrame
  text : List UInt8
  deriving DecidableEq, Repr

namespace FrameParser

def new : FrameParser := ⟨[]⟩

/-- `feed`: the frames in the bytes so far, the text around them, and the
parser with the bytes it could not decide on yet. -/
def feed (parser : FrameParser) (chunk : List UInt8) : Fed × FrameParser :=
  let scanned := frameScanner.scan (parser.buf ++ chunk)
  (⟨scanned.records, scanned.skipped⟩, ⟨scanned.rest⟩)

/-- A stream fed chunk by chunk: all the frames and all the text. -/
def feedAll (parser : FrameParser) : List (List UInt8) → Fed × FrameParser
  | [] => (⟨[], []⟩, parser)
  | chunk :: chunks =>
      let (fed, parser) := parser.feed chunk
      let (more, parser) := parser.feedAll chunks
      (⟨fed.frames ++ more.frames, fed.text ++ more.text⟩, parser)

end FrameParser

end Console

end OmegaStick
