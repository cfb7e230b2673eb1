import Mathlib.Data.List.Infix
import OmegaStick.Console.FrameParser

/-!
# What the frame parser promises

Two promises of the framing.  The cuts of a stream do not matter and nothing of
it is lost, which is what a lawful scanner gives.  And frames come back: from
between text that never looks like a frame, and from any noise, as long as no
header in it happens to carry a matching checksum.  In noise a false header can
claim bytes of the frames behind it, but only until they have arrived: with
enough bytes behind the last frame no position waits, and the parser walks
through the noise byte by byte up to the next real frame.
-/

namespace OmegaStick

namespace Console

/-! ## The bytes of a frame -/

namespace ParsedFrame

def correlationBytes : Option UInt16 → List UInt8
  | none => []
  | some correlation => [correlation.toUInt8, (correlation >>> 8).toUInt8]

/-- The bytes the checksum covers. -/
def body (frame : ParsedFrame) : List UInt8 :=
  [0x54, 0x4F, frame.flags, frame.moduleId, frame.type] ++ correlationBytes frame.correlation ++
    putU32 (UInt32.ofNat frame.payload.length) ++ frame.payload

/-- The bytes of a frame on the wire. -/
def raw (frame : ParsedFrame) : List UInt8 := frame.body ++ putU32 (crc32 frame.body)

end ParsedFrame

theorem bytes_correlation (a b : UInt8) :
    (a.toUInt16 ||| (b.toUInt16 <<< 8)).toUInt8 = a ∧
      ((a.toUInt16 ||| (b.toUInt16 <<< 8)) >>> 8).toUInt8 = b := by
  have h8 : (8 : UInt16).toBitVec % 16 = 8#16 := by decide
  refine ⟨?_, ?_⟩ <;>
  · apply UInt8.eq_of_toBitVec_eq
    simp only [UInt16.toBitVec_or, UInt16.toBitVec_shiftLeft, UInt8.toBitVec_toUInt16,
      UInt16.toBitVec_toUInt8, UInt16.toBitVec_shiftRight, h8]
    ext i hi
    simp only [BitVec.getElem_setWidth, BitVec.getLsbD_or, BitVec.shiftLeft_eq',
      BitVec.ushiftRight_eq', BitVec.getLsbD_shiftLeft, BitVec.getLsbD_setWidth,
      BitVec.getLsbD_ushiftRight, BitVec.toNat_ofNat]
    rw [← BitVec.getLsbD_eq_getElem]
    grind

/-- The header of a candidate is read without loss. -/
theorem header_eq {merged : List UInt8} (hmagic : noMagic merged = false)
    (hheader : headerSizeAt merged ≤ merged.length) :
    [0x54, 0x4F, (frameAt merged).flags, (frameAt merged).moduleId, (frameAt merged).type] ++
        ParsedFrame.correlationBytes (frameAt merged).correlation ++
          putU32 (UInt32.ofNat (lenAt merged)) = merged.take (headerSizeAt merged) := by
  have hnine : 9 ≤ merged.length := by
    unfold headerSizeAt headerSize at hheader
    omega
  obtain ⟨a, b, flags, moduleId, type, c, d, e, f, rest, rfl⟩ : ∃ a b flags moduleId type c d e f,
      ∃ rest : List UInt8,
        merged = a :: b :: flags :: moduleId :: type :: c :: d :: e :: f :: rest := by
    rcases merged with _ | ⟨a, _ | ⟨b, _ | ⟨flags, _ | ⟨moduleId, _ | ⟨type, _ | ⟨c, _ | ⟨d, _ |
      ⟨e, _ | ⟨f, rest⟩⟩⟩⟩⟩⟩⟩⟩⟩
    case cons.cons.cons.cons.cons.cons.cons.cons.cons =>
      exact ⟨a, b, flags, moduleId, type, c, d, e, f, rest, rfl⟩
    all_goals simp at hnine
  case _ =>
      simp only [noMagic, Bool.not_eq_false', Bool.and_eq_true, beq_iff_eq] at hmagic
      obtain ⟨rfl, rfl⟩ := hmagic
      by_cases hext : flags &&& flagCorrelation = 0
      · simp [frameAt, flagsAt, headerSizeAt, headerExt, lenAt, headerSize, hext,
          ParsedFrame.correlationBytes, putU32_getU32]
      · simp only [headerSizeAt, headerExt, flagsAt, headerSize, List.getD_cons_succ,
          List.getD_cons_zero, ne_eq, hext, not_false_eq_true, ite_true,
          List.length_cons] at hheader
        obtain ⟨g, k, rest, rfl⟩ : ∃ g k, ∃ rest' : List UInt8, rest = g :: k :: rest' := by
          rcases rest with _ | ⟨g, _ | ⟨k, rest⟩⟩
          · simp at hheader
          · simp at hheader
          · exact ⟨g, k, rest, rfl⟩
        case _ =>
            have hcorrelation : ParsedFrame.correlationBytes
                (some (c.toUInt16 ||| (d.toUInt16 <<< 8))) = [c, d] := by
              rw [ParsedFrame.correlationBytes, (bytes_correlation c d).1,
                (bytes_correlation c d).2]
            simp [frameAt, flagsAt, headerSizeAt, headerExt, lenAt, headerSize, hext,
              hcorrelation, putU32_getU32]

/-- A frame taken is made of the bytes it was taken from. -/
theorem raw_of_take {merged : List UInt8} {total : ℕ} {frame : ParsedFrame}
    (h : lookAt merged = .take total frame) : frame.raw = merged.take total := by
  obtain ⟨rfl, rfl, hshort, hlong, hcrc, hmagic⟩ := totalAt_of_take h
  have hheader := (headerSizeAt_le_totalAt merged).trans hshort
  unfold totalAt crcSize at hshort
  have hlength : (frameAt merged).payload.length = lenAt merged := by
    simp only [frameAt, List.length_take, List.length_drop]
    omega
  have hbody : (frameAt merged).body = merged.take (headerSizeAt merged + lenAt merged) := by
    rw [ParsedFrame.body, hlength, header_eq hmagic hheader, List.take_add]
    rfl
  have hcrcBytes : putU32 (crc32 (frameAt merged).body) =
      (merged.drop (headerSizeAt merged + lenAt merged)).take crcSize := by
    rw [hbody, of_decide_eq_true hcrc]
    have hfour : 4 ≤ (merged.drop (headerSizeAt merged + lenAt merged)).length := by
      rw [List.length_drop]
      omega
    match merged.drop (headerSizeAt merged + lenAt merged), hfour with
    | a :: b :: c :: d :: rest, _ => exact putU32_getU32 a b c d rest
  rw [ParsedFrame.raw, hcrcBytes, hbody, totalAt,
    List.take_add (i := headerSizeAt merged + lenAt merged)]

/-! ## Cuts -/

/-- A piece of a stream: a byte of text, or a frame. -/
inductive Segment where
  | text (byte : UInt8)
  | frame (parsed : ParsedFrame)
  deriving DecidableEq, Repr

namespace Segment

def raw : Segment → List UInt8
  | .text byte => [byte]
  | .frame parsed => parsed.raw

def text? : Segment → Option UInt8
  | .text byte => some byte
  | .frame _ => none

def frame? : Segment → Option ParsedFrame
  | .text _ => none
  | .frame parsed => some parsed

/-- A piece of a scan as a segment. -/
def ofPiece : Scanner.Piece UInt8 ParsedFrame → Segment
  | .skipped byte => .text byte
  | .record _ parsed => .frame parsed

end Segment

/-- The stream a scan came from, in segments. -/
theorem scan_segments (stream : List UInt8) :
    ∃ segments : List Segment,
      segments.flatMap Segment.raw ++ (frameScanner.scan stream).rest = stream ∧
        segments.filterMap Segment.frame? = (frameScanner.scan stream).records ∧
        segments.filterMap Segment.text? = (frameScanner.scan stream).skipped := by
  obtain ⟨pieces, hraw, hrecords, hskipped, hlooked⟩ := frameScanner.scan_pieces stream
  have hsame : ∀ piece ∈ pieces, (Segment.ofPiece piece).raw = piece.raw := by
    intro piece hpiece
    cases piece with
    | skipped byte => rfl
    | record raw parsed =>
        obtain ⟨more, hlook⟩ := hlooked raw parsed hpiece
        rw [Segment.ofPiece, Segment.raw, raw_of_take hlook, List.take_left]
        rfl
  refine ⟨pieces.map Segment.ofPiece, ?_, ?_, ?_⟩
  · rw [List.flatMap_map, List.flatMap_congr hsame]
    exact hraw
  · rw [← hrecords, List.filterMap_map]
    refine List.filterMap_congr fun piece _ => ?_
    cases piece <;> rfl
  · rw [← hskipped, List.filterMap_map]
    refine List.filterMap_congr fun piece _ => ?_
    cases piece <;> rfl

/-- Feeding chunk by chunk is scanning the stream the chunks make. -/
theorem feedAll_eq_scan (chunks : List (List UInt8)) :
    ∀ parser : FrameParser, lookAt parser.buf = .wait →
      parser.feedAll chunks =
        (⟨(frameScanner.scan (parser.buf ++ chunks.flatten)).records,
          (frameScanner.scan (parser.buf ++ chunks.flatten)).skipped⟩,
          ⟨(frameScanner.scan (parser.buf ++ chunks.flatten)).rest⟩) := by
  induction chunks with
  | nil =>
      intro parser hwait
      rw [List.flatten_nil, List.append_nil, Scanner.scan_of_wait hwait]
      rfl
  | cons chunk chunks ih =>
      intro parser hwait
      rw [List.flatten_cons, ← List.append_assoc, Scanner.scan_append (parser.buf ++ chunk)]
      rw [FrameParser.feedAll, FrameParser.feed]
      dsimp only
      rw [ih ⟨(frameScanner.scan (parser.buf ++ chunk)).rest⟩
        (Scanner.look_rest (S := frameScanner) _)]

/-- **The cuts of a stream do not matter, and nothing of it is lost**: fed in
any chunks, a parser returns the frames and the text and keeps the bytes it
would from the whole stream at once, and these are the bytes of the stream,
each once and in order. -/
theorem feed_chunks (chunks : List (List UInt8)) :
    FrameParser.new.feedAll chunks = FrameParser.new.feed chunks.flatten ∧
      ∃ segments : List Segment,
        segments.flatMap Segment.raw ++ (FrameParser.new.feedAll chunks).2.buf = chunks.flatten ∧
          segments.filterMap Segment.frame? = (FrameParser.new.feedAll chunks).1.frames ∧
          segments.filterMap Segment.text? = (FrameParser.new.feedAll chunks).1.text := by
  have hscan := feedAll_eq_scan chunks FrameParser.new lookAt_nil
  rw [hscan]
  exact ⟨rfl, scan_segments chunks.flatten⟩

/-! ## Frames between text and noise -/

/-- The arguments of one `buildFrame`. -/
structure Request where
  moduleId : UInt8
  type : UInt8
  payload : List UInt8
  deriving DecidableEq, Repr

/-- A request as the parser returns it. -/
def Request.parsed (request : Request) : ParsedFrame :=
  ⟨flagsRequest, false, none, request.moduleId, request.type, request.payload⟩

/-- The stream of requests, each behind a run of other bytes, and of the bytes
behind the last; `none` when a payload is too long to be sent. -/
def stream (tail : List UInt8) : List (List UInt8 × Request) → Option (List UInt8)
  | [] => some tail
  | (before, request) :: segments => do
      let frame ← buildFrame request.moduleId request.type request.payload
      let rest ← stream tail segments
      some (before ++ frame ++ rest)

/-- A frame that was built is the bytes of what the parser is to return. -/
theorem buildFrame_eq_some {request : Request} {frame : List UInt8}
    (h : buildFrame request.moduleId request.type request.payload = some frame) :
    request.payload.length ≤ maxPayload ∧ frame = request.parsed.raw := by
  unfold buildFrame at h
  split_ifs at h with hlong
  exact ⟨Nat.le_of_not_lt hlong, (Option.some.inj h).symm⟩

/-- The bytes of a request, part by part. -/
theorem raw_request (request : Request) :
    request.parsed.raw = 0x54 :: 0x4F :: flagsRequest :: request.moduleId :: request.type ::
        (putU32 (UInt32.ofNat request.payload.length) ++
          (request.payload ++ putU32 (crc32 request.parsed.body))) ∧
      request.parsed.body.length = headerSize + request.payload.length ∧
        request.parsed.raw.length = headerSize + request.payload.length + crcSize := by
  have hbody : request.parsed.body = 0x54 :: 0x4F :: flagsRequest :: request.moduleId ::
      request.type :: (putU32 (UInt32.ofNat request.payload.length) ++ request.payload) := by
    simp [ParsedFrame.body, Request.parsed, ParsedFrame.correlationBytes]
  have hlength : request.parsed.body.length = headerSize + request.payload.length := by
    rw [hbody]
    simp only [List.length_cons, List.length_append, length_putU32, headerSize]
    omega
  refine ⟨?_, hlength, ?_⟩
  · rw [ParsedFrame.raw]
    conv_lhs => rw [hbody]
    simp [hbody]
  · rw [ParsedFrame.raw, List.length_append, hlength]
    rfl

/-- The parser finds a request at its first byte, whatever follows it. -/
theorem lookAt_request {request : Request} (h : request.payload.length ≤ maxPayload)
    (rest : List UInt8) :
    lookAt (request.parsed.raw ++ rest) = .take request.parsed.raw.length request.parsed := by
  obtain ⟨hraw, hbodyLength, hrawLength⟩ := raw_request request
  have hflags : flagsAt request.parsed.raw = flagsRequest := by rw [hraw]; rfl
  have hext : headerExt flagsRequest = 0 := by decide
  have hsize : headerSizeAt request.parsed.raw = headerSize := by
    rw [headerSizeAt, hflags, hext]
    rfl
  have hlen : lenAt request.parsed.raw = request.payload.length := by
    have hdrop : request.parsed.raw.drop 5 = putU32 (UInt32.ofNat request.payload.length) ++
        (request.payload ++ putU32 (crc32 request.parsed.body)) := by rw [hraw]; rfl
    unfold maxPayload at h
    rw [lenAt, hflags, hext, Nat.add_zero, hdrop, getU32_putU32, UInt32.toNat_ofNat']
    omega
  have htotal : totalAt request.parsed.raw = request.parsed.raw.length := by
    rw [totalAt, hsize, hlen, hrawLength]
  have hcrc : crcMatches request.parsed.raw = true := by
    have hread := getU32_putU32 (crc32 request.parsed.body) []
    rw [List.append_nil] at hread
    rw [crcMatches, hsize, hlen, ← hbodyLength, ParsedFrame.raw, List.drop_left, List.take_left,
      hread]
    exact beq_self_eq_true _
  have hframe : frameAt request.parsed.raw = request.parsed := by
    have hdrop : request.parsed.raw.drop headerSize =
        request.payload ++ putU32 (crc32 request.parsed.body) := by rw [hraw]; rfl
    have hmodule : request.parsed.raw.getD 3 0 = request.moduleId := by rw [hraw]; rfl
    have htype : request.parsed.raw.getD 4 0 = request.type := by rw [hraw]; rfl
    rw [frameAt, hsize, hlen, hflags, hext, hdrop, List.take_left, hmodule, htype]
    rfl
  have hmagic : ¬ noMagic request.parsed.raw = true := by
    rw [hraw]
    simp [noMagic]
  have hlook : lookAt request.parsed.raw = .take request.parsed.raw.length request.parsed := by
    rw [lookAt, if_neg hmagic, if_neg (by rw [hrawLength]; unfold headerSize; omega),
      if_neg (by rw [hsize, hrawLength]; omega), if_neg (by rw [hlen]; omega),
      if_neg (by omega), if_neg (by simp [hcrc]), htotal, hframe]
  rw [lookAt_append rest (by simp [hlook]), hlook]

/-- The bytes `'T','O'` occur nowhere. -/
def NoMagicPair (text : List UInt8) : Prop := ¬ [0x54, 0x4F] <:+: text

instance (text : List UInt8) : Decidable (NoMagicPair text) := inferInstanceAs (Decidable (¬ _))

theorem NoMagicPair.suffix {text rest : List UInt8} (h : NoMagicPair text) (hrest : rest <:+ text) :
    NoMagicPair rest := fun hpair => h (hpair.trans hrest.isInfix)

/-- Text is skipped up to a frame, also when it ends in a `'T'`. -/
theorem lookAt_text {text : List UInt8} (h : NoMagicPair text) (hne : text ≠ [])
    (request : Request) (rest : List UInt8) :
    lookAt (text ++ (request.parsed.raw ++ rest)) = .skip := by
  have hmagic : noMagic (text ++ (request.parsed.raw ++ rest)) = true := by
    match text, hne with
    | [first], _ =>
        rw [(raw_request request).1]
        simp [noMagic]
    | first :: second :: more, _ =>
        have hpair : ¬ (first = 0x54 ∧ second = 0x4F) := by
          rintro ⟨rfl, rfl⟩
          exact h ⟨[], more, rfl⟩
        simp only [List.cons_append, noMagic, Bool.not_eq_true', Bool.and_eq_false_iff,
          beq_eq_false_iff_ne]
        exact not_and_or.mp hpair
  rw [lookAt, if_pos hmagic]

/-- Text with nothing behind it is skipped, but for a `'T'` at its end. -/
theorem scan_text {text : List UInt8} (h : NoMagicPair text) :
    frameScanner.scan text =
      if text.getLast? = some 0x54 then ⟨[], text.dropLast, [0x54]⟩ else ⟨[], text, []⟩ := by
  induction text with
  | nil => rfl
  | cons first text ih =>
      have hrest := ih (h.suffix (List.suffix_cons first text))
      cases text with
      | nil =>
          by_cases hfirst : first = 0x54
          · subst hfirst
            exact Scanner.scan_of_wait (S := frameScanner) (by decide)
          · have hskip : frameScanner.look [first] = .skip := by
              change lookAt [first] = .skip
              rw [lookAt, if_pos (by simp [noMagic, hfirst])]
            rw [Scanner.scan_of_skip hskip, if_neg (by simpa using hfirst)]
            rfl
      | cons second text =>
          have hpair : ¬ (first = 0x54 ∧ second = 0x4F) := by
            rintro ⟨rfl, rfl⟩
            exact h ⟨[], text, rfl⟩
          have hskip : frameScanner.look (first :: second :: text) = .skip := by
            change lookAt _ = .skip
            rw [lookAt, if_pos]
            simp only [noMagic, Bool.not_eq_true', Bool.and_eq_false_iff, beq_eq_false_iff_ne]
            exact not_and_or.mp hpair
          rw [Scanner.scan_of_skip hskip, hrest, List.getLast?_cons_cons]
          split_ifs <;> rfl

/-- Frames between text come back, and the text with them. -/
theorem scan_stream_text {segments : List (List UInt8 × Request)} {tail : List UInt8}
    (htail : NoMagicPair tail) :
    ∀ {bytes : List UInt8}, stream tail segments = some bytes →
      (∀ segment ∈ segments, NoMagicPair segment.1) →
        frameScanner.scan bytes =
          { records := segments.map fun segment => segment.2.parsed
            skipped := segments.flatMap Prod.fst ++ (frameScanner.scan tail).skipped
            rest := (frameScanner.scan tail).rest } := by
  induction segments with
  | nil =>
      intro bytes hbytes _
      obtain rfl := Option.some.inj hbytes
      rw [scan_text htail]
      split_ifs <;> rfl
  | cons segment segments ih =>
      obtain ⟨before, request⟩ := segment
      intro bytes hbytes hall
      simp only [stream, Option.bind_eq_bind, Option.bind_eq_some_iff] at hbytes
      obtain ⟨frame, hframe, rest, hrest, hbytes⟩ := hbytes
      obtain rfl := Option.some.inj hbytes
      obtain ⟨hlength, rfl⟩ := buildFrame_eq_some hframe
      rw [List.forall_mem_cons] at hall
      have htake : frameScanner.look (request.parsed.raw ++ rest) = _ := lookAt_request hlength rest
      rw [List.append_assoc, Scanner.scan_append_of_skips (S := frameScanner),
        Scanner.scan_of_take htake, List.drop_left, ih hrest hall.2]
      · simp
      · exact fun zs hzs hne => lookAt_text (hall.1.suffix hzs) hne request rest

/-- The bytes from a position on that lies in no frame. -/
inductive Outside (tail : List UInt8) : List (List UInt8 × Request) → List UInt8 → Prop where
  | tail {rest : List UInt8} : rest <:+ tail → Outside tail [] rest
  | before {before rest frame bytes : List UInt8} {request : Request}
      {segments : List (List UInt8 × Request)} : rest <:+ before → rest ≠ [] →
      buildFrame request.moduleId request.type request.payload = some frame →
      stream tail segments = some bytes →
      Outside tail ((before, request) :: segments) (rest ++ (frame ++ bytes))
  | behind {segment : List UInt8 × Request} {segments : List (List UInt8 × Request)}
      {rest : List UInt8} : Outside tail segments rest → Outside tail (segment :: segments) rest

/-- No header outside the frames carries a matching checksum. -/
def NoFalseFrame (tail : List UInt8) (segments : List (List UInt8 × Request)) : Prop :=
  ∀ rest, Outside tail segments rest → ∀ total frame, lookAt rest ≠ .take total frame

/-- With the bytes of the longest frame at hand the parser does not wait. -/
theorem lookAt_ne_wait {merged : List UInt8} (h : maxFrame + 2 ≤ merged.length) :
    lookAt merged ≠ .wait := by
  have hext := headerExt_le (flagsAt merged)
  unfold maxFrame headerSize maxPayload crcSize at h
  unfold lookAt
  split_ifs with hmagic hthree hheader hlong hshort hcrc
  · exact nofun
  · omega
  · unfold headerSizeAt headerSize at hheader
    omega
  · exact nofun
  · unfold totalAt headerSizeAt headerSize crcSize at hshort
    unfold maxPayload at hlong
    omega
  · exact nofun
  · exact nofun

theorem tail_length_le {tail : List UInt8} {segments : List (List UInt8 × Request)} :
    ∀ {bytes : List UInt8}, stream tail segments = some bytes → tail.length ≤ bytes.length := by
  induction segments with
  | nil =>
      intro bytes h
      obtain rfl := Option.some.inj h
      exact Nat.le_refl _
  | cons segment segments ih =>
      intro bytes h
      simp only [stream, Option.bind_eq_bind, Option.bind_eq_some_iff] at h
      obtain ⟨frame, -, rest, hrest, h⟩ := h
      obtain rfl := Option.some.inj h
      have := ih hrest
      rw [List.length_append]
      omega

/-- Frames come back out of noise. No position before the last frame waits, so
that the noise is walked through byte by byte, up to the next frame. -/
theorem records_stream_noise {segments : List (List UInt8 × Request)} {tail : List UInt8}
    (htail : maxFrame + 2 ≤ tail.length) :
    ∀ {bytes : List UInt8}, stream tail segments = some bytes → NoFalseFrame tail segments →
      (frameScanner.scan bytes).records = segments.map fun segment => segment.2.parsed := by
  induction segments with
  | nil =>
      intro bytes hbytes hfalse
      obtain rfl := Option.some.inj hbytes
      exact Scanner.records_eq_nil fun rest hrest => hfalse rest (.tail hrest)
  | cons segment segments ih =>
      obtain ⟨before, request⟩ := segment
      intro bytes hbytes hfalse
      simp only [stream, Option.bind_eq_bind, Option.bind_eq_some_iff] at hbytes
      obtain ⟨frame, hframe, rest, hrest, hbytes⟩ := hbytes
      obtain rfl := Option.some.inj hbytes
      have hlong := tail_length_le hrest
      have hskips : ∀ zs, zs <:+ before → zs ≠ [] →
          frameScanner.look (zs ++ (frame ++ rest)) = .skip := by
        intro zs hzs hne
        have hnot := hfalse _ (.before hzs hne hframe hrest)
        have hwait : lookAt (zs ++ (frame ++ rest)) ≠ .wait := by
          refine lookAt_ne_wait ?_
          rw [List.length_append, List.length_append]
          omega
        change lookAt (zs ++ (frame ++ rest)) = .skip
        cases hlook : lookAt (zs ++ (frame ++ rest)) with
        | wait => exact absurd hlook hwait
        | skip => rfl
        | take total parsed => exact absurd hlook (hnot total parsed)
      obtain ⟨hlength, rfl⟩ := buildFrame_eq_some hframe
      have htake : frameScanner.look (request.parsed.raw ++ rest) = _ := lookAt_request hlength rest
      rw [List.append_assoc, Scanner.scan_append_of_skips _ hskips, Scanner.scan_of_take htake,
        List.drop_left, List.map_cons, ← ih hrest fun rest hrest => hfalse rest (.behind hrest)]

/-- **Frames round-trip and resynchronise**: between text without the pair
`'T','O'` exactly the frames and the text come back, a last `'T'` in the buffer
still; and out of any noise with no false frame in it, and the longest frame's
length behind it, every frame comes back in order. -/
theorem feed_stream {segments : List (List UInt8 × Request)} {tail : List UInt8}
    {chunks : List (List UInt8)} (hstream : stream tail segments = some chunks.flatten) :
    ((∀ segment ∈ segments, NoMagicPair segment.1) → NoMagicPair tail →
      (FrameParser.new.feedAll chunks).1.frames = segments.map (fun segment => segment.2.parsed) ∧
        (FrameParser.new.feedAll chunks).1.text ++ (FrameParser.new.feedAll chunks).2.buf =
          segments.flatMap Prod.fst ++ tail ∧
        (FrameParser.new.feedAll chunks).2.buf =
          if tail.getLast? = some 0x54 then [0x54] else []) ∧
    (maxFrame + 2 ≤ tail.length → NoFalseFrame tail segments →
      (FrameParser.new.feedAll chunks).1.frames =
        segments.map fun segment => segment.2.parsed) := by
  rw [feedAll_eq_scan chunks FrameParser.new lookAt_nil]
  simp only [FrameParser.new, List.nil_append]
  refine ⟨fun hall htail => ?_, fun htail hfalse => records_stream_noise htail hstream hfalse⟩
  rw [scan_stream_text htail hstream hall, scan_text htail]
  split_ifs with hlast
  · refine ⟨rfl, ?_, rfl⟩
    have hsplit : tail.dropLast ++ [0x54] = tail := List.dropLast_append_getLast? 0x54 hlast
    rw [List.append_assoc, hsplit]
  · exact ⟨rfl, List.append_nil _, rfl⟩

/-- A header that claims more than a payload holds, a frame and silence. -/
def falseHeader : List UInt8 := [0x54, 0x4F, 0x10, 5, 0x50, 0xFF, 0xFF, 0xFF, 0xFF]

theorem noFalseFrame_falseHeader {request : Request} (length : ℕ) :
    NoFalseFrame (List.replicate length 0) [(falseHeader, request)] := by
  have hdecided : ∀ rest ∈ falseHeader.tails, rest ≠ [] → lookAt rest = .skip := by decide
  intro rest houtside total frame
  cases houtside with
  | before hsuffix hne hframe hbytes =>
      have hskip := hdecided _ ((List.mem_tails _ _).mpr hsuffix) hne
      rw [lookAt_append _ (by simp [hskip]), hskip]
      exact nofun
  | behind houtside =>
      cases houtside with
      | tail hsuffix =>
          obtain ⟨before, hbefore⟩ := hsuffix
          obtain ⟨-, -, hrest⟩ := List.append_eq_replicate_iff.mp hbefore
          rw [hrest]
          cases rest with
          | nil => exact nofun
          | cons first rest =>
              rw [lookAt, if_pos]
              · exact nofun
              · cases rest <;> simp [noMagic, List.replicate_succ]

/-- A frame comes back from behind a false header, and from between text. -/
theorem feed_stream_falseHeader :
    (∃ bytes, stream (List.replicate (maxFrame + 2) 0) [(falseHeader, ⟨5, 0x50, []⟩)] = some bytes ∧
      (FrameParser.new.feedAll [bytes]).1.frames = [Request.parsed ⟨5, 0x50, []⟩]) ∧
    ∃ bytes, stream [0x54] [([0x4F, 0x54], ⟨5, 0x50, []⟩)] = some bytes ∧
      (FrameParser.new.feedAll [bytes]).1.frames = [Request.parsed ⟨5, 0x50, []⟩] := by
  obtain ⟨noise, hnoise⟩ : ∃ bytes, stream (List.replicate (maxFrame + 2) 0)
      [(falseHeader, ⟨5, 0x50, []⟩)] = some bytes := ⟨_, rfl⟩
  obtain ⟨text, htext⟩ : ∃ bytes, stream [0x54] [([0x4F, 0x54], ⟨5, 0x50, []⟩)] = some bytes :=
    ⟨_, rfl⟩
  refine ⟨⟨noise, hnoise, ?_⟩, ⟨text, htext, ?_⟩⟩
  · exact (@feed_stream _ _ [noise] (by simpa using hnoise)).2
      (by rw [List.length_replicate]) (noFalseFrame_falseHeader _)
  · exact ((@feed_stream _ _ [text] (by simpa using htext)).1 (by decide) (by decide)).1

end Console

end OmegaStick
