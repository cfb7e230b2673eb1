import Mathlib.Data.List.Infix
import OmegaStick.Calibration.Monitor
import OmegaStick.Console.FrameParser
import OmegaStick.Library.Transition

/-!
# Flushing the parser in a quiet period

`FrameParser` with its clock: `flushStale` hands over what the parser waits on as
console text once nothing has come for a while.  The parser waits at the first header
that may become a frame, and does not look behind it, so a header that nothing follows
hides every frame that came after it.  `losesNoFrame_iff` says when a run's flushes
lose none: exactly when no complete frame stands behind the byte the parser waits at.
-/

namespace OmegaStick

open TransitionSystem

namespace Console

/-- `FrameParser`, `lastActivity` included. -/
structure TimedParser extends FrameParser where
  lastActivity : Time
  deriving DecidableEq, Repr

/-- The calls of the page. -/
inductive ParserCall where
  | feed (chunk : List UInt8) (now : Time)
  | flushStale (maxAgeMs now : Time)
  deriving DecidableEq, Repr

namespace TimedParser

def new : TimedParser := ⟨.new, 0⟩

def feed (parser : TimedParser) (chunk : List UInt8) (now : Time) : Fed × TimedParser :=
  let (fed, rest) := parser.toFrameParser.feed chunk
  (fed, ⟨rest, now⟩)

/-- `flushStale`: nothing, or the whole buffer as text. -/
def flushStale (parser : TimedParser) (maxAgeMs now : Time) : Option (List UInt8) × TimedParser :=
  if parser.buf.length = 0 ∨ now - parser.lastActivity < maxAgeMs then (none, parser)
  else (some parser.buf, { parser with buf := [] })

def next (parser : TimedParser) : ParserCall → TimedParser
  | .feed chunk now => (parser.feed chunk now).2
  | .flushStale maxAgeMs now => (parser.flushStale maxAgeMs now).2

end TimedParser

/-- The calls on a parser, in any order. -/
def parserCalls : TransitionSystem TimedParser ParserCall :=
  .ofFun (· = TimedParser.new) TimedParser.next

/-- No complete frame with a valid checksum starts anywhere in these bytes. -/
def HoldsNoFrame (bytes : List UInt8) : Prop :=
  ∀ rest, rest <:+ bytes → ∀ total frame, lookAt rest ≠ .take total frame

namespace TimedParser

/-- A flush keeps the frames: what is handed over as text holds none, and a frame in the
buffer is still there for a later call. -/
structure FlushKeeps (parser : TimedParser) (maxAgeMs now : Time) : Prop where
  text : ∀ text, (parser.flushStale maxAgeMs now).1 = some text → HoldsNoFrame text
  kept : ∀ rest, rest <:+ parser.buf → ∀ total frame, lookAt rest = .take total frame →
    rest <:+ (parser.flushStale maxAgeMs now).2.buf

/-- The parser is not due to be flushed, or has no complete frame behind the byte it waits
at. -/
def NothingBehind (parser : TimedParser) (maxAgeMs now : Time) : Prop :=
  parser.buf.length = 0 ∨ now - parser.lastActivity < maxAgeMs ∨ HoldsNoFrame parser.buf.tail

/-- **A quiet period loses no frame.** -/
def LosesNoFrame (parser : TimedParser) : ParserCall → Prop
  | .feed _ _ => True
  | .flushStale maxAgeMs now => parser.FlushKeeps maxAgeMs now

/-- The call flushes nothing that a complete frame stands in. -/
def Harmless (parser : TimedParser) : ParserCall → Prop
  | .feed _ _ => True
  | .flushStale maxAgeMs now => parser.NothingBehind maxAgeMs now

/-! ## Every state of a run -/

theorem feed_waits (parser : TimedParser) (chunk : List UInt8) (now : Time) :
    lookAt (parser.feed chunk now).2.buf = .wait :=
  Scanner.look_rest (S := frameScanner) (parser.buf ++ chunk)

/-- The parser waits at the front of its buffer. -/
theorem waits_of_reachable {parser : TimedParser} (h : Reachable parserCalls parser) :
    lookAt parser.buf = .wait := by
  refine Reachable.invariant (T := parserCalls) (I := fun parser => lookAt parser.buf = .wait)
    ?_ ?_ h
  · rintro parser rfl
    exact lookAt_nil
  · rintro parser call _ hwaits rfl
    cases call with
    | feed chunk now => exact parser.feed_waits chunk now
    | flushStale maxAgeMs now =>
        rw [next, flushStale]
        split_ifs
        · exact hwaits
        · exact lookAt_nil

/-! ## One flush -/

theorem holdsNoFrame_cons {byte : UInt8} {bytes : List UInt8} (h : lookAt (byte :: bytes) = .wait) :
    HoldsNoFrame (byte :: bytes) ↔ HoldsNoFrame bytes := by
  constructor
  · exact fun hnone rest hrest => hnone rest (hrest.trans (List.suffix_cons byte bytes))
  · intro hnone rest hrest total frame
    rcases List.suffix_cons_iff.mp hrest with rfl | hrest
    · rw [h]
      exact nofun
    · exact hnone rest hrest total frame

theorem flushKeeps_iff {parser : TimedParser} (hwaits : lookAt parser.buf = .wait)
    (maxAgeMs now : Time) :
    parser.FlushKeeps maxAgeMs now ↔ parser.NothingBehind maxAgeMs now := by
  by_cases hdue : parser.buf.length = 0 ∨ now - parser.lastActivity < maxAgeMs
  · have hkept : parser.flushStale maxAgeMs now = (none, parser) := if_pos hdue
    refine ⟨fun _ => hdue.imp_right .inl, fun _ => ⟨?_, ?_⟩⟩
    · rw [hkept]
      exact nofun
    · rw [hkept]
      exact fun rest hrest _ _ _ => hrest
  · have hflushed : parser.flushStale maxAgeMs now = (some parser.buf, { parser with buf := [] }) :=
      if_neg hdue
    obtain ⟨byte, bytes, hbuf⟩ : ∃ byte bytes, parser.buf = byte :: bytes :=
      List.exists_cons_of_ne_nil fun hnil => hdue (.inl (by rw [hnil]; rfl))
    have hfront := holdsNoFrame_cons (hbuf ▸ hwaits)
    constructor
    · intro h
      have hnone := h.text parser.buf (by rw [hflushed])
      rw [hbuf, hfront] at hnone
      exact .inr (.inr (by rwa [hbuf]))
    · intro h
      have hnone : HoldsNoFrame parser.buf := by
        rcases h with hempty | hfresh | hnone
        · exact absurd (.inl hempty) hdue
        · exact absurd (.inr hfresh) hdue
        · rw [hbuf] at hnone ⊢
          exact hfront.mpr hnone
      refine ⟨?_, fun rest hrest total frame htake => absurd htake (hnone rest hrest total frame)⟩
      intro text htext
      rw [hflushed] at htext
      rwa [← Option.some.inj htext]

end TimedParser

/-- **When quiet periods lose no frame**: in a run of calls none of its flushes does,
exactly when at each of them nothing complete stands behind the byte the parser waits at. -/
theorem losesNoFrame_iff {parser : TimedParser}
    {steps : List (TimedParser × ParserCall × TimedParser)}
    (h : Path parserCalls TimedParser.new steps parser) :
    (∀ x ∈ steps, x.1.LosesNoFrame x.2.1) ↔ ∀ x ∈ steps, x.1.Harmless x.2.1 := by
  have hwaits : ∀ x ∈ steps, lookAt x.1.buf = .wait := fun x hx =>
    TimedParser.waits_of_reachable (h.reachable_of_mem (.init rfl) hx).1
  refine forall₂_congr fun x hx => ?_
  obtain ⟨before, call, after⟩ := x
  cases call with
  | feed chunk now => exact Iff.rfl
  | flushStale maxAgeMs now => exact TimedParser.flushKeeps_iff (hwaits _ hx) maxAgeMs now

/-! ## A reply that is cut short, and one behind stray text -/

instance (bytes : List UInt8) : Decidable (HoldsNoFrame bytes) :=
  decidable_of_iff (∀ rest ∈ bytes.tails, lookAt rest = .wait ∨ lookAt rest = .skip) <| by
    simp only [List.mem_tails]
    refine forall₂_congr fun rest _ => ?_
    cases lookAt rest <;> simp

instance (parser : TimedParser) : (call : ParserCall) → Decidable (parser.Harmless call)
  | .feed _ _ => isTrue trivial
  | .flushStale maxAgeMs now =>
      inferInstanceAs (Decidable (parser.buf.length = 0 ∨ now - parser.lastActivity < maxAgeMs ∨
        HoldsNoFrame parser.buf.tail))

/-- An OK reply. -/
def okReply : List UInt8 :=
  let body := [0x54, 0x4F, 0x11, 5, Msg.ok.code, 4, 0, 0, 0] ++ putU32 0
  body ++ putU32 (crc32 body)

/-- The end of the reply does not come. -/
def cutReply : List ParserCall :=
  [.feed (okReply.take 12) 100, .flushStale 750 400, .flushStale 750 1000]

theorem losesNoFrame_iff_cutReply :
    (TimedParser.flushStale ⟨⟨okReply.take 12⟩, 100⟩ 750 1000).1 = some (okReply.take 12) ∧
      ∀ x ∈ runSteps TimedParser.next .new cutReply, x.1.LosesNoFrame x.2.1 :=
  ⟨by decide +kernel,
    (losesNoFrame_iff (path_runSteps _ TimedParser.next cutReply TimedParser.new)).mpr
      (by decide +kernel)⟩

/-- Text that ends in `TOO` right before the reply, and then silence: the third letter
reads as flags with a correlation, and the reply's type and length as a length of 1247. -/
def hiddenReply : List ParserCall :=
  [.feed (ascii "TOO" ++ okReply) 100, .flushStale 750 1000]

/-- The reply is turned into text. -/
theorem not_losesNoFrame_hiddenReply :
    ¬ ∀ parser steps, Path parserCalls TimedParser.new steps parser →
      ∀ x ∈ steps, x.1.LosesNoFrame x.2.1 := by
  intro h
  have hpath := path_runSteps (· = TimedParser.new) TimedParser.next hiddenReply TimedParser.new
  have hkeeps := h _ _ hpath (⟨⟨ascii "TOO" ++ okReply⟩, 100⟩, .flushStale 750 1000, ⟨⟨[]⟩, 100⟩)
    (by decide +kernel)
  have hflushed : (TimedParser.flushStale ⟨⟨ascii "TOO" ++ okReply⟩, 100⟩ 750 1000).1 =
      some (ascii "TOO" ++ okReply) := by decide +kernel
  have hnone : ¬ HoldsNoFrame (ascii "TOO" ++ okReply) := by decide +kernel
  exact hnone (hkeeps.text _ hflushed)

end Console

end OmegaStick
