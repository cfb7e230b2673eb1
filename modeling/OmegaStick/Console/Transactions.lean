import OmegaStick.Console.FrameParser
import OmegaStick.Library.TextFields

/-!
# The console's transactions

`transact`, `dispatchFrame` and `failPending` of `calibration_console.html`.
Calls of `transact` run one after the other: one attempt waits for its reply, the
other calls wait for their turn.  Whatever an event does is done before the next
event comes, so each of the functions here is one step.

A call belongs to an owner, whoever awaits it; what it settles to is handed back
with the owner.  The frame an attempt sends is not kept, only that it was sent.
-/

namespace OmegaStick

namespace Console

/-! ## Strings -/

/-- A string of the page, as its UTF-16 code units. -/
abbrev JsString := List UInt16

/-- A literal of the source. -/
def js (text : String) : JsString := text.toList.map fun c => UInt16.ofNat c.toNat

/-- What the page asks of the browser's strings. -/
class BrowserText where
  /-- `new TextDecoder().decode` -/
  decode : List UInt8 → JsString
  toLowerCase : JsString → JsString

/-- `/pattern/.test(text)`, the pattern being plain text. -/
def includes (text pattern : JsString) : Bool := text.tails.any fun rest => pattern.isPrefixOf rest

/-! ## Messages -/

def moduleCalibration : UInt8 := 5

def moduleDiscovery : UInt8 := 0xFF

def tListModules : UInt8 := 0x00

/-- `TYPE_NAME` -/
def typeName : Msg → JsString
  | .getState => js "GET_STATE"
  | .setManualOffset => js "SET_MANUAL_OFFSET"
  | .setDeadzoneOverride => js "SET_DEADZONE_OVERRIDE"
  | .setNudgeSettings => js "SET_NUDGE_SETTINGS"
  | .setInputMode => js "SET_INPUT_MODE"
  | .saveToFlash => js "SAVE_TO_FLASH"
  | .startCalibration => js "START_CALIBRATION"
  | .restart => js "RESTART"
  | .otaBegin => js "OTA_BEGIN"
  | .otaData => js "OTA_DATA"
  | .otaFinish => js "OTA_FINISH"
  | .otaAbort => js "OTA_ABORT"
  | .getFwInfo => js "GET_FW_INFO"
  | .markValid => js "MARK_VALID"
  | .revert => js "REVERT"
  | .getDiagnostics => js "GET_DIAGNOSTICS"
  | .setNudgeEnabled => js "SET_NUDGE_ENABLED"
  | .state => js "STATE"
  | .calibrationResult => js "CALIBRATION_RESULT"
  | .fwInfo => js "FW_INFO"
  | .diagnostics => js "DIAGNOSTICS"
  | .ok => js "OK"
  | .error => js "ERROR"

/-- `parseErrorReply`: the code and the message. -/
def parseErrorReply [BrowserText] (payload : List UInt8) : UInt32 × JsString :=
  if payload.length < 4 then (0, js "(malformed error reply)")
  else (getU32 payload, BrowserText.decode (payload.drop 4))

/-- What an ERROR reply rejects with. -/
def deviceError [BrowserText] (payload : List UInt8) : JsString :=
  let (code, message) := parseErrorReply payload
  js "device error (code " ++ (TextFields.decimal code.toNat).map UInt8.toUInt16 ++ js "): " ++
    message

/-! ## Calls -/

/-- A call of `transact`. -/
structure Call (ρ : Type*) where
  type : Msg
  /-- `expectTypes` -/
  expect : List UInt8
  /-- The attempts that may still be made, `1 + retries` at first. -/
  attempts : ℕ
  owner : ρ
  deriving DecidableEq, Repr

/-- `pendingTxn`: the call whose attempt is waiting, and the attempt's number. -/
structure PendingTxn (ρ : Type*) where
  call : Call ρ
  attempt : ℕ
  deriving DecidableEq, Repr

/-- The attempt that waits, the calls behind it, and how many attempts were made. -/
structure Transactions (ρ : Type*) where
  pendingTxn : Option (PendingTxn ρ)
  txnChain : List (Call ρ)
  attempts : ℕ
  deriving DecidableEq, Repr

/-- What the promise of a call settles to. -/
inductive Settled where
  | resolved (frame : ParsedFrame)
  | rejected (message : JsString)
  deriving DecidableEq, Repr

namespace Call

variable {ρ : Type*}

/-- Whether `dispatchFrame` gives a frame to the attempt that waits: discovery
replies and CALIBRATION_RESULT are taken out before. -/
def takes (calibrationModule : UInt8) (call : Call ρ) (frame : ParsedFrame) : Bool :=
  if frame.moduleId = moduleDiscovery && frame.reply && frame.type = tListModules then false
  else if frame.moduleId = calibrationModule && frame.reply &&
      frame.type = Msg.calibrationResult.code then false
  else
    frame.moduleId = calibrationModule && frame.reply &&
      (call.expect.contains frame.type || frame.type = Msg.error.code)

/-- Whether an attempt that failed is made again. -/
def retries (call : Call ρ) (message : JsString) : Bool :=
  decide (1 < call.attempts) &&
    !(includes message (js "not connected") || includes message (js "disconnected") ||
      includes message (js "transport lost"))

end Call

namespace Transactions

variable {ρ : Type*}

def new : Transactions ρ := ⟨none, [], 0⟩

/-- `attempt()` on a page that is connected. -/
def attempt (s : Transactions ρ) (call : Call ρ) : Transactions ρ :=
  { s with pendingTxn := some ⟨call, s.attempts⟩, attempts := s.attempts + 1 }

/-- The call that waited longest gets its turn. -/
def runNext (s : Transactions ρ) : Transactions ρ :=
  match s.txnChain with
  | [] => { s with pendingTxn := none }
  | call :: rest => { s with txnChain := rest }.attempt call

/-- `transact` on a page that is connected. -/
def transact (s : Transactions ρ) (call : Call ρ) : Transactions ρ :=
  match s.pendingTxn with
  | none => s.attempt call
  | some _ => { s with txnChain := s.txnChain ++ [call] }

/-- The waiting attempt is rejected: it is made again, or its call settles. -/
def reject (s : Transactions ρ) (message : JsString) : Option (ρ × Settled) × Transactions ρ :=
  match s.pendingTxn with
  | none => (none, s)
  | some p =>
      if p.call.retries message then
        (none, s.attempt { p.call with attempts := p.call.attempts - 1 })
      else (some (p.call.owner, .rejected message), s.runNext)

/-- The timer of the waiting attempt runs out. -/
def timeout (s : Transactions ρ) : Option (ρ × Settled) × Transactions ρ :=
  match s.pendingTxn with
  | none => (none, s)
  | some p => s.reject (typeName p.call.type ++ js " timed out")

/-- The `catch` of `transport.send`, whichever attempt it was that sent. -/
def sendFailed (s : Transactions ρ) (message : JsString) : Option (ρ × Settled) × Transactions ρ :=
  s.reject (js "send failed: " ++ message)

/-- `dispatchFrame`, as far as the transactions go. -/
def dispatchFrame [BrowserText] (s : Transactions ρ) (calibrationModule : UInt8)
    (frame : ParsedFrame) : Option (ρ × Settled) × Transactions ρ :=
  match s.pendingTxn with
  | none => (none, s)
  | some p =>
      if !p.call.takes calibrationModule frame then (none, s)
      else if frame.type = Msg.error.code then s.reject (deviceError frame.payload)
      else (some (p.call.owner, .resolved frame), s.runNext)

/-- `failPending` of a page whose transport is gone, `message` being its error:
the waiting attempt is not made again, and the calls behind it find no transport. -/
def drop (s : Transactions ρ) (message : JsString) : List (ρ × Settled) × Transactions ρ :=
  match s.pendingTxn with
  | none => ([], s)
  | some p =>
      ((p.call.owner, .rejected message) ::
          s.txnChain.map fun call => (call.owner, .rejected (js "not connected")),
        { s with pendingTxn := none, txnChain := [] })

/-! ## What waits -/

/-- Every call that has not settled, in order. -/
def calls (s : Transactions ρ) : List (Call ρ) :=
  (s.pendingTxn.map PendingTxn.call).toList ++ s.txnChain

/-- No call waits for its turn while nobody has it. -/
def InTurn (s : Transactions ρ) : Prop := s.pendingTxn = none → s.txnChain = []

/-- What comes of a frame, a timer or an error: nothing, a new attempt of the same
call, or the end of the call that waits. -/
inductive Took (s : Transactions ρ) : Option (ρ × Settled) × Transactions ρ → Prop where
  | kept : Took s (none, s)
  | again (p : PendingTxn ρ) (call : Call ρ) (hpending : s.pendingTxn = some p)
      (htype : call.type = p.call.type) (howner : call.owner = p.call.owner) :
      Took s (none, s.attempt call)
  | settled (p : PendingTxn ρ) (settled : Settled) (hpending : s.pendingTxn = some p) :
      Took s (some (p.call.owner, settled), s.runNext)

variable {s : Transactions ρ}

theorem took_reject (message : JsString) : Took s (s.reject message) := by
  unfold reject
  cases hpending : s.pendingTxn with
  | none => exact .kept
  | some p =>
      dsimp only
      split
      · exact .again p _ hpending rfl rfl
      · exact .settled p _ hpending

theorem reject_rejected {message : JsString} {owner : ρ} {settled : Settled}
    (h : (s.reject message).1 = some (owner, settled)) :
    ∃ message, settled = .rejected message := by
  unfold reject at h
  split at h
  · exact nomatch h
  · split at h
    · exact nomatch h
    · obtain ⟨rfl, rfl⟩ := Prod.mk.inj (Option.some.inj h)
      exact ⟨message, rfl⟩

theorem took_timeout : Took s s.timeout := by
  unfold timeout
  split
  · exact .kept
  · exact took_reject _

theorem timeout_rejected {owner : ρ} {settled : Settled}
    (h : s.timeout.1 = some (owner, settled)) : ∃ message, settled = .rejected message := by
  unfold timeout at h
  split at h
  · exact nomatch h
  · exact reject_rejected h

theorem took_dispatchFrame [BrowserText] (calibrationModule : UInt8) (frame : ParsedFrame) :
    Took s (s.dispatchFrame calibrationModule frame) := by
  unfold dispatchFrame
  cases hpending : s.pendingTxn with
  | none => exact .kept
  | some p =>
      dsimp only
      split_ifs
      · exact .kept
      · exact took_reject _
      · exact .settled p _ hpending

theorem calls_of_pending {p : PendingTxn ρ} (hpending : s.pendingTxn = some p) :
    s.calls = p.call :: s.txnChain := by
  simp [calls, hpending]

@[simp] theorem calls_attempt (call : Call ρ) : (s.attempt call).calls = call :: s.txnChain := rfl

@[simp] theorem calls_runNext : s.runNext.calls = s.txnChain := by
  unfold runNext
  split
  · simp [calls, *]
  · simp [*]

theorem inTurn_attempt (call : Call ρ) : (s.attempt call).InTurn := fun h => nomatch h

theorem inTurn_runNext : s.runNext.InTurn := by
  unfold runNext
  split
  · rename_i hchain
    exact fun _ => hchain
  · exact inTurn_attempt _

theorem calls_transact (h : s.InTurn) (call : Call ρ) :
    (s.transact call).calls = s.calls ++ [call] := by
  unfold transact
  cases hpending : s.pendingTxn with
  | none => simp [calls, hpending, h hpending, attempt]
  | some p => simp [calls, hpending]

theorem inTurn_transact (call : Call ρ) : (s.transact call).InTurn := by
  unfold transact
  cases hpending : s.pendingTxn with
  | none => exact inTurn_attempt call
  | some p => exact fun h => by simp at h

/-- Calls keep their turn, whatever comes. -/
theorem Took.inTurn {result : Option (ρ × Settled) × Transactions ρ} (h : Took s result)
    (hs : s.InTurn) : result.2.InTurn := by
  cases h with
  | kept => exact hs
  | again p call => exact inTurn_attempt call
  | settled p => exact inTurn_runNext

/-- Every call settles when the transport goes away. -/
theorem drop_snd_calls (hs : s.InTurn) (message : JsString) : (s.drop message).2.calls = [] := by
  unfold drop
  cases hpending : s.pendingTxn with
  | none => simp [calls, hpending, hs hpending]
  | some p => rfl

theorem inTurn_drop (hs : s.InTurn) (message : JsString) : (s.drop message).2.InTurn := by
  unfold drop
  split
  · exact hs
  · exact fun _ => rfl

theorem drop_rejected {message : JsString} {settled : ρ × Settled}
    (h : settled ∈ (s.drop message).1) : ∃ message, settled.2 = .rejected message := by
  unfold drop at h
  cases hpending : s.pendingTxn with
  | none => simp [hpending] at h
  | some p =>
      simp only [hpending, List.mem_cons, List.mem_map] at h
      rcases h with rfl | ⟨call, -, rfl⟩
      · exact ⟨_, rfl⟩
      · exact ⟨_, rfl⟩

end Transactions

/-! ## Plain text -/

/-- What the browser makes of ASCII. -/
instance : BrowserText where
  decode bytes := bytes.map UInt8.toUInt16
  toLowerCase text := text.map fun c => if 65 ≤ c ∧ c ≤ 90 then c + 32 else c

end Console

end OmegaStick
