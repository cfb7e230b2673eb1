import OmegaStick.Library.Transition
import OmegaStick.Calibration.Monitor
import OmegaStick.Console.Outcome

/-!
# The page that confirms an image

`confirmFlashedImage` of `calibration_console.html`, with `runConfirmCheck` and
`awaitSensorHealthy` of `omega_protocol.js`, over the page's transactions and its
connections.  A run of it stops at every `await`; the page goes on with it when
the call it awaits settles, or its sleep is over.

Everything else the page does comes in as steps of its own, at any time: other
calls, and any change of the update.
-/

namespace OmegaStick

namespace Console

open TransitionSystem

/-! ## One run -/

/-- A connection, by its number. -/
abbrev ConnId := ℕ

/-- `upd.phase` -/
inductive UpdatePhase where
  | running
  | rebooting
  | confirming
  | waitingRollback
  | switchedNoRestart
  | linkLost
  | done
  deriving DecidableEq, Repr

/-- `upd` -/
structure Update where
  phase : UpdatePhase
  expected : Expected
  deriving DecidableEq, Repr

/-- What a run learned and did, with the connection each came over. -/
inductive CheckEvent where
  | fwInfo (source : ConnId) (expected : Expected) (info : FwInfo)
  | state (source : ConnId)
  | diagnostics (source : ConnId) (now : Time) (sensorFault : UInt8)
  /-- GET_DIAGNOSTICS failed with an error that says it is not supported. -/
  | unsupported (message : JsString)
  /-- A check failed, the connection was stale, or the image confirmed already. -/
  | stopped
  /-- MARK_VALID was sent; whether the run's connection was gone by then. -/
  | markValid (target : ConnId) (interrupted : Bool)
  deriving DecidableEq, Repr

/-- Where a run waits. -/
inductive ConfirmPc where
  | firmware
  | protocol
  | sensor (started : Time) (healthySince : Option Time)
  /-- `sleep(SENSOR_POLL_MS)` -/
  | asleep (started : Time) (healthySince : Option Time)
  /-- MARK_VALID waits for its turn, or was sent. -/
  | marking
  | marked
  /-- The last `refreshFwInfo`. -/
  | verifying
  | done
  deriving DecidableEq, Repr

/-- One run of `confirmFlashedImage`; `conn` is its `t`. -/
structure ConfirmRun where
  conn : ConnId
  pc : ConfirmPc
  log : List CheckEvent
  deriving DecidableEq, Repr

/-- `SENSOR_WAIT_MS` -/
def sensorWaitMs : Time := 10000

/-- `SENSOR_DWELL_MS` -/
def sensorDwellMs : Time := 1500

/-- A request with its reply type and its retries. -/
def request (type reply : Msg) (retries : ℕ) : Call Unit := ⟨type, [reply.code], 1 + retries, ()⟩

def getFwInfo : Call Unit := request .getFwInfo .fwInfo 1

def getState : Call Unit := request .getState .state 1

def getDiagnostics : Call Unit := request .getDiagnostics .diagnostics 1

def markValid : Call Unit := request .markValid .ok 0

/-- What a run does next: its state, the update, and the call it makes. -/
structure Resumed where
  run : ConfirmRun
  upd : Option Update
  call : Option (Call Unit)

namespace ConfirmRun

def see (run : ConfirmRun) (event : CheckEvent) : ConfirmRun :=
  { run with log := run.log ++ [event] }

/-- The run is over without a confirmation. -/
def stop (run : ConfirmRun) : ConfirmRun := { run.see .stopped with pc := .done }

/-- `upd.phase = phase` -/
def setPhase (upd : Option Update) (phase : UpdatePhase) : Option Update :=
  upd.map fun u => { u with phase := phase }

/-- What follows a check: `next` is where the run goes on when it passed. -/
def judged (run : ConfirmRun) (stale : Bool) (upd : Option Update) (r : Judgement)
    (next : ConfirmPc) (call : Call Unit) : Resumed :=
  if stale then ⟨run.stop, upd, none⟩
  else if r.alreadyConfirmed then ⟨run.stop, setPhase upd .done, none⟩
  else if !r.ok then ⟨run.stop, setPhase upd .waitingRollback, none⟩
  else ⟨{ run with pc := next }, upd, some call⟩

section Resume

variable [BrowserText]

/-- What the sensor check reads: a malformed reply is an error like any other. -/
def sensorRead : Settled → Except JsString DecodedDiagnostics
  | .resolved frame => (decodeDiagnostics frame.payload).mapError js
  | .rejected message => .error message

/-- The reading in the log. -/
def seeSensor (run : ConfirmRun) (source : ConnId) (now : Time) :
    Except JsString DecodedDiagnostics → ConfirmRun
  | .ok diagnostics => run.see (.diagnostics source now diagnostics.sensorFault)
  | .error message => if unsupported message then run.see (.unsupported message) else run

/-- One pass of the loop of `awaitSensorHealthy`, from its reading on. -/
def resumeSensor (run : ConfirmRun) (stale : Bool) (upd : Option Update) (now started : Time)
    (healthySince : Option Time) (source : ConnId) (read : Except JsString DecodedDiagnostics) :
    Resumed :=
  let run := run.seeSensor source now read
  let r := judgeConfirmCheck (.sensor read)
  if r.skipped || (!r.ok && !r.wait) then run.judged stale upd r .marking markValid
  else if r.ok then
    match healthySince with
    | none => ⟨{ run with pc := .asleep started (some now) }, upd, none⟩
    | some since =>
        if sensorDwellMs ≤ now - since then run.judged stale upd r .marking markValid
        else ⟨{ run with pc := .asleep started healthySince }, upd, none⟩
  else if sensorWaitMs ≤ now - started then
    run.judged stale upd { ok := false } .marking markValid
  else ⟨{ run with pc := .asleep started none }, upd, none⟩

/-- The run goes on when its call settles, on a frame from `source`. -/
def resume (run : ConfirmRun) (stale : Bool) (upd : Option Update) (source : ConnId) (now : Time)
    (settled : Settled) : Resumed :=
  match run.pc with
  | .firmware =>
      match upd with
      -- `upd.expected` throws.
      | none => ⟨run.stop, none, none⟩
      | some u =>
          let after := match settled with
            | .resolved frame => some (readFwInfo frame.payload)
            | .rejected _ => none
          let run := match after with
            | some info => run.see (.fwInfo source u.expected info)
            | none => run
          run.judged stale upd (judgeConfirmCheck (.firmware u.expected after)) .protocol getState
  | .protocol =>
      match settled with
      | .resolved _ =>
          (run.see (.state source)).judged stale upd (judgeConfirmCheck (.protocol none))
            (.sensor now none) getDiagnostics
      | .rejected message =>
          run.judged stale upd (judgeConfirmCheck (.protocol (some message))) (.sensor now none)
            getDiagnostics
  | .sensor started healthySince =>
      run.resumeSensor stale upd now started healthySince source (sensorRead settled)
  -- It was not sent, so there is no reply to it.
  | .marking => ⟨{ run with pc := .done }, if stale then upd else setPhase upd .done, none⟩
  | .marked =>
      match settled with
      | .resolved _ => ⟨{ run with pc := .verifying }, upd, some getFwInfo⟩
      | .rejected _ =>
          ⟨{ run with pc := .done }, if stale then upd else setPhase upd .done, none⟩
  | .verifying => ⟨{ run with pc := .done }, if stale then upd else setPhase upd .done, none⟩
  | .asleep .. | .done => ⟨run, upd, none⟩

end Resume

/-- The run goes on when its sleep is over. -/
def wake (run : ConfirmRun) (stale : Bool) : ConfirmRun × Option (Call Unit) :=
  match run.pc with
  | .asleep started healthySince =>
      if stale then (run.stop, none)
      else ({ run with pc := .sensor started healthySince }, some getDiagnostics)
  | _ => (run, none)

end ConfirmRun

/-! ## The page -/

/-- The page's connections, its transactions and the runs so far. -/
structure Page where
  transport : Option ConnId
  /-- How many connections were opened, which is the next one's number. -/
  connections : ℕ
  /-- The connections whose frames are still read. -/
  opened : List ConnId
  /-- The connections that were the transport before. -/
  gone : List ConnId
  calibrationModule : UInt8
  upd : Option Update
  txns : Transactions (Option ℕ)
  runs : List ConfirmRun

inductive PageStep where
  /-- `onConnected` -/
  | connect
  /-- `onTransportGone`, or `disconnect` -/
  | drop (manual : Bool)
  | frame (source : ConnId) (now : Time) (frame : ParsedFrame)
  | timeout (now : Time)
  | sendFailed (now : Time) (message : JsString)
  /-- `disconnect` gives up what waits for an upload. -/
  | cancel (now : Time)
  /-- The page's other calls. -/
  | transact (type : Msg) (expect : List UInt8) (retries : ℕ)
  /-- What else the page does with its update. -/
  | setUpdate (upd : Option Update)
  /-- The discovery reply names the module. -/
  | setModule (id : UInt8)
  | confirmFlashedImage
  /-- The sleep of a run is over. -/
  | wake (run : ℕ)

namespace Page

/-- `stale()` -/
def stale (s : Page) (run : ConfirmRun) : Bool :=
  s.transport != some run.conn ||
    match s.upd with
    | none => true
    | some u => decide (u.phase ≠ .confirming)

/-- A call of the run's, on a page that is connected. -/
def callFor (s : Page) (i : ℕ) (call : Call Unit) : Page :=
  { s with txns := s.txns.transact ⟨call.type, call.expect, call.attempts, some i⟩ }

/-- A MARK_VALID of a run is sent as soon as it has its turn; it is sent once, its
call having no retries. -/
def noteSent (s : Page) : Page :=
  match s.txns.pendingTxn, s.transport with
  | some ⟨⟨.markValid, _, _, some i⟩, _⟩, some target =>
      { s with
        runs := s.runs.modify i fun run =>
          if run.pc = .marking then
            { run.see (.markValid target (decide (run.conn ∈ s.gone))) with pc := .marked }
          else run }
  | _, _ => s

variable [BrowserText]

/-- A call settles; a run that awaits it goes on. -/
def settle (s : Page) (source : ConnId) (now : Time) : Option ℕ × Settled → Page
  | (none, _) => s
  | (some i, settled) =>
      match s.runs[i]? with
      | none => s
      | some run =>
          let resumed := run.resume (s.stale run) s.upd source now settled
          let s := { s with runs := s.runs.set i resumed.run, upd := resumed.upd }
          match resumed.call with
          | none => s
          | some call => s.callFor i call

/-- A step of the transactions, and what comes of it. -/
def apply (s : Page) (source : ConnId) (now : Time)
    (result : Option (Option ℕ × Settled) × Transactions (Option ℕ)) : Page :=
  (match result.1 with
  | none => { s with txns := result.2 }
  | some settled => { s with txns := result.2 }.settle source now settled).noteSent

def next (s : Page) : PageStep → Option Page
  | .connect =>
      some { s with
        transport := some s.connections
        connections := s.connections + 1
        opened := s.connections :: s.opened
        gone := s.transport.toList ++ s.gone
        calibrationModule := moduleCalibration }
  | .drop manual =>
      match s.transport with
      | none => none
      | some c =>
          let (settled, txns) := s.txns.drop
            (js (if manual then "disconnected" else "transport lost"))
          some (settled.foldl (fun s settled => s.settle c 0 settled)
            { s with
              transport := none
              opened := s.opened.erase c
              gone := c :: s.gone
              calibrationModule := moduleCalibration
              txns := txns })
  | .frame source now frame =>
      if source ∈ s.opened then
        some (s.apply source now (s.txns.dispatchFrame s.calibrationModule frame))
      else none
  | .timeout now => some (s.apply 0 now s.txns.timeout)
  | .sendFailed now message => some (s.apply 0 now (s.txns.sendFailed message))
  | .cancel now => some (s.apply 0 now (s.txns.reject (js "upload cancelled by disconnect")))
  | .transact type expect retries =>
      if s.transport.isSome then
        some { s with txns := s.txns.transact ⟨type, expect, 1 + retries, none⟩ }
      else none
  | .setUpdate upd => some { s with upd := upd }
  | .setModule id => some { s with calibrationModule := id }
  | .confirmFlashedImage =>
      match s.transport with
      | none => none
      | some c =>
          let run : ConfirmRun := ⟨c, .firmware, []⟩
          if s.stale run then none
          else some ({ s with runs := s.runs ++ [run] }.callFor s.runs.length getFwInfo)
  | .wake i =>
      match s.runs[i]? with
      | none => none
      | some run =>
          let (woken, call) := run.wake (s.stale run)
          let s := { s with runs := s.runs.set i woken }
          some (match call with
            | none => s
            | some call => s.callFor i call)

def new : Page := ⟨none, 0, [], [], moduleCalibration, none, .new, []⟩

end Page

/-- The page from its loading on. -/
def page [BrowserText] : TransitionSystem Page PageStep :=
  .ofOption (fun s => s = .new) Page.next

end Console

end OmegaStick
