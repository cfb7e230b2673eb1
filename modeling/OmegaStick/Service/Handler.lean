import OmegaStick.Service.Wire
import OmegaStick.Calibration.Monitor
import OmegaStick.Firmware.Flash

/-!
# The calibration service

`CalibrationService` of `calibration_service.hpp`: the request handlers, the
deferred action that runs once a reply is queued, and the two ways an upload
ends outside a request.

A `Link` is one service together with what it shares with the rest of the
device: the store, the OTA engine `O`, and whatever else the injected functions
of its configuration touch, a type `R` the service never looks into.  The
engine is not part of the repository, so it is a class of operations without
laws; a development that relies on its documented behaviour states it.
-/

namespace OmegaStick

open MachineFloat

/-! ## The OTA engine -/

/-- `espp::Ota` and the `esp_ota_*` calls made beside it, on a state `O`. An
operation that can fail gives its error, and `none` for success. The `other`
operations are about the partition `esp_ota_get_next_update_partition` gives. -/
class OtaEngine (O : Type*) where
  sessionActive : O → Bool
  bytesWritten : O → ℕ
  isPendingVerify : O → Bool
  begin : UInt32 → O → Option ErrorCode × O
  write : List UInt8 → O → Option ErrorCode × O
  finish : O → Option ErrorCode × O
  abort : O → O
  markAppValid : O → Option ErrorCode × O
  /-- Only returns on failure: success restarts the device. -/
  markAppInvalidAndRollback : O → Option ErrorCode × O
  runningPartitionLabel : O → List UInt8
  bootPartitionLabel : O → List UInt8
  appDescription : O → AppDesc
  otherLabel : O → Option (List UInt8)
  otherDescription : O → Option AppDesc
  otherState : O → Option ImgState
  otherVerifies : O → Bool
  /-- `esp_ota_set_boot_partition`; an error is its `esp_err_to_name`. -/
  setBootOther : O → Option (List UInt8) × O

/-! ## State -/

/-- What a handler defers until its reply is queued. -/
inductive AfterReply where
  /-- `ota->restart()`, once the reply was flushed -/
  | otaRestart
  /-- `Config::restart`, once the reply was flushed -/
  | restart
  | setInputMode (mode : InputMode)
  deriving DecidableEq, Repr

/-- The members the service's mutex guards. -/
structure CalibrationService where
  otaOwner : Bool
  otaLastActivity : Time
  holding : Bool
  afterReply : Option AfterReply
  deriving DecidableEq, Repr

def CalibrationService.new : CalibrationService := ⟨false, 0, false, none⟩

/-- What the services share. -/
structure Shared (F O R : Type*) where
  store : OmegaStore F
  ota : O
  outside : R

structure Link (F O R : Type*) extends CalibrationService, Shared F O R

/-- `CalibrationService::Config`, with the two callbacks of the store's own
configuration. An injected function is a state transformer of `R`, and `none`
when it is left unset; `ota` is whether the engine pointer is set, `restart`
whether the function is. -/
structure CalibrationService.Config (F R : Type*) where
  moduleId : UInt8
  errc : ErrcTable
  startCalibration : Option (R → Option ErrorCode × R)
  restart : Bool
  ota : Bool
  diagnostics : Option (R → DiagnosticsData)
  outputHold : Option (Bool → R → R)
  saveToFlash : OmegaStore F → R → Option ErrorCode × R
  onCalibrationChanged : OmegaStore F → R → R
  onModeChanged : InputMode → OmegaStore F → R → R

variable {F O R : Type*}

namespace Link

/-! ## Replies and the hold -/

section Basics

variable (cfg : CalibrationService.Config F R)

/-- An ERROR reply, nothing else. -/
def fail (l : Link F O R) (ec : ErrorCode) (context : List UInt8) : Frame × Link F O R :=
  (buildError cfg.errc cfg.moduleId ec context, l)

/-- An ERROR reply for a `std::errc`. -/
def refuse (l : Link F O R) (e : Errc) (context : String) : Frame × Link F O R :=
  l.fail cfg (cfg.errc.makeErrorCode e) (ascii context)

/-- An OK reply. -/
def succeed (l : Link F O R) (value : UInt32) : Frame × Link F O R :=
  (buildOk cfg.moduleId value, l)

@[simp] theorem fail_snd (l : Link F O R) (ec : ErrorCode) (context : List UInt8) :
    (l.fail cfg ec context).2 = l := rfl

@[simp] theorem refuse_snd (l : Link F O R) (e : Errc) (context : String) :
    (l.refuse cfg e context).2 = l := rfl

@[simp] theorem succeed_snd (l : Link F O R) (value : UInt32) : (l.succeed cfg value).2 = l := rfl

/-- `hold_output`: only edges are forwarded. -/
def holdOutput (l : Link F O R) (hold : Bool) : Link F O R :=
  if hold = l.holding then l
  else
    { l with
      holding := hold
      outside := match cfg.outputHold with
        | some forward => forward hold l.outside
        | none => l.outside }

@[simp] theorem holdOutput_holding (l : Link F O R) (hold : Bool) :
    (l.holdOutput cfg hold).holding = hold := by
  unfold holdOutput
  split
  · rename_i h; exact h.symm
  · rfl

@[simp] theorem holdOutput_otaOwner (l : Link F O R) (hold : Bool) :
    (l.holdOutput cfg hold).otaOwner = l.otaOwner := by
  unfold holdOutput; split <;> rfl

@[simp] theorem holdOutput_afterReply (l : Link F O R) (hold : Bool) :
    (l.holdOutput cfg hold).afterReply = l.afterReply := by
  unfold holdOutput; split <;> rfl

@[simp] theorem holdOutput_ota (l : Link F O R) (hold : Bool) :
    (l.holdOutput cfg hold).ota = l.ota := by
  unfold holdOutput; split <;> rfl

@[simp] theorem holdOutput_store (l : Link F O R) (hold : Bool) :
    (l.holdOutput cfg hold).store = l.store := by
  unfold holdOutput; split <;> rfl

/-- Defers an action until the reply is queued. -/
def defer (l : Link F O R) (action : AfterReply) : Link F O R :=
  { l with afterReply := some action }

/-! ## The store's setters -/

/-- `store_.set_manual_offset`, callback included. -/
def setManualOffset (l : Link F O R) (x y : F) : Link F O R :=
  let store := l.store.setManualOffset x y
  { l with store := store, outside := cfg.onCalibrationChanged store l.outside }

/-- `store_.set_deadzone_override`, callback included. -/
def setDeadzoneOverride (l : Link F O R) (center range : Option F) : Link F O R :=
  let store := l.store.setDeadzoneOverride center range
  { l with store := store, outside := cfg.onCalibrationChanged store l.outside }

/-- `store_.set_input_mode`, callback included. -/
def setInputMode (l : Link F O R) (mode : InputMode) : Link F O R :=
  match l.store.setInputMode mode with
  | (true, store) => { l with store := store, outside := cfg.onModeChanged mode store l.outside }
  | (false, store) => { l with store := store }

end Basics

/-! ## Firmware update requests -/

section Ota

variable [OtaEngine O] (cfg : CalibrationService.Config F R)

open OtaEngine

/-- Whether an upload this service began is running. -/
def ownsSession (l : Link F O R) : Bool := l.otaOwner && sessionActive l.ota

/-- `ota_->abort(); ota_owner_ = false` -/
def abortOwn (l : Link F O R) : Link F O R := { l with ota := abort l.ota, otaOwner := false }

def handleOtaBegin (payload : List UInt8) (now : Time) (l : Link F O R) : Frame × Link F O R :=
  if !cfg.ota then l.refuse cfg .functionNotSupported "OTA not wired on this build"
  else if payload.length ≠ 4 then l.refuse cfg .invalidArgument "OTA_BEGIN needs u32 image size"
  else if isPendingVerify l.ota then
    l.refuse cfg .operationNotPermitted ("OTA_BEGIN refused: the running image is not confirmed " ++
      "yet; confirm it (MARK_VALID) or wait for the rollback")
  else
    let tookOver := l.ownsSession
    let l := if tookOver then l.abortOwn else l
    -- Held before the slot is erased, which stalls the polling loop.
    let wasHolding := l.holding
    let l := l.holdOutput cfg true
    match begin (getU32 payload) l.ota with
    | (some ec, ota) =>
        let l := { l with ota := ota }
        (if !wasHolding || tookOver then l.holdOutput cfg false else l).fail cfg ec
          (ascii "OTA_BEGIN failed")
    | (none, ota) =>
        ({ l with ota := ota, otaOwner := true, otaLastActivity := now } : Link F O R).succeed cfg 0

def handleOtaData (payload : List UInt8) (now : Time) (l : Link F O R) : Frame × Link F O R :=
  if !cfg.ota || !l.otaOwner then
    l.refuse cfg .operationNotPermitted "no OTA session started here"
  else if payload.length ≤ 4 then
    l.refuse cfg .invalidArgument "OTA_DATA needs u32 offset + data"
  else if (getU32 payload).toNat ≠ bytesWritten l.ota then
    l.refuse cfg .invalidArgument "OTA_DATA offset mismatch"
  else
    match write (payload.drop 4) l.ota with
    | (some ec, ota) =>
        (({ l with ota := ota, otaOwner := false } : Link F O R).holdOutput cfg false).fail cfg ec
          (ascii "OTA_DATA write failed")
    | (none, ota) =>
        ({ l with ota := ota, otaLastActivity := now } : Link F O R).succeed cfg
          (UInt32.ofNat (bytesWritten ota))

def handleOtaFinish (l : Link F O R) : Frame × Link F O R :=
  if !cfg.ota || !l.otaOwner then
    l.refuse cfg .operationNotPermitted "no OTA session started here"
  else
    match finish l.ota with
    | (some ec, ota) =>
        (({ l with ota := ota, otaOwner := false } : Link F O R).holdOutput cfg false).fail cfg ec
          (ascii "OTA_FINISH (validate/activate) failed")
    | (none, ota) =>
        ((({ l with ota := ota, otaOwner := false } : Link F O R).holdOutput cfg true).defer
          .otaRestart).succeed cfg 0

def handleOtaAbort (l : Link F O R) : Frame × Link F O R :=
  (if cfg.ota && l.otaOwner then l.abortOwn.holdOutput cfg false else l).succeed cfg 0

/-- Two lowercase hex digits, `%02x`. -/
def hexByte (b : UInt8) : List UInt8 :=
  [b >>> 4, b &&& 15].map fun d => if d < 10 then d + 48 else d + 87

/-- The FW_INFO payload. -/
def fwInfoPayload (ota : O) : List UInt8 :=
  let desc := appDescription ota
  let sha := (desc.appElfSha256.take 4).flatMap hexByte
  let prev := (otherLabel ota).bind fun _ => otherDescription ota
  let prevState : List UInt8 :=
    if prev.isNone then ascii "empty"
    -- An upload in progress writes that slot, so it holds no complete image yet.
    else if sessionActive ota || !otherVerifies ota then ascii "partial"
    else ascii ((otherState ota).getD .undefined).name
  let strings := [desc.projectName, desc.version, desc.date, desc.time, desc.idfVer,
    runningPartitionLabel ota, sha, bootPartitionLabel ota, (otherLabel ota).getD [],
    (prev.map AppDesc.version).getD [], (prev.map AppDesc.date).getD [],
    (prev.map AppDesc.time).getD [], prevState]
  [flagByte (isPendingVerify ota), flagByte (sessionActive ota)] ++
    strings.flatMap fun s => UInt8.ofNat (min s.length 255) :: s.take 255

def handleGetFwInfo (l : Link F O R) : Frame × Link F O R :=
  if !cfg.ota then l.refuse cfg .functionNotSupported "OTA not wired on this build"
  else (build .fwInfo (fwInfoPayload l.ota) cfg.moduleId, l)

def handleRevert (payload : List UInt8) (l : Link F O R) : Frame × Link F O R :=
  if !cfg.ota then l.refuse cfg .functionNotSupported "OTA not wired on this build"
  else if payload ≠ [] then l.refuse cfg .invalidArgument "REVERT takes no payload"
  else
    -- Released unless the request goes on to reboot.
    let l := if l.ownsSession then l.abortOwn.holdOutput cfg false else l
    if sessionActive l.ota then
      l.refuse cfg .operationInProgress "REVERT refused: a firmware upload is in progress"
    else if ((otherLabel l.ota).bind fun _ => otherDescription l.ota).isNone then
      l.refuse cfg .noSuchDevice "REVERT refused: the other slot holds no app image"
    else
      match setBootOther l.ota with
      | (some err, ota) =>
          ({ l with ota := ota } : Link F O R).fail cfg (cfg.errc.makeErrorCode .ioError)
            (ascii "REVERT: esp_ota_set_boot_partition failed: " ++ err)
      | (none, ota) =>
          ((({ l with ota := ota } : Link F O R).holdOutput cfg true).defer
            .otaRestart).succeed cfg 0

def handleMarkValid (l : Link F O R) : Frame × Link F O R :=
  if !cfg.ota then l.refuse cfg .functionNotSupported "OTA not wired on this build"
  else
    match markAppValid l.ota with
    | (some ec, ota) => ({ l with ota := ota } : Link F O R).fail cfg ec (ascii "MARK_VALID failed")
    | (none, ota) => ({ l with ota := ota } : Link F O R).succeed cfg 0

end Ota

/-! ## The other requests -/

section Requests

variable (cfg : CalibrationService.Config F R)

def handleGetDiagnostics (l : Link F O R) : Frame × Link F O R :=
  match cfg.diagnostics with
  | none =>
      l.refuse cfg .functionNotSupported "GET_DIAGNOSTICS: this device does not publish diagnostics"
  | some diagnostics =>
      (build .diagnostics (buildDiagnosticsPayload (diagnostics l.outside)) cfg.moduleId, l)

def handleRestart (payload : List UInt8) (l : Link F O R) : Frame × Link F O R :=
  if payload ≠ [] then l.refuse cfg .invalidArgument "RESTART takes no payload"
  else if !cfg.restart then
    l.refuse cfg .functionNotSupported "RESTART not wired on this build"
  else ((l.holdOutput cfg true).defer .restart).succeed cfg 0

def handleSetNudgeEnabled (payload : List UInt8) (l : Link F O R) : Frame × Link F O R :=
  match payload with
  | [enabled] =>
      if 1 < enabled then
        l.refuse cfg .invalidArgument "SET_NUDGE_ENABLED needs u8 enabled (0 or 1)"
      else
        ({ l with store := l.store.setNudgeEnabled (enabled == 1) } : Link F O R).succeed cfg 0
  | _ => l.refuse cfg .invalidArgument "SET_NUDGE_ENABLED needs u8 enabled (0 or 1)"

def handleSetInputMode (payload : List UInt8) (l : Link F O R) : Frame × Link F O R :=
  match payload with
  | [mode] =>
      if 1 < mode then l.refuse cfg .invalidArgument "SET_INPUT_MODE needs u8 mode (0 or 1)"
      else if l.store.settings.inputMode = ⟨mode⟩ then l.succeed cfg 0
      else ((l.holdOutput cfg true).defer (.setInputMode ⟨mode⟩)).succeed cfg 1
  | _ => l.refuse cfg .invalidArgument "SET_INPUT_MODE needs u8 mode (0 or 1)"

def handleSaveToFlash (l : Link F O R) : Frame × Link F O R :=
  match cfg.saveToFlash l.store l.outside with
  | (some ec, outside) =>
      ({ l with outside := outside } : Link F O R).fail cfg ec (ascii "SAVE_TO_FLASH failed")
  | (none, outside) => ({ l with outside := outside } : Link F O R).succeed cfg 0

def handleStartCalibration (payload : List UInt8) (l : Link F O R) : Frame × Link F O R :=
  if payload ≠ [] then l.refuse cfg .invalidArgument "START_CALIBRATION takes no payload"
  else
    match cfg.startCalibration with
    | none => l.refuse cfg .functionNotSupported "START_CALIBRATION not wired on this build"
    | some startCalibration =>
        match startCalibration l.outside with
        | (some ec, outside) =>
            ({ l with outside := outside } : Link F O R).fail cfg ec
              (ascii "START_CALIBRATION could not be started")
        | (none, outside) => ({ l with outside := outside } : Link F O R).succeed cfg 0

variable [MachineFloat F] [FloatBits F]

def handleGetState (l : Link F O R) : Frame × Link F O R :=
  (build .state (buildStatePayload l.store) cfg.moduleId, l)

def handleSetManualOffset (payload : List UInt8) (l : Link F O R) : Frame × Link F O R :=
  if payload.length ≠ 8 then
    l.refuse cfg .invalidArgument "SET_MANUAL_OFFSET needs f32 offset_x + f32 offset_y"
  else
    let offsetX : F := getF32 payload 0
    let offsetY : F := getF32 payload 4
    if !isFinite offsetX || !isFinite offsetY then
      l.refuse cfg .invalidArgument "manual offset must be finite"
    else (l.setManualOffset cfg offsetX offsetY).succeed cfg 0

def handleSetDeadzoneOverride (payload : List UInt8) (l : Link F O R) : Frame × Link F O R :=
  if payload.length ≠ 9 then
    l.refuse cfg .invalidArgument "SET_DEADZONE_OVERRIDE needs u8 flags + f32 + f32"
  else
    let flags := payload.getD 0 0
    let hasCenter := flags &&& 0x01 != 0
    let hasRange := flags &&& 0x02 != 0
    let centerValue : F := getF32 payload 1
    let rangeValue : F := getF32 payload 5
    if hasCenter && !OmegaStore.overrideInRange centerValue maxCenterDeadzone then
      l.refuse cfg .invalidArgument "center deadzone override must be between 0 and 0.5"
    else if hasRange && !OmegaStore.overrideInRange rangeValue maxRangeDeadzone then
      l.refuse cfg .invalidArgument "range deadzone override must be between 0 and 0.1"
    else
      (l.setDeadzoneOverride cfg (if hasCenter then some centerValue else none)
        (if hasRange then some rangeValue else none)).succeed cfg 0

def handleSetNudgeSettings (payload : List UInt8) (l : Link F O R) : Frame × Link F O R :=
  if payload.length ≠ 12 then
    l.refuse cfg .invalidArgument "SET_NUDGE_SETTINGS needs f32 enter + f32 exit + u32 time_ms"
  else
    let enter : F := getF32 payload 0
    let exit : F := getF32 payload 4
    let timeMs := getU32 (payload.drop 8)
    if !flt (ofRat 0) enter || flt (ofRat 1) enter then
      l.refuse cfg .invalidArgument "nudge enter threshold must be in (0, 1]"
    else if !fle (ofRat 0) exit || flt (ofRat 1) exit then
      l.refuse cfg .invalidArgument "nudge exit threshold must be in [0, 1]"
    else
      ({ l with store := l.store.setNudgeSettings enter exit timeMs.toNat } : Link F O R).succeed
        cfg 0

end Requests

/-! ## Outside a request -/

section Outside

variable [OtaEngine O] (cfg : CalibrationService.Config F R)

/-- `run_after_reply`: what was started, if anything. -/
def runAfterReply (queued : Bool) (l : Link F O R) : Option AfterReply × Link F O R :=
  match l.afterReply with
  | none => (none, l)
  | some action =>
      let l := { l with afterReply := none }
      if queued then
        (some action,
          match action with
          | .setInputMode mode => l.setInputMode cfg mode
          | .otaRestart | .restart => l)
      -- No reboot is coming, but a running upload keeps the output held.
      else (none, if l.ownsSession then l else l.holdOutput cfg false)

/-- `abort_update` -/
def abortUpdate (l : Link F O R) : Link F O R :=
  if cfg.ota && l.otaOwner then l.abortOwn.holdOutput cfg false else l

/-- `expire_stale_update`; `locked` is whether the try-lock got the mutex. -/
def expireStaleUpdate (maxIdle now : Time) (locked : Bool) (l : Link F O R) :
    Bool × Link F O R :=
  if !locked || !cfg.ota || !l.otaOwner then (false, l)
  else if !OtaEngine.sessionActive l.ota then
    (false, ({ l with otaOwner := false } : Link F O R).holdOutput cfg false)
  else if now - l.otaLastActivity < maxIdle then (false, l)
  else (true, l.abortOwn.holdOutput cfg false)

end Outside

/-! ## Dispatch -/

section Dispatch

variable [MachineFloat F] [FloatBits F] [OtaEngine O] (cfg : CalibrationService.Config F R)

/-- The `switch` of `handle_frame_locked`, for a host's request; the remaining
types are replies, never requests. -/
def handleRequest (msg : Msg) (payload : List UInt8) (now : Time) (l : Link F O R) :
    Option Frame × Link F O R :=
  let answer := fun (r : Frame × Link F O R) => (some r.1, r.2)
  match msg with
  | .getDiagnostics => answer (l.handleGetDiagnostics cfg)
  | .getState => answer (l.handleGetState cfg)
  | .otaBegin => answer (l.handleOtaBegin cfg payload now)
  | .otaData => answer (l.handleOtaData cfg payload now)
  | .otaFinish => answer (l.handleOtaFinish cfg)
  | .otaAbort => answer (l.handleOtaAbort cfg)
  | .getFwInfo => answer (l.handleGetFwInfo cfg)
  | .revert => answer (l.handleRevert cfg payload)
  | .markValid => answer (l.handleMarkValid cfg)
  | .restart => answer (l.handleRestart cfg payload)
  | .setManualOffset => answer (l.handleSetManualOffset cfg payload)
  | .setDeadzoneOverride => answer (l.handleSetDeadzoneOverride cfg payload)
  | .setNudgeSettings => answer (l.handleSetNudgeSettings cfg payload)
  | .setNudgeEnabled => answer (l.handleSetNudgeEnabled cfg payload)
  | .setInputMode => answer (l.handleSetInputMode cfg payload)
  | .saveToFlash => answer (l.handleSaveToFlash cfg)
  | .startCalibration => answer (l.handleStartCalibration cfg payload)
  | .state | .calibrationResult | .fwInfo | .diagnostics | .ok | .error => (none, l)

/-- `handle_frame_locked`: the reply is `none` for a frame that is ignored. -/
def handleFrameLocked (type : UInt8) (payload : List UInt8) (now : Time) (l : Link F O R) :
    Option Frame × Link F O R :=
  match Msg.ofCode type with
  | some msg => l.handleRequest cfg msg payload now
  | none => (none, l)

/-- `handle_frame`, one request with nothing in between; `sent` is what the
transport says of the reply. A frame that is ignored has no reply, and counts
as queued. -/
def handleFrame (type : UInt8) (payload : List UInt8) (now : Time) (sent : Bool)
    (l : Link F O R) : Option AfterReply × Link F O R :=
  let (reply, l) := l.handleFrameLocked cfg type payload now
  l.runAfterReply cfg (reply.isNone || sent)

end Dispatch

end Link

end OmegaStick
