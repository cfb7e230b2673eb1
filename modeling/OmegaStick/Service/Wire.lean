import OmegaStick.Store.Basic

/-!
# The calibration protocol's messages

The message types, error codes and payload layouts of `calibration_service.hpp`.
A reply is kept as a `Frame`, the arguments `stream_frame::build_frame` is
called with; the framing itself is the codec's business.
-/

namespace OmegaStick

/-! ## Message types -/

/-- `CalibrationService::Msg` -/
inductive Msg where
  | getState
  | setManualOffset
  | setDeadzoneOverride
  | setNudgeSettings
  | setInputMode
  | saveToFlash
  | startCalibration
  | restart
  | otaBegin
  | otaData
  | otaFinish
  | otaAbort
  | getFwInfo
  | markValid
  | revert
  | getDiagnostics
  | setNudgeEnabled
  | state
  | calibrationResult
  | fwInfo
  | diagnostics
  | ok
  | error
  deriving DecidableEq, Repr

namespace Msg

/-- The frame's type byte. -/
def code : Msg → UInt8
  | getState => 0x50
  | setManualOffset => 0x51
  | setDeadzoneOverride => 0x52
  | setNudgeSettings => 0x53
  | setInputMode => 0x54
  | saveToFlash => 0x55
  | startCalibration => 0x56
  | restart => 0x57
  | otaBegin => 0x58
  | otaData => 0x59
  | otaFinish => 0x5A
  | otaAbort => 0x5B
  | getFwInfo => 0x5C
  | markValid => 0x5D
  | revert => 0x5E
  | getDiagnostics => 0x5F
  | setNudgeEnabled => 0x60
  | state => 0xD0
  | calibrationResult => 0xD1
  | fwInfo => 0xD2
  | diagnostics => 0xD3
  | ok => 0xDF
  | error => 0xFE

/-- The host's requests, the cases of the handler's `switch`. -/
def requests : List Msg :=
  [getState, setManualOffset, setDeadzoneOverride, setNudgeSettings, setInputMode, saveToFlash,
    startCalibration, restart, otaBegin, otaData, otaFinish, otaAbort, getFwInfo, markValid,
    revert, getDiagnostics, setNudgeEnabled]

/-- The request a type byte names. -/
def ofCode (type : UInt8) : Option Msg := requests.find? fun msg => msg.code == type

theorem ofCode_code {msg : Msg} (hmsg : msg ∈ requests) : ofCode msg.code = some msg := by
  revert msg
  decide

theorem code_of_ofCode {type : UInt8} {msg : Msg} (h : ofCode type = some msg) :
    msg.code = type := by
  simpa using List.find?_some h

end Msg

/-! ## Frames -/

/-- What `build_frame` encodes. -/
structure Frame where
  reply : Bool
  moduleId : UInt8
  type : UInt8
  payload : List UInt8
  deriving DecidableEq, Repr

/-- The codec's payload limit. -/
def kMaxPayloadSize : ℕ := 4096

def kModule : UInt8 := 5

/-- `build`: the high bit of the type is the reply flag. -/
def build (type : Msg) (payload : List UInt8) (moduleId : UInt8) : Frame :=
  ⟨type.code &&& 0x80 ≠ 0, moduleId, type.code, payload⟩

/-! ## Scalars, little-endian -/

def putU32 (value : UInt32) : List UInt8 :=
  [value.toUInt8, (value >>> 8).toUInt8, (value >>> 16).toUInt8, (value >>> 24).toUInt8]

/-- Reads the first four bytes; every call site checks the size up front. -/
def getU32 (data : List UInt8) : UInt32 :=
  (data.getD 0 0).toUInt32 ||| ((data.getD 1 0).toUInt32 <<< 8) |||
    ((data.getD 2 0).toUInt32 <<< 16) ||| ((data.getD 3 0).toUInt32 <<< 24)

section Float

variable {F : Type*} [FloatBits F]

def putF32 (value : F) : List UInt8 := putU32 (FloatBits.toBits value)

def getF32 (data : List UInt8) (offset : ℕ) : F := FloatBits.ofBits (getU32 (data.drop offset))

@[simp] theorem length_putU32 (value : UInt32) : (putU32 value).length = 4 := rfl

@[simp] theorem length_putF32 (value : F) : (putF32 value).length = 4 := rfl

end Float

theorem getU32_putU32 (value : UInt32) (rest : List UInt8) :
    getU32 (putU32 value ++ rest) = value := by
  simp only [getU32, putU32, List.cons_append, List.nil_append, List.getD_cons_zero,
    List.getD_cons_succ]
  apply UInt32.eq_of_toBitVec_eq
  simp only [UInt32.toBitVec_or, UInt32.toBitVec_shiftLeft, UInt8.toBitVec_toUInt32,
    UInt32.toBitVec_toUInt8, UInt32.toBitVec_shiftRight]
  ext i hi
  have h8 : (8 : UInt32).toBitVec % 32 = 8#32 := by decide
  have h16 : (16 : UInt32).toBitVec % 32 = 16#32 := by decide
  have h24 : (24 : UInt32).toBitVec % 32 = 24#32 := by decide
  simp only [BitVec.getElem_or, BitVec.shiftLeft_eq', BitVec.ushiftRight_eq',
    BitVec.getElem_shiftLeft, BitVec.getElem_setWidth, BitVec.getLsbD_setWidth,
    BitVec.getLsbD_ushiftRight, h8, h16, h24, BitVec.toNat_ofNat]
  rw [← BitVec.getLsbD_eq_getElem]
  have hjoin : ∀ k, k ≤ i → k + (i - k) = i := fun k hk => by omega
  grind

theorem putU32_getU32 (a b c d : UInt8) (rest : List UInt8) :
    putU32 (getU32 (a :: b :: c :: d :: rest)) = [a, b, c, d] := by
  have h8 : (8 : UInt32).toBitVec % 32 = 8#32 := by decide
  have h16 : (16 : UInt32).toBitVec % 32 = 16#32 := by decide
  have h24 : (24 : UInt32).toBitVec % 32 = 24#32 := by decide
  simp only [getU32, putU32, List.getD_cons_zero, List.getD_cons_succ, List.cons.injEq, and_true]
  refine ⟨?_, ?_, ?_, ?_⟩ <;>
  · apply UInt8.eq_of_toBitVec_eq
    simp only [UInt32.toBitVec_or, UInt32.toBitVec_shiftLeft, UInt8.toBitVec_toUInt32,
      UInt32.toBitVec_toUInt8, UInt32.toBitVec_shiftRight, h8, h16, h24]
    ext i hi
    simp only [BitVec.getElem_setWidth, BitVec.getLsbD_or, BitVec.shiftLeft_eq',
      BitVec.ushiftRight_eq', BitVec.getLsbD_shiftLeft, BitVec.getLsbD_setWidth,
      BitVec.getLsbD_ushiftRight, BitVec.toNat_ofNat]
    rw [← BitVec.getLsbD_eq_getElem]
    grind

/-! ## Errors -/

/-- The `std::errc` values the protocol uses. -/
inductive Errc where
  | functionNotSupported
  | invalidArgument
  | operationNotPermitted
  | operationInProgress
  | noSuchDevice
  | ioError
  | deviceOrResourceBusy
  | badMessage
  deriving DecidableEq, Repr

inductive ErrorCategory where
  | generic
  /-- Another category, with the value of the code's default condition when
  that one is generic. -/
  | other (condition : Option ℤ)
  deriving DecidableEq, Repr

/-- `std::error_code` -/
structure ErrorCode where
  value : ℤ
  category : ErrorCategory
  message : List UInt8
  deriving DecidableEq, Repr

/-- The platform's numbers and texts of `std::errc`, which differ between C
libraries. -/
structure ErrcTable where
  value : Errc → ℤ
  message : Errc → List UInt8

/-- `std::make_error_code` -/
def ErrcTable.makeErrorCode (errc : ErrcTable) (e : Errc) : ErrorCode :=
  ⟨errc.value e, .generic, errc.message e⟩

/-- Where a message of at most `count` bytes is cut: never before a UTF-8
continuation byte. -/
def cutPoint (message : List UInt8) : ℕ → ℕ
  | 0 => 0
  | count + 1 =>
      match message[count + 1]? with
      | some byte => if byte &&& 0xC0 = 0x80 then cutPoint message count else count + 1
      | none => count + 1

def cutMessage (message : List UInt8) (room : ℕ) : List UInt8 :=
  message.take (cutPoint message (min message.length room))

theorem cutPoint_le (message : List UInt8) (count : ℕ) : cutPoint message count ≤ count := by
  induction count with
  | zero => rfl
  | succ count ih =>
      unfold cutPoint
      split
      · split
        · omega
        · rfl
      · rfl

theorem length_cutMessage_le (message : List UInt8) (room : ℕ) :
    (cutMessage message room).length ≤ room := by
  have := cutPoint_le message (min message.length room)
  rw [cutMessage, List.length_take]
  omega

/-- The code normalized to a `std::errc` value where possible. -/
def ErrorCode.normalized (errc : ErrcTable) (ec : ErrorCode) : ℤ :=
  match ec.category with
  | .generic => ec.value
  | .other condition => condition.getD (errc.value .ioError)

/-- `build_error` -/
def buildError (errc : ErrcTable) (moduleId : UInt8) (ec : ErrorCode) (context : List UInt8) :
    Frame :=
  let code := putU32 (UInt32.ofInt (ec.normalized errc))
  let message := context ++ ascii ": " ++ ec.message
  build .error (code ++ cutMessage message (kMaxPayloadSize - code.length)) moduleId

/-- `build_ok` -/
def buildOk (moduleId : UInt8) (value : UInt32) : Frame := build .ok (putU32 value) moduleId

/-- The payload of `notify_calibration_result`; `none` is success. -/
def calibrationResultPayload (result : Option ErrorCode) : List UInt8 :=
  match result with
  | none => [1]
  | some ec =>
      let head := 0 :: putU32 (UInt32.ofInt ec.value)
      head ++ cutMessage ec.message (kMaxPayloadSize - head.length)

/-! ## STATE -/

def kStatePayloadSize : ℕ := 80

def flagByte (b : Bool) : UInt8 := if b then 1 else 0

section State

variable {F : Type*} [MachineFloat F] [FloatBits F]

def buildStatePayload (snap : OmegaStore F) : List UInt8 :=
  let center := snap.center
  let range := snap.range
  let settings := snap.settings
  putF32 center.centerX ++ putF32 center.centerY ++ putF32 center.noiseRadius ++
    putF32 center.deadzone ++ putF32 center.manualOffsetX ++ putF32 center.manualOffsetY ++
    putF32 range.minX ++ putF32 range.maxX ++ putF32 range.minY ++ putF32 range.maxY ++
    putF32 range.usableRadius ++ putF32 range.reliableMaxRadius ++
    putF32 range.normalizedMaxRadius ++ putF32 range.deadzone ++
    [flagByte settings.manualCenterDeadzone.isSome] ++
    putF32 (settings.manualCenterDeadzone.getD (MachineFloat.ofRat 0)) ++
    [flagByte settings.manualRangeDeadzone.isSome] ++
    putF32 (settings.manualRangeDeadzone.getD (MachineFloat.ofRat 0)) ++
    putF32 settings.nudgeDistanceThreshold ++ putF32 settings.nudgeExitThreshold ++
    putU32 (UInt32.ofInt settings.nudgeHoldTime) ++ [settings.inputMode.code] ++
    [flagByte settings.nudgeEnabled]

theorem length_buildStatePayload (snap : OmegaStore F) :
    (buildStatePayload snap).length = kStatePayloadSize := by
  unfold buildStatePayload
  repeat rw [List.length_append]
  simp only [length_putF32, length_putU32]
  rfl

end State

/-! ## DIAGNOSTICS -/

/-- One entry of `DiagnosticsData::resets`. -/
structure DiagnosticsReset where
  boot : UInt32
  reason : UInt8
  abnormal : Bool
  name : List UInt8
  deriving DecidableEq, Repr

/-- `DiagnosticsData`; the resets are oldest first. -/
structure DiagnosticsData where
  sensorFault : UInt8
  sensorFirstFault : UInt8
  sensorFaultCount : UInt32
  bootCount : UInt32
  resets : List DiagnosticsReset
  calibrationState : UInt8
  deriving DecidableEq, Repr

def calibrationUsable : UInt8 := 0

def calibrationNeeded : UInt8 := 1

namespace DiagnosticsReset

def clippedName (r : DiagnosticsReset) : List UInt8 := r.name.take 255

def entrySize (r : DiagnosticsReset) : ℕ := 4 + 1 + 1 + 1 + min r.name.length 255

def encode (r : DiagnosticsReset) : List UInt8 :=
  putU32 r.boot ++ [r.reason, flagByte r.abnormal, UInt8.ofNat (min r.name.length 255)] ++
    r.clippedName

theorem length_encode (r : DiagnosticsReset) : r.encode.length = r.entrySize := by
  simp only [encode, entrySize, clippedName, List.length_append, length_putU32,
    List.length_cons, List.length_nil, List.length_take]
  omega

end DiagnosticsReset

/-- The newest resets that fit, from a newest-first list; `used` bytes and
`kept` entries are taken already. -/
def keptResets : List DiagnosticsReset → ℕ → ℕ → List DiagnosticsReset
  | [], _, _ => []
  | r :: older, used, kept =>
      if kMaxPayloadSize < used + r.entrySize ∨ 255 < kept + 1 then []
      else r :: keptResets older (used + r.entrySize) (kept + 1)

def buildDiagnosticsPayload (d : DiagnosticsData) : List UInt8 :=
  let header := [d.sensorFault, d.sensorFirstFault] ++ putU32 d.sensorFaultCount ++
    putU32 d.bootCount
  let kept := (keptResets d.resets.reverse (header.length + 1 + 1) 0).reverse
  header ++ [UInt8.ofNat kept.length] ++ kept.flatMap DiagnosticsReset.encode ++
    [d.calibrationState]

theorem keptResets_fits (resets : List DiagnosticsReset) :
    ∀ used kept, used ≤ kMaxPayloadSize →
      used + ((keptResets resets used kept).map DiagnosticsReset.entrySize).sum ≤
        kMaxPayloadSize := by
  induction resets with
  | nil => intro used kept hused; simpa [keptResets] using hused
  | cons r older ih =>
      intro used kept hused
      unfold keptResets
      split
      · simpa using hused
      · rename_i hfits
        have := ih (used + r.entrySize) (kept + 1) (by omega)
        simp only [List.map_cons, List.sum_cons]
        omega

theorem length_buildDiagnosticsPayload_le (d : DiagnosticsData) :
    (buildDiagnosticsPayload d).length ≤ kMaxPayloadSize := by
  have hheader : ([d.sensorFault, d.sensorFirstFault] ++ putU32 d.sensorFaultCount ++
      putU32 d.bootCount).length = 10 := rfl
  have hfits := keptResets_fits d.resets.reverse 12 0 (by decide)
  simp only [buildDiagnosticsPayload, hheader, Nat.reduceAdd]
  rw [List.length_append, List.length_append, List.length_append, hheader, List.length_flatMap]
  simp only [DiagnosticsReset.length_encode, List.length_cons, List.length_nil,
    List.map_reverse, List.sum_reverse]
  change _ + (List.map DiagnosticsReset.entrySize _).sum + _ ≤ _
  omega

end OmegaStick
