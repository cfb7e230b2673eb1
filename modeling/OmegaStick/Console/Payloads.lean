import OmegaStick.Service.Wire

/-!
# The console's payloads

The payload encoders and decoders of `omega_protocol.js`.  A decoded float is
kept as its 32-bit word, and the text of a name as its bytes.  The numbers a
request is encoded from are of a type `N`, of which only the conversions of the
typed arrays are used.
-/

namespace OmegaStick

namespace Console

/-- A JavaScript number, as typed arrays store it. -/
class JsNumber (N : Type*) where
  /-- The word `setFloat32` writes: the number rounded to 32 bits. -/
  float32 : N → UInt32
  /-- `setUint32` -/
  uint32 : N → UInt32
  /-- An element of a `Uint8Array`. -/
  uint8 : N → UInt8

/-! ## Reading -/

/-- The readers of a decoder, which move its offset on. -/
abbrev Reader := StateM (List UInt8)

def u8 : Reader UInt8 := fun payload => (payload.headD 0, payload.tail)

def u32 : Reader UInt32 := fun payload => (getU32 payload, payload.drop 4)

/-- The word of a float. -/
def f32 : Reader UInt32 := u32

@[simp] theorem u8_cons (byte : UInt8) (rest : List UInt8) : u8 (byte :: rest) = (byte, rest) := rfl

@[simp] theorem u32_putU32 (value : UInt32) (rest : List UInt8) :
    u32 (putU32 value ++ rest) = (value, rest) := by
  rw [u32, getU32_putU32]
  rfl

@[simp] theorem f32_putU32 (value : UInt32) (rest : List UInt8) :
    f32 (putU32 value ++ rest) = (value, rest) := u32_putU32 value rest

/-! ## STATE -/

/-- What `decodeState` returns; `none` is `null`. -/
structure DecodedState where
  centerX : UInt32
  centerY : UInt32
  centerNoise : UInt32
  centerDeadzoneAuto : UInt32
  manualOffsetX : UInt32
  manualOffsetY : UInt32
  rangeMinX : UInt32
  rangeMaxX : UInt32
  rangeMinY : UInt32
  rangeMaxY : UInt32
  usableRadius : UInt32
  reliableMaxRadius : UInt32
  normalizedMaxRadius : UInt32
  rangeDeadzoneAuto : UInt32
  manualCenterDeadzone : Option UInt32
  manualRangeDeadzone : Option UInt32
  nudgeEnterThreshold : UInt32
  nudgeExitThreshold : UInt32
  nudgeTimeMs : ℕ
  inputMode : UInt8
  nudgeEnabled : Option Bool
  deriving DecidableEq, Repr

/-- The fields of a STATE payload, in the order they are read. -/
def readState : Reader DecodedState := do
  let centerX ← f32
  let centerY ← f32
  let centerNoise ← f32
  let centerDeadzoneAuto ← f32
  let manualOffsetX ← f32
  let manualOffsetY ← f32
  let rangeMinX ← f32
  let rangeMaxX ← f32
  let rangeMinY ← f32
  let rangeMaxY ← f32
  let usableRadius ← f32
  let reliableMaxRadius ← f32
  let normalizedMaxRadius ← f32
  let rangeDeadzoneAuto ← f32
  let hasCenterDz ← u8
  let manualCenterDz ← f32
  let hasRangeDz ← u8
  let manualRangeDz ← f32
  let nudgeEnterThreshold ← f32
  let nudgeExitThreshold ← f32
  let nudgeTimeMs ← u32
  let inputMode ← u8
  let rest ← get
  let nudgeEnabled ← if rest.isEmpty then pure none else do
    let enabled ← u8
    pure (some (enabled != 0))
  pure
    { centerX, centerY, centerNoise, centerDeadzoneAuto, manualOffsetX, manualOffsetY
      rangeMinX, rangeMaxX, rangeMinY, rangeMaxY, usableRadius, reliableMaxRadius
      normalizedMaxRadius, rangeDeadzoneAuto
      manualCenterDeadzone := if hasCenterDz != 0 then some manualCenterDz else none
      manualRangeDeadzone := if hasRangeDz != 0 then some manualRangeDz else none
      nudgeEnterThreshold, nudgeExitThreshold
      nudgeTimeMs := nudgeTimeMs.toNat
      inputMode, nudgeEnabled }

def decodeState (payload : List UInt8) : Except String DecodedState :=
  if payload.length < 79 then
    .error ("malformed STATE reply (" ++ toString payload.length ++ " B, expected 79 or 80)")
  else .ok (readState payload).1

/-! ## DIAGNOSTICS -/

/-- What `decodeDiagnostics` returns, the names as bytes. -/
structure DecodedDiagnostics where
  sensorFault : UInt8
  sensorFirstFault : UInt8
  sensorFaultCount : UInt32
  bootCount : UInt32
  resets : List DiagnosticsReset
  calibrationState : Option UInt8
  deriving DecidableEq, Repr

/-- The reset entries from number `i` on, and what follows them. -/
def decodeResets (i : ℕ) : ℕ → List UInt8 → Except String (List DiagnosticsReset × List UInt8)
  | 0, rest => .ok ([], rest)
  | count + 1, rest =>
      if rest.length < 7 then
        .error ("malformed DIAGNOSTICS reply: reset entry " ++ toString i ++ " truncated")
      else
        let (boot, rest) := u32 rest
        let (reason, rest) := u8 rest
        let (abnormal, rest) := u8 rest
        let (nameLen, rest) := u8 rest
        if rest.length < nameLen.toNat then
          .error ("malformed DIAGNOSTICS reply: reset name " ++ toString i ++ " truncated")
        else
          match decodeResets (i + 1) count (rest.drop nameLen.toNat) with
          | .error message => .error message
          | .ok (resets, rest') =>
              .ok (⟨boot, reason, abnormal != 0, rest.take nameLen.toNat⟩ :: resets, rest')

def decodeDiagnostics (payload : List UInt8) : Except String DecodedDiagnostics :=
  if payload.length < 11 then
    .error ("malformed DIAGNOSTICS reply (" ++ toString payload.length ++
      " B, expected at least 11)")
  else
    let (sensorFault, rest) := u8 payload
    let (sensorFirstFault, rest) := u8 rest
    let (sensorFaultCount, rest) := u32 rest
    let (bootCount, rest) := u32 rest
    let (count, rest) := u8 rest
    match decodeResets 0 count.toNat rest with
    | .error message => .error message
    | .ok (resets, rest) =>
        .ok ⟨sensorFault, sensorFirstFault, sensorFaultCount, bootCount, resets, rest.head?⟩

/-! ## Requests -/

section Encode

variable {N : Type*} [JsNumber N]

open JsNumber

def encodeSetManualOffset (x y : N) : List UInt8 := putU32 (float32 x) ++ putU32 (float32 y)

def encodeSetDeadzoneOverride (centerOn : Bool) (centerVal : N) (rangeOn : Bool) (rangeVal : N) :
    List UInt8 :=
  [(if centerOn then 0x01 else 0) ||| (if rangeOn then 0x02 else 0)] ++
    putU32 (if centerOn then float32 centerVal else 0) ++
    putU32 (if rangeOn then float32 rangeVal else 0)

def encodeSetNudgeSettings (enter exit timeMs : N) : List UInt8 :=
  putU32 (float32 enter) ++ putU32 (float32 exit) ++ putU32 (uint32 timeMs)

def encodeSetInputMode (mode : N) : List UInt8 := [uint8 mode]

def encodeSetNudgeEnabled (enabled : Bool) : List UInt8 := [if enabled then 1 else 0]

end Encode

end Console

end OmegaStick
