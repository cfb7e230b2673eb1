import OmegaStick.Service.Handler

/-!
# The simulator's OTA engine

`sim/stubs/ota.hpp`: the engine the simulator links in place of `espp::Ota`,
over the two app slots.  It is the concrete engine the development runs.
-/

namespace OmegaStick

/-- `std::errc` as the simulator's C library numbers and words it. -/
def hostErrc : ErrcTable where
  value
    | .functionNotSupported => 38
    | .invalidArgument => 22
    | .operationNotPermitted => 1
    | .operationInProgress => 115
    | .noSuchDevice => 19
    | .ioError => 5
    | .deviceOrResourceBusy => 16
    | .badMessage => 74
  message
    | .functionNotSupported => ascii "Function not implemented"
    | .invalidArgument => ascii "Invalid argument"
    | .operationNotPermitted => ascii "Operation not permitted"
    | .operationInProgress => ascii "Operation now in progress"
    | .noSuchDevice => ascii "No such device"
    | .ioError => ascii "Input/output error"
    | .deviceOrResourceBusy => ascii "Device or resource busy"
    | .badMessage => ascii "Bad message"

/-! ## Image descriptors -/

def kAppDescMagic : UInt32 := 0xABCD5432

/-- `esp_image_header_t` and the first segment header. -/
def kAppDescOffset : ℕ := 32

/-- `sizeof(esp_app_desc_t)` -/
def appDescSize : ℕ := 256

/-- A character field of a descriptor; its last byte is made a terminator. -/
def cString (field : List UInt8) : List UInt8 := (field.take (field.length - 1)).takeWhile (· != 0)

/-- `parse_image_desc`: image magic, then the descriptor after the first
segment header. -/
def parseImageDesc (image : List UInt8) : Option AppDesc :=
  if image.length < kAppDescOffset + appDescSize || image.head? != some 0xE9 then none
  else
    let desc := image.drop kAppDescOffset
    let field := fun offset size => (desc.drop offset).take size
    if getU32 desc ≠ kAppDescMagic then none
    else
      some
        { version := cString (field 16 32)
          projectName := cString (field 48 32)
          time := cString (field 80 16)
          date := cString (field 96 16)
          idfVer := cString (field 112 32)
          appElfSha256 := field 144 32 }

/-! ## The engine -/

attribute [local instance] Flash.neZero_two in
/-- A slot's partition label: `ota_0` or `ota_1`. -/
def slotLabel (i : Fin 2) : List UInt8 := if i = 0 then ascii "ota_0" else ascii "ota_1"

theorem slotLabel_inj {i j : Fin 2} : slotLabel i = slotLabel j ↔ i = j := by
  revert i j; decide

/-- `espp::Ota` of the simulator, with the flash behind it. -/
structure SimOta where
  flash : Flash AppDesc
  active : Bool
  imageSize : UInt32
  image : List UInt8
  descSeen : Bool
  deriving DecidableEq

namespace SimOta

def new (flash : Flash AppDesc) : SimOta := ⟨flash, false, 0, [], false⟩

def begin (imageSize : UInt32) (ota : SimOta) : Option ErrorCode × SimOta :=
  if ota.active then (some (hostErrc.makeErrorCode .deviceOrResourceBusy), ota)
  else if ota.flash.pendingVerify then (some (hostErrc.makeErrorCode .ioError), ota)
  else
    (none,
      { flash := ota.flash.beginUpload, active := true, imageSize := imageSize, image := [],
        descSeen := false })

def write (data : List UInt8) (ota : SimOta) : Option ErrorCode × SimOta :=
  if !ota.active then (some (hostErrc.makeErrorCode .operationNotPermitted), ota)
  else
    let ota := { ota with image := ota.image ++ data }
    match if ota.descSeen then none else parseImageDesc ota.image with
    | some desc =>
        (none, { ota with descSeen := true, flash := ota.flash.uploadDescriptor desc })
    | none => (none, ota)

def finish (ota : SimOta) : Option ErrorCode × SimOta :=
  if !ota.active then (some (hostErrc.makeErrorCode .operationNotPermitted), ota)
  else
    match parseImageDesc ota.image with
    | none => (some (hostErrc.makeErrorCode .badMessage), { ota with active := false })
    | some desc =>
        (none, { ota with active := false, flash := ota.flash.commitImage desc, image := [] })

def abort (ota : SimOta) : SimOta := { ota with active := false, image := [] }

instance : OtaEngine SimOta where
  sessionActive ota := ota.active
  bytesWritten ota := ota.image.length
  isPendingVerify ota := ota.flash.pendingVerify
  begin := begin
  write := write
  finish := finish
  abort := abort
  markAppValid ota := (none, { ota with flash := ota.flash.markValid })
  markAppInvalidAndRollback ota :=
    match ota.flash.markInvalidAndRollback with
    | (false, _) => (some (hostErrc.makeErrorCode .noSuchDevice), ota)
    | (true, flash) => (none, { ota with flash := flash })
  runningPartitionLabel ota := slotLabel ota.flash.running
  bootPartitionLabel ota := slotLabel ota.flash.boot
  appDescription ota := ota.flash.runningSlot.desc
  otherLabel ota := some (slotLabel (Flash.otherOf ota.flash.running))
  otherDescription ota := ota.flash.describe (Flash.otherOf ota.flash.running)
  otherState ota := ota.flash.stateOf (Flash.otherOf ota.flash.running)
  otherVerifies ota := ota.flash.otherSlot.complete
  setBootOther ota :=
    let (err, flash) := ota.flash.setBoot (Flash.otherOf ota.flash.running)
    (err.map ascii, { ota with flash := flash })

end SimOta

end OmegaStick
