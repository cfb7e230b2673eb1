import OmegaStick.Firmware.SimOta
import OmegaStick.Library.KeyValueText

/-!
# The simulated flash's file

`save_locked` and `load_locked` of `sim_flash.hpp`.  A slot's descriptor is its 256 bytes
here; the file holds them in hexadecimal and, for its readers and for older files, the
version, project, date and time as text.
-/

namespace OmegaStick

open DecimalText (isDigit takeSign valueOf)
open KeyValueText (Bytes Entry assignments entryText lookup)
open TextFields (decimal)

/-! ## Descriptors -/

/-- `esp_app_desc_t` as its bytes. -/
structure EspAppDesc where
  bytes : Bytes
  length_eq : bytes.length = appDescSize
  deriving DecidableEq

/-- A character array of `esp_app_desc_t`. -/
structure CharField where
  offset : ℕ
  size : ℕ
  pos : 0 < size
  fits : offset + size ≤ appDescSize

namespace CharField

def version : CharField := ⟨16, 32, by decide, by decide⟩

def projectName : CharField := ⟨48, 32, by decide, by decide⟩

def time : CharField := ⟨80, 16, by decide, by decide⟩

def date : CharField := ⟨96, 16, by decide, by decide⟩

def idfVer : CharField := ⟨112, 32, by decide, by decide⟩

/-- All of them, in the order they are terminated. -/
def all : List CharField := [version, projectName, time, date, idfVer]

/-- Where the terminator of a full field stands. -/
def last (f : CharField) : ℕ := f.offset + f.size - 1

end CharField

namespace EspAppDesc

instance : Inhabited EspAppDesc := ⟨⟨List.replicate appDescSize 0, List.length_replicate⟩⟩

def magicWord (d : EspAppDesc) : UInt32 := getU32 d.bytes

/-- A character array as the C string it holds. -/
def text (d : EspAppDesc) (f : CharField) : Bytes :=
  cString ((d.bytes.drop f.offset).take f.size)

def setByte (d : EspAppDesc) (i : ℕ) (c : UInt8) : EspAppDesc :=
  ⟨d.bytes.set i c, by rw [List.length_set, d.length_eq]⟩

/-- The last byte of every character array is made a terminator. -/
def terminate (d : EspAppDesc) : EspAppDesc :=
  CharField.all.foldl (fun d f => d.setByte f.last 0) d

/-- What `copy_str` fills an array with: the text, cut, and zeros. -/
def padded (cap : ℕ) (s : Bytes) : Bytes :=
  s.take (cap - 1) ++ List.replicate (cap - (s.take (cap - 1)).length) 0

theorem length_padded (cap : ℕ) (s : Bytes) : (padded cap s).length = cap := by
  have hle : (s.take (cap - 1)).length ≤ cap := by
    rw [List.length_take]
    omega
  rw [padded, List.length_append, List.length_replicate, Nat.add_sub_cancel' hle]

/-- `copy_str` -/
def copyStr (d : EspAppDesc) (f : CharField) (s : Bytes) : EspAppDesc where
  bytes := d.bytes.take f.offset ++ (padded f.size s ++ d.bytes.drop (f.offset + f.size))
  length_eq := by
    have hfits := f.fits
    rw [List.length_append, List.length_append, length_padded, List.length_take, List.length_drop,
      d.length_eq]
    omega

def setMagic (d : EspAppDesc) : EspAppDesc where
  bytes := putU32 kAppDescMagic ++ d.bytes.drop 4
  length_eq := by
    rw [List.length_append, List.length_drop, d.length_eq]
    rfl

/-- `make_desc` -/
def makeDesc (version project : Bytes) : EspAppDesc :=
  ((((setMagic default).copyStr .version version).copyStr .projectName project).copyStr .time
    (ascii "00:00:00")).copyStr .date (ascii "Jan  1 2026") |>.copyStr .idfVer (ascii "sim")

/-- `parse_image_desc` -/
def parseImage (image : Bytes) : Option EspAppDesc :=
  if h : image.length < kAppDescOffset + appDescSize ∨ image.head? ≠ some 0xE9 then none
  else
    let desc : EspAppDesc :=
      { bytes := (image.drop kAppDescOffset).take appDescSize
        length_eq := by
          rw [not_or, not_lt] at h
          have hlength := h.1
          rw [List.length_take, List.length_drop]
          omega }
    if desc.magicWord ≠ kAppDescMagic then none else some desc.terminate

/-! ### Hexadecimal -/

def hexDigit (d : ℕ) : UInt8 := UInt8.ofNat (if d < 10 then 48 + d else 87 + d)

/-- `desc_to_hex` -/
def toHex (d : EspAppDesc) : Bytes :=
  d.bytes.flatMap fun b => [hexDigit (b.toNat / 16), hexDigit (b.toNat % 16)]

def nibble (c : UInt8) : Option ℕ :=
  if 48 ≤ c && c ≤ 57 then some (c.toNat - 48)
  else if 97 ≤ c && c ≤ 102 then some (c.toNat - 97 + 10)
  else if 65 ≤ c && c ≤ 70 then some (c.toNat - 65 + 10)
  else none

/-- The bytes of pairs of digits. -/
def unhex : Bytes → Option Bytes
  | hi :: lo :: rest =>
      match nibble hi, nibble lo with
      | some h, some l => (unhex rest).map (UInt8.ofNat (h * 16 + l) :: ·)
      | _, _ => none
  | _ => some []

/-- `desc_from_hex` -/
def fromHex (hex : Bytes) : Option EspAppDesc :=
  if hex.length ≠ appDescSize * 2 then none
  else
    match unhex hex with
    | none => none
    | some bytes =>
        if h : bytes.length = appDescSize then
          let out : EspAppDesc := ⟨bytes, h⟩
          if out.magicWord ≠ kAppDescMagic then none else some out.terminate
        else none

end EspAppDesc

/-! ## Names and numbers -/

/-- The number of an otadata state. -/
def ImgState.code : ImgState → ℤ
  | new => 0
  | pendingVerify => 1
  | valid => 2
  | invalid => 3
  | aborted => 4
  | undefined => -1

/-- `next_image_name` -/
def NextImage.name : NextImage → String
  | ok => "ok"
  | failSelfTest => "fail_self_test"
  | crashLoop => "crash_loop"
  | slowSensorStart => "slow_sensor_start"
  | slowSensorFail => "slow_sensor_fail"
  | crashWhenConfirmed => "crash_when_confirmed"

/-- `parse_next_image` -/
def parseNextImage (name : Bytes) : Option NextImage :=
  [NextImage.ok, .failSelfTest, .crashLoop, .slowSensorStart, .slowSensorFail,
    .crashWhenConfirmed].find? fun b => name = ascii b.name

/-- A number as a stream writes it. -/
def intText (z : ℤ) : Bytes := (if z < 0 then [45] else []) ++ decimal z.natAbs

/-- `std::stoi`; `none` where it throws. -/
def stoi (text : Bytes) : Option ℤ :=
  let (negative, text) := takeSign (text.dropWhile fun c => c = 32 || (9 ≤ c && c ≤ 13))
  let digits := text.takeWhile isDigit
  if digits.isEmpty then none
  else
    let v : ℤ := if negative then -(valueOf digits : ℤ) else valueOf digits
    if -2147483648 ≤ v ∧ v ≤ 2147483647 then some v else none

/-! ## The file -/

/-- A slot as the file keeps it: the state is the number that stands for it. -/
@[ext]
structure SavedSlot where
  hasImage : Bool
  native : Bool
  isPartial : Bool
  state : ℤ
  behavior : NextImage
  desc : EspAppDesc
  deriving DecidableEq

@[ext]
structure SavedFlash where
  running : Fin 2
  boot : Fin 2
  nextImage : NextImage
  slots : Fin 2 → SavedSlot

/-- What the file is to give back of a slot. -/
def Slot.saved (slot : Slot EspAppDesc) : SavedSlot :=
  ⟨slot.hasImage, slot.native, slot.isPartial, slot.state.code, slot.behavior, slot.desc⟩

def Flash.saved (flash : Flash EspAppDesc) : SavedFlash :=
  ⟨flash.running, flash.boot, flash.nextImage, fun i => (flash.slots i).saved⟩

/-- A key of slot `i`. -/
def slotKey (i : Fin 2) (name : String) : Bytes :=
  ascii "slot" ++ (decimal i ++ (ascii "." ++ ascii name))

def flagText (b : Bool) : Bytes := if b then ascii "1" else ascii "0"

/-- The lines of a slot. -/
def Slot.entries (i : Fin 2) (slot : Slot EspAppDesc) : List Entry :=
  [(slotKey i "has", flagText slot.hasImage), (slotKey i "native", flagText slot.native),
    (slotKey i "partial", flagText slot.isPartial), (slotKey i "state", intText slot.state.code),
    (slotKey i "behavior", ascii slot.behavior.name),
    (slotKey i "version", slot.desc.text .version),
    (slotKey i "project", slot.desc.text .projectName), (slotKey i "date", slot.desc.text .date),
    (slotKey i "time", slot.desc.text .time), (slotKey i "desc", slot.desc.toHex)]

attribute [local instance] Flash.neZero_two in
def Flash.entries (flash : Flash EspAppDesc) : List Entry :=
  (ascii "running", decimal flash.running) :: (ascii "boot", decimal flash.boot) ::
    (ascii "next_image", ascii flash.nextImage.name) ::
      ((flash.slots 0).entries 0 ++ (flash.slots 1).entries 1)

/-- `save_locked` -/
def Flash.save (flash : Flash EspAppDesc) : Bytes := flash.entries.flatMap entryText

/-- `geti` of `load_locked` -/
def geti (kv : List Entry) (key : Bytes) (dflt : ℤ) : ℤ :=
  ((lookup key kv).bind stoi).getD dflt

/-- A next image that the file does not name, or names wrong, stays what it was. -/
def getNextImage (kv : List Entry) (key : Bytes) : NextImage :=
  ((lookup key kv).bind parseNextImage).getD .ok

/-- The descriptor of files that lack the whole one. -/
def legacyDesc (version project : Bytes) (date time : Option Bytes) : EspAppDesc :=
  let desc := EspAppDesc.makeDesc version project
  let desc := date.elim desc (desc.copyStr .date)
  time.elim desc (desc.copyStr .time)

/-- One slot in `load_locked`, in a `Flash` that was just made. -/
def loadSlot (kv : List Entry) (i : Fin 2) : SavedSlot where
  hasImage := geti kv (slotKey i "has") 0 ≠ 0
  native := geti kv (slotKey i "native") 0 ≠ 0
  isPartial := geti kv (slotKey i "partial") 0 ≠ 0
  state := geti kv (slotKey i "state") (-1)
  behavior := getNextImage kv (slotKey i "behavior")
  desc :=
    ((lookup (slotKey i "desc") kv).bind EspAppDesc.fromHex).getD
      (legacyDesc ((lookup (slotKey i "version") kv).getD [])
        ((lookup (slotKey i "project") kv).getD []) (lookup (slotKey i "date") kv)
        (lookup (slotKey i "time") kv))

section LoadSlot

variable (kv : List Entry) (i : Fin 2)

theorem loadSlot_hasImage :
    (loadSlot kv i).hasImage = decide (geti kv (slotKey i "has") 0 ≠ 0) := rfl

theorem loadSlot_native :
    (loadSlot kv i).native = decide (geti kv (slotKey i "native") 0 ≠ 0) := rfl

theorem loadSlot_isPartial :
    (loadSlot kv i).isPartial = decide (geti kv (slotKey i "partial") 0 ≠ 0) := rfl

theorem loadSlot_state : (loadSlot kv i).state = geti kv (slotKey i "state") (-1) := rfl

theorem loadSlot_behavior :
    (loadSlot kv i).behavior = getNextImage kv (slotKey i "behavior") := rfl

theorem loadSlot_desc : (loadSlot kv i).desc =
    ((lookup (slotKey i "desc") kv).bind EspAppDesc.fromHex).getD
      (legacyDesc ((lookup (slotKey i "version") kv).getD [])
        ((lookup (slotKey i "project") kv).getD []) (lookup (slotKey i "date") kv)
        (lookup (slotKey i "time") kv)) := rfl

end LoadSlot

theorem geti_of_lookup {kv : List Entry} {key v : Bytes} (h : lookup key kv = some v) (dflt : ℤ) :
    geti kv key dflt = (stoi v).getD dflt := by
  rw [geti, h, Option.bind_some]

theorem getNextImage_of_lookup {kv : List Entry} {key v : Bytes} (h : lookup key kv = some v) :
    getNextImage kv key = (parseNextImage v).getD .ok := by
  rw [getNextImage, h, Option.bind_some]

attribute [local instance] Flash.neZero_two in
/-- `load_locked` in a `Flash` that was just made. -/
def loadFlash (text : Bytes) : Option SavedFlash :=
  let kv := assignments text
  if lookup (ascii "running") kv = none then none
  else
    let running : Fin 2 := if geti kv (ascii "running") 0 = 1 then 1 else 0
    some
      { running := running
        boot := if geti kv (ascii "boot") (running : ℕ) = 1 then 1 else 0
        nextImage := getNextImage kv (ascii "next_image")
        slots := loadSlot kv }

/-- `refresh_native_locked` on a slot. -/
def Slot.refreshNative (version : Bytes) (slot : Slot EspAppDesc) : Slot EspAppDesc :=
  if slot.native && slot.hasImage then
    { slot with desc := .makeDesc version (ascii "omega_stick") }
  else slot

def Flash.refreshNative (version : Bytes) (flash : Flash EspAppDesc) : Flash EspAppDesc :=
  { flash with slots := fun i => (flash.slots i).refreshNative version }

end OmegaStick
