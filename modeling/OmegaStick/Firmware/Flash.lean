import Mathlib.Logic.Function.Basic
import Mathlib.Data.Fin.Basic
import Mathlib.Data.Fintype.Pi

/-!
# The two app slots

The simulator's stand-in for the ESP-IDF OTA partitions and their bootloader
(`sim_flash.hpp`).  A slot keeps an image as its descriptor, of a type `D`: the
simulator keeps an `esp_app_desc_t`, and a development that follows an image
through uploads and rollbacks can keep its identity.
-/

namespace OmegaStick

/-- `esp_app_desc_t`, as far as the firmware reads it. -/
structure AppDesc where
  projectName : List UInt8
  version : List UInt8
  date : List UInt8
  time : List UInt8
  idfVer : List UInt8
  appElfSha256 : List UInt8
  deriving DecidableEq, Repr, Inhabited

/-- `esp_ota_img_states_t`; `undefined` is a slot without an otadata entry. -/
inductive ImgState where
  | new
  | pendingVerify
  | valid
  | invalid
  | aborted
  | undefined
  deriving DecidableEq, Repr

/-- `ota_state_name` -/
def ImgState.name : ImgState → String
  | new => "new"
  | pendingVerify => "pending_verify"
  | valid => "valid"
  | invalid => "invalid"
  | aborted => "aborted"
  | undefined => "undefined"

/-- How an image flashed through the console behaves once it has booted. -/
inductive NextImage where
  | ok
  | failSelfTest
  | crashLoop
  | slowSensorStart
  | slowSensorFail
  | crashWhenConfirmed
  deriving DecidableEq, Repr

/-- `Flash::Slot` -/
structure Slot (D : Type*) where
  hasImage : Bool
  native : Bool
  /-- The start of an upload that never finished. -/
  isPartial : Bool
  desc : D
  state : ImgState
  behavior : NextImage
  deriving DecidableEq, Repr

/-- `sim::Flash`: `running` and `boot` are slot numbers. -/
structure Flash (D : Type*) where
  slots : Fin 2 → Slot D
  running : Fin 2
  boot : Fin 2
  nextImage : NextImage
  deriving DecidableEq

namespace Slot

variable {D : Type*}

/-- What `esp_image_verify` accepts. -/
def complete (slot : Slot D) : Bool := slot.hasImage && !slot.isPartial

def empty [Inhabited D] : Slot D := ⟨false, false, false, default, .undefined, .ok⟩

/-- An image still pending at a boot was never confirmed. -/
def abortPending (slot : Slot D) : Slot D :=
  if slot.state = .pendingVerify then { slot with state := .aborted } else slot

/-- A freshly activated image runs pending verification. -/
def startPending (slot : Slot D) : Slot D :=
  if slot.state = .new then { slot with state := .pendingVerify } else slot

end Slot

namespace Flash

variable {D : Type*}

/-- The one proof behind the slot numbers of every module. -/
theorem neZero_two : @NeZero ℕ (@Zero.ofOfNat0 ℕ (instOfNatNat 0)) 2 :=
  @NeZero.mk ℕ _ 2 (by decide)

/-- `1 - i` -/
def otherOf (i : Fin 2) : Fin 2 := 1 - i

@[simp] theorem otherOf_ne (i : Fin 2) : otherOf i ≠ i := by revert i; decide

@[simp] theorem ne_otherOf (i : Fin 2) : i ≠ otherOf i := by revert i; decide

@[simp] theorem otherOf_otherOf (i : Fin 2) : otherOf (otherOf i) = i := by revert i; decide

/-- A slot number is one of two. -/
theorem eq_or_eq_otherOf (i j : Fin 2) : i = j ∨ i = otherOf j := by
  revert i j; decide

def runningSlot (flash : Flash D) : Slot D := flash.slots flash.running

/-- The slot `next_update_partition` names. -/
def otherSlot (flash : Flash D) : Slot D := flash.slots (otherOf flash.running)

def setSlot (flash : Flash D) (i : Fin 2) (slot : Slot D) : Flash D :=
  { flash with slots := Function.update flash.slots i slot }

@[simp] theorem setSlot_running (flash : Flash D) (i : Fin 2) (slot : Slot D) :
    (flash.setSlot i slot).running = flash.running := rfl

@[simp] theorem setSlot_boot (flash : Flash D) (i : Fin 2) (slot : Slot D) :
    (flash.setSlot i slot).boot = flash.boot := rfl

@[simp] theorem setSlot_slots_self (flash : Flash D) (i : Fin 2) (slot : Slot D) :
    (flash.setSlot i slot).slots i = slot := by simp [setSlot]

@[simp] theorem setSlot_slots_of_ne (flash : Flash D) {i j : Fin 2} (slot : Slot D) (h : j ≠ i) :
    (flash.setSlot i slot).slots j = flash.slots j := by simp [setSlot, h]

@[simp] theorem runningSlot_setSlot_running (flash : Flash D) (slot : Slot D) :
    (flash.setSlot flash.running slot).runningSlot = slot := setSlot_slots_self ..

@[simp] theorem otherSlot_setSlot_running (flash : Flash D) (slot : Slot D) :
    (flash.setSlot flash.running slot).otherSlot = flash.otherSlot :=
  setSlot_slots_of_ne flash slot (otherOf_ne _)

@[simp] theorem runningSlot_setSlot_other (flash : Flash D) (slot : Slot D) :
    (flash.setSlot (otherOf flash.running) slot).runningSlot = flash.runningSlot :=
  setSlot_slots_of_ne flash slot (ne_otherOf _)

@[simp] theorem otherSlot_setSlot_other (flash : Flash D) (slot : Slot D) :
    (flash.setSlot (otherOf flash.running) slot).otherSlot = slot := setSlot_slots_self ..

/-! ## The bootloader -/

/-- `boot()`: the slot to run, from the boot slot and the image states. The
flag says whether an unconfirmed image was rolled back. -/
def bootloader (flash : Flash D) : Bool × Flash D :=
  let bootWasPending := (flash.slots flash.boot).state = .pendingVerify
  let slots := fun i => (flash.slots i).abortPending
  let other := otherOf flash.boot
  let rolledBack := bootWasPending && (slots other).complete
  let boot := if rolledBack then other else flash.boot
  (rolledBack,
    { flash with
      slots := Function.update slots boot (slots boot).startPending
      running := boot
      boot := boot })

/-! ## `esp_ota_ops` -/

/-- `describe` -/
def describe (flash : Flash D) (i : Fin 2) : Option D :=
  if (flash.slots i).hasImage then some (flash.slots i).desc else none

/-- `state_of` -/
def stateOf (flash : Flash D) (i : Fin 2) : Option ImgState :=
  if !(flash.slots i).hasImage || (flash.slots i).state = .undefined then none
  else some (flash.slots i).state

/-- `set_boot`: the error name, or the slot made the boot slot and its state
reset to new. -/
def setBoot (flash : Flash D) (i : Fin 2) : Option String × Flash D :=
  if !(flash.slots i).hasImage then (some "ESP_ERR_NOT_FOUND", flash)
  else if (flash.slots i).isPartial then (some "ESP_ERR_OTA_VALIDATE_FAILED", flash)
  else (none, { flash.setSlot i { flash.slots i with state := .new } with boot := i })

/-! ## `espp::Ota` backing -/

def pendingVerify (flash : Flash D) : Bool := flash.runningSlot.state = .pendingVerify

def markValid (flash : Flash D) : Flash D :=
  flash.setSlot flash.running { flash.runningSlot with state := .valid }

/-- `mark_invalid_and_rollback`: refused unless the other slot holds a complete
image with a valid otadata entry. -/
def markInvalidAndRollback (flash : Flash D) : Bool × Flash D :=
  let o := flash.otherSlot
  let entryValid := o.state = .new || o.state = .pendingVerify || o.state = .valid
  if !o.complete || !entryValid then (false, flash)
  else
    (true, { flash.setSlot flash.running { flash.runningSlot with state := .invalid } with
      boot := otherOf flash.running })

/-- `begin_upload`: the slot that is not running is erased. -/
def beginUpload [Inhabited D] (flash : Flash D) : Flash D :=
  let target := otherOf flash.running
  { flash.setSlot target .empty with
    boot := if flash.boot = target then flash.running else flash.boot }

/-- `upload_descriptor`: the slot reads as an image, but a partial one. -/
def uploadDescriptor (flash : Flash D) (desc : D) : Flash D :=
  flash.setSlot (otherOf flash.running)
    { flash.otherSlot with hasImage := true, isPartial := true, desc := desc }

/-- `commit_image`: a validated upload becomes the boot image. -/
def commitImage (flash : Flash D) (desc : D) : Flash D :=
  { flash.setSlot (otherOf flash.running)
      { flash.otherSlot with
        hasImage := true
        native := false
        isPartial := false
        desc := desc
        state := .new
        behavior := flash.nextImage } with
    boot := otherOf flash.running
    nextImage := .ok }

/-- A brand-new board: the simulator's own image in ota_0, nothing in ota_1. -/
def format [Inhabited D] (desc : D) : Flash D where
  slots i := if i = 0 then ⟨true, true, false, desc, .valid, .ok⟩ else .empty
  running := 0
  boot := 0
  nextImage := .ok

end Flash

end OmegaStick
