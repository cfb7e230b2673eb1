import OmegaStick.Firmware.SimOta
import OmegaStick.Firmware.HealthCheck

/-!
# Boots and sessions

What one boot and the session after it do to the app slots.  A boot is the
bootloader, and then `main.cpp`'s use of the handover marker, the crash-loop
check and the acceptance after a handover.  A session is any sequence of the
operations the console and the health check reach the slots with.
-/

namespace OmegaStick

open FirmwareHealthCheck

/-- An image the bootloader or the health check gave up on. -/
def ImgState.rejected : ImgState → Bool
  | .invalid | .aborted => true
  | _ => false

/-- An image that runs for good: `undefined` is one that was flashed without an
otadata entry, which the bootloader takes as confirmed. -/
def ImgState.confirmed : ImgState → Bool
  | .valid | .undefined => true
  | _ => false

namespace Flash

variable {D : Type*}

/-! ## What the bootloader does to each slot -/

theorem bootloader_running (flash : Flash D) :
    flash.bootloader.2.running = flash.bootloader.2.boot := rfl

/-- An image still pending is aborted, and the one started is pending if it was new. -/
theorem bootloader_slots (flash : Flash D) (i : Fin 2) :
    flash.bootloader.2.slots i =
      if i = flash.bootloader.2.boot then (flash.slots i).abortPending.startPending
      else (flash.slots i).abortPending := by
  by_cases hi : i = flash.bootloader.2.boot
  · subst hi
    rw [if_pos rfl]
    simp only [bootloader, Function.update_self]
  · rw [if_neg hi]
    simp only [bootloader] at hi ⊢
    rw [Function.update_of_ne hi]

@[simp] theorem bootloader_complete (flash : Flash D) (i : Fin 2) :
    (flash.bootloader.2.slots i).complete = (flash.slots i).complete := by
  rw [bootloader_slots]
  unfold Slot.startPending Slot.abortPending Slot.complete
  split_ifs <;> rfl

@[simp] theorem bootloader_describe (flash : Flash D) (i : Fin 2) :
    flash.bootloader.2.describe i = flash.describe i := by
  unfold describe
  rw [bootloader_slots]
  unfold Slot.startPending Slot.abortPending
  split_ifs <;> simp_all

/-- Only the slot that is started is pending, and only if its image was new. -/
theorem bootloader_pending {flash : Flash D} {i : Fin 2} :
    (flash.bootloader.2.slots i).state = .pendingVerify ↔
      i = flash.bootloader.2.boot ∧ (flash.slots i).state = .new := by
  rw [bootloader_slots]
  unfold Slot.startPending Slot.abortPending
  split_ifs <;> simp_all

theorem bootloader_new {flash : Flash D} {i : Fin 2} :
    (flash.bootloader.2.slots i).state = .new ↔
      i ≠ flash.bootloader.2.boot ∧ (flash.slots i).state = .new := by
  rw [bootloader_slots]
  unfold Slot.startPending Slot.abortPending
  split_ifs <;> simp_all

theorem bootloader_rejected {flash : Flash D} {i : Fin 2} :
    (flash.bootloader.2.slots i).state.rejected = true ↔
      (flash.slots i).state = .pendingVerify ∨ (flash.slots i).state.rejected = true := by
  rw [bootloader_slots]
  unfold Slot.startPending Slot.abortPending
  cases hstate : (flash.slots i).state <;> split_ifs <;> simp_all [ImgState.rejected]

/-- The boot slot changes only away from an unconfirmed image, to a complete one. -/
theorem bootloader_boot (flash : Flash D) :
    flash.bootloader.2.boot =
      if (flash.slots flash.boot).state = .pendingVerify ∧
          (flash.slots (otherOf flash.boot)).complete = true
        then otherOf flash.boot else flash.boot := by
  have hcomplete : (flash.slots (otherOf flash.boot)).abortPending.complete =
      (flash.slots (otherOf flash.boot)).complete := by
    unfold Slot.abortPending Slot.complete
    split_ifs <;> rfl
  simp [bootloader, hcomplete]

/-- An upload takes the slot that would boot back from the bootloader. -/
theorem beginUpload_boot [Inhabited D] (flash : Flash D) :
    flash.beginUpload.boot = flash.running := by
  unfold beginUpload
  dsimp only
  split
  · rfl
  · exact (eq_or_eq_otherOf flash.boot flash.running).resolve_right ‹_›

/-- No slot holds an image that has not run yet. -/
def NoneNew (flash : Flash D) : Prop := ∀ i, (flash.slots i).state ≠ .new

/-- The bootloader starts the image that waits. -/
theorem noneNew_bootloader {flash : Flash D}
    (hnew : ∀ i, (flash.slots i).state = .new → i = flash.boot) : NoneNew flash.bootloader.2 := by
  intro i hi
  rw [bootloader_new] at hi
  obtain rfl := hnew i hi.2
  refine hi.1 ?_
  rw [bootloader_boot, if_neg]
  rw [hi.2]
  exact fun h => nomatch h.1

/-! ## Switching the boot slot -/

theorem setBoot_cases (flash : Flash D) (i : Fin 2) :
    ((flash.slots i).complete = false ∧ (flash.setBoot i).1.isSome = true ∧
        (flash.setBoot i).2 = flash) ∨
      ((flash.slots i).complete = true ∧
        flash.setBoot i =
          (none, { flash.setSlot i { flash.slots i with state := .new } with boot := i })) := by
  unfold setBoot Slot.complete
  cases (flash.slots i).hasImage <;> cases (flash.slots i).isPartial <;> simp

@[simp] theorem setBoot_running (flash : Flash D) (i : Fin 2) :
    (flash.setBoot i).2.running = flash.running := by
  rcases flash.setBoot_cases i with ⟨-, -, h⟩ | ⟨-, h⟩ <;> simp [h]

theorem setBoot_slots_of_ne (flash : Flash D) {i j : Fin 2} (h : j ≠ i) :
    (flash.setBoot i).2.slots j = flash.slots j := by
  rcases flash.setBoot_cases i with ⟨-, -, hset⟩ | ⟨-, hset⟩ <;> simp [hset, h]

/-- Switching the boot slot moves no image. -/
@[simp] theorem setBoot_describe (flash : Flash D) (i j : Fin 2) :
    (flash.setBoot i).2.describe j = flash.describe j := by
  rcases flash.setBoot_cases i with ⟨-, -, h⟩ | ⟨-, h⟩
  · rw [h]
  · by_cases hj : j = i <;> simp [h, describe, hj]

@[simp] theorem markValid_describe (flash : Flash D) (i : Fin 2) :
    flash.markValid.describe i = flash.describe i := by
  by_cases hi : i = flash.running <;> simp [markValid, describe, runningSlot, hi]

theorem markInvalidAndRollback_cases (flash : Flash D) :
    flash.markInvalidAndRollback = (false, flash) ∨
      flash.otherSlot.complete = true ∧ flash.otherSlot.state.rejected = false ∧
        flash.markInvalidAndRollback =
          (true, { flash.setSlot flash.running { flash.runningSlot with state := .invalid } with
            boot := otherOf flash.running }) := by
  unfold markInvalidAndRollback
  cases hcomplete : flash.otherSlot.complete <;> cases hstate : flash.otherSlot.state <;>
    simp [hcomplete, hstate, ImgState.rejected]

theorem stateOf_rejected {flash : Flash D} {i : Fin 2} (h : (flash.slots i).hasImage = true) :
    (flash.stateOf i = some .invalid || flash.stateOf i = some .aborted) =
      (flash.slots i).state.rejected := by
  unfold stateOf
  cases hstate : (flash.slots i).state <;> simp [h, ImgState.rejected]

end Flash

/-! ## The checks at boot -/

namespace FirmwareHealthCheck

variable {D : Type*}

/-- When the crash-loop check switches: the recent runs crashed, the running
image is not pending, and the other slot's is complete and not rejected. -/
structure Switches (flash : Flash D) (recentCrashes : List Bool) : Prop where
  crashed : lastAllCrashed recentCrashes crashLoopResets = true
  notPending : flash.pendingVerify = false
  complete : flash.otherSlot.complete = true
  notRejected : flash.otherSlot.state.rejected = false

instance (flash : Flash D) (recentCrashes : List Bool) : Decidable (Switches flash recentCrashes) :=
  decidable_of_iff
    (lastAllCrashed recentCrashes crashLoopResets = true ∧ flash.pendingVerify = false ∧
      flash.otherSlot.complete = true ∧ flash.otherSlot.state.rejected = false)
    ⟨fun ⟨hcrashed, hpending, hcomplete, hrejected⟩ => ⟨hcrashed, hpending, hcomplete, hrejected⟩,
      fun ⟨hcrashed, hpending, hcomplete, hrejected⟩ => ⟨hcrashed, hpending, hcomplete, hrejected⟩⟩

/-- The check either leaves the slots alone or, when it switches, makes the
other slot the boot slot. -/
theorem revertIfCrashLooping_cases (flash : Flash D) (recentCrashes : List Bool) :
    (¬ Switches flash recentCrashes ∧
        revertIfCrashLooping flash recentCrashes crashLoopResets = (false, flash)) ∨
      (Switches flash recentCrashes ∧
        revertIfCrashLooping flash recentCrashes crashLoopResets =
          (true, (flash.setBoot (Flash.otherOf flash.running)).2)) := by
  unfold revertIfCrashLooping
  dsimp only
  by_cases hcrashed : lastAllCrashed recentCrashes crashLoopResets = true
  swap
  · rw [if_pos (by simpa using hcrashed)]
    exact .inl ⟨fun h => hcrashed h.crashed, rfl⟩
  rw [if_neg (by simpa using hcrashed)]
  by_cases hpending : flash.pendingVerify = true
  · rw [if_pos hpending]
    exact .inl ⟨fun h => by simp [h.notPending] at hpending, rfl⟩
  rw [if_neg hpending]
  by_cases himage : (flash.slots (Flash.otherOf flash.running)).hasImage = true
  swap
  · rw [if_pos (by simpa [Flash.describe] using himage)]
    refine .inl ⟨fun h => himage ?_, rfl⟩
    exact (Bool.and_eq_true_iff.mp h.complete).1
  rw [if_neg (by simpa [Flash.describe] using himage), Flash.stateOf_rejected himage]
  by_cases hrejected : (flash.slots (Flash.otherOf flash.running)).state.rejected = true
  · rw [if_pos hrejected]
    exact .inl ⟨fun h => absurd hrejected (by simpa [Flash.otherSlot] using h.notRejected), rfl⟩
  rw [if_neg hrejected]
  rcases flash.setBoot_cases (Flash.otherOf flash.running) with ⟨hcut, herror, hsame⟩ | hset
  · obtain ⟨err, herr⟩ := Option.isSome_iff_exists.mp herror
    refine .inl ⟨fun h => ?_, ?_⟩
    · exact absurd h.complete (by simp [Flash.otherSlot, hcut])
    · rw [show flash.setBoot (Flash.otherOf flash.running) = (some err, flash) from
        Prod.ext herr hsame]
  · refine .inr ⟨⟨hcrashed, by simpa using hpending, hset.1, ?_⟩, ?_⟩
    · simpa [Flash.otherSlot] using hrejected
    · rw [hset.2]

/-- What `main.cpp` does at boot with the marker, the crash-loop check and the
acceptance: whether it restarts into the other slot, and the slots and the
marker it leaves. -/
def bootChecks (flash : Flash D) (marker : UInt32) (powerOn : Bool) (recentCrashes : List Bool) :
    Bool × Flash D × UInt32 :=
  let (handover, marker) := takeHandoverMarker marker powerOn
  let (switched, flash) :=
    if handover.handedOverSincePowerOn then (false, flash)
    else revertIfCrashLooping flash recentCrashes crashLoopResets
  if switched then (true, flash, handoverRequested)
  else (false, acceptAfterHandover flash handover.bootedByHandover, marker)

/-- When a boot hands over. -/
def HandsOver (flash : Flash D) (marker : UInt32) (powerOn : Bool) (recentCrashes : List Bool) :
    Prop :=
  (takeHandoverMarker marker powerOn).1.handedOverSincePowerOn = false ∧
    Switches flash recentCrashes

instance (flash : Flash D) (marker : UInt32) (powerOn : Bool) (recentCrashes : List Bool) :
    Decidable (HandsOver flash marker powerOn recentCrashes) :=
  inferInstanceAs (Decidable (_ ∧ _))

/-- A boot that hands over makes the other slot the boot slot and leaves the
request; any other keeps the slots, but for the image it may accept. -/
theorem bootChecks_cases (flash : Flash D) (marker : UInt32) (powerOn : Bool)
    (recentCrashes : List Bool) :
    (HandsOver flash marker powerOn recentCrashes ∧
        bootChecks flash marker powerOn recentCrashes =
          (true, (flash.setBoot (Flash.otherOf flash.running)).2, handoverRequested)) ∨
      (¬ HandsOver flash marker powerOn recentCrashes ∧
        bootChecks flash marker powerOn recentCrashes =
          (false,
            acceptAfterHandover flash (takeHandoverMarker marker powerOn).1.bootedByHandover,
            (takeHandoverMarker marker powerOn).2)) := by
  unfold bootChecks HandsOver
  cases hhanded : (takeHandoverMarker marker powerOn).1.handedOverSincePowerOn with
  | true => exact .inr ⟨by simp, by simp [hhanded]⟩
  | false =>
      rcases revertIfCrashLooping_cases flash recentCrashes with ⟨hstay, hrun⟩ | ⟨hswitch, hrun⟩
      · exact .inr ⟨by simp [hstay], by simp [hhanded, hrun]⟩
      · exact .inl ⟨⟨rfl, hswitch⟩, by simp [hhanded, hrun]⟩

/-- The acceptance leaves the slots alone, or makes the pending image valid
that a handover started. -/
theorem acceptAfterHandover_cases (flash : Flash D) (booted : Bool) :
    acceptAfterHandover flash booted = flash ∨
      booted = true ∧ flash.pendingVerify = true ∧
        acceptAfterHandover flash booted = flash.markValid := by
  unfold acceptAfterHandover
  cases booted <;> cases flash.pendingVerify <;> simp

/-- The checks move no image, and the running slot stays the same. -/
theorem bootChecks_describe (flash : Flash D) (marker : UInt32) (powerOn : Bool)
    (recentCrashes : List Bool) (i : Fin 2) :
    (bootChecks flash marker powerOn recentCrashes).2.1.describe i = flash.describe i ∧
      (bootChecks flash marker powerOn recentCrashes).2.1.running = flash.running := by
  rcases bootChecks_cases flash marker powerOn recentCrashes with ⟨-, h⟩ | ⟨-, h⟩
  · simp [h]
  · rw [h]
    rcases acceptAfterHandover_cases flash
      (takeHandoverMarker marker powerOn).1.bootedByHandover with haccept | ⟨-, -, haccept⟩
    · simp [haccept]
    · simp [haccept, Flash.markValid_describe]
      rfl

end FirmwareHealthCheck

/-! ## Sessions -/

/-- The slots, and whether an upload is going on. -/
structure Session (D : Type*) where
  flash : Flash D
  uploading : Bool
  deriving DecidableEq

/-- What the console and the health check do to the slots. -/
inductive SlotOp (D : Type*) where
  | beginUpload
  | uploadDescriptor (desc : D)
  | commitImage (desc : D)
  | abortUpload
  | markValid
  | setBootOther
  | rollback
  deriving DecidableEq, Repr

namespace SlotOp

variable {D E : Type*}

def map (f : D → E) : SlotOp D → SlotOp E
  | beginUpload => .beginUpload
  | uploadDescriptor desc => .uploadDescriptor (f desc)
  | commitImage desc => .commitImage (f desc)
  | abortUpload => .abortUpload
  | markValid => .markValid
  | setBootOther => .setBootOther
  | rollback => .rollback

/-- One operation; one that is refused changes nothing. -/
def apply [Inhabited D] (s : Session D) : SlotOp D → Session D
  | beginUpload =>
      if s.uploading || s.flash.pendingVerify then s else ⟨s.flash.beginUpload, true⟩
  | uploadDescriptor desc =>
      if s.uploading then ⟨s.flash.uploadDescriptor desc, true⟩ else s
  | commitImage desc =>
      if s.uploading then ⟨s.flash.commitImage desc, false⟩ else s
  | abortUpload => ⟨s.flash, false⟩
  | markValid => ⟨s.flash.markValid, s.uploading⟩
  | setBootOther => ⟨(s.flash.setBoot (Flash.otherOf s.flash.running)).2, s.uploading⟩
  | rollback => ⟨s.flash.markInvalidAndRollback.2, s.uploading⟩

/-- The descriptor an operation brings. -/
def desc? : SlotOp D → Option D
  | uploadDescriptor desc => some desc
  | commitImage desc => some desc
  | _ => none

theorem desc?_map (f : D → E) (op : SlotOp D) : (op.map f).desc? = op.desc?.map f := by
  cases op <;> rfl

section Apply

variable [Inhabited D] {s t : Session D} {op : SlotOp D}

/-- What an operation can do: nothing, when it is refused, or what its name says. -/
inductive Effect (s : Session D) : SlotOp D → Session D → Prop where
  | refused {op : SlotOp D} : Effect s op s
  | beginUpload : s.uploading = false → s.flash.pendingVerify = false →
      Effect s .beginUpload ⟨s.flash.beginUpload, true⟩
  | uploadDescriptor (desc : D) : s.uploading = true →
      Effect s (.uploadDescriptor desc) ⟨s.flash.uploadDescriptor desc, true⟩
  | commitImage (desc : D) : s.uploading = true →
      Effect s (.commitImage desc) ⟨s.flash.commitImage desc, false⟩
  | abortUpload : Effect s .abortUpload ⟨s.flash, false⟩
  | markValid : Effect s .markValid ⟨s.flash.markValid, s.uploading⟩
  | setBootOther : s.flash.otherSlot.complete = true →
      Effect s .setBootOther
        ⟨{ s.flash.setSlot (Flash.otherOf s.flash.running) { s.flash.otherSlot with state := .new }
            with boot := Flash.otherOf s.flash.running }, s.uploading⟩
  | rollback : s.flash.otherSlot.complete = true → s.flash.otherSlot.state.rejected = false →
      Effect s .rollback
        ⟨{ s.flash.setSlot s.flash.running { s.flash.runningSlot with state := .invalid } with
            boot := Flash.otherOf s.flash.running }, s.uploading⟩

theorem apply_effect (s : Session D) (op : SlotOp D) : Effect s op (op.apply s) := by
  cases op with
  | beginUpload =>
      simp only [apply]
      by_cases hrefused : (s.uploading || s.flash.pendingVerify) = true
      · rw [if_pos hrefused]
        exact .refused
      · rw [if_neg hrefused]
        rw [Bool.or_eq_true, not_or, Bool.not_eq_true, Bool.not_eq_true] at hrefused
        exact .beginUpload hrefused.1 hrefused.2
  | uploadDescriptor desc =>
      simp only [apply]
      by_cases huploading : s.uploading = true
      · rw [if_pos huploading]
        exact .uploadDescriptor desc huploading
      · rw [if_neg huploading]
        exact .refused
  | commitImage desc =>
      simp only [apply]
      by_cases huploading : s.uploading = true
      · rw [if_pos huploading]
        exact .commitImage desc huploading
      · rw [if_neg huploading]
        exact .refused
  | abortUpload => exact .abortUpload
  | markValid => exact .markValid
  | setBootOther =>
      simp only [apply]
      rcases s.flash.setBoot_cases (Flash.otherOf s.flash.running) with ⟨-, -, h⟩ | ⟨hcomplete, h⟩
      · rw [h]
        exact .refused
      · rw [h]
        exact .setBootOther hcomplete
  | rollback =>
      simp only [apply]
      rcases s.flash.markInvalidAndRollback_cases with h | ⟨hcomplete, hrejected, h⟩
      · rw [h]
        exact .refused
      · rw [h]
        exact .rollback hcomplete hrejected

theorem Effect.running (h : Effect s op t) : t.flash.running = s.flash.running := by
  cases h <;> rfl

/-- A slot keeps its image, loses it, or gets the one the operation brings; the
running slot always keeps it. -/
theorem Effect.describe (h : Effect s op t) (i : Fin 2) :
    t.flash.describe i = s.flash.describe i ∨
      i = Flash.otherOf s.flash.running ∧
        (t.flash.describe i = none ∨ t.flash.describe i = op.desc?) := by
  rcases Flash.eq_or_eq_otherOf i s.flash.running with hi | hi
  · left
    cases h <;> simp [Flash.describe, Flash.beginUpload, Flash.uploadDescriptor,
      Flash.commitImage, Flash.markValid, Flash.runningSlot, hi]
  · cases h <;> simp [Flash.describe, Flash.beginUpload, Flash.uploadDescriptor,
      Flash.commitImage, Flash.markValid, Flash.otherSlot, Slot.empty, desc?, hi]

/-- Only MARK_VALID makes an image valid. -/
theorem Effect.valid (h : Effect s op t) {i : Fin 2} (hbefore : (s.flash.slots i).state ≠ .valid)
    (hafter : (t.flash.slots i).state = .valid) : op = .markValid := by
  rcases Flash.eq_or_eq_otherOf i s.flash.running with hi | hi <;>
    cases h <;> simp_all [Flash.beginUpload, Flash.uploadDescriptor,
      Flash.commitImage, Flash.otherSlot, Slot.empty]

/-- A new image waits in the boot slot, and does not run. -/
theorem Effect.new (h : Effect s op t)
    (hnew : ∀ i, (s.flash.slots i).state = .new → i = s.flash.boot ∧ i ≠ s.flash.running)
    (i : Fin 2) (hi : (t.flash.slots i).state = .new) :
    i = t.flash.boot ∧ i ≠ t.flash.running := by
  have hold := hnew i
  rcases Flash.eq_or_eq_otherOf i s.flash.running with heq | heq <;>
    cases h <;> simp_all [Flash.beginUpload, Flash.uploadDescriptor, Flash.commitImage,
      Flash.markValid, Flash.runningSlot, Flash.otherSlot, Slot.empty]

end Apply

end SlotOp

end OmegaStick
