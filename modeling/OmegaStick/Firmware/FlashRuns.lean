import OmegaStick.Firmware.Boot
import OmegaStick.Library.Transition

/-!
# No incomplete image runs

Every order of the calls the simulator's flash takes.  An upload is a session: it begins,
and its descriptor and its image may follow while no boot ends it; a session that nothing
follows was abandoned.

While an upload is going on, the other slot is not complete (`Session.Bootable.uploading`).
This carries the rest: such a slot is refused by `set_boot` and by the rollback, so that
the boot slot stays the running one until the image is committed.
-/

namespace OmegaStick

open TransitionSystem

variable {D : Type*}

/-- The calls, each with its arguments. -/
inductive FlashOp (D : Type*) where
  | boot
  | setBoot (i : Fin 2)
  | markValid
  | markInvalidAndRollback
  | setNextImage (behavior : NextImage)
  | beginUpload
  | uploadDescriptor (desc : D)
  | commitImage (desc : D)
  deriving DecidableEq, Repr

/-- `set_next_image` -/
def Flash.setNextImage (flash : Flash D) (behavior : NextImage) : Flash D :=
  { flash with nextImage := behavior }

namespace FlashOp

/-- What a call does to the slots. -/
def apply [Inhabited D] (flash : Flash D) : FlashOp D → Flash D
  | boot => flash.bootloader.2
  | setBoot i => (flash.setBoot i).2
  | markValid => flash.markValid
  | markInvalidAndRollback => flash.markInvalidAndRollback.2
  | setNextImage behavior => flash.setNextImage behavior
  | beginUpload => flash.beginUpload
  | uploadDescriptor desc => flash.uploadDescriptor desc
  | commitImage desc => flash.commitImage desc

/-- Whether an upload is going on after a call; an upload's descriptor and its image need
one. -/
def uploads (uploading : Bool) : FlashOp D → Option Bool
  | boot => some false
  | beginUpload => some true
  | uploadDescriptor _ => if uploading then some true else none
  | commitImage _ => if uploading then some false else none
  | _ => some uploading

def next [Inhabited D] (s : Session D) (op : FlashOp D) : Option (Session D) :=
  (op.uploads s.uploading).map fun uploading => ⟨op.apply s.flash, uploading⟩

theorem next_eq_some [Inhabited D] {s t : Session D} {op : FlashOp D} (h : op.next s = some t) :
    ∃ uploading, op.uploads s.uploading = some uploading ∧ t = ⟨op.apply s.flash, uploading⟩ := by
  obtain ⟨uploading, huploads, rfl⟩ := Option.map_eq_some_iff.mp h
  exact ⟨uploading, huploads, rfl⟩

/-- The call makes the slot's image a new one, or may put a new image there. -/
def activates (i : Fin 2) : FlashOp D → Bool
  | setBoot j => j = i
  | commitImage _ => true
  | _ => false

/-- The descriptor a call brings. -/
def desc? : FlashOp D → Option D
  | uploadDescriptor desc => some desc
  | commitImage desc => some desc
  | _ => none

end FlashOp

/-- The runs of a board that was just formatted. -/
def flashRuns [Inhabited D] (native : D) : TransitionSystem (Session D) (FlashOp D) :=
  .ofOption (· = ⟨Flash.format native, false⟩) FlashOp.next

/-! ## The invariant -/

/-- What every call keeps. -/
structure Session.Bootable (s : Session D) : Prop where
  runningComplete : s.flash.runningSlot.complete = true
  bootComplete : (s.flash.slots s.flash.boot).complete = true
  otherNotPending : s.flash.otherSlot.state ≠ .pendingVerify
  uploading : s.uploading = true → s.flash.otherSlot.complete = false

namespace Session.Bootable

variable {s t : Session D}

/-- Two slots say it all: the boot slot is one of them. -/
theorem of_slots {running other : Slot D} (hrunning : t.flash.runningSlot = running)
    (hother : t.flash.otherSlot = other) (runningComplete : running.complete = true)
    (bootComplete : t.flash.boot = t.flash.running ∨ other.complete = true)
    (otherNotPending : other.state ≠ .pendingVerify)
    (uploading : t.uploading = true → other.complete = false) : t.Bootable := by
  subst hrunning hother
  refine ⟨runningComplete, ?_, otherNotPending, uploading⟩
  rcases Flash.eq_or_eq_otherOf t.flash.boot t.flash.running with hboot | hboot
  · rw [hboot]
    exact runningComplete
  · rw [hboot]
    refine bootComplete.resolve_left fun hsame => ?_
    exact Flash.ne_otherOf _ (hsame.symm.trans hboot)

/-- The boot slot is the running one, or the other one is complete. -/
theorem boot_cases (h : s.Bootable) :
    s.flash.boot = s.flash.running ∨ s.flash.otherSlot.complete = true := by
  rcases Flash.eq_or_eq_otherOf s.flash.boot s.flash.running with hboot | hboot
  · exact .inl hboot
  · refine .inr ?_
    rw [Flash.otherSlot, ← hboot]
    exact h.bootComplete

/-- During an upload the running slot boots next. -/
theorem boot_eq (h : s.Bootable) (huploading : s.uploading = true) :
    s.flash.boot = s.flash.running := by
  refine h.boot_cases.resolve_right fun hcomplete => ?_
  rw [h.uploading huploading] at hcomplete
  cases hcomplete

theorem format [Inhabited D] (native : D) : Bootable ⟨Flash.format native, false⟩ :=
  ⟨rfl, rfl, nofun, nofun⟩

theorem bootloader (h : s.Bootable) : Bootable ⟨s.flash.bootloader.2, false⟩ := by
  have hboot : (s.flash.slots s.flash.bootloader.2.boot).complete = true := by
    rw [Flash.bootloader_boot]
    split_ifs with hback
    · exact hback.2
    · exact h.bootComplete
  -- only what was new is pending now, and that is what runs
  refine ⟨?_, ?_, fun hpending => ?_, nofun⟩
  · rw [Flash.runningSlot, Flash.bootloader_running, Flash.bootloader_complete]
    exact hboot
  · rw [Flash.bootloader_complete]
    exact hboot
  · exact Flash.otherOf_ne _ (Flash.bootloader_pending.mp hpending).1

theorem setBoot (h : s.Bootable) (i : Fin 2) :
    Bootable ⟨(s.flash.setBoot i).2, s.uploading⟩ := by
  rcases s.flash.setBoot_cases i with ⟨-, -, hrefused⟩ | ⟨hcomplete, hset⟩
  · rw [hrefused]
    exact h
  · rw [hset]
    rcases Flash.eq_or_eq_otherOf i s.flash.running with rfl | rfl
    · exact .of_slots
        (s.flash.runningSlot_setSlot_running { s.flash.runningSlot with state := .new })
        (s.flash.otherSlot_setSlot_running _) h.runningComplete (.inl rfl) h.otherNotPending
        h.uploading
    · exact .of_slots (s.flash.runningSlot_setSlot_other _)
        (s.flash.otherSlot_setSlot_other { s.flash.otherSlot with state := .new })
        h.runningComplete (.inr hcomplete) nofun h.uploading

theorem markValid (h : s.Bootable) : Bootable ⟨s.flash.markValid, s.uploading⟩ :=
  .of_slots (s.flash.runningSlot_setSlot_running { s.flash.runningSlot with state := .valid })
    (s.flash.otherSlot_setSlot_running _) h.runningComplete h.boot_cases h.otherNotPending
    h.uploading

theorem markInvalidAndRollback (h : s.Bootable) :
    Bootable ⟨s.flash.markInvalidAndRollback.2, s.uploading⟩ := by
  rcases s.flash.markInvalidAndRollback_cases with hrefused | ⟨hcomplete, -, hback⟩
  · rw [hrefused]
    exact h
  · rw [hback]
    exact .of_slots
      (s.flash.runningSlot_setSlot_running { s.flash.runningSlot with state := .invalid })
      (s.flash.otherSlot_setSlot_running _) h.runningComplete (.inr hcomplete) h.otherNotPending
      h.uploading

theorem beginUpload [Inhabited D] (h : s.Bootable) : Bootable ⟨s.flash.beginUpload, true⟩ :=
  .of_slots (s.flash.runningSlot_setSlot_other _) (s.flash.otherSlot_setSlot_other .empty)
    h.runningComplete (.inl s.flash.beginUpload_boot) nofun fun _ => rfl

theorem uploadDescriptor (h : s.Bootable) (huploading : s.uploading = true) (desc : D) :
    Bootable ⟨s.flash.uploadDescriptor desc, true⟩ :=
  .of_slots (s.flash.runningSlot_setSlot_other _)
    (s.flash.otherSlot_setSlot_other
      { s.flash.otherSlot with hasImage := true, isPartial := true, desc := desc })
    h.runningComplete (.inl (h.boot_eq huploading)) h.otherNotPending fun _ => rfl

theorem commitImage (h : s.Bootable) (desc : D) : Bootable ⟨s.flash.commitImage desc, false⟩ :=
  .of_slots (s.flash.runningSlot_setSlot_other _)
    (s.flash.otherSlot_setSlot_other ⟨true, false, false, desc, .new, s.flash.nextImage⟩)
    h.runningComplete (.inr rfl) nofun nofun

/-- Every call keeps it. -/
theorem next [Inhabited D] {op : FlashOp D} (h : s.Bootable) (hnext : op.next s = some t) :
    t.Bootable := by
  obtain ⟨uploading, huploads, rfl⟩ := FlashOp.next_eq_some hnext
  cases op with
  | boot => exact Option.some.inj huploads ▸ h.bootloader
  | setBoot i => exact Option.some.inj huploads ▸ h.setBoot i
  | markValid => exact Option.some.inj huploads ▸ h.markValid
  | markInvalidAndRollback => exact Option.some.inj huploads ▸ h.markInvalidAndRollback
  | setNextImage behavior =>
      obtain rfl := Option.some.inj huploads
      exact ⟨h.runningComplete, h.bootComplete, h.otherNotPending, h.uploading⟩
  | beginUpload => exact Option.some.inj huploads ▸ h.beginUpload
  | uploadDescriptor desc =>
      rw [FlashOp.uploads] at huploads
      split_ifs at huploads with huploading
      exact Option.some.inj huploads ▸ h.uploadDescriptor huploading desc
  | commitImage desc =>
      rw [FlashOp.uploads] at huploads
      split_ifs at huploads
      exact Option.some.inj huploads ▸ h.commitImage desc

theorem reachable [Inhabited D] {native : D} (h : Reachable (flashRuns native) s) :
    s.Bootable :=
  h.invariant (fun _ hinit => hinit ▸ format native) fun _ _ _ hs hstep => hs.next hstep

/-- Only the running slot is pending. -/
theorem eq_running (h : s.Bootable) {i : Fin 2}
    (hpending : (s.flash.slots i).state = .pendingVerify) : i = s.flash.running := by
  rcases Flash.eq_or_eq_otherOf i s.flash.running with hi | rfl
  · exact hi
  · exact absurd hpending h.otherNotPending

end Session.Bootable

/-! ## An image that was never confirmed -/

section Unconfirmed

variable {s t : Session D} {i : Fin 2}

/-- The boot aborts it, and runs the other slot if there is an image. -/
theorem Session.Bootable.aborts (h : s.Bootable)
    (hpending : (s.flash.slots i).state = .pendingVerify) :
    (s.flash.bootloader.2.slots i).state = .aborted ∧
      s.flash.bootloader.2.running =
        if (s.flash.slots (Flash.otherOf i)).complete = true then Flash.otherOf i else i := by
  constructor
  · rw [Flash.bootloader_slots]
    simp [Slot.abortPending, Slot.startPending, hpending]
  · rw [Flash.bootloader_running, Flash.bootloader_boot]
    obtain rfl := h.eq_running hpending
    rcases Flash.eq_or_eq_otherOf s.flash.boot s.flash.running with hboot | hboot
    · rw [hboot, hpending]
      simp only [true_and]
    · -- a revert from a pending image: the boot slot is the other one, and is complete
      have hother : (s.flash.slots (Flash.otherOf s.flash.running)).complete = true := by
        rw [← hboot]
        exact h.bootComplete
      rw [hboot, if_neg fun hback => h.otherNotPending hback.1, if_pos hother]

/-- The image of the slot is neither new nor pending. -/
def Slot.Settled (slot : Slot D) : Prop := slot.state ≠ .new ∧ slot.state ≠ .pendingVerify

theorem Flash.settled_setSlot {flash : Flash D} {j : Fin 2} {slot : Slot D}
    (h : (flash.slots i).Settled) (hslot : j = i → slot.Settled) :
    ((flash.setSlot j slot).slots i).Settled := by
  by_cases hj : i = j
  · subst hj
    rw [Flash.setSlot_slots_self]
    exact hslot rfl
  · rw [Flash.setSlot_slots_of_ne _ _ hj]
    exact h

theorem Flash.settled_bootloader {flash : Flash D} (h : (flash.slots i).Settled) :
    (flash.bootloader.2.slots i).Settled :=
  ⟨fun hnew => h.1 (Flash.bootloader_new.mp hnew).2,
    fun hpending => h.1 (Flash.bootloader_pending.mp hpending).2⟩

/-- Nothing but a call that activates the slot makes its image new again. -/
theorem FlashOp.settled_apply [Inhabited D] {op : FlashOp D} {flash : Flash D}
    (h : (flash.slots i).Settled) (hop : op.activates i = false) :
    ((op.apply flash).slots i).Settled := by
  cases op with
  | boot => exact Flash.settled_bootloader h
  | setBoot j =>
      have hj : i ≠ j := fun heq => of_decide_eq_false hop heq.symm
      rw [FlashOp.apply, Flash.setBoot_slots_of_ne _ hj]
      exact h
  | markValid => exact Flash.settled_setSlot h fun _ => ⟨nofun, nofun⟩
  | markInvalidAndRollback =>
      rw [FlashOp.apply]
      rcases flash.markInvalidAndRollback_cases with hrefused | ⟨-, -, hback⟩
      · rw [hrefused]
        exact h
      · rw [hback]
        exact Flash.settled_setSlot h fun _ => ⟨nofun, nofun⟩
  | setNextImage behavior => exact h
  | beginUpload => exact Flash.settled_setSlot h fun _ => ⟨nofun, nofun⟩
  | uploadDescriptor desc => exact Flash.settled_setSlot h fun hi => by subst hi; exact h
  | commitImage desc => cases hop

/-- **No incomplete image runs or boots**, and an image that was never confirmed is
aborted by the next boot.  It stays so until `set_boot` takes its slot again on purpose
or an upload replaces it. -/
theorem runs_complete_images [Inhabited D] {native : D} (h : Reachable (flashRuns native) s) :
    s.flash.runningSlot.complete = true ∧ (s.flash.slots s.flash.boot).complete = true ∧
      (∀ i, (s.flash.slots i).state = .pendingVerify → i = s.flash.running) ∧
      ∀ i, (s.flash.slots i).state = .pendingVerify →
        (s.flash.bootloader.2.slots i).state = .aborted ∧
        s.flash.bootloader.2.running =
          (if (s.flash.slots (Flash.otherOf i)).complete = true then Flash.otherOf i else i) ∧
        ∀ steps t, Path (flashRuns native) ⟨s.flash.bootloader.2, false⟩ steps t →
          (∀ x ∈ steps, x.2.1.activates i = false) →
          (t.flash.slots i).state ≠ .pendingVerify := by
  have hbootable := Session.Bootable.reachable h
  refine ⟨hbootable.runningComplete, hbootable.bootComplete, fun _ => hbootable.eq_running,
    fun i hpending => ?_⟩
  obtain ⟨haborted, hrunning⟩ := hbootable.aborts hpending
  refine ⟨haborted, hrunning, fun steps t hpath hall => ?_⟩
  -- from the boot on, no call of the run makes the image new again
  have hstart : (s.flash.bootloader.2.slots i).Settled := by
    rw [Slot.Settled, haborted]
    exact ⟨nofun, nofun⟩
  have hquiet := hpath.restrict (P := fun _ op => op.activates i = false) hall
  have hsettled := hquiet.invariant (I := fun s => (s.flash.slots i).Settled)
    (fun s a t hs hstep => by
      obtain ⟨_, -, rfl⟩ := FlashOp.next_eq_some (And.left hstep)
      exact FlashOp.settled_apply hs (And.right hstep)) hstart
  exact hsettled.2

attribute [local instance] Flash.neZero_two in
/-- An upload that boots and is not confirmed, and then a revert. -/
def revertedUpload : Session ℕ :=
  ⟨((((Flash.format 1).beginUpload.uploadDescriptor 2).commitImage 2).bootloader.2.setBoot 0).2,
    false⟩

theorem reachable_revertedUpload : Reachable (flashRuns 1) revertedUpload := by
  have hrun : runOption FlashOp.next ⟨Flash.format 1, false⟩
      [.beginUpload, .uploadDescriptor 2, .commitImage 2, .boot, .setBoot 0] =
        some revertedUpload := rfl
  obtain ⟨steps, hpath⟩ := path_of_runOption (· = ⟨Flash.format 1, false⟩) hrun
  exact hpath.reachable (.init rfl)

theorem runs_complete_images_revertedUpload :
    revertedUpload.flash.runningSlot.complete = true ∧
      (revertedUpload.flash.bootloader.2.slots 1).state = .aborted ∧
      revertedUpload.flash.bootloader.2.running = 0 :=
  have h := runs_complete_images reachable_revertedUpload
  ⟨h.1, (h.2.2.2 1 rfl).1, (h.2.2.2 1 rfl).2.1⟩

end Unconfirmed

end OmegaStick
