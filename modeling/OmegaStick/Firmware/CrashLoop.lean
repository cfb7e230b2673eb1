import OmegaStick.Firmware.Boot
import OmegaStick.Firmware.ResetLog
import OmegaStick.Library.Transition

/-!
# The image the crash-loop check judges

Every history of boots of a two-slot device, with the reset log, the crashes
charged to the running slot and the checks of `main.cpp` at each boot.  Between
boots the slot that does not run may get another image; an image is the number
of its upload, so that two of them are never confused.

The log names a run by its slot alone, so that what the check sees are the last
runs of the slot.  The image's own runs are the end of those, since an image
that is replaced never comes back: the two agree exactly when at least as many
runs of the image have completed as the check looks at.
-/

namespace OmegaStick

open FirmwareHealthCheck TransitionSystem

/-! ## The states of the slots between boots -/

/-- What boots and sessions keep of the slots. A rejected image runs only when
there is nothing to fall back on. -/
structure Session.Ok {D : Type*} (s : Session D) : Prop where
  runningNotNew : s.flash.runningSlot.state ≠ .new
  newWaits : s.flash.otherSlot.state = .new → s.flash.boot = Flash.otherOf s.flash.running
  otherNotPending : s.flash.otherSlot.state ≠ .pendingVerify
  bootTrusted : s.flash.boot = Flash.otherOf s.flash.running →
    s.flash.otherSlot.complete = true ∧ s.flash.otherSlot.state.rejected = false
  noFallback : s.flash.runningSlot.state.rejected = true → s.flash.boot = s.flash.running →
    s.flash.otherSlot.complete = true → s.flash.otherSlot.state.rejected = true
  runningComplete : s.flash.runningSlot.complete = true
  uploading : s.uploading = true →
    s.flash.boot = s.flash.running ∧ s.flash.otherSlot.complete = false

namespace Session.Ok

variable {D : Type*} {s t : Session D}

/-- A new image waits in the boot slot. -/
theorem new_eq_boot (h : s.Ok) (i : Fin 2) (hi : (s.flash.slots i).state = .new) :
    i = s.flash.boot := by
  rcases Flash.eq_or_eq_otherOf i s.flash.running with rfl | rfl
  · exact absurd hi h.runningNotNew
  · exact (h.newWaits hi).symm

/-- The same of a session whose slots are known. -/
theorem of_slots {running other : Slot D} (hrunning : t.flash.runningSlot = running)
    (hother : t.flash.otherSlot = other) (runningNotNew : running.state ≠ .new)
    (newWaits : other.state = .new → t.flash.boot = Flash.otherOf t.flash.running)
    (otherNotPending : other.state ≠ .pendingVerify)
    (bootTrusted : t.flash.boot = Flash.otherOf t.flash.running →
      other.complete = true ∧ other.state.rejected = false)
    (noFallback : running.state.rejected = true → t.flash.boot = t.flash.running →
      other.complete = true → other.state.rejected = true)
    (runningComplete : running.complete = true)
    (uploading : t.uploading = true → t.flash.boot = t.flash.running ∧ other.complete = false) :
    t.Ok := by
  subst hrunning hother
  exact ⟨runningNotNew, newWaits, otherNotPending, bootTrusted, noFallback, runningComplete,
    uploading⟩

/-- Every operation keeps them. -/
theorem effect [Inhabited D] {op : SlotOp D} (h : s.Ok) (heffect : SlotOp.Effect s op t) :
    t.Ok := by
  -- what boots the slot that runs does not boot the other one, and the other way round
  have hstays {boot : Fin 2} (hboot : boot = s.flash.running)
      (hother : boot = Flash.otherOf s.flash.running) : False :=
    Flash.ne_otherOf _ (hboot.symm.trans hother)
  cases heffect with
  | refused => exact h
  | abortUpload => exact { h with uploading := nofun }
  | beginUpload =>
      have hboot := s.flash.beginUpload_boot
      exact .of_slots (s.flash.runningSlot_setSlot_other _) (s.flash.otherSlot_setSlot_other .empty)
        h.runningNotNew nofun nofun (fun hother => (hstays hboot hother).elim) (fun _ _ => nofun)
        h.runningComplete (fun _ => ⟨hboot, rfl⟩)
  | uploadDescriptor desc hactive =>
      -- the slot has an image now, but a partial one
      have hpartial : ({ s.flash.otherSlot with
          hasImage := true, isPartial := true, desc := desc } : Slot D).complete = false := rfl
      have hboot := (h.uploading hactive).1
      exact .of_slots (s.flash.runningSlot_setSlot_other _)
        (s.flash.otherSlot_setSlot_other
          { s.flash.otherSlot with hasImage := true, isPartial := true, desc := desc })
        h.runningNotNew h.newWaits h.otherNotPending (fun hother => (hstays hboot hother).elim)
        (fun _ _ hcomplete => nomatch hpartial.symm.trans hcomplete) h.runningComplete
        (fun _ => ⟨hboot, hpartial⟩)
  | commitImage desc hactive =>
      exact .of_slots (s.flash.runningSlot_setSlot_other _)
        (s.flash.otherSlot_setSlot_other ⟨true, false, false, desc, .new, s.flash.nextImage⟩)
        h.runningNotNew (fun _ => rfl) nofun (fun _ => ⟨rfl, rfl⟩)
        (fun _ hboot => (hstays hboot rfl).elim) h.runningComplete nofun
  | markValid =>
      exact .of_slots
        (s.flash.runningSlot_setSlot_running { s.flash.runningSlot with state := .valid })
        (s.flash.otherSlot_setSlot_running _) nofun h.newWaits h.otherNotPending h.bootTrusted nofun
        h.runningComplete h.uploading
  | setBootOther hother =>
      exact .of_slots (s.flash.runningSlot_setSlot_other _)
        (s.flash.otherSlot_setSlot_other { s.flash.otherSlot with state := .new })
        h.runningNotNew (fun _ => rfl) nofun (fun _ => ⟨hother, rfl⟩)
        (fun _ hboot => (hstays hboot rfl).elim) h.runningComplete
        (fun hactive => nomatch hother.symm.trans (h.uploading hactive).2)
  | rollback hother hrejected =>
      exact .of_slots
        (s.flash.runningSlot_setSlot_running { s.flash.runningSlot with state := .invalid })
        (s.flash.otherSlot_setSlot_running _) nofun (fun _ => rfl) h.otherNotPending
        (fun _ => ⟨hother, hrejected⟩)
        (fun _ hboot => (hstays hboot rfl).elim) h.runningComplete
        (fun hactive => nomatch hother.symm.trans (h.uploading hactive).2)

/-- The bootloader keeps them: it falls back from a pending image, which it
rejects, and stays on any other. -/
theorem bootloader (h : s.Ok) : Session.Ok ⟨s.flash.bootloader.2, false⟩ := by
  have hnone := Flash.noneNew_bootloader h.new_eq_boot
  have hrun : s.flash.bootloader.2.running = s.flash.bootloader.2.boot := rfl
  refine
    { runningNotNew := hnone _
      newWaits := fun hnew => absurd hnew (hnone _)
      otherNotPending := fun hpending =>
        absurd (Flash.bootloader_pending.mp hpending).1 (by rw [← hrun]; exact Flash.otherOf_ne _)
      bootTrusted := fun hother => absurd hother (Flash.ne_otherOf _)
      noFallback := ?_
      runningComplete := ?_
      uploading := nofun }
  all_goals rw [Flash.runningSlot, hrun]
  · intro hrejected _ hother
    rw [Flash.otherSlot, hrun, Flash.bootloader_complete] at hother
    rw [Flash.otherSlot, hrun]
    -- the boot slot stays, or falls back to the other one
    rcases Flash.eq_or_eq_otherOf s.flash.bootloader.2.boot s.flash.boot with hstay | hback
    · rw [hstay] at hrejected hother ⊢
      rw [Flash.bootloader_rejected] at hrejected ⊢
      right
      rcases hrejected with hpending | hrejected
      · rw [Flash.bootloader_boot, if_pos ⟨hpending, hother⟩] at hstay
        exact absurd hstay (Flash.otherOf_ne _)
      · rcases Flash.eq_or_eq_otherOf s.flash.boot s.flash.running with heq | heq
        · rw [heq] at hrejected hother ⊢
          exact h.noFallback hrejected heq hother
        · rw [heq] at hrejected
          exact absurd hrejected (Bool.eq_false_iff.mp (h.bootTrusted heq).2)
    · rw [Flash.bootloader_rejected, hback, Flash.otherOf_otherOf]
      left
      by_contra hpending
      rw [Flash.bootloader_boot, if_neg fun hboth => hpending hboth.1] at hback
      exact Flash.ne_otherOf _ hback
  · rw [Flash.bootloader_complete, Flash.bootloader_boot]
    split_ifs with hback
    · exact hback.2
    · rcases Flash.eq_or_eq_otherOf s.flash.boot s.flash.running with heq | heq
      · rw [heq]
        exact h.runningComplete
      · rw [heq]
        exact (h.bootTrusted heq).1

/-- So do the checks at boot. -/
theorem bootChecks [Inhabited D] (h : s.Ok) (hdone : s.uploading = false) (marker : UInt32)
    (powerOn : Bool) (recentCrashes : List Bool) :
    Session.Ok ⟨(bootChecks s.flash marker powerOn recentCrashes).2.1, false⟩ := by
  obtain ⟨flash, uploading⟩ := s
  obtain rfl : uploading = false := hdone
  rcases bootChecks_cases flash marker powerOn recentCrashes with ⟨hover, heq⟩ | ⟨-, heq⟩
  · rw [heq]
    exact h.effect (SlotOp.apply_effect ⟨flash, false⟩ .setBootOther)
  · rw [heq]
    rcases acceptAfterHandover_cases flash
      (takeHandoverMarker marker powerOn).1.bootedByHandover with hsame | ⟨-, -, hvalid⟩
    · rw [hsame]
      exact h
    · rw [hvalid]
      exact h.effect (SlotOp.apply_effect ⟨flash, false⟩ .markValid)

/-- The image a boot leaves by a handover is confirmed. -/
theorem confirmed (h : s.Ok) (hboot : s.flash.boot = s.flash.running)
    {recentCrashes : List Bool} (hswitch : Switches s.flash recentCrashes) :
    s.flash.runningSlot.state.confirmed = true := by
  have hpending := hswitch.notPending
  have hrejected : s.flash.runningSlot.state.rejected = false := by
    by_contra hrejected
    have hother := h.noFallback (by simpa using hrejected) hboot hswitch.complete
    simp [hswitch.notRejected] at hother
  have hnew := h.runningNotNew
  simp only [Flash.pendingVerify, decide_eq_false_iff_not] at hpending
  cases hstate : s.flash.runningSlot.state <;> simp_all [ImgState.rejected, ImgState.confirmed]


end Session.Ok

/-! ## Histories -/

namespace CrashLoop

/-- One boot of a history. -/
structure Boot where
  slot : Fin 2
  /-- The image in the slot at the time. -/
  image : ℕ
  /-- What the reset that started it was. -/
  reason : ResetReason
  deriving DecidableEq, Repr

/-- A boot as the log tells of it. -/
def Boot.record (boot : Boot) : BootRecord := ⟨slotLabel boot.slot, boot.reason.isCrash⟩

/-- The completed runs of an image, oldest first: whether each ended in a crash. -/
def completedRuns (history : List Boot) (image : ℕ) : List Bool :=
  ((history.zip history.tail).filter fun run => run.1.image == image).map
    fun run => run.2.reason.isCrash

/-- The completed runs of a slot. -/
def slotRuns (history : List Boot) (i : Fin 2) : List Bool :=
  ((history.zip history.tail).filter fun run => run.1.slot == i).map
    fun run => run.2.reason.isCrash

/-- The check charges crashes to slots. -/
theorem crashesWhileRunning_record (history : List Boot) (i : Fin 2) :
    crashesWhileRunning (history.map Boot.record) (slotLabel i) = slotRuns history i := by
  unfold crashesWhileRunning slotRuns
  rw [← List.map_tail, List.zip_map, List.filter_map, List.map_map]
  congr 1
  refine List.filter_congr fun run _ => ?_
  simp [Boot.record, slotLabel_inj]

theorem completedRuns_concat (history : List Boot) (last boot : Boot) (image : ℕ) :
    completedRuns (history ++ [last] ++ [boot]) image =
      completedRuns (history ++ [last]) image ++
        if last.image = image then [boot.reason.isCrash] else [] := by
  unfold completedRuns
  rw [zip_tail_concat, List.filter_append, List.map_append]
  by_cases himage : last.image = image <;> simp [himage]

theorem slotRuns_concat (history : List Boot) (last boot : Boot) (i : Fin 2) :
    slotRuns (history ++ [last] ++ [boot]) i =
      slotRuns (history ++ [last]) i ++
        if last.slot = i then [boot.reason.isCrash] else [] := by
  unfold slotRuns
  rw [zip_tail_concat, List.filter_append, List.map_append]
  by_cases hslot : last.slot = i <;> simp [hslot]

/-- An image no boot ran has no completed runs. -/
theorem completedRuns_eq_nil {history : List Boot} {image : ℕ}
    (h : ∀ boot ∈ history, boot.image ≠ image) : completedRuns history image = [] := by
  unfold completedRuns
  rw [List.map_eq_nil_iff, List.filter_eq_nil_iff]
  rintro ⟨ran, next⟩ hmem
  simpa using h ran (List.of_mem_zip hmem).1

/-! ## The device -/

/-- What the last boot came to. -/
inductive Phase where
  | off
  | up
  | handedOver
  deriving DecidableEq, Repr

/-- The device, with its history and the number of the next image to be
uploaded. -/
structure State where
  slots : Session ℕ
  marker : UInt32
  log : ResetLog
  phase : Phase
  history : List Boot
  nextImage : ℕ
  deriving DecidableEq

/-- One step of the device. -/
inductive Step where
  | boot (reason : ResetReason) (garbage : UInt32)
  | session (op : SlotOp Unit)
  deriving DecidableEq, Repr

namespace State

variable (s : State)

/-- The slots as the bootloader leaves them. -/
def booted : Flash ℕ := s.slots.flash.bootloader.2

/-- The boot as history has it. -/
def bootAt (reason : ResetReason) : Boot := ⟨s.booted.running, s.booted.runningSlot.desc, reason⟩

/-- The log with this boot recorded. -/
def logAt (reason : ResetReason) : ResetLog := s.log.recordBoot reason (slotLabel s.booted.running)

/-- The marker's word; a power-on leaves anything in it. -/
def markerAt (reason : ResetReason) (garbage : UInt32) : UInt32 :=
  if reason = .powerOn then garbage else s.marker

/-- The recent crashes as the log has them. -/
def crashesAt (reason : ResetReason) : List Bool :=
  crashesWhileRunning (s.logAt reason).boots (slotLabel s.booted.running)

/-- One step: a boot as `main.cpp` runs it, or an operation of the session,
where an upload brings the next image. -/
def next : Step → Option State
  | .boot reason garbage =>
      let (handedOver, flash, marker) :=
        bootChecks s.booted (s.markerAt reason garbage) (decide (reason = .powerOn))
          (s.crashesAt reason)
      some
        { slots := ⟨flash, false⟩
          marker := marker
          log := s.logAt reason
          phase := if handedOver then .handedOver else .up
          history := s.history ++ [s.bootAt reason]
          nextImage := s.nextImage }
  | .session op =>
      if s.phase = .up then
        some
          { s with
            slots := (op.map fun _ => s.nextImage).apply s.slots
            nextImage := s.nextImage + 1 }
      else none

theorem next_boot (reason : ResetReason) (garbage : UInt32) :
    s.next (.boot reason garbage) =
      some
        { slots := ⟨(bootChecks s.booted (s.markerAt reason garbage)
            (decide (reason = .powerOn)) (s.crashesAt reason)).2.1, false⟩
          marker := (bootChecks s.booted (s.markerAt reason garbage)
            (decide (reason = .powerOn)) (s.crashesAt reason)).2.2
          log := s.logAt reason
          phase := if (bootChecks s.booted (s.markerAt reason garbage)
            (decide (reason = .powerOn)) (s.crashesAt reason)).1 then .handedOver else .up
          history := s.history ++ [s.bootAt reason]
          nextImage := s.nextImage } := rfl

/-- A device before its first boot. -/
structure Fresh : Prop where
  ok : s.slots.Ok
  log : s.log = ResetLog.new resetLogEntries
  phase : s.phase = .off
  history : s.history = []
  images : ∀ i image, s.slots.flash.describe i = some image → image < s.nextImage
  distinct : ∀ i j image, s.slots.flash.describe i = some image →
    s.slots.flash.describe j = some image → i = j

end State

/-- The device as a system. -/
def device : TransitionSystem State Step := ofOption State.Fresh State.next

/-! ## The property and its condition -/

/-- After a handover, the image it left was confirmed, and its own last runs
ended in crashes. -/
def Judged (s : State) : Prop :=
  s.phase = .handedOver →
    s.slots.flash.runningSlot.state.confirmed = true ∧
      List.replicate crashLoopResets true <:+
        completedRuns s.history s.slots.flash.runningSlot.desc

/-- At a boot where nothing else holds the handover back, as many runs of the
running image itself have completed as the check looks at. -/
def OwnRuns (s : State) : Step → Prop
  | .session _ => True
  | .boot reason garbage =>
      HandsOver s.booted (s.markerAt reason garbage) (decide (reason = .powerOn))
          (s.crashesAt reason) →
        crashLoopResets ≤
          (completedRuns (s.history ++ [s.bootAt reason]) (s.bootAt reason).image).length

instance (s : State) : (step : Step) → Decidable (OwnRuns s step)
  | .session _ => inferInstanceAs (Decidable True)
  | .boot _ _ => inferInstanceAs (Decidable (_ → _))

/-! ## The invariant -/

/-- The invariant of the device. -/
structure Inv (s : State) : Prop where
  ok : s.slots.Ok
  log : s.log.boots <:+ s.history.map Boot.record
  last : ∀ boot, s.history.getLast? = some boot →
    boot.slot = s.slots.flash.running ∧ s.slots.flash.describe boot.slot = some boot.image
  past : ∀ boot ∈ s.history, boot.image < s.nextImage
  images : ∀ i image, s.slots.flash.describe i = some image → image < s.nextImage
  distinct : ∀ i j image, s.slots.flash.describe i = some image →
    s.slots.flash.describe j = some image → i = j
  own : ∀ i image, s.slots.flash.describe i = some image →
    completedRuns s.history image <:+ slotRuns s.history i

theorem inv_of_fresh {s : State} (h : s.Fresh) : Inv s where
  ok := h.ok
  log := by simp [h.log, h.history, ResetLog.new, ResetLog.boots]
  last := by simp [h.history]
  past := by simp [h.history]
  images := h.images
  distinct := h.distinct
  own := by simp [h.history, completedRuns]

/-- A boot appends one run to those of the image that ran, and to those of its
slot. -/
theorem own_concat {s : State} (h : Inv s) (boot : Boot) (i : Fin 2) (image : ℕ)
    (hi : s.slots.flash.describe i = some image) :
    completedRuns (s.history ++ [boot]) image <:+ slotRuns (s.history ++ [boot]) i := by
  have hown := h.own i image hi
  rcases List.eq_nil_or_concat s.history with hnil | ⟨history, last, hlast⟩
  · simp [hnil, completedRuns]
  · rw [List.concat_eq_append] at hlast
    obtain ⟨hslot, himage⟩ := h.last last (by simp [hlast])
    have hiff : last.image = image ↔ last.slot = i := by
      constructor
      · rintro rfl
        exact h.distinct _ _ _ himage hi
      · rintro rfl
        exact Option.some.inj (himage.symm.trans hi)
    rw [hlast] at hown ⊢
    rw [completedRuns_concat, slotRuns_concat, if_congr hiff rfl rfl]
    obtain ⟨before, hbefore⟩ := hown
    exact ⟨before, by rw [← hbefore, List.append_assoc]⟩

theorem describe_running {flash : Flash ℕ} (h : flash.runningSlot.complete = true) :
    flash.describe flash.running = some flash.runningSlot.desc := by
  have himage : flash.runningSlot.hasImage = true := (Bool.and_eq_true_iff.mp h).1
  rw [Flash.describe, if_pos (by exact himage)]
  rfl

/-- A boot keeps the invariant, whatever its checks decide. -/
theorem inv_of_boot {s t : State} (h : Inv s) {reason : ResetReason} {garbage : UInt32}
    (hnext : s.next (.boot reason garbage) = some t) : Inv t := by
  rw [State.next_boot] at hnext
  obtain rfl := Option.some.inj hnext
  have hok := h.ok.bootloader.bootChecks rfl (s.markerAt reason garbage)
    (decide (reason = .powerOn)) (s.crashesAt reason)
  have hdescribe := fun i => bootChecks_describe s.booted (s.markerAt reason garbage)
    (decide (reason = .powerOn)) (s.crashesAt reason) i
  have hbooted : ∀ i, s.booted.describe i = s.slots.flash.describe i :=
    s.slots.flash.bootloader_describe
  have hran : s.booted.describe s.booted.running = some (s.bootAt reason).image :=
    describe_running h.ok.bootloader.runningComplete
  exact
    { ok := hok
      log := by
        refine (s.log.boots_recordBoot reason (slotLabel s.booted.running)).trans ?_
        obtain ⟨before, hbefore⟩ := h.log
        exact ⟨before, by simp [← hbefore, Boot.record, State.bootAt]⟩
      last := by
        intro boot hboot
        rw [List.getLast?_append_of_ne_nil _ (by simp), List.getLast?_singleton] at hboot
        obtain rfl := Option.some.inj hboot
        exact ⟨(hdescribe 0).2.symm, (hdescribe _).1.trans hran⟩
      past := by
        intro boot hboot
        rcases List.mem_append.mp hboot with hboot | hboot
        · exact h.past boot hboot
        · obtain rfl := List.mem_singleton.mp hboot
          exact h.images _ _ ((hbooted _).symm.trans hran)
      images := fun i image hi => h.images i image (by rwa [(hdescribe i).1, hbooted] at hi)
      distinct := fun i j image hi hj => h.distinct i j image
        (by rwa [(hdescribe i).1, hbooted] at hi) (by rwa [(hdescribe j).1, hbooted] at hj)
      own := fun i image hi => own_concat h _ i image (by rwa [(hdescribe i).1, hbooted] at hi) }

/-- So does an operation: what it uploads no boot has run yet. -/
theorem inv_of_session {s t : State} (h : Inv s) {op : SlotOp Unit}
    (hnext : s.next (.session op) = some t) : Inv t := by
  simp only [State.next] at hnext
  by_cases hup : s.phase = .up
  swap
  · rw [if_neg hup] at hnext
    exact nomatch hnext
  rw [if_pos hup] at hnext
  obtain rfl := Option.some.inj hnext
  have heffect := SlotOp.apply_effect s.slots (op.map fun _ => s.nextImage)
  -- what an operation puts on flash is the image of its own upload, and only into the other slot
  have hdescribe : ∀ i image,
      ((op.map fun _ => s.nextImage).apply s.slots).flash.describe i = some image →
        s.slots.flash.describe i = some image ∨
          i = Flash.otherOf s.slots.flash.running ∧ image = s.nextImage := by
    intro i image hi
    rcases heffect.describe i with hsame | ⟨hother, hnone | hnew⟩
    · exact .inl (hsame ▸ hi)
    · simp [hnone] at hi
    · rw [hnew, SlotOp.desc?_map] at hi
      obtain ⟨-, -, himage⟩ := Option.map_eq_some_iff.mp hi
      exact .inr ⟨hother, himage.symm⟩
  exact
    { ok := h.ok.effect heffect
      log := h.log
      last := by
        intro boot hboot
        obtain ⟨hslot, himage⟩ := h.last boot hboot
        refine ⟨hslot.trans heffect.running.symm, ?_⟩
        rcases heffect.describe boot.slot with hsame | ⟨hother, -⟩
        · exact hsame.trans himage
        · exact absurd (hother.symm.trans hslot) (Flash.otherOf_ne _)
      past := fun boot hboot => (h.past boot hboot).trans (Nat.lt_succ_self _)
      images := by
        intro i image hi
        rcases hdescribe i image hi with hold | ⟨-, rfl⟩
        · exact (h.images i image hold).trans (Nat.lt_succ_self _)
        · exact Nat.lt_succ_self _
      distinct := by
        intro i j image hi hj
        rcases hdescribe i image hi with holdi | ⟨rfl, hnewi⟩ <;>
          rcases hdescribe j image hj with holdj | ⟨rfl, hnewj⟩
        · exact h.distinct i j image holdi holdj
        · exact absurd hnewj (Nat.ne_of_lt (h.images i image holdi))
        · exact absurd hnewi (Nat.ne_of_lt (h.images j image holdj))
        · rfl
      -- no boot has run the new image
      own := by
        intro i image hi
        rcases hdescribe i image hi with hold | ⟨-, rfl⟩
        · exact h.own i image hold
        · rw [completedRuns_eq_nil fun boot hboot => Nat.ne_of_lt (h.past boot hboot)]
          exact List.nil_suffix }

theorem inv_of_next {s t : State} (h : Inv s) {step : Step} (hnext : s.next step = some t) :
    Inv t := by
  cases step with
  | boot reason garbage => exact inv_of_boot h hnext
  | session op => exact inv_of_session h hnext

/-! ## The judgement -/

/-- What the log says the last runs of the slot were, they were. -/
theorem crashed_slotRuns {s : State} (h : Inv s) {reason : ResetReason}
    (hcrashed : lastAllCrashed (s.crashesAt reason) crashLoopResets = true) :
    List.replicate crashLoopResets true <:+
      slotRuns (s.history ++ [s.bootAt reason]) s.booted.running := by
  have hlog : (s.logAt reason).boots <:+ (s.history ++ [s.bootAt reason]).map Boot.record := by
    refine (s.log.boots_recordBoot reason (slotLabel s.booted.running)).trans ?_
    obtain ⟨before, hbefore⟩ := h.log
    exact ⟨before, by simp [← hbefore, Boot.record, State.bootAt]⟩
  rw [← crashesWhileRunning_record]
  exact ((lastAllCrashed_iff (by decide)).mp hcrashed).trans (crashesWhileRunning_suffix hlog _)

/-- A step's handover judges the image rightly exactly when enough of the runs
are its own. -/
theorem judged_iff {s t : State} (h : Inv s) {step : Step} (hnext : s.next step = some t) :
    Judged t ↔ OwnRuns s step := by
  cases step with
  | session op =>
      simp only [State.next] at hnext
      by_cases hup : s.phase = .up
      · rw [if_pos hup] at hnext
        obtain rfl := Option.some.inj hnext
        simp [Judged, OwnRuns, hup]
      · rw [if_neg hup] at hnext
        exact nomatch hnext
  | boot reason garbage =>
      rw [State.next_boot] at hnext
      rcases bootChecks_cases s.booted (s.markerAt reason garbage) (decide (reason = .powerOn))
        (s.crashesAt reason) with ⟨hover, hchecks⟩ | ⟨hstays, hchecks⟩
      · rw [hchecks] at hnext
        obtain rfl := Option.some.inj hnext
        have hslot : (s.booted.setBoot (Flash.otherOf s.booted.running)).2.runningSlot =
            s.booted.runningSlot := by
          rw [Flash.runningSlot, Flash.setBoot_running]
          exact Flash.setBoot_slots_of_ne _ (Flash.ne_otherOf _)
        have hconfirmed := h.ok.bootloader.confirmed rfl hover.2
        have hown := own_concat h (s.bootAt reason) s.booted.running (s.bootAt reason).image
          ((s.slots.flash.bootloader_describe _).symm.trans
            (describe_running h.ok.bootloader.runningComplete))
        have hcrashed := crashed_slotRuns h hover.2.crashed
        simp only [Judged, OwnRuns, hslot, ite_true, true_imp_iff]
        constructor
        · rintro ⟨-, hlast⟩ -
          exact List.length_replicate (n := crashLoopResets) (a := true) ▸ hlast.length_le
        · intro henough
          refine ⟨hconfirmed, ?_⟩
          exact List.suffix_of_suffix_length_le hcrashed hown
            (by rw [List.length_replicate]; exact henough hover)
      · rw [hchecks] at hnext
        obtain rfl := Option.some.inj hnext
        simp [Judged, OwnRuns, hstays]

/-- **The handover judges the running image** at every boot of a history
exactly when no boot would hand over on the runs of an earlier image: whenever
the recorded runs of the slot, the marker and the other slot allow a handover,
at least as many completed runs are those of the running image. -/
theorem handover_judges_iff {s t : State} (hs : s.Fresh) {steps : List (State × Step × State)}
    (hpath : Path device s steps t) :
    (∀ x ∈ steps, Judged x.2.2) ↔ ∀ x ∈ steps, OwnRuns x.1 x.2.1 := by
  refine hpath.forall_iff (I := Inv) (Q := Judged) (fun _ _ _ h hnext => inv_of_next h hnext)
    (fun _ _ _ h _ hnext => judged_iff h hnext) (inv_of_fresh hs) ?_
  intro hphase
  rw [hs.phase] at hphase
  exact nomatch hphase

/-! ## Two histories -/

/-- A new board, whose image is the number 0. -/
def newBoard : State where
  slots := ⟨Flash.format 0, false⟩
  marker := 0
  log := ResetLog.new resetLogEntries
  phase := .off
  history := []
  nextImage := 1

theorem newBoard_fresh : newBoard.Fresh where
  ok := by constructor <;> decide
  log := rfl
  phase := rfl
  history := rfl
  images := by
    intro i image hi
    have hcases : i = 0 ∨ i = 1 := by omega
    rcases hcases with rfl | rfl <;> simp_all [newBoard, Flash.describe, Flash.format, Slot.empty]
  distinct := by
    intro i j image hi hj
    have hi' : i = 0 ∨ i = 1 := by omega
    have hj' : j = 0 ∨ j = 1 := by omega
    rcases hi' with rfl | rfl <;> rcases hj' with rfl | rfl <;>
      simp_all [newBoard, Flash.describe, Flash.format, Slot.empty]

/-- An update: the upload, and the boot into the new image. -/
def update : List Step :=
  [.session .beginUpload, .session (.uploadDescriptor ()), .session (.commitImage ()),
    .boot .sw 0]

/-- Two updates whose images crash while they are pending and are rolled back,
and a third whose image is confirmed and crashes once. -/
def thirdUpdateCrashesOnce : List Step :=
  .boot .powerOn 7 :: update ++ .boot .panic 0 :: update ++ .boot .panic 0 :: update ++
    [.session .markValid, .boot .panic 0]

/-- One crash of the third image hands over: the crashes of the two images
before it in the slot count. -/
theorem not_judged_thirdUpdateCrashesOnce :
    ¬ ∀ s, device.Reachable s → Judged s := by
  intro hall
  have hrun : (runOption State.next newBoard thirdUpdateCrashesOnce).map (fun s =>
      (s.phase, completedRuns s.history s.slots.flash.runningSlot.desc)) =
        some (.handedOver, [true]) := by decide +kernel
  obtain ⟨s, hs, hend⟩ := Option.map_eq_some_iff.mp hrun
  obtain ⟨hphase, hruns⟩ := Prod.mk.inj hend
  obtain ⟨steps, hpath⟩ := path_of_runOption State.Fresh hs
  have hjudged := hall s (hpath.reachable (.init newBoard_fresh))
  have hlength := (hjudged hphase).2.length_le
  rw [hruns] at hlength
  exact absurd hlength (by decide)

/-- An update that is confirmed and then crashes three times. -/
def updateCrashLoops : List Step :=
  .boot .powerOn 7 :: update ++
    [.session .markValid, .boot .panic 0, .boot .panic 0, .boot .panic 0]

/-- Its own three crashes hand over, and rightly. -/
theorem handover_judges_updateCrashLoops :
    ∃ steps s, Path device newBoard steps s ∧ s.phase = .handedOver ∧
      ∀ x ∈ steps, Judged x.2.2 := by
  have hrun : (runOption (fun s step => if OwnRuns s step then s.next step else none) newBoard
      updateCrashLoops).map (fun s => s.phase) = some .handedOver := by decide +kernel
  obtain ⟨s, hs, hphase⟩ := Option.map_eq_some_iff.mp hrun
  obtain ⟨steps, hpath, hall⟩ := path_of_runOption_guarded State.Fresh hs
  exact ⟨steps, s, hpath, hphase, (handover_judges_iff newBoard_fresh hpath).mpr hall⟩

end CrashLoop

end OmegaStick
