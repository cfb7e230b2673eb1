import OmegaStick.Firmware.Boot
import OmegaStick.Firmware.ResetLog
import OmegaStick.Library.Transition

/-!
# At most one handover a power-on

The boots of a device that runs OTA-on images in both slots.  Each boot runs
the bootloader and then the checks of `main.cpp`, unless a reset cuts it short
before or after it has taken the marker, or between the crash-loop check's
switch of the boot slot and the write of the marker that follows it; a boot
that went through is followed by a session.  The marker's word keeps its value
over every reset but a power-on, which leaves anything in it.  Which runs the
reset log charges to the image is left open: a boot may find any recent
crashes.

The marker carries the proof.  A request in it is either the handover's own,
and then the image it switched to waits new in the boot slot, or it outlived
its boot, and then no slot holds a new image, so that nothing is left for a
later boot to accept.  The count needs more: a reset between the switch and the
write leaves a handover that no marker tells of, and a second one can follow
(`not_handover_once`).  In the runs where only a loss of power falls there, one
handover is all (`handover_once`).
-/

namespace OmegaStick

open FirmwareHealthCheck TransitionSystem

namespace Handover

/-- Where a reset can cut a boot short. -/
inductive Cut where
  | beforeMarker
  | afterMarker
  /-- After `revert_if_crash_looping` has switched the boot slot and before
  `HANDOVER_REQUESTED` is written. -/
  | afterSwitch
  deriving DecidableEq, Repr

/-- One step of the device. -/
inductive Step (D : Type*) where
  | boot (reason : ResetReason) (garbage : UInt32) (recentCrashes : List Bool) (cut : Option Cut)
  | session (op : SlotOp D)
  deriving DecidableEq, Repr

/-- The device. `handovers` counts those since the last power-on, `startedBy`
is the slot and the image of the handover that was the last thing to happen,
and `interrupted` is whether the last boot was cut after its switch. -/
structure State (D : Type*) where
  slots : Session D
  marker : UInt32
  up : Bool
  handovers : ℕ
  startedBy : Option (Fin 2 × D)
  interrupted : Bool
  deriving DecidableEq

variable {D : Type*}

/-- The marker a boot finds. -/
def State.markerAt (s : State D) (reason : ResetReason) (garbage : UInt32) : UInt32 :=
  if reason = .powerOn then garbage else s.marker

variable [Inhabited D]

def State.next (s : State D) : Step D → Option (State D)
  | .boot reason garbage recentCrashes cut =>
      let powerOn := decide (reason = .powerOn)
      let marker := s.markerAt reason garbage
      let handovers := if powerOn then 0 else s.handovers
      let flash := s.slots.flash.bootloader.2
      match cut with
      | some .beforeMarker => some ⟨⟨flash, false⟩, marker, false, handovers, none, false⟩
      | some .afterMarker =>
          some ⟨⟨flash, false⟩, (takeHandoverMarker marker powerOn).2, false, handovers, none,
            false⟩
      | some .afterSwitch =>
          if (takeHandoverMarker marker powerOn).1.handedOverSincePowerOn then none
          else
            match revertIfCrashLooping flash recentCrashes crashLoopResets with
            | (true, after) =>
                some ⟨⟨after, false⟩, (takeHandoverMarker marker powerOn).2, false, handovers + 1,
                  some (Flash.otherOf flash.running, flash.otherSlot.desc), true⟩
            | (false, _) => none
      | none =>
          match bootChecks flash marker powerOn recentCrashes with
          | (true, after, marker) =>
              some ⟨⟨after, false⟩, marker, false, handovers + 1,
                some (Flash.otherOf flash.running, flash.otherSlot.desc), false⟩
          | (false, after, marker) => some ⟨⟨after, false⟩, marker, true, handovers, none, false⟩
  | .session op =>
      if s.up then some { s with slots := op.apply s.slots, startedBy := none } else none

/-- A device before a boot, with no handover under way: a new image, if there
is one, waits in the boot slot. -/
structure State.Fresh (s : State D) : Prop where
  down : s.up = false
  notRequested : s.marker ≠ handoverRequested
  noHandover : s.handovers = 0
  notStarted : s.startedBy = none
  notInterrupted : s.interrupted = false
  newWaits : ∀ i, (s.slots.flash.slots i).state = .new → i = s.slots.flash.boot

/-- The device as a system. -/
def device (D : Type*) [Inhabited D] : TransitionSystem (State D) (Step D) :=
  ofOption State.Fresh State.next

/-! ## What a boot does -/

/-- The steps of the device, one by one. -/
inductive Moves (s : State D) : Step D → State D → Prop where
  | cutBeforeMarker {reason : ResetReason} {garbage : UInt32} {recentCrashes : List Bool} :
      Moves s (.boot reason garbage recentCrashes (some .beforeMarker))
        ⟨⟨s.slots.flash.bootloader.2, false⟩, s.markerAt reason garbage, false,
          if decide (reason = .powerOn) then 0 else s.handovers, none, false⟩
  | cutAfterMarker {reason : ResetReason} {garbage : UInt32} {recentCrashes : List Bool} :
      Moves s (.boot reason garbage recentCrashes (some .afterMarker))
        ⟨⟨s.slots.flash.bootloader.2, false⟩,
          (takeHandoverMarker (s.markerAt reason garbage) (decide (reason = .powerOn))).2, false,
          if decide (reason = .powerOn) then 0 else s.handovers, none, false⟩
  | cutAfterSwitch {reason : ResetReason} {garbage : UInt32} {recentCrashes : List Bool} :
      HandsOver s.slots.flash.bootloader.2 (s.markerAt reason garbage)
        (decide (reason = .powerOn)) recentCrashes →
      Moves s (.boot reason garbage recentCrashes (some .afterSwitch))
        ⟨⟨(s.slots.flash.bootloader.2.setBoot
            (Flash.otherOf s.slots.flash.bootloader.2.running)).2, false⟩,
          (takeHandoverMarker (s.markerAt reason garbage) (decide (reason = .powerOn))).2, false,
          (if decide (reason = .powerOn) then 0 else s.handovers) + 1,
          some (Flash.otherOf s.slots.flash.bootloader.2.running,
            s.slots.flash.bootloader.2.otherSlot.desc), true⟩
  | handedOver {reason : ResetReason} {garbage : UInt32} {recentCrashes : List Bool} :
      HandsOver s.slots.flash.bootloader.2 (s.markerAt reason garbage)
        (decide (reason = .powerOn)) recentCrashes →
      Moves s (.boot reason garbage recentCrashes none)
        ⟨⟨(s.slots.flash.bootloader.2.setBoot
            (Flash.otherOf s.slots.flash.bootloader.2.running)).2, false⟩,
          handoverRequested, false, (if decide (reason = .powerOn) then 0 else s.handovers) + 1,
          some (Flash.otherOf s.slots.flash.bootloader.2.running,
            s.slots.flash.bootloader.2.otherSlot.desc), false⟩
  | wentUp {reason : ResetReason} {garbage : UInt32} {recentCrashes : List Bool} :
      Moves s (.boot reason garbage recentCrashes none)
        ⟨⟨acceptAfterHandover s.slots.flash.bootloader.2
            (takeHandoverMarker (s.markerAt reason garbage)
              (decide (reason = .powerOn))).1.bootedByHandover, false⟩,
          (takeHandoverMarker (s.markerAt reason garbage) (decide (reason = .powerOn))).2, true,
          if decide (reason = .powerOn) then 0 else s.handovers, none, false⟩
  | session {op : SlotOp D} : s.up = true →
      Moves s (.session op) { s with slots := op.apply s.slots, startedBy := none }

theorem moves_of_next {s t : State D} {step : Step D} (h : s.next step = some t) :
    Moves s step t := by
  cases step with
  | boot reason garbage recentCrashes cut =>
      rcases cut with _ | _ | _ | _
      · simp only [State.next] at h
        rcases bootChecks_cases s.slots.flash.bootloader.2 (s.markerAt reason garbage)
          (decide (reason = .powerOn)) recentCrashes with ⟨hover, hchecks⟩ | ⟨-, hchecks⟩
        · rw [hchecks] at h
          obtain rfl := Option.some.inj h
          exact .handedOver hover
        · rw [hchecks] at h
          obtain rfl := Option.some.inj h
          exact .wentUp
      · obtain rfl := Option.some.inj h
        exact .cutBeforeMarker
      · obtain rfl := Option.some.inj h
        exact .cutAfterMarker
      · simp only [State.next] at h
        split at h
        · cases h
        next hhanded =>
        rcases revertIfCrashLooping_cases s.slots.flash.bootloader.2 recentCrashes with
          ⟨-, hrun⟩ | ⟨hswitch, hrun⟩
        · rw [hrun] at h
          cases h
        · rw [hrun] at h
          obtain rfl := Option.some.inj h
          exact .cutAfterSwitch ⟨by simpa using hhanded, hswitch⟩
  | session op =>
      simp only [State.next] at h
      by_cases hup : s.up = true
      · rw [if_pos hup] at h
        obtain rfl := Option.some.inj h
        exact .session hup
      · rw [if_neg hup] at h
        exact nomatch h

/-! ## The marker -/

/-- A boot that takes the marker leaves no request in it. -/
theorem takeHandoverMarker_ne (marker : UInt32) (powerOn : Bool) :
    (takeHandoverMarker marker powerOn).2 ≠ handoverRequested := by
  unfold takeHandoverMarker
  dsimp only
  split <;> decide

/-- A boot believes in a handover only for a request that is no power-on's. -/
theorem bootedByHandover_iff {marker : UInt32} {powerOn : Bool} :
    (takeHandoverMarker marker powerOn).1.bootedByHandover = true ↔
      powerOn = false ∧ marker = handoverRequested := by
  simp [takeHandoverMarker]

/-- A handover is remembered until the power goes. -/
theorem handedOver_of_marker {marker : UInt32}
    (h : marker = handoverRequested ∨ marker = handoverDone) :
    (takeHandoverMarker marker false).1.handedOverSincePowerOn = true ∧
      (takeHandoverMarker marker false).2 = handoverDone := by
  rcases h with rfl | rfl <;> decide

/-! ## The invariant -/

/-- What a request in the marker says of the slots: the handover's image waits
in the boot slot, or there is no new image at all. -/
def Requested (s : State D) : Prop :=
  (∃ i, s.startedBy = some (i, (s.slots.flash.slots i).desc) ∧ i = s.slots.flash.boot ∧
      ∀ j, (s.slots.flash.slots j).state = .new → j = i) ∨
    Flash.NoneNew s.slots.flash

/-- The invariant of the device. -/
structure Inv (s : State D) : Prop where
  newWaits : ∀ i, (s.slots.flash.slots i).state = .new → i = s.slots.flash.boot
  up : s.up = true → s.marker ≠ handoverRequested ∧
    ∀ i, (s.slots.flash.slots i).state = .new → i ≠ s.slots.flash.running
  requested : s.marker = handoverRequested → Requested s

omit [Inhabited D] in
theorem inv_of_fresh {s : State D} (h : s.Fresh) : Inv s where
  newWaits := h.newWaits
  up hup := by simp [h.down] at hup
  requested hmarker := absurd hmarker h.notRequested

omit [Inhabited D] in
theorem noneNew_accept {flash : Flash D} (h : Flash.NoneNew flash) (booted : Bool) :
    Flash.NoneNew (acceptAfterHandover flash booted) := by
  rcases acceptAfterHandover_cases flash booted with hsame | ⟨-, -, hvalid⟩
  · rwa [hsame]
  · rw [hvalid]
    intro i hi
    rcases Flash.eq_or_eq_otherOf i flash.running with rfl | rfl
    · simp [Flash.markValid] at hi
    · exact h _ (by simpa [Flash.markValid] using hi)

omit [Inhabited D] in
/-- A handover makes the other slot, which is complete, the boot slot, and its
image the only new one. -/
theorem handover_slots {flash : Flash D} {marker : UInt32} {powerOn : Bool}
    {recentCrashes : List Bool} (h : HandsOver flash marker powerOn recentCrashes)
    (hnone : Flash.NoneNew flash) :
    (flash.setBoot (Flash.otherOf flash.running)).2.boot = Flash.otherOf flash.running ∧
      ((flash.setBoot (Flash.otherOf flash.running)).2.slots
        (Flash.otherOf flash.running)).desc = flash.otherSlot.desc ∧
      ∀ j, ((flash.setBoot (Flash.otherOf flash.running)).2.slots j).state = .new →
        j = Flash.otherOf flash.running := by
  rcases flash.setBoot_cases (Flash.otherOf flash.running) with ⟨hcut, -⟩ | ⟨-, hset⟩
  · have hcomplete := h.2.complete
    rw [Flash.otherSlot, hcut] at hcomplete
    cases hcomplete
  · rw [hset]
    refine ⟨rfl, by simp [Flash.otherSlot], fun j hj => ?_⟩
    by_contra hne
    exact hnone j (by simpa [hne] using hj)

theorem inv_of_moves {s t : State D} {step : Step D} (h : Inv s) (hmove : Moves s step t) :
    Inv t := by
  have hnone : Flash.NoneNew s.slots.flash.bootloader.2 := Flash.noneNew_bootloader h.newWaits
  cases hmove with
  -- the power fails before the marker is taken: it is still there
  | cutBeforeMarker =>
      exact
        { newWaits := fun i hi => absurd hi (hnone i)
          up := fun hup => by simp at hup
          requested := fun _ => .inr hnone }
  | cutAfterMarker =>
      exact
        { newWaits := fun i hi => absurd hi (hnone i)
          up := fun hup => by simp at hup
          requested := fun hmarker => absurd hmarker (takeHandoverMarker_ne _ _) }
  -- the image waits in the other slot, but no marker asks for it
  | cutAfterSwitch hover =>
      obtain ⟨hboot, -, hnew⟩ := handover_slots hover hnone
      exact
        { newWaits := fun i hi => (hnew i hi).trans hboot.symm
          up := fun hup => by simp at hup
          requested := fun hmarker => absurd hmarker (takeHandoverMarker_ne _ _) }
  -- the marker asked for the other slot, which is new there
  | handedOver hover =>
      obtain ⟨hboot, hdesc, hnew⟩ := handover_slots hover hnone
      exact
        { newWaits := fun i hi => (hnew i hi).trans hboot.symm
          up := fun hup => by simp at hup
          requested := fun _ => .inl ⟨_, by rw [hdesc], hboot.symm, hnew⟩ }
  -- the image went up: what is new was accepted
  | @wentUp reason garbage recentCrashes =>
      have hnone' := noneNew_accept hnone (takeHandoverMarker (s.markerAt reason garbage)
        (decide (reason = .powerOn))).1.bootedByHandover
      exact
        { newWaits := fun i hi => absurd hi (hnone' i)
          up := fun _ => ⟨takeHandoverMarker_ne _ _, fun i hi => absurd hi (hnone' i)⟩
          requested := fun hmarker => absurd hmarker (takeHandoverMarker_ne _ _) }
  | @session op hup =>
      have hnew := (SlotOp.apply_effect s.slots op).new
        fun i hi => ⟨h.newWaits i hi, (h.up hup).2 i hi⟩
      exact
        { newWaits := fun i hi => (hnew i hi).1
          up := fun _ => ⟨(h.up hup).1, fun i hi => (hnew i hi).2⟩
          requested := fun hmarker => absurd hmarker (h.up hup).1 }

theorem inv_of_reachable {s : State D} (hs : (device D).Reachable s) : Inv s :=
  hs.invariant (I := Inv) (fun _ => inv_of_fresh)
    fun _ _ _ h hnext => inv_of_moves h (moves_of_next hnext)

/-! ## The count -/

/-- A boot that follows one cut after its switch follows a loss of power. -/
def PowerLost (s : State D) : Step D → Prop
  | .boot reason _ _ _ => s.interrupted = true → reason = .powerOn
  | .session _ => True

omit [Inhabited D] in
instance (s : State D) : (step : Step D) → Decidable (PowerLost s step)
  | .boot _ _ _ _ => inferInstanceAs (Decidable (_ → _))
  | .session _ => inferInstanceAs (Decidable True)

/-- The runs in which only a loss of power falls between the switch of the boot
slot and the write of the marker. -/
def guardedDevice (D : Type*) [Inhabited D] : TransitionSystem (State D) (Step D) :=
  (device D).restrict PowerLost

/-- The marker tells of the handover that was counted. -/
structure Counted (s : State D) : Prop where
  once : s.handovers ≤ 1
  remembered : s.handovers = 1 → s.interrupted = false →
    s.marker = handoverRequested ∨ s.marker = handoverDone

omit [Inhabited D] in
theorem counted_of_fresh {s : State D} (h : s.Fresh) : Counted s where
  once := by simp [h.noHandover]
  remembered hone := by simp [h.noHandover] at hone

omit [Inhabited D] in
/-- The count and the marker a boot starts with agree. -/
theorem Counted.remembers {s : State D} (h : Counted s) {reason : ResetReason} (garbage : UInt32)
    (hpower : s.interrupted = true → reason = .powerOn)
    (hone : (if decide (reason = .powerOn) then 0 else s.handovers) = 1) :
    decide (reason = .powerOn) = false ∧
      (s.markerAt reason garbage = handoverRequested ∨
        s.markerAt reason garbage = handoverDone) := by
  by_cases hreason : reason = .powerOn
  · simp [hreason] at hone
  · have hwrote : s.interrupted = false := by simpa using mt hpower hreason
    simp only [hreason, decide_false, Bool.false_eq_true, ite_false] at hone
    simp only [State.markerAt, hreason, decide_false, ite_false, true_and]
    exact h.remembered hone hwrote

omit [Inhabited D] in
theorem Counted.le_one {s : State D} (h : Counted s) (reason : ResetReason) :
    (if decide (reason = .powerOn) then 0 else s.handovers) ≤ 1 := by
  split
  · exact Nat.zero_le 1
  · exact h.once

omit [Inhabited D] in
/-- The marker a boot has taken still tells of the handover. -/
theorem Counted.taken {s : State D} (h : Counted s) {reason : ResetReason} (garbage : UInt32)
    (hpower : s.interrupted = true → reason = .powerOn)
    (hone : (if decide (reason = .powerOn) then 0 else s.handovers) = 1) :
    (takeHandoverMarker (s.markerAt reason garbage) (decide (reason = .powerOn))).2 =
      handoverDone := by
  obtain ⟨hreason, hmarker⟩ := h.remembers garbage hpower hone
  rw [hreason]
  exact (handedOver_of_marker hmarker).2

omit [Inhabited D] in
/-- A second handover would need a marker that has forgotten the first. -/
theorem Counted.handsOver {s : State D} (h : Counted s) {reason : ResetReason} {garbage : UInt32}
    {recentCrashes : List Bool} (hpower : s.interrupted = true → reason = .powerOn)
    (hover : HandsOver s.slots.flash.bootloader.2 (s.markerAt reason garbage)
      (decide (reason = .powerOn)) recentCrashes) :
    (if decide (reason = .powerOn) then 0 else s.handovers) + 1 ≤ 1 := by
  by_contra hmany
  have hone : (if decide (reason = .powerOn) then 0 else s.handovers) = 1 := by
    have := h.le_one reason
    omega
  obtain ⟨hreason, hmarker⟩ := h.remembers garbage hpower hone
  have hfirst := hover.1
  rw [hreason, (handedOver_of_marker hmarker).1] at hfirst
  cases hfirst

theorem counted_of_moves {s t : State D} {step : Step D} (h : Counted s) (hmove : Moves s step t)
    (hpower : PowerLost s step) : Counted t := by
  cases hmove with
  | @cutBeforeMarker reason garbage recentCrashes =>
      exact ⟨h.le_one reason, fun hone _ => (h.remembers garbage hpower hone).2⟩
  -- the marker is gone, and the reset reason says whether it was one
  | @cutAfterMarker reason garbage recentCrashes =>
      exact ⟨h.le_one reason, fun hone _ => .inr (h.taken garbage hpower hone)⟩
  -- the marker knows nothing, and the power is lost before it is asked
  | cutAfterSwitch hover => exact ⟨h.handsOver hpower hover, fun _ hwrote => by cases hwrote⟩
  | handedOver hover => exact ⟨h.handsOver hpower hover, fun _ _ => .inl rfl⟩
  | @wentUp reason garbage recentCrashes =>
      exact ⟨h.le_one reason, fun hone _ => .inr (h.taken garbage hpower hone)⟩
  | session hup => exact ⟨h.once, h.remembered⟩

theorem counted_of_reachable {s : State D} (hs : (guardedDevice D).Reachable s) : Counted s := by
  refine hs.invariant (I := Counted) (fun _ => counted_of_fresh) ?_
  rintro s step t h ⟨hnext, hpower⟩
  exact counted_of_moves h (moves_of_next hnext) hpower

/-! ## The property -/

/-- A step confirms a pending image: one that was pending before it, or one its
bootloader had just started. -/
def Confirms (s : State D) (step : Step D) (t : State D) (i : Fin 2) : Prop :=
  (t.slots.flash.slots i).state = .valid ∧
    ((s.slots.flash.slots i).state = .pendingVerify ∨
      (∃ reason garbage recentCrashes cut, step = .boot reason garbage recentCrashes cut) ∧
        (s.slots.flash.bootloader.2.slots i).state = .pendingVerify)

omit [Inhabited D] in
/-- The bootloader confirms nothing. -/
theorem Confirms.not_valid {s t : State D} {step : Step D} {i : Fin 2}
    (h : Confirms s step t i) : (s.slots.flash.bootloader.2.slots i).state ≠ .valid := by
  intro hvalid
  rcases h.2 with hpending | ⟨-, hpending⟩
  · have hrejected := Flash.bootloader_rejected.mpr (.inl hpending)
    simp [hvalid, ImgState.rejected] at hrejected
  · simp [hvalid] at hpending

omit [Inhabited D] in
/-- The acceptance after a handover is of the image the handover switched to. -/
theorem Inv.accepts {s : State D} (h : Inv s) {reason : ResetReason} {garbage : UInt32}
    (hbooted : (takeHandoverMarker (s.markerAt reason garbage)
      (decide (reason = .powerOn))).1.bootedByHandover = true)
    (hpending : s.slots.flash.bootloader.2.pendingVerify = true) :
    reason ≠ .powerOn ∧
      s.startedBy = some (s.slots.flash.bootloader.2.running,
        s.slots.flash.bootloader.2.runningSlot.desc) := by
  obtain ⟨hreason, hmarker⟩ := bootedByHandover_iff.mp hbooted
  rw [decide_eq_false_iff_not] at hreason
  rw [State.markerAt, if_neg hreason] at hmarker
  refine ⟨hreason, ?_⟩
  have hwas := (Flash.bootloader_pending.mp (of_decide_eq_true hpending)).2
  rcases h.requested hmarker with ⟨i, hstarted, -, honly⟩ | hnone
  · obtain rfl := honly _ hwas
    have hdesc : s.slots.flash.bootloader.2.runningSlot.desc =
        (s.slots.flash.slots s.slots.flash.bootloader.2.running).desc := by
      unfold Flash.runningSlot
      rw [Flash.bootloader_slots]
      unfold Slot.startPending Slot.abortPending
      split_ifs <;> rfl
    rw [hstarted, hdesc]
  · exact absurd hwas (hnone _)

omit [Inhabited D] in
/-- The switch of the boot slot makes no image valid. -/
theorem Confirms.not_switched {s t : State D} {step : Step D} {i : Fin 2}
    (h : Confirms s step t i) : t.slots.flash ≠ (s.slots.flash.bootloader.2.setBoot
      (Flash.otherOf s.slots.flash.bootloader.2.running)).2 := by
  intro hswitched
  have hvalid := h.1
  rw [hswitched] at hvalid
  rcases Flash.setBoot_cases s.slots.flash.bootloader.2
    (Flash.otherOf s.slots.flash.bootloader.2.running) with ⟨-, -, hsame⟩ | ⟨-, hset⟩
  · rw [hsame] at hvalid
    exact h.not_valid hvalid
  · rw [hset] at hvalid
    rcases Flash.eq_or_eq_otherOf i s.slots.flash.bootloader.2.running with rfl | rfl
    · exact h.not_valid (by simpa using hvalid)
    · simp at hvalid

/-- An image goes from pending to valid through MARK_VALID, or in the very boot
that a handover started, when it is the image the handover switched to. -/
theorem Inv.confirms {s t : State D} {step : Step D} {i : Fin 2} (hinv : Inv s)
    (hmove : Moves s step t) (hconfirms : Confirms s step t i) :
    step = .session .markValid ∨
      (∃ reason garbage recentCrashes, reason ≠ .powerOn ∧
          step = .boot reason garbage recentCrashes none) ∧
        s.startedBy = some (i, (t.slots.flash.slots i).desc) := by
  have hnot := hconfirms.not_valid
  cases hmove with
  | cutBeforeMarker => exact absurd hconfirms.1 hnot
  | cutAfterMarker => exact absurd hconfirms.1 hnot
  | cutAfterSwitch hover => exact absurd rfl hconfirms.not_switched
  | handedOver hover => exact absurd rfl hconfirms.not_switched
  | @wentUp reason garbage recentCrashes =>
      have hvalid := hconfirms.1
      right
      rcases acceptAfterHandover_cases s.slots.flash.bootloader.2
        (takeHandoverMarker (s.markerAt reason garbage)
          (decide (reason = .powerOn))).1.bootedByHandover with hsame | ⟨hbooted, hpending, haccept⟩
      · simp only [hsame] at hvalid
        exact absurd hvalid hnot
      · simp only [haccept] at hvalid ⊢
        -- an image that is accepted is the one that was handed over to
        obtain ⟨hreason, hstarted⟩ := hinv.accepts hbooted hpending
        rcases Flash.eq_or_eq_otherOf i s.slots.flash.bootloader.2.running with rfl | rfl
        · refine ⟨⟨reason, garbage, recentCrashes, hreason, rfl⟩, ?_⟩
          simpa [Flash.markValid] using hstarted
        · exact absurd (by simpa [Flash.markValid] using hvalid) hnot
  | @session op hup =>
      left
      rcases hconfirms.2 with hpending | ⟨⟨_, _, _, _, hboot⟩, -⟩
      · have hop := (SlotOp.apply_effect s.slots op).valid (by simp [hpending]) hconfirms.1
        rw [hop]
      · cases hboot

/-- **At most one handover a power-on, and only it confirms an image by
itself**, in every run in which only a loss of power falls between a handover's
switch and its marker. -/
theorem handover_once {s : State D} (hs : (guardedDevice D).Reachable s) :
    s.handovers ≤ 1 ∧
      ∀ step t, s.next step = some t → ∀ i, Confirms s step t i →
        step = .session .markValid ∨
          (∃ reason garbage recentCrashes, reason ≠ .powerOn ∧
              step = .boot reason garbage recentCrashes none) ∧
            s.startedBy = some (i, (t.slots.flash.slots i).desc) :=
  ⟨(counted_of_reachable hs).once, fun _ _ hnext _ hconfirms =>
    (inv_of_reachable hs.of_restrict).confirms (moves_of_next hnext) hconfirms⟩

/-! ## Handovers on a formatted board -/

attribute [local instance] Flash.neZero_two in
/-- A board with a second image to fall back on. -/
def twoImages : State ℕ where
  slots :=
    { flash := { Flash.format 1 with
        slots := fun i => ⟨true, false, false, if i = 0 then 1 else 2, .valid, .ok⟩ }
      uploading := false }
  marker := 0
  up := false
  handovers := 0
  startedBy := none
  interrupted := false

theorem fresh_twoImages : twoImages.Fresh :=
  ⟨rfl, by decide, rfl, rfl, rfl, by decide⟩

/-- The first image crashes for good, and so does the second. -/
def bothCrashLoop : List (Step ℕ) :=
  [.boot .powerOn 7 [] none, .boot .panic 0 [true, true, true] none]

/-- The handover of the first image leaves the second to be confirmed by the
boot it starts, and only by it. -/
theorem handover_once_twoImages :
    ∃ s, runOption State.next twoImages bothCrashLoop = some s ∧ s.handovers = 1 ∧
      ∀ step t, s.next step = some t → ∀ i, Confirms s step t i →
        step = .session .markValid ∨
          (∃ reason garbage recentCrashes, reason ≠ .powerOn ∧
              step = .boot reason garbage recentCrashes none) ∧
            s.startedBy = some (i, (t.slots.flash.slots i).desc) := by
  obtain ⟨s, hs⟩ : ∃ s, runOption (fun s step => if PowerLost s step then State.next s step
    else none) twoImages bothCrashLoop = some s := ⟨_, rfl⟩
  obtain ⟨steps, hpath, hpower⟩ := path_of_runOption_guarded State.Fresh hs
  have hreachable : (guardedDevice ℕ).Reachable s :=
    (hpath.restrict hpower).reachable (.init fresh_twoImages)
  refine ⟨s, hs, ?_, (handover_once hreachable).2⟩
  obtain rfl := Option.some.inj hs
  rfl

/-- The first image hands over and is cut before it writes the marker; the
second is confirmed over the console, crashes for good too, and hands over. -/
def cutHandover : List (Step ℕ) :=
  [.boot .powerOn 7 [] none, .boot .panic 0 [true, true, true] (some .afterSwitch),
    .boot .brownout 0 [] none, .session .markValid, .boot .panic 0 [true, true, true] none]

/-- Two handovers in one power-on. -/
theorem not_handover_once :
    ¬ ∀ s : State ℕ, (device ℕ).Reachable s → s.handovers ≤ 1 := by
  intro h
  have hrun : (runOption State.next twoImages cutHandover).any
      (fun s => decide (s.handovers = 2)) = true := by decide +kernel
  obtain ⟨s, steps, hpath, htwo⟩ := path_of_runOption_any State.Fresh hrun
  have hle := h s (hpath.reachable (.init fresh_twoImages))
  have heq := of_decide_eq_true htwo
  omega

end Handover

end OmegaStick
