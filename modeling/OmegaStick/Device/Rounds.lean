import OmegaStick.Device.EspPorts
import OmegaStick.Firmware.HealthCheck

/-!
# The rounds of the polling loop

A round is what one iteration did: the action of its health check, and the
reports of its tick.  `RoundKept` is what the rollback backstop promises of one
round, given the rounds before it, and `Watch` what the members of the health
check know of the rounds so far.
-/

namespace OmegaStick

open FirmwareHealthCheck

variable {F : Type*}

/-! ## One round -/

/-- What one iteration did: its health check, and the tick after it. -/
structure Round (F : Type*) where
  now : Time
  /-- Whether the running image was pending, and whether it had been confirmed before. -/
  pending : Bool
  confirmed : Bool
  /-- Whether `tick()` asked. -/
  checked : Bool
  action : Action
  /-- Whether `run_health_check` returned, and what it did to the counter. -/
  returned : Bool
  change : ℤ
  /-- What the tick sent; `none` until it ran. -/
  reports : Option (List (HidReport F))

namespace Round

/-- `rollback_now()` marked the image invalid. -/
def marked (r : Round F) : Bool := decide (r.action = .rollBack) && r.pending

/-- Nothing but neutral reports, and at least one. -/
def SentNeutral [MachineFloat F] (r : Round F) : Prop :=
  ∃ reports, r.reports = some reports ∧ reports ≠ [] ∧ ∀ report ∈ reports, report.Neutral

end Round

/-- From HOLD_OUTPUT to ROLL_BACK; the newest round comes first. -/
def held (rounds : List (Round F)) : Bool :=
  rounds.any (fun r => decide (r.action = .holdOutput)) &&
    !rounds.any (fun r => decide (r.action = .rollBack))

theorem held_cons_none {r : Round F} {earlier : List (Round F)} (h : r.action = .none) :
    held (r :: earlier) = held earlier := by
  simp [held, h]

theorem held_cons_holdOutput {r : Round F} {earlier : List (Round F)}
    (h : r.action = .holdOutput) (hearlier : ∀ q ∈ earlier, q.action = .none) :
    held (r :: earlier) = true := by
  simp only [held, List.any_cons, h, decide_true, Bool.true_or, Bool.true_and, reduceCtorEq,
    decide_false, Bool.false_or, Bool.not_eq_true', List.any_eq_false, decide_eq_true_eq]
  intro q hq hback
  rw [hearlier q hq] at hback
  exact nomatch hback

theorem held_cons_rollBack {r : Round F} {earlier : List (Round F)} (h : r.action = .rollBack) :
    held (r :: earlier) = false := by
  simp [held, h]

/-- What the backstop promises of one round, given the rounds before it: the
health check was started at `start`, on an image that was pending or not. -/
structure RoundKept [MachineFloat F] (start : Time) (pendingAtStart : Bool) (r : Round F)
    (earlier : List (Round F)) : Prop where
  holdsOnce : r.action = .holdOutput → ∀ q ∈ earlier, q.action = .none
  holdsLate : r.action = .holdOutput →
    r.checked = true ∧ r.pending = true ∧ start + rollbackDeadline ≤ r.now
  /-- A check past the deadline that finds the image pending raises the hold. -/
  late_holds : r.checked = true → r.pending = true → start + rollbackDeadline ≤ r.now →
    r.action = .holdOutput
  /-- Such a check is at most an interval away. -/
  late_checked : r.pending = true → start + rollbackDeadline + checkInterval ≤ r.now →
    ∃ q ∈ r :: earlier, q.action = .holdOutput
  rollsBackOnce : r.action = .rollBack → ∀ q ∈ earlier, q.action ≠ .rollBack
  rollsBackLate : r.action = .rollBack →
    ∃ q ∈ earlier, q.action = .holdOutput ∧ q.now + rollbackHold ≤ r.now ∧ q.SentNeutral
  neutral : held (r :: earlier) = true → r.reports.isSome → r.SentNeutral
  completed : ∀ q ∈ earlier, q.reports.isSome
  /-- A confirmed image is never marked invalid. -/
  unmarked : r.confirmed = true → r.marked = false
  returned : r.marked = false → r.returned = true
  change : r.change = match r.action with
    | .holdOutput => 1
    | .rollBack => if r.returned then -1 else 0
    | .none => 0
  neverPending : pendingAtStart = false → r.action = .none

/-- Every round kept the promise. -/
def Kept [MachineFloat F] (start : Time) (pendingAtStart : Bool) (rounds : List (Round F)) : Prop :=
  ∀ r earlier, r :: earlier <:+ rounds → RoundKept start pendingAtStart r earlier

section Kept

variable [MachineFloat F] {start : Time} {pendingAtStart : Bool} {rounds earlier : List (Round F)}
  {r q : Round F}

theorem kept_nil : Kept start pendingAtStart ([] : List (Round F)) := by
  intro r earlier h
  simp at h

theorem Kept.cons (h : RoundKept start pendingAtStart r earlier)
    (hearlier : Kept start pendingAtStart earlier) : Kept start pendingAtStart (r :: earlier) := by
  intro q before hq
  rcases List.suffix_cons_iff.mp hq with heq | hsuffix
  · obtain ⟨rfl, rfl⟩ := List.cons.inj heq
    exact h
  · exact hearlier q before hsuffix

theorem Kept.head (h : Kept start pendingAtStart (r :: earlier)) :
    RoundKept start pendingAtStart r earlier :=
  h r earlier (List.suffix_refl _)

theorem Kept.tail (h : Kept start pendingAtStart (r :: earlier)) :
    Kept start pendingAtStart earlier :=
  fun q before hq => h q before (hq.trans (List.suffix_cons r earlier))

theorem Kept.of_mem (h : Kept start pendingAtStart rounds) (hq : q ∈ rounds) :
    ∃ before, RoundKept start pendingAtStart q before := by
  obtain ⟨later, before, rfl⟩ := List.append_of_mem hq
  exact ⟨before, h q before (List.suffix_append later (q :: before))⟩

/-- The round that raised the hold sent a neutral report, once it is over. -/
theorem Kept.holdOutput_sentNeutral (h : Kept start pendingAtStart rounds) (hq : q ∈ rounds)
    (haction : q.action = .holdOutput) (hover : q.reports.isSome) : q.SentNeutral := by
  obtain ⟨before, hkept⟩ := h.of_mem hq
  exact hkept.neutral (held_cons_holdOutput haction (hkept.holdsOnce haction)) hover

/-- A round keeps the promise whatever its tick sends, if that is neutral while held. -/
theorem RoundKept.report (h : RoundKept start pendingAtStart r earlier)
    {reports : List (HidReport F)}
    (hneutral : held (r :: earlier) = true →
      reports ≠ [] ∧ ∀ report ∈ reports, report.Neutral) :
    RoundKept start pendingAtStart { r with reports := some reports } earlier where
  holdsOnce := h.holdsOnce
  holdsLate := h.holdsLate
  late_holds := h.late_holds
  late_checked := by
    simpa only [List.exists_mem_cons_iff] using h.late_checked
  rollsBackOnce := h.rollsBackOnce
  rollsBackLate := h.rollsBackLate
  neutral := fun hheld _ => ⟨reports, rfl, hneutral hheld⟩
  completed := h.completed
  unmarked := h.unmarked
  returned := h.returned
  change := h.change
  neverPending := h.neverPending

end Kept

/-! ## What the health check knows -/

/-- What the rounds say of the health check's members. -/
structure Watch (start : Time) (pendingAtStart confirmed : Bool) (health : FirmwareHealthCheck)
    (rounds : List (Round F)) : Prop where
  startedAt : health.start = start
  waiting : health.pending = true → health.holding = false ∧ pendingAtStart = true ∧
    (∀ q ∈ rounds, q.action = .none) ∧ health.lastCheck - start < rollbackDeadline
  watched : health.pending = false → confirmed = false → ∃ q ∈ rounds, q.action = .holdOutput
  holding : health.holding = held rounds
  raised : health.holding = true →
    ∃ q ∈ rounds, q.action = .holdOutput ∧ q.now = health.holdStart

section Watch

variable {start now : Time} {pendingAtStart confirmed confirmed' isPendingVerify : Bool}
  {health health' : FirmwareHealthCheck} {rounds earlier : List (Round F)} {r : Round F}

theorem Watch.new (start : Time) (pendingAtStart : Bool) :
    Watch start pendingAtStart (!pendingAtStart) (.new pendingAtStart start)
      ([] : List (Round F)) where
  startedAt := rfl
  waiting hpending := ⟨rfl, hpending, by simp, by
    simp only [FirmwareHealthCheck.new, sub_self]
    decide⟩
  watched hpending hconfirmed := by
    replace hpending : pendingAtStart = false := hpending
    simp [hpending] at hconfirmed
  holding := rfl
  raised hholding := nomatch hholding

/-- Confirmations only add up. -/
theorem Watch.mono (h : Watch start pendingAtStart confirmed health rounds)
    (hmono : confirmed = true → confirmed' = true) :
    Watch start pendingAtStart confirmed' health rounds where
  startedAt := h.startedAt
  waiting := h.waiting
  watched hpending hnot := by
    refine h.watched hpending ?_
    cases hconfirmed : confirmed with
    | false => rfl
    | true => exact absurd (hmono hconfirmed) (by simp [hnot])
  holding := h.holding
  raised := h.raised

/-- What a tick sends is nothing to the health check. -/
theorem Watch.report (h : Watch start pendingAtStart confirmed health (r :: earlier))
    (reports : List (HidReport F)) :
    Watch start pendingAtStart confirmed health
      ({ r with reports := some reports } :: earlier) where
  startedAt := h.startedAt
  waiting := by simpa only [List.forall_mem_cons] using h.waiting
  watched := by simpa only [List.exists_mem_cons_iff] using h.watched
  holding := h.holding
  raised := by simpa only [List.exists_mem_cons_iff] using h.raised

/-- One call of `tick()`, an image found confirmed being one that was seen confirmed. -/
theorem Watch.ticked (h : Watch start pendingAtStart confirmed health rounds)
    (hticked : Ticked health isPendingVerify now (r.action, health')) (hnow : r.now = now)
    (hconfirmed : isPendingVerify = false → confirmed = true) :
    Watch start pendingAtStart confirmed health' (r :: rounds) := by
  generalize haction : r.action = action at hticked
  cases hticked with
  | keepsHolding hholding =>
      refine ⟨h.startedAt, fun hpending => ?_, fun hpending hnot => ?_, ?_, fun _ => ?_⟩
      · exact absurd (h.waiting hpending).1 (by simp [hholding])
      · exact List.exists_mem_cons_of_exists (h.watched hpending hnot)
      · rw [held_cons_none haction, h.holding]
      · exact List.exists_mem_cons_of_exists (h.raised hholding)
  | rollsBack hholding =>
      refine ⟨h.startedAt, fun hpending => ?_, fun hpending hnot => ?_, ?_,
        fun hfalse => nomatch hfalse⟩
      · exact absurd (h.waiting hpending).1 (by simp [hholding])
      · exact List.exists_mem_cons_of_exists (h.watched hpending hnot)
      · rw [held_cons_rollBack haction]
  | idle hholding =>
      refine ⟨h.startedAt, fun hpending => ?_, fun hpending hnot => ?_, ?_, fun hheld => ?_⟩
      · obtain ⟨hnotHeld, hstarted, hnone, hlast⟩ := h.waiting hpending
        exact ⟨hnotHeld, hstarted, List.forall_mem_cons.mpr ⟨haction, hnone⟩, hlast⟩
      · exact List.exists_mem_cons_of_exists (h.watched hpending hnot)
      · rw [held_cons_none haction, h.holding]
      · exact absurd hheld (by simp [hholding])
  | confirmed hholding hpending hchecks hfound =>
      refine ⟨h.startedAt, fun hfalse => (nomatch hfalse), fun _ hnot => ?_, ?_, fun hheld => ?_⟩
      -- a check that finds the image confirmed ends the watch
      · exact absurd (hconfirmed hfound) (by simp [hnot])
      · rw [held_cons_none haction]
        exact h.holding
      · exact absurd hheld (by simp [hholding])
  | waits hholding hpending hchecks hfound hearly =>
      refine ⟨h.startedAt, fun hpending => ?_, fun hfalse => ?_, ?_, fun hheld => ?_⟩
      · obtain ⟨hnotHeld, hstarted, hnone, -⟩ := h.waiting hpending
        rw [h.startedAt] at hearly
        exact ⟨hnotHeld, hstarted, List.forall_mem_cons.mpr ⟨haction, hnone⟩, hearly⟩
      · exact absurd hpending (by simp [show health.pending = false from hfalse])
      · rw [held_cons_none haction]
        exact h.holding
      · exact absurd hheld (by simp [hholding])
  | raises hholding hpending =>
      refine ⟨h.startedAt, fun hfalse => (nomatch hfalse), fun _ _ => ?_, ?_, fun _ => ?_⟩
      -- this round raises the hold
      · exact List.exists_mem_cons_of _ haction
      · rw [held_cons_holdOutput haction (h.waiting hpending).2.2.1]
      · exact List.exists_mem_cons_of _ ⟨haction, hnow⟩

end Watch

end OmegaStick
