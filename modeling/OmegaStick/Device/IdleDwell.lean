import OmegaStick.Library.Transition
import OmegaStick.Device.TickHistory

/-!
# The idle dwell

A drift correction is meant to wait until the stick has rested for the whole idle dwell.
The idle timer lives in the compensator, which only sees the ticks it is fed, so the
timer says nothing about a held, uncalibrated or faulted tick: `RestedSince` is all it
knows.  A correction comes after a full dwell exactly when the ticks the compensator did
not see rested too, and the dwell does not begin on a moment at which the stick was still
deflected or a sweep just ended.
-/

namespace OmegaStick

open MachineFloat History TransitionSystem

variable {F : Type*} [MachineFloat F]

/-! ## Runs of either loop -/

/-- A loop and its ticks since it started. -/
structure Ticking (F : Type*) where
  loop : LoopState F
  past : List (TickRecord F)

namespace Ticking

/-- The configuration of the compensator, which no tick changes. -/
def config (s : Ticking F) : DriftCompensator.Config F := s.loop.common.drift.config

variable [FloatMath F] {W : Type*} [Ports F W]

/-- One tick on any input through any ports; `none` if the clock ran backwards. -/
def next (s : Ticking F) (call : StepInput F × W) : Option (Ticking F) :=
  let past := s.loop.record call.1 call.2 :: s.past
  if TickRecord.Steady past then some ⟨(s.loop.through call.1 call.2).1, past⟩ else none

end Ticking

/-- Every run of `mouse_tick` or `xac_tick` under a clock that does not run backwards,
from a compensator that was just constructed. -/
def ticking (W : Type*) [FloatMath F] [Ports F W] :
    TransitionSystem (Ticking F) (StepInput F × W) :=
  .ofOption
    (fun s => s.loop.common.drift.idleSince = none ∧ s.loop.common.drift.lastNudge = none ∧
      s.past = [])
    Ticking.next

/-! ## What is promised, and what the timer knows -/

/-- Every tick in the dwell before `t` rested, and no recalibration ended in it. -/
structure FullDwell (config : DriftCompensator.Config F) (past : List (TickRecord F)) (t : Time) :
    Prop where
  rested : ∀ r ∈ past, t - milliseconds config.idleDwell ≤ r.now → r.now ≤ t →
    config.Idle r.magnitude
  noSweep : ∀ r ∈ past, ∀ ended, r.kind = .swept ended →
    ¬ (t - milliseconds config.idleDwell ≤ ended ∧ ended ≤ t)

/-- The dwell holds nothing that the idle timer misses: no deflection on a tick that was
not fed to the compensator, and none, nor the end of a sweep, on its very first moment. -/
structure NothingUnseen (config : DriftCompensator.Config F) (past : List (TickRecord F))
    (t : Time) : Prop where
  rested : ∀ r ∈ past, r.kind = .unseen → t - milliseconds config.idleDwell ≤ r.now →
    config.Idle r.magnitude
  restedAtStart : ∀ r ∈ past, r.now = t - milliseconds config.idleDwell → config.Idle r.magnitude
  noSweepAtStart : ∀ r ∈ past, ∀ ended, r.kind = .swept ended →
    ended ≠ t - milliseconds config.idleDwell

/-- The compensator has been fed nothing but resting ticks, and no sweep has come, since
the tick that started its timer. -/
def RestedSince (config : DriftCompensator.Config F) (since : Time) :
    List (TickRecord F) → Prop :=
  Since (fun r => r.now = since ∧ ¬ r.Swept ∧ config.Idle r.magnitude)
    (fun r => ¬ r.Swept ∧ (r.kind = .unseen ∨ config.Idle r.magnitude))

variable {config : DriftCompensator.Config F} {since t : Time} {past : List (TickRecord F)}

/-- What was not fed to a running timer, not rested, or a sweep, was over when it started. -/
theorem RestedSince.cases (h : RestedSince config since past) (hsteady : TickRecord.Steady past)
    {r : TickRecord F} (hr : r ∈ past) :
    (¬ r.Swept ∧ (r.kind = .unseen ∨ config.Idle r.magnitude)) ∨ r.ended ≤ since := by
  induction h with
  | start hbegun =>
      obtain ⟨hstart, hnotSwept, hidle⟩ := hbegun
      rcases List.mem_cons.mp hr with rfl | hr
      · exact .inl ⟨hnotSwept, .inr hidle⟩
      · exact .inr (hstart ▸ hsteady.ends_le hr)
  | later hkept h ih =>
      rcases List.mem_cons.mp hr with rfl | hr
      · exact .inl hkept
      · exact ih hsteady.tail hr

theorem fullDwell_of_nothingUnseen (h : RestedSince config since past)
    (hsteady : TickRecord.Steady past)
    (hdwelt : milliseconds config.idleDwell ≤ t - since) (hnothing : NothingUnseen config past t) :
    FullDwell config past t where
  rested r hr hstart _ := by
    rcases h.cases hsteady hr with ⟨-, hunseen | hidle⟩ | hended
    · exact hnothing.rested r hr hunseen hstart
    · exact hidle
    · -- over when the timer started, so it is on the first moment of the dwell
      have hfirst : r.now ≤ t - milliseconds config.idleDwell := calc
        r.now ≤ r.ended := hsteady.1 r hr
        _ ≤ since := hended
        _ ≤ t - milliseconds config.idleDwell := le_sub_comm.mp hdwelt
      exact hnothing.restedAtStart r hr (le_antisymm hfirst hstart)
  noSweep r hr ended hswept := by
    rintro ⟨hstart, -⟩
    rcases h.cases hsteady hr with ⟨hnotSwept, -⟩ | hended
    · exact hnotSwept ⟨ended, hswept⟩
    · have hfirst : ended ≤ t - milliseconds config.idleDwell := calc
        ended = r.ended := by rw [TickRecord.ended, hswept]
        _ ≤ since := hended
        _ ≤ t - milliseconds config.idleDwell := le_sub_comm.mp hdwelt
      exact hnothing.noSweepAtStart r hr ended hswept (le_antisymm hfirst hstart)

theorem FullDwell.nothingUnseen (h : FullDwell config past t) (hnow : ∀ r ∈ past, r.now ≤ t)
    (hended : ∀ r ∈ past, r.ended ≤ t) : NothingUnseen config past t where
  rested r hr _ hstart := h.rested r hr hstart (hnow r hr)
  restedAtStart r hr hstart := h.rested r hr hstart.ge (hnow r hr)
  noSweepAtStart r hr ended hswept hstart := by
    have hr_ended : r.ended = ended := by rw [TickRecord.ended, hswept]
    exact h.noSweep r hr ended hswept ⟨hstart.ge, hr_ended ▸ hended r hr⟩

/-! ## The timer over a run -/

/-- What the timer says of the ticks so far. -/
structure Timed (drift : DriftCompensator F) (past : List (TickRecord F)) : Prop where
  since : ∀ since, drift.idleSince = some since → RestedSince drift.config since past
  /-- A nudge came when the timer had run for the dwell. -/
  nudged : ∀ nudge before, past = nudge :: before → nudge.kind = .fed true →
    ∃ since, RestedSince drift.config since past ∧
      milliseconds drift.config.idleDwell ≤ nudge.now - since

/-- A resting tick that is fed starts the timer, or keeps it running. -/
theorem Timed.restedSince_fed {drift : DriftCompensator F} (h : Timed drift past)
    {r : TickRecord F} {nudged : Bool} (hkind : r.kind = .fed nudged)
    (hidle : drift.config.Idle r.magnitude) :
    RestedSince drift.config (drift.idleSince.getD r.now) (r :: past) := by
  have hnotSwept := TickRecord.not_swept_of_fed hkind
  cases hsince : drift.idleSince with
  | none => exact .start ⟨rfl, hnotSwept, hidle⟩
  | some since => exact .later ⟨hnotSwept, .inr hidle⟩ (h.since since hsince)

theorem Timed.tick {drift drift' : DriftCompensator F} {r : TickRecord F} (h : Timed drift past)
    (htick : DriftTick drift r drift') : Timed drift' (r :: past) := by
  -- only a tick of kind `fed true` is a nudge
  have hnudged {nudge : TickRecord F} {before : List (TickRecord F)} {kind : TickKind}
      (hkind : r.kind = kind) (hpast : r :: past = nudge :: before)
      (hnudge : nudge.kind = .fed true) :
      kind = .fed true := by
    obtain ⟨rfl, -⟩ := List.cons.inj hpast
    exact hkind.symm.trans hnudge
  cases htick with
  | unseen hkind =>
      refine ⟨fun since hsince => ?_, fun _ _ hpast h => nomatch hnudged hkind hpast h⟩
      exact .later ⟨TickRecord.not_swept_of_unseen hkind, .inl hkind⟩ (h.since since hsince)
  | swept ended hkind => exact ⟨nofun, fun _ _ hpast h => nomatch hnudged hkind hpast h⟩
  | deflected hkind => exact ⟨nofun, fun _ _ hpast h => nomatch hnudged hkind hpast h⟩
  | rested hkind hidle =>
      refine ⟨fun since hsince => ?_, fun _ _ hpast h => nomatch hnudged hkind hpast h⟩
      obtain rfl := Option.some.inj hsince
      exact h.restedSince_fed hkind hidle
  | nudged hkind hidle hdwelt =>
      refine ⟨fun since hsince => ?_, fun nudge before hpast _ => ?_⟩
      · obtain rfl := Option.some.inj hsince
        exact h.restedSince_fed hkind hidle
      · obtain ⟨rfl, -⟩ := List.cons.inj hpast
        exact ⟨_, h.restedSince_fed hkind hidle, hdwelt⟩

section Runs

variable [FloatMath F] {W : Type*} [Ports F W]

theorem Ticking.next_eq {s u : Ticking F} {call : StepInput F × W} (h : s.next call = some u) :
    TickRecord.Steady (s.loop.record call.1 call.2 :: s.past) ∧
      u = ⟨(s.loop.through call.1 call.2).1, s.loop.record call.1 call.2 :: s.past⟩ := by
  unfold Ticking.next at h
  dsimp only at h
  split at h
  · exact ⟨‹_›, (Option.some.inj h).symm⟩
  · cases h

theorem timed_of_reachable {s : Ticking F} (hs : Reachable (ticking W) s) :
    TickRecord.Steady s.past ∧ Timed s.loop.common.drift s.past := by
  refine Reachable.invariant (T := ticking W)
    (I := fun s : Ticking F => TickRecord.Steady s.past ∧ Timed s.loop.common.drift s.past) ?_ ?_ hs
  · rintro s ⟨hidle, -, hpast⟩
    have hstopped : ∀ since, s.loop.common.drift.idleSince = some since →
        RestedSince s.loop.common.drift.config since s.past := fun since hsince =>
      nomatch hidle.symm.trans hsince
    rw [hpast] at hstopped ⊢
    exact ⟨History.steady_nil, ⟨hstopped, nofun⟩⟩
  · rintro s call u ⟨-, htimed⟩ hnext
    obtain ⟨hsteady, rfl⟩ := Ticking.next_eq hnext
    exact ⟨hsteady, htimed.tick (s.loop.through_driftTick call.1 call.2)⟩

end Runs

/-! ## Two dwells -/

/-- One tick of the gamepad loop, `now` milliseconds after it started. -/
def dwellTick (now : ℤ) (x : ℚ) (held : Bool) : StepInput ℚ × EspWorld ℚ SimOta :=
  (⟨⟨x, 0, 30, 30, true, none⟩, milliseconds now, false, held, false, .default⟩, dwellWorld)

def freshTicking : Ticking ℚ := ⟨.xac .new, []⟩

end OmegaStick
