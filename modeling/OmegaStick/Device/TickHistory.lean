import OmegaStick.Library.History
import OmegaStick.Firmware.SimOta
import OmegaStick.Device.EspPorts

/-!
# The ticks of a run

What a run of either loop did, one record for each tick, newest first.  The drift
compensator sees some of the ticks only: a tick that is held, uncalibrated or faulted
leaves its timers alone, a sweep clears them, and every other tick is fed to it.
-/

namespace OmegaStick

open MachineFloat

variable {F : Type*}

/-! ## Records -/

/-- What a tick was to the drift compensator. -/
inductive TickKind where
  /-- Held, uncalibrated or faulted: not fed to the compensator. -/
  | unseen
  /-- A recalibration, and when it ended. -/
  | swept (ended : Time)
  | fed (nudged : Bool)
  deriving DecidableEq, Repr

structure TickRecord (F : Type*) where
  now : Time
  rawX : F
  rawY : F
  /-- The magnitude of the mapped stick position. -/
  magnitude : F
  kind : TickKind
  deriving DecidableEq, Repr

namespace TickRecord

/-- When the tick was over, as far as it read the clock. -/
def ended (r : TickRecord F) : Time :=
  match r.kind with
  | .swept ended => ended
  | .unseen | .fed _ => r.now

def Swept (r : TickRecord F) : Prop := ∃ ended, r.kind = .swept ended

theorem not_swept_of_fed {r : TickRecord F} {nudged : Bool}
    (h : r.kind = .fed nudged) : ¬ r.Swept := by
  rintro ⟨ended, hswept⟩
  exact nomatch h.symm.trans hswept

theorem not_swept_of_unseen {r : TickRecord F} (h : r.kind = .unseen) : ¬ r.Swept := by
  rintro ⟨ended, hswept⟩
  exact nomatch h.symm.trans hswept

/-- The ticks are in the order of their clock. -/
abbrev Steady (past : List (TickRecord F)) : Prop := History.Steady now ended past

end TickRecord

/-! ## The compensator -/

namespace DriftCompensator

variable [MachineFloat F]

/-- At or below the idle threshold. -/
def Config.Idle (config : Config F) (magnitude : F) : Prop :=
  ¬ flt config.idleMagnitudeThreshold magnitude = true

instance (config : Config F) : DecidablePred config.Idle := fun _ =>
  inferInstanceAs (Decidable (¬ _))

/-- Everything one `update` does to the compensator and the center. -/
inductive Updated (drift : DriftCompensator F) (rawX rawY magnitude : F) (center : CenterResult F)
    (now : Time) : Bool × DriftCompensator F × CenterResult F → Prop
  | deflected (hdeflected : ¬ drift.config.Idle magnitude) :
      Updated drift rawX rawY magnitude center now (false, { drift with idleSince := none }, center)
  | rested (hidle : drift.config.Idle magnitude) :
      Updated drift rawX rawY magnitude center now
        (false, { drift with idleSince := some (drift.idleSince.getD now) }, center)
  | nudged (hidle : drift.config.Idle magnitude)
      (hdwelt : milliseconds drift.config.idleDwell ≤ now - drift.idleSince.getD now)
      (hspaced : ∀ last, drift.lastNudge = some last →
        milliseconds drift.config.minNudgeInterval ≤ now - last) :
      Updated drift rawX rawY magnitude center now
        (true,
          { drift with idleSince := some (drift.idleSince.getD now), lastNudge := some now },
          drift.nudge rawX rawY center)

theorem update_updated (drift : DriftCompensator F) (rawX rawY magnitude : F)
    (center : CenterResult F) (now : Time) :
    Updated drift rawX rawY magnitude center now
      (drift.update rawX rawY magnitude center now) := by
  unfold update
  split
  · rename_i hdeflected
    exact .deflected (not_not.mpr hdeflected)
  · rename_i hidle
    dsimp only
    split
    · exact .rested hidle
    · rename_i hdwelt
      split
      · exact .rested hidle
      · rename_i hspaced
        refine .nudged hidle (not_lt.mp hdwelt) fun last hlast => ?_
        simpa [hlast] using hspaced

end DriftCompensator

/-- What a tick does to the compensator. -/
inductive DriftTick [MachineFloat F] (drift : DriftCompensator F) (r : TickRecord F) :
    DriftCompensator F → Prop
  | unseen (hkind : r.kind = .unseen) : DriftTick drift r drift
  | swept (ended : Time) (hkind : r.kind = .swept ended) : DriftTick drift r drift.reset
  | deflected (hkind : r.kind = .fed false) (hdeflected : ¬ drift.config.Idle r.magnitude) :
      DriftTick drift r { drift with idleSince := none }
  | rested (hkind : r.kind = .fed false) (hidle : drift.config.Idle r.magnitude) :
      DriftTick drift r { drift with idleSince := some (drift.idleSince.getD r.now) }
  | nudged (hkind : r.kind = .fed true) (hidle : drift.config.Idle r.magnitude)
      (hdwelt : milliseconds drift.config.idleDwell ≤ r.now - drift.idleSince.getD r.now)
      (hspaced : ∀ last, drift.lastNudge = some last →
        milliseconds drift.config.minNudgeInterval ≤ r.now - last) :
      DriftTick drift r
        { drift with idleSince := some (drift.idleSince.getD r.now), lastNudge := some r.now }

theorem DriftTick.config_eq [MachineFloat F] {drift drift' : DriftCompensator F} {r : TickRecord F}
    (h : DriftTick drift r drift') : drift'.config = drift.config := by
  cases h <;> rfl

theorem DriftTick.of_updated [MachineFloat F] {drift : DriftCompensator F} {r : TickRecord F}
    {center : CenterResult F} {result : Bool × DriftCompensator F × CenterResult F}
    (h : drift.Updated r.rawX r.rawY r.magnitude center r.now result)
    (hkind : r.kind = .fed result.1) : DriftTick drift r result.2.1 := by
  cases h with
  | deflected hdeflected => exact .deflected hkind hdeflected
  | rested hidle => exact .rested hkind hidle
  | nudged hidle hdwelt hspaced => exact .nudged hkind hidle hdwelt hspaced

/-! ## A tick through any ports -/

namespace LoopState

variable [MachineFloat F] [FloatMath F] {W : Type*} [Ports F W]

/-- `mouse_tick` or `xac_tick`. -/
def through (s : LoopState F) (input : StepInput F) (w : W) : LoopState F × W :=
  match s with
  | .mouse s => let (s, w) := mouseTick s input w; (.mouse s, w)
  | .xac s => let (s, w) := xacTick s input w; (.xac s, w)

theorem through_common (s : LoopState F) (input : StepInput F) (w : W) :
    CommonTick input (sensorFaultUpdate s.common input w).2.1
      (sensorFaultUpdate s.common input w).2.2 (s.through input w).1.common
      (s.through input w).2 := by
  cases s with
  | mouse s => exact mouseTick_common s input w
  | xac s => exact xacTick_common s input w

/-- The report of a tick that moves nothing. -/
def neutral : LoopState F → HidReport F
  | .mouse _ => .mouse {}
  | .xac _ => .xac .default

/-- The clock once a sweep is over and the stick was read again. -/
def sweepEnd (s : LoopState F) (common : CommonState F) (w : W) : Time :=
  let (_, _, _, w) := Ports.runSweep common.center common.range (s.neutral.send w)
  let (_, w) := Ports.readStick w
  (Ports.now w).1

/-- What a tick is to the compensator, from the state and the world the sensor
monitor left. -/
def kindAfter (s : LoopState F) (input : StepInput F) (common : CommonState F) (w : W) :
    TickKind :=
  if holdsOutput input || common.sensor.faulted && !input.recalibrationRequested then .unseen
  else if input.recalibrationRequested then .swept (s.sweepEnd common w)
  else
    .fed (common.drift.update input.stick.rawX input.stick.rawY
      (FloatMath.hypot input.stick.x input.stick.y) common.center input.now).1

def kind (s : LoopState F) (input : StepInput F) (w : W) : TickKind :=
  s.kindAfter input (sensorFaultUpdate s.common input w).2.1
    (sensorFaultUpdate s.common input w).2.2

section Kind

variable {input : StepInput F} {common : CommonState F}

theorem kindAfter_quiet (s : LoopState F) (w : W)
    (h : holdsOutput input = true ∨
      common.sensor.faulted = true ∧ input.recalibrationRequested = false) :
    s.kindAfter input common w = .unseen := by
  unfold kindAfter
  rcases h with h | ⟨hfaulted, hrequested⟩
  · simp [h]
  · simp [hfaulted, hrequested]

theorem kindAfter_swept (s : LoopState F) (w : W) (hheld : holdsOutput input = false)
    (hrequested : input.recalibrationRequested = true) :
    s.kindAfter input common w = .swept (s.sweepEnd common w) := by
  simp [kindAfter, hheld, hrequested]

theorem kindAfter_fed (s : LoopState F) (w : W) (hheld : holdsOutput input = false)
    (hfaulted : common.sensor.faulted = false) (hrequested : input.recalibrationRequested = false) :
    s.kindAfter input common w =
      .fed (common.drift.update input.stick.rawX input.stick.rawY
        (FloatMath.hypot input.stick.x input.stick.y) common.center input.now).1 := by
  simp [kindAfter, hheld, hfaulted, hrequested]

end Kind

/-- What is kept of a tick. -/
def record (s : LoopState F) (input : StepInput F) (w : W) : TickRecord F where
  now := input.now
  rawX := input.stick.rawX
  rawY := input.stick.rawY
  magnitude := FloatMath.hypot input.stick.x input.stick.y
  kind := s.kind input w

/-- The compensator after a tick. -/
theorem through_driftTick (s : LoopState F) (input : StepInput F) (w : W) :
    DriftTick s.common.drift (s.record input w) (s.through input w).1.common.drift := by
  have htick := s.through_common input w
  have hkind : (s.record input w).kind = s.kindAfter input (sensorFaultUpdate s.common input w).2.1
    (sensorFaultUpdate s.common input w).2.2 := rfl
  -- the sensor monitor leaves the compensator and the center alone
  have hdrift : (sensorFaultUpdate s.common input w).2.1.drift = s.common.drift := rfl
  have hcenter : (sensorFaultUpdate s.common input w).2.1.center = s.common.center := rfl
  have hupdated := s.common.drift.update_updated input.stick.rawX input.stick.rawY
    (FloatMath.hypot input.stick.x input.stick.y) s.common.center input.now
  rw [← hdrift, ← hcenter] at hupdated
  rw [← hdrift]
  revert htick hkind hupdated
  generalize (sensorFaultUpdate s.common input w).2.1 = common
  generalize (sensorFaultUpdate s.common input w).2.2 = w₁
  generalize (s.through input w).1.common = common'
  generalize (s.through input w).2 = w'
  intro htick hkind hupdated
  cases htick with
  | quiet report hneutral hquiet => exact .unseen (hkind.trans (kindAfter_quiet s w₁ hquiet))
  | swept report hneutral hheld hrequested =>
      exact .swept _ (hkind.trans (kindAfter_swept s w₁ hheld hrequested))
  | rested report hheld hfaulted hrequested hupdate =>
      rw [kindAfter_fed s w₁ hheld hfaulted hrequested] at hkind
      rw [hupdate] at hkind hupdated
      exact .of_updated hupdated hkind
  | nudged report hheld hfaulted hrequested hupdate =>
      rw [kindAfter_fed s w₁ hheld hfaulted hrequested] at hkind
      rw [hupdate] at hkind hupdated
      exact .of_updated hupdated hkind

end LoopState

/-! ## A device to run on -/

/-- A device at rest that nobody talks to. -/
def dwellWorld : EspWorld ℚ SimOta where
  store := ⟨.default, .default, .default⟩
  ota := .new (.format default)
  outside := ⟨.idle, 0, false, .new, none, none, 0, []⟩
  readings _ := none
  stick := ⟨0, 0, 0, 0, true, none⟩
  clock := 0
  reports := []
  notifications := []
  sweeps := 0

end OmegaStick
