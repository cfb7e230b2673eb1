import OmegaStick.Library.FloatOrder
import OmegaStick.Library.Transition
import OmegaStick.Device.TickHistory

/-!
# A click needs a fresh push

Nudge clicks over every run of `mouse_tick`, through any ports.  A nudge is detected
against a baseline: the sample of an earlier tick, or the one read after a sweep.  Every
tick on which nudges are off, the output is held, the sensor recovers from a fault or a
sweep runs moves the baseline, so since the baseline there has been none of these
(`Fresh`); and while a fault lasts, when the baseline may be an old one, no nudge is
looked for.

What a tick sends is read off a log around the ports (`Logged`).
-/

namespace OmegaStick

open MachineFloat FloatOrder History TransitionSystem

variable {F W : Type*}

/-! ## The reports of a tick -/

/-- A world behind its ports, with the mouse reports that went through them. -/
structure Logged (W : Type*) where
  world : W
  sent : List MouseReport

namespace Logged

/-- The ports of the world, with the mouse reports kept. -/
instance [Ports F W] : Ports F (Logged W) where
  sendMouse report w := ⟨Ports.sendMouse report w.world, w.sent ++ [report]⟩
  sendXac report w := { w with world := Ports.sendXac report w.world }
  runSweep center range w :=
    let (ok, center, range, world) := Ports.runSweep center range w.world
    (ok, center, range, { w with world := world })
  saveToFlash w := { w with world := Ports.saveToFlash w.world }
  applyDrift center range w :=
    let (center, world) := Ports.applyDrift center range w.world
    (center, { w with world := world })
  readStick w :=
    let (stick, world) := Ports.readStick w.world
    (stick, { w with world := world })
  now w :=
    let (now, world) := Ports.now w.world
    (now, { w with world := world })
  sensorFaultChanged faulted fault faultCount w :=
    { w with world := Ports.sensorFaultChanged faulted fault faultCount w.world }
  sensorObservedHealthy w := { w with world := Ports.sensorObservedHealthy w.world }

variable [Ports F W] (w : Logged W)

@[simp] theorem sent_sendMouse (report : MouseReport) :
    (Ports.sendMouse report w : Logged W).sent = w.sent ++ [report] := rfl

@[simp] theorem sent_runSweep (center : CenterResult F) (range : RangeResult F) :
    (Ports.runSweep center range w).2.2.2.sent = w.sent := rfl

@[simp] theorem sent_applyDrift (center : CenterResult F) (range : RangeResult F) :
    (Ports.applyDrift center range w).2.sent = w.sent := rfl

@[simp] theorem sent_readStick : (Ports.readStick w : _ × Logged W).2.sent = w.sent := rfl

@[simp] theorem sent_now : (Ports.now w : _ × Logged W).2.sent = w.sent := rfl

@[simp] theorem sent_saveToFlash : (Ports.saveToFlash w : Logged W).sent = w.sent := rfl

@[simp] theorem sent_sensorFaultUpdate [MachineFloat F] (common : CommonState F)
    (input : StepInput F) : (sensorFaultUpdate common input w).2.2.sent = w.sent := by
  unfold sensorFaultUpdate
  dsimp only
  split_ifs <;> rfl

end Logged

/-! ## Detection -/

/-- A sample a push is measured from. -/
structure Baseline (F : Type*) where
  time : Time
  x : F
  y : F
  deriving DecidableEq, Repr

/-- The sample the next push is measured from. -/
def MouseState.baseline (s : MouseState F) : Baseline F := ⟨s.windowStart, s.prevX, s.prevY⟩

/-- The sample of the tick itself. -/
def StepInput.baseline (input : StepInput F) : Baseline F :=
  ⟨input.now, input.stick.x, input.stick.y⟩

section Detection

variable [MachineFloat F] [FloatMath F] {s : MouseState F} {input : StepInput F}

/-- The stick has moved outward by at least the enter threshold, and the window is over. -/
structure Baseline.Pushed (b : Baseline F) (input : StepInput F) : Prop where
  rose : fle input.settings.nudgeDistanceThreshold
    (FloatMath.hypot input.stick.x input.stick.y - FloatMath.hypot b.x b.y) = true
  dwelt : input.settings.nudgeHoldTime ≤ (input.now - b.time).tdiv 1000000

/-- With a positive threshold a sample is not a push from itself. -/
theorem Baseline.not_pushed_self [FloatOrder F]
    (hpositive : flt (ofRat 0) input.settings.nudgeDistanceThreshold = true) :
    ¬ input.baseline.Pushed input :=
  fun h => not_zero_flt_sub_self _ (flt_of_flt_of_fle hpositive h.rose)

omit [MachineFloat F] [FloatMath F] in
/-- In time order a window that is over took `nudge_hold_time`. -/
theorem milliseconds_le_of_le_tdiv {hold : ℤ} {elapsed : Time} (helapsed : 0 ≤ elapsed)
    (h : hold ≤ elapsed.tdiv 1000000) : milliseconds hold ≤ elapsed := by
  unfold milliseconds
  have hwhole : elapsed.tdiv 1000000 * 1000000 ≤ elapsed := by
    simpa [helapsed] using Int.tdiv_mul_le elapsed (b := 1000000) (by decide)
  calc hold * 1000000 ≤ elapsed.tdiv 1000000 * 1000000 := by gcongr
    _ ≤ elapsed := hwhole

namespace MouseState

omit [MachineFloat F] [FloatMath F] in
theorem initialise_baseline (s : MouseState F) (input : StepInput F) :
    (s.initialise input).baseline = input.baseline ∨
      s.initialised = true ∧ s.initialise input = s := by
  unfold initialise
  split
  · exact .inr ⟨‹_›, rfl⟩
  · exact .inl rfl

omit [FloatMath F] in
@[simp] theorem report_nudge (s : MouseState F) (input : StepInput F) :
    (s.report input).1.nudge = s.nudge := by
  unfold report
  cases hnudge : s.nudge <;> simp [scrollPoll, hnudge]

omit [FloatMath F] in
@[simp] theorem report_baseline (s : MouseState F) (input : StepInput F) :
    (s.report input).1.baseline = s.baseline := by
  unfold report
  split <;> rfl

omit [FloatMath F] in
/-- The report goes with the nudge in effect. -/
theorem report_cases (s : MouseState F) (input : StepInput F) :
    s.nudge = .none ∧ (s.report input).2.buttons = 0 ∧ (s.report input).2.wheel = 0 ∨
      s.nudge ≠ .none ∧ (s.report input).2.dx = 0 ∧ (s.report input).2.dy = 0 := by
  unfold report
  cases hnudge : s.nudge <;> simp [scrollPoll]

omit [MachineFloat F] [FloatMath F] in
theorem nudgeSwitch_of_enabled (henabled : input.settings.nudgeEnabled = true) :
    s.nudgeSwitch input = s := by
  unfold nudgeSwitch
  rw [if_pos henabled]

omit [MachineFloat F] [FloatMath F] in
theorem nudgeSwitch_of_disabled (s : MouseState F)
    (hdisabled : input.settings.nudgeEnabled = false) :
    (s.nudgeSwitch input).nudge = .none ∧ (s.nudgeSwitch input).baseline = input.baseline := by
  unfold nudgeSwitch
  rw [if_neg (by simp [hdisabled])]
  split
  · exact ⟨‹_›, rfl⟩
  · exact ⟨rfl, rfl⟩

theorem nudgeWindow_baseline (s : MouseState F) (input : StepInput F) (duration : ℤ) (curMag : F) :
    (s.nudgeWindow input duration curMag).baseline = input.baseline ∨
      (s.nudgeWindow input duration curMag).baseline = s.baseline := by
  unfold nudgeWindow
  split
  · exact .inr rfl
  · exact .inl rfl

/-- A window enters a nudge on a rise by the threshold only. -/
theorem nudgeWindow_nudge (s : MouseState F) (input : StepInput F) (duration : ℤ) (curMag : F)
    (hnone : s.nudge = .none) :
    (s.nudgeWindow input duration curMag).nudge = .none ∨
      input.settings.nudgeEnabled = true ∧ input.settings.nudgeHoldTime ≤ duration ∧
        fle input.settings.nudgeDistanceThreshold
          (curMag - FloatMath.hypot s.prevX s.prevY) = true := by
  unfold nudgeWindow
  split
  · exact .inl hnone
  · rename_i hover
    dsimp only
    split
    · rename_i hdetected
      rw [Bool.and_eq_true] at hdetected
      exact .inr ⟨hdetected.1, not_lt.mp hover, hdetected.2⟩
    · exact .inl hnone

/-! ### The sensor's edges -/

omit [MachineFloat F] [FloatMath F] in
theorem sensed_nudge (s : MouseState F) (edge : FaultEdge) (common : CommonState F)
    (input : StepInput F) :
    (s.sensed edge common input).nudge = if edge.tripped then .none else s.nudge := by
  unfold sensed
  dsimp only
  split_ifs <;> rfl

omit [MachineFloat F] [FloatMath F] in
/-- The baseline a window is measured from is the tick's own sample, or that of before a
tick on which the sensor did not recover. -/
theorem sensed_initialise_baseline (s : MouseState F) (edge : FaultEdge) (common : CommonState F)
    (input : StepInput F) :
    ((s.sensed edge common input).initialise input).baseline = input.baseline ∨
      s.initialised = true ∧ edge.recovered = false ∧
        ((s.sensed edge common input).initialise input).baseline = s.baseline := by
  rcases (s.sensed edge common input).initialise_baseline input with hown | ⟨hinit, hkept⟩
  · exact .inl hown
  rw [hkept]
  revert hinit
  unfold sensed
  dsimp only
  cases hrecovered : edge.recovered with
  | true => exact fun _ => .inl rfl
  | false =>
      intro hinit
      refine .inr ?_
      cases htripped : edge.tripped with
      | true => exact ⟨by simpa [htripped, releaseNudge] using hinit, rfl, rfl⟩
      | false => exact ⟨by simpa [htripped] using hinit, rfl, rfl⟩

/-! ### A whole step -/

/-- A step moves the baseline to its own sample, or leaves it with nudges on. -/
theorem pointed_baseline (s : MouseState F) (input : StepInput F) :
    (s.pointed input).1.baseline = input.baseline ∨
      input.settings.nudgeEnabled = true ∧
        (s.pointed input).1.baseline = (s.initialise input).baseline := by
  unfold pointed
  dsimp only
  rw [report_baseline]
  rcases nudgeWindow_baseline ((s.initialise input).nudgeSwitch input) input
      ((input.now - (s.initialise input).windowStart).tdiv 1000000)
      (FloatMath.hypot input.stick.x input.stick.y) with hmoved | hkept
  · exact .inl hmoved
  rw [hkept]
  cases henabled : input.settings.nudgeEnabled with
  | false => exact .inl ((s.initialise input).nudgeSwitch_of_disabled henabled).2
  | true => exact .inr ⟨rfl, by rw [nudgeSwitch_of_enabled henabled]⟩

/-- With nudges off a step leaves none in effect. -/
theorem pointed_nudge_of_disabled (s : MouseState F)
    (hdisabled : input.settings.nudgeEnabled = false) : (s.pointed input).1.nudge = .none := by
  unfold pointed
  dsimp only
  rw [report_nudge]
  rcases nudgeWindow_nudge ((s.initialise input).nudgeSwitch input) input
      ((input.now - (s.initialise input).windowStart).tdiv 1000000)
      (FloatMath.hypot input.stick.x input.stick.y)
      ((s.initialise input).nudgeSwitch_of_disabled hdisabled).1 with hnone | ⟨henabled, -⟩
  · exact hnone
  · exact absurd (henabled.symm.trans hdisabled) (by decide)

/-- A step enters a nudge on a push only. -/
theorem pushed_of_pointed (hnone : s.nudge = .none) (hnudge : (s.pointed input).1.nudge ≠ .none) :
    input.settings.nudgeEnabled = true ∧ (s.initialise input).baseline.Pushed input := by
  cases henabled : input.settings.nudgeEnabled with
  | false => exact absurd (s.pointed_nudge_of_disabled henabled) hnudge
  | true =>
      refine ⟨rfl, ?_⟩
      have hinit : (s.initialise input).nudge = .none := by
        unfold initialise
        split <;> exact hnone
      unfold pointed at hnudge
      dsimp only at hnudge
      rw [report_nudge, nudgeSwitch_of_enabled henabled] at hnudge
      obtain ⟨-, hover, hrose⟩ := (nudgeWindow_nudge _ _ _ _ hinit).resolve_left hnudge
      exact ⟨hrose, hover⟩

/-- The report of a step goes with the nudge it leaves. -/
theorem pointed_report (s : MouseState F) (input : StepInput F) :
    (s.pointed input).1.nudge = .none ∧ (s.pointed input).2.buttons = 0 ∧
        (s.pointed input).2.wheel = 0 ∨
      (s.pointed input).1.nudge ≠ .none ∧ (s.pointed input).2.dx = 0 ∧
        (s.pointed input).2.dy = 0 := by
  unfold pointed
  dsimp only
  rw [report_nudge]
  exact report_cases _ input

end MouseState

end Detection

/-! ## What a mouse tick does to the nudge -/

/-- What is kept of a tick. -/
structure MouseRecord (F : Type*) where
  /-- The tick's own sample. -/
  sample : Baseline F
  enabled : Bool
  held : Bool
  faulted : Bool
  /-- The sample read after the sweep, on a tick that recalibrated. -/
  postSweep : Option (Baseline F)
  deriving DecidableEq, Repr

namespace MouseRecord

/-- The sample a later push can be measured from. -/
def baseline (r : MouseRecord F) : Baseline F := r.postSweep.getD r.sample

/-- Nudges were on, the output was not held, the sensor was not faulted, no sweep ran. -/
structure Clean (r : MouseRecord F) : Prop where
  enabled : r.enabled = true
  held : r.held = false
  faulted : r.faulted = false
  postSweep : r.postSweep = none

/-- The ticks and the samples are in the order of their clock. -/
abbrev Steady (past : List (MouseRecord F)) : Prop :=
  History.Steady (fun r => r.sample.time) (fun r => r.baseline.time) past

end MouseRecord

section Tick

variable [MachineFloat F] [FloatMath F] [Ports F W]

/-- The sample read after a sweep. -/
def postSweep (common : CommonState F) (w : W) : Baseline F :=
  let (_, _, _, w) := Ports.runSweep common.center common.range (Ports.sendMouse {} w)
  let (post, w) := Ports.readStick w
  ⟨(Ports.now w).1, post.x, post.y⟩

def MouseState.record (s : MouseState F) (input : StepInput F) (w : W) : MouseRecord F :=
  let (edge, common, w) := sensorFaultUpdate s.common input w
  { sample := input.baseline
    enabled := input.settings.nudgeEnabled
    held := holdsOutput input
    faulted := edge.faulted
    postSweep := if !holdsOutput input && input.recalibrationRequested then
        some (OmegaStick.postSweep common w)
      else none }

/-- The edge from one state of the sensor to the next. -/
def FaultEdge.between (was now : Bool) : FaultEdge := ⟨now, now != was && now, now != was && !now⟩

@[simp] theorem FaultEdge.faulted_between (was now : Bool) : (between was now).faulted = now := rfl

/-- Everything a mouse tick does to the nudge, from the state before to the state after it,
with the record it leaves and the reports it sends. -/
inductive MouseTick (s : MouseState F) (input : StepInput F) :
    MouseRecord F → MouseState F → List MouseReport → Prop
  | held {s' : MouseState F} {faulted : Bool} (hnudge : s'.nudge = .none)
      (hbaseline : s'.baseline = input.baseline) :
      MouseTick s input ⟨input.baseline, input.settings.nudgeEnabled, true, faulted, none⟩ s' [{}]
  /-- The baseline may be an old one, but no nudge is looked for. -/
  | faulted {s' : MouseState F} (hwas : s'.common.sensorWasFaulted = true)
      (hnudge : s'.nudge = .none ∨ s.common.sensorWasFaulted = true ∧ s'.nudge = s.nudge) :
      MouseTick s input ⟨input.baseline, input.settings.nudgeEnabled, false, true, none⟩ s' [{}]
  | swept {s' : MouseState F} {faulted : Bool} {post : Baseline F} (hnudge : s'.nudge = .none)
      (hbaseline : s'.baseline = post) :
      MouseTick s input ⟨input.baseline, input.settings.nudgeEnabled, false, faulted, some post⟩ s'
        [{}, {}]
  | moved {s' : MouseState F} {start : Baseline F} {report : MouseReport}
      (hwas : s'.common.sensorWasFaulted = false)
      (hstart : start = input.baseline ∨
        s.initialised = true ∧ s.common.sensorWasFaulted = false ∧ start = s.baseline)
      (hbaseline : s'.baseline = input.baseline ∨
        input.settings.nudgeEnabled = true ∧ s'.baseline = start)
      (hdisabled : input.settings.nudgeEnabled = false → s'.nudge = .none)
      (hpushed : s.nudge = .none → s'.nudge ≠ .none → start.Pushed input)
      (hreport : s'.nudge = .none ∧ report.buttons = 0 ∧ report.wheel = 0 ∨
        s'.nudge ≠ .none ∧ report.dx = 0 ∧ report.dy = 0) :
      MouseTick s input ⟨input.baseline, input.settings.nudgeEnabled, false, false, none⟩ s'
        [report]

/-- A step after the monitor found no fault. -/
theorem MouseTick.of_pointed {s s' : MouseState F} {input : StepInput F} {common : CommonState F}
    {stepped : MouseState F × MouseReport}
    (hstepped : (s.sensed (.between s.common.sensorWasFaulted false) common input).pointed input =
      stepped)
    (hwas : s'.common.sensorWasFaulted = false) (hnudge : s'.nudge = stepped.1.nudge)
    (hbaseline : s'.baseline = stepped.1.baseline) :
    MouseTick s input ⟨input.baseline, input.settings.nudgeEnabled, false, false, none⟩ s'
      [stepped.2] := by
  obtain rfl := hstepped
  generalize hsensed : s.sensed (.between s.common.sensorWasFaulted false) common input = sensed
    at hnudge hbaseline ⊢
  have hstart : (sensed.initialise input).baseline = input.baseline ∨
      s.initialised = true ∧ s.common.sensorWasFaulted = false ∧
        (sensed.initialise input).baseline = s.baseline := by
    rw [← hsensed]
    refine (s.sensed_initialise_baseline _ common input).imp id ?_
    rintro ⟨hinit, hsame, hkept⟩
    exact ⟨hinit, by simpa [FaultEdge.between] using hsame, hkept⟩
  refine .moved hwas hstart ?_ ?_ ?_ ?_
  · -- the window moves the baseline to the sample, or leaves it
    rw [hbaseline]
    exact sensed.pointed_baseline input
  · intro hdisabled
    rw [hnudge]
    exact sensed.pointed_nudge_of_disabled hdisabled
  · intro hnone hentered
    refine (sensed.pushed_of_pointed ?_ (hnudge ▸ hentered)).2
    rw [← hsensed, s.sensed_nudge]
    simpa [FaultEdge.between] using hnone
  · rw [hnudge]
    exact sensed.pointed_report input

theorem mouseTick_cases (s : MouseState F) (input : StepInput F) (world : W) :
    MouseTick s input (s.record input (⟨world, []⟩ : Logged W))
      (mouseTick s input (⟨world, []⟩ : Logged W)).1
      (mouseTick s input (⟨world, []⟩ : Logged W)).2.sent := by
  have hsent := Logged.sent_sensorFaultUpdate (⟨world, []⟩ : Logged W) s.common input
  have hedge : (sensorFaultUpdate s.common input (⟨world, []⟩ : Logged W)).1 =
      .between s.common.sensorWasFaulted
        (sensorFaultUpdate s.common input (⟨world, []⟩ : Logged W)).2.1.sensorWasFaulted := rfl
  unfold MouseState.record mouseTick
  revert hsent hedge
  rcases sensorFaultUpdate s.common input (⟨world, []⟩ : Logged W) with ⟨edge, common, w⟩
  intro hsent hedge
  dsimp only at hsent hedge ⊢
  obtain rfl := hedge
  have hone (report : MouseReport) : (Ports.sendMouse report w : Logged W).sent = [report] := by
    rw [Logged.sent_sendMouse, hsent, List.nil_append]
  cases hheld : holdsOutput input with
  | true =>
      rw [if_pos rfl, hone]
      exact .held rfl rfl
  | false =>
  rw [if_neg Bool.false_ne_true]
  -- the two edges of the monitor, before anything else looks at the nudge
  generalize hbase : (if FaultEdge.recovered _ = true then _ else _ : MouseState F) = base
  obtain rfl : s.sensed _ common input = base := hbase
  have hcommon := s.sensed_common (.between s.common.sensorWasFaulted common.sensorWasFaulted)
    common input
  cases hrequested : input.recalibrationRequested with
  | true =>
      rw [Bool.not_false, Bool.true_and, if_pos rfl, Bool.not_true, Bool.and_false,
        if_neg Bool.false_ne_true, mouseStep_of_requested hrequested]
      simp only [recalibrationOutput, ite_true, MouseState.releaseNudge_common, hcommon,
        Logged.sent_sendMouse, Logged.sent_now, Logged.sent_readStick, Logged.sent_runSweep, hsent]
      exact .swept rfl rfl
  | false =>
      rw [Bool.not_false, Bool.true_and, if_neg Bool.false_ne_true, Bool.and_true]
      cases hwas : common.sensorWasFaulted with
      | true =>
          rw [FaultEdge.faulted_between, if_pos rfl, hone]
          refine .faulted (by rw [s.sensed_common, hwas]) ?_
          -- released on the tick that tripped; no nudge is entered while the fault lasts
          rw [s.sensed_nudge]
          cases hbefore : s.common.sensorWasFaulted with
          | true => exact .inr ⟨rfl, rfl⟩
          | false => exact .inl rfl
      | false =>
          rw [hwas] at hcommon
          rw [FaultEdge.faulted_between, if_neg Bool.false_ne_true,
            mouseStep_of_not_requested hrequested, hcommon]
          rcases driftStep_cases common input (FloatMath.hypot input.stick.x input.stick.y)
              { (StepOutput.default : StepOutput F) with
                sendReport := true
                mouse := ((s.sensed _ common input).pointed input).2 } rfl with
            ⟨drift, -, hstep⟩ | ⟨drift, center, -, hstep⟩
          · rw [hstep]
            simp only [StepOutput.default, Bool.false_eq_true, ite_true, ite_false, hone]
            exact .of_pointed rfl hwas rfl rfl
          · -- a nudged center is pushed and perhaps saved, which sends no report
            rw [hstep]
            simp only [ite_true, StepOutput.default, Bool.false_eq_true, ite_false,
              decide_eq_true_eq]
            rw [apply_ite Logged.sent, Logged.sent_saveToFlash, Logged.sent_applyDrift, ite_self,
              hone]
            exact .of_pointed rfl hwas rfl rfl

end Tick

/-! ## Runs -/

/-- The mouse engine, its ticks so far, newest first, and the reports of the newest. -/
structure MouseRun (F : Type*) where
  mouse : MouseState F
  past : List (MouseRecord F)
  sent : List MouseReport
  deriving DecidableEq

/-- Since the baseline sample of an earlier tick the stick magnitude has risen by the enter
threshold and `nudge_hold_time` has passed; every tick since, this one included, was clean. -/
def FreshPush [MachineFloat F] [FloatMath F] (input : StepInput F) (past : List (MouseRecord F)) :
    Prop :=
  ∃ newer r older, past = newer ++ r :: older ∧ newer ≠ [] ∧ (∀ x ∈ newer, x.Clean) ∧
    milliseconds input.settings.nudgeHoldTime ≤ input.now - r.baseline.time ∧
    fle input.settings.nudgeDistanceThreshold
      (FloatMath.hypot input.stick.x input.stick.y -
        FloatMath.hypot r.baseline.x r.baseline.y) = true

section Runs

variable [MachineFloat F] [FloatMath F] [Ports F W]

/-- One tick; `none` if the clock ran backwards or the enter threshold is not positive. -/
def MouseRun.next (s : MouseRun F) (call : StepInput F × W) : Option (MouseRun F) :=
  let w : Logged W := ⟨call.2, []⟩
  let past := s.mouse.record call.1 w :: s.past
  if flt (ofRat 0) call.1.settings.nudgeDistanceThreshold = true ∧ MouseRecord.Steady past then
    let (mouse, w) := mouseTick s.mouse call.1 w
    some ⟨mouse, past, w.sent⟩
  else none

/-- Every run of `mouse_tick` in any worlds. -/
def mouseTicking (W : Type*) [Ports F W] : TransitionSystem (MouseRun F) (StepInput F × W) :=
  .ofOption (fun s => s.mouse.initialised = false ∧ s.mouse.nudge = .none ∧
    s.mouse.common.sensorWasFaulted = false ∧ s.past = []) MouseRun.next

/-- What is promised of a tick from `s` to `t`. -/
structure FreshClicks (s t : MouseRun F) (input : StepInput F) : Prop where
  /-- A nudge is entered on a fresh push. -/
  fresh : s.mouse.nudge = .none → t.mouse.nudge ≠ .none → FreshPush input t.past
  /-- Buttons and wheel go with a nudge in effect. -/
  clicks : ∀ report ∈ t.sent, report.buttons ≠ 0 ∨ report.wheel ≠ 0 → t.mouse.nudge ≠ .none
  /-- The cursor stays while a nudge is in effect. -/
  still : t.mouse.nudge ≠ .none → ∀ report ∈ t.sent, report.dx = 0 ∧ report.dy = 0
  /-- Nudges off, the output held, the sensor faulted or a sweep: no nudge. -/
  released : ∀ r ∈ t.past.head?, ¬ r.Clean → t.mouse.nudge = .none

/-- The baseline is a sample of an earlier tick, and nothing since would have moved it; while
the sensor is faulted no nudge is in effect. -/
structure MouseRun.Based (s : MouseRun F) : Prop where
  released : s.mouse.common.sensorWasFaulted = true → s.mouse.nudge = .none
  since : s.mouse.initialised = true → s.mouse.common.sensorWasFaulted = false →
    Since (fun r => r.baseline = s.mouse.baseline) MouseRecord.Clean s.past

variable {s t : MouseRun F} {call : StepInput F × W}

/-- Everything a step of a run does. -/
theorem MouseRun.next_eq (h : s.next call = some t) :
    flt (ofRat 0) call.1.settings.nudgeDistanceThreshold = true ∧ MouseRecord.Steady t.past ∧
      ∃ r, t.past = r :: s.past ∧ MouseTick s.mouse call.1 r t.mouse t.sent := by
  unfold MouseRun.next at h
  obtain ⟨⟨hpositive, hsteady⟩, hnext⟩ := Option.ite_some_none_eq_some.mp h
  obtain rfl := hnext
  exact ⟨hpositive, hsteady, _, rfl, mouseTick_cases s.mouse call.1 call.2⟩

/-- A tick keeps the baseline, or moves it to its own sample or the one after its sweep. -/
theorem MouseRun.Based.tick (h : s.Based) (hnext : s.next call = some t) : t.Based := by
  obtain ⟨-, -, r, hpast, htick⟩ := MouseRun.next_eq hnext
  obtain ⟨mouse, past, sent⟩ := t
  dsimp only at hpast htick
  subst hpast
  cases htick with
  | held hnudge hbaseline => exact ⟨fun _ => hnudge, fun _ _ => .start hbaseline.symm⟩
  | faulted hwas hnudge =>
      refine ⟨fun _ => ?_, fun _ hhealthy => absurd (hwas.symm.trans hhealthy) (by decide)⟩
      rcases hnudge with hnone | ⟨hbefore, hkept⟩
      · exact hnone
      · exact hkept.trans (h.released hbefore)
  | swept hnudge hbaseline => exact ⟨fun _ => hnudge, fun _ _ => .start hbaseline.symm⟩
  | moved hwas hstart hbaseline =>
      refine ⟨fun hfaulted => absurd (hwas.symm.trans hfaulted) (by decide), fun _ _ => ?_⟩
      rcases hbaseline with hown | ⟨henabled, hkept⟩
      · exact .start hown.symm
      rcases hstart with rfl | ⟨hinit, hhealthy, rfl⟩
      · exact .start hkept.symm
      -- neither the switch, the window nor an edge touched it: one more clean tick
      have hsince := h.since hinit hhealthy
      rw [← hkept] at hsince
      exact .later ⟨henabled, rfl, rfl, rfl⟩ hsince

theorem based_of_reachable (hs : Reachable (mouseTicking W) s) : s.Based := by
  refine Reachable.invariant (T := mouseTicking W) (I := MouseRun.Based) ?_ ?_ hs
  · rintro s ⟨hfresh, hnone, -, -⟩
    exact ⟨fun _ => hnone, fun hinit => absurd (hfresh.symm.trans hinit) (by decide)⟩
  · exact fun s call t h hnext => h.tick hnext

/-! ## Clicks -/

/-- A push since the baseline of an earlier tick, at a clean tick, is a fresh one. -/
theorem freshPush_of_since {input : StepInput F} {r : MouseRecord F} {past : List (MouseRecord F)}
    {b : Baseline F} (hclean : r.Clean) (hsample : r.sample = input.baseline)
    (hsteady : MouseRecord.Steady (r :: past)) (hpushed : b.Pushed input)
    (hsince : Since (fun r => r.baseline = b) MouseRecord.Clean past) :
    FreshPush input (r :: past) := by
  obtain ⟨newer, base, older, rfl, rfl, hkept⟩ := since_iff.mp hsince
  have helapsed : 0 ≤ input.now - base.baseline.time := by
    have hle := hsteady.ends_le (x := base) (by simp)
    rw [hsample] at hle
    exact sub_nonneg.mpr hle
  exact ⟨r :: newer, base, older, rfl, List.cons_ne_nil _ _,
    List.forall_mem_cons.mpr ⟨hclean, hkept⟩,
    milliseconds_le_of_le_tdiv helapsed hpushed.dwelt, hpushed.rose⟩

/-- In every run of `mouse_tick` with a steady clock and positive enter thresholds, a nudge
click needs a fresh push; buttons and wheel go with a nudge, without cursor motion; and a
tick that is not clean leaves no nudge in effect. -/
theorem nudge_needs_fresh_push [FloatOrder F] (hs : Reachable (mouseTicking W) s)
    (hstep : (mouseTicking W).step s call t) : FreshClicks s t call.1 := by
  have hbased := based_of_reachable hs
  obtain ⟨hpositive, hsteady, r, hpast, htick⟩ := MouseRun.next_eq hstep
  obtain ⟨mouse, past, sent⟩ := t
  dsimp only at hpast htick hsteady
  subst hpast
  cases htick with
  | held hnudge =>
      exact ⟨fun _ h => absurd hnudge h, by simp, fun h => absurd hnudge h, fun _ _ _ => hnudge⟩
  | faulted hwas hnudge =>
      have hnone : mouse.nudge = .none := by
        rcases hnudge with hnone | ⟨hbefore, hkept⟩
        · exact hnone
        · exact hkept.trans (hbased.released hbefore)
      exact ⟨fun _ h => absurd hnone h, by simp, fun h => absurd hnone h, fun _ _ _ => hnone⟩
  | swept hnudge =>
      exact ⟨fun _ h => absurd hnudge h, by simp, fun h => absurd hnudge h, fun _ _ _ => hnudge⟩
  | @moved _ start report hwas hstart hbaseline hdisabled hpushed hreport =>
      refine ⟨fun hnone hnudge => ?_, ?_, ?_, ?_⟩
      · have hpush := hpushed hnone hnudge
        have henabled : call.1.settings.nudgeEnabled = true := by
          by_contra hoff
          exact hnudge (hdisabled (by simpa using hoff))
        rcases hstart with rfl | ⟨hinit, hhealthy, rfl⟩
        · -- measured from the tick's own sample the rise is not positive
          exact absurd hpush (Baseline.not_pushed_self hpositive)
        · exact freshPush_of_since ⟨henabled, rfl, rfl, rfl⟩ rfl hsteady hpush
            (hbased.since hinit hhealthy)
      · intro x hx hclick hnone
        obtain rfl := List.mem_singleton.mp hx
        obtain ⟨-, hbuttons, hwheel⟩ := hreport.resolve_right fun h => h.1 hnone
        exact hclick.elim (fun h => h hbuttons) (fun h => h hwheel)
      · intro hnudge x hx
        obtain rfl := List.mem_singleton.mp hx
        exact (hreport.resolve_left fun h => hnudge h.1).2
      · intro x hx hunclean
        obtain rfl := Option.some.inj hx
        refine hdisabled (Bool.not_eq_true _ ▸ fun henabled => ?_)
        exact hunclean ⟨henabled, rfl, rfl, rfl⟩

end Runs

/-! ## A click -/

/-- One tick of the mouse loop with nudges on, `now` milliseconds after it started. -/
def pushTick (now : ℤ) (x : ℚ) : StepInput ℚ × EspWorld ℚ SimOta :=
  (⟨⟨x, 0, x * 100, 0, true, none⟩, milliseconds now, false, false, false,
    { (.default : DeviceSettings ℚ) with nudgeEnabled := true }⟩, dwellWorld)

/-- The stick is pushed to the right within one window. -/
theorem nudge_needs_fresh_push_right :
    ∃ s t : MouseRun ℚ, Reachable (mouseTicking (EspWorld ℚ SimOta)) s ∧
      s.mouse.nudge = .none ∧ t.mouse.nudge = .right ∧ t.sent.map MouseReport.buttons = [2] ∧
      FreshClicks s t (pushTick 100 1).1 := by
  have hfirst : (MouseRun.next ⟨.new, [], []⟩ (pushTick 0 0)).any (fun s =>
      decide (s.mouse.nudge = .none) && (s.next (pushTick 100 1)).any (fun t =>
        decide (t.mouse.nudge = .right) && decide (t.sent.map MouseReport.buttons = [2]))) =
      true := by
    decide +kernel
  obtain ⟨s, hs, hthen⟩ := (Option.any_eq_true _ _).mp hfirst
  rw [Bool.and_eq_true, decide_eq_true_eq] at hthen
  obtain ⟨t, ht, hfinal⟩ := (Option.any_eq_true _ _).mp hthen.2
  simp only [Bool.and_eq_true, decide_eq_true_eq] at hfinal
  have hreached : Reachable (mouseTicking (EspWorld ℚ SimOta)) s :=
    .step (.init ⟨rfl, rfl, rfl, rfl⟩) hs
  exact ⟨s, t, hreached, hthen.1, hfinal.1, hfinal.2, nudge_needs_fresh_push hreached ht⟩

end OmegaStick
