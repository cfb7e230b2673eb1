import OmegaStick.Control.Tick

/-!
# What one tick does

The four ways a tick of either loop goes once the sensor monitor has seen the sample,
through any ports (`CommonTick`): the output is neutral and nothing else happens; a
sweep runs between two neutral reports; the stick's report goes out and the center
stays; or it goes out and a nudged center is pushed.  What later modules say about
ticks is derived from these four.
-/

namespace OmegaStick

open MachineFloat

variable {F : Type*}

/-! ## Reports -/

/-- A HID report as it is sent. -/
inductive HidReport (F : Type*) where
  | mouse (report : MouseReport)
  | xac (report : XacReport F)
  deriving DecidableEq

namespace HidReport

/-- No motion, no buttons, no wheel, axes zero. -/
def Neutral [MachineFloat F] : HidReport F → Prop
  | .mouse report => report.buttons = 0 ∧ report.dx = 0 ∧ report.dy = 0 ∧ report.wheel = 0
  | .xac report => report.x = ofRat 0 ∧ report.y = ofRat 0

/-- `send_mouse` or `send_xac`. -/
def send {W : Type*} [Ports F W] : HidReport F → W → W
  | .mouse report, w => Ports.sendMouse report w
  | .xac report, w => Ports.sendXac report w

theorem neutral_mouse [MachineFloat F] : (HidReport.mouse {} : HidReport F).Neutral :=
  ⟨rfl, rfl, rfl, rfl⟩

theorem neutral_xac [MachineFloat F] : (HidReport.xac .default : HidReport F).Neutral :=
  ⟨rfl, rfl⟩

end HidReport

/-! ## The part of the state the sensor monitor owns -/

/-- The states agree in what `sensor_fault_update` keeps. -/
structure CommonState.SameSensor (a b : CommonState F) : Prop where
  sensor : a.sensor = b.sensor
  sensorWasFaulted : a.sensorWasFaulted = b.sensorWasFaulted
  goodReads : a.goodReads = b.goodReads
  observeAfterGoodReads : a.observeAfterGoodReads = b.observeAfterGoodReads
  sensorObserved : a.sensorObserved = b.sensorObserved

namespace CommonState

theorem SameSensor.refl (a : CommonState F) : a.SameSensor a := ⟨rfl, rfl, rfl, rfl, rfl⟩

end CommonState

variable [MachineFloat F] [FloatMath F] {W : Type*} [Ports F W]

/-! ## The common state -/

/-- The ways a tick goes, from the state and the world the sensor monitor left. -/
inductive CommonTick (input : StepInput F) (common : CommonState F) (w : W) :
    CommonState F → W → Prop
  /-- Held, uncalibrated or faulted. -/
  | quiet (report : HidReport F) (hneutral : report.Neutral)
      (hquiet : holdsOutput input = true ∨
        common.sensor.faulted = true ∧ input.recalibrationRequested = false) :
      CommonTick input common w common (report.send w)
  | swept (report : HidReport F) (hneutral : report.Neutral)
      (hheld : holdsOutput input = false) (hrequested : input.recalibrationRequested = true)
      {ok : Bool} {center : CenterResult F} {range : RangeResult F} {post : StickSample F}
      {now : Time} {w₁ w₂ w₃ : W}
      (hsweep : Ports.runSweep common.center common.range (report.send w) = (ok, center, range, w₁))
      (hpost : Ports.readStick w₁ = (post, w₂)) (hnow : Ports.now w₂ = (now, w₃)) :
      CommonTick input common w (common.recalibrationDone ok center range) (report.send w₃)
  | rested (report : HidReport F) (hheld : holdsOutput input = false)
      (hfaulted : common.sensor.faulted = false) (hrequested : input.recalibrationRequested = false)
      {drift : DriftCompensator F}
      (hupdate : common.drift.update input.stick.rawX input.stick.rawY
        (FloatMath.hypot input.stick.x input.stick.y) common.center input.now =
          (false, drift, common.center)) :
      CommonTick input common w { common with drift := drift } (report.send w)
  | nudged (report : HidReport F) (hheld : holdsOutput input = false)
      (hfaulted : common.sensor.faulted = false) (hrequested : input.recalibrationRequested = false)
      {drift : DriftCompensator F} {center pushed : CenterResult F} {w₁ : W}
      (hupdate : common.drift.update input.stick.rawX input.stick.rawY
        (FloatMath.hypot input.stick.x input.stick.y) common.center input.now =
          (true, drift, center))
      (hpush : Ports.applyDrift center common.range (report.send w) = (pushed, w₁)) :
      CommonTick input common w
        { common with
          drift := drift, center := pushed, driftNudgeCount := common.driftNudgeCount + 1 }
        (if (common.driftNudgeCount + 1) % saveEveryNNudges = 0 then Ports.saveToFlash w₁ else w₁)

/-- After the monitor ran, a tick leaves its part of the state alone. -/
theorem CommonTick.sameSensor {input : StepInput F}
    {common common' : CommonState F} {w w' : W} (h : CommonTick input common w common' w') :
    common'.SameSensor common := by
  cases h with
  | quiet => exact .refl common
  | swept => exact ⟨rfl, rfl, rfl, rfl, rfl⟩
  | rested => exact ⟨rfl, rfl, rfl, rfl, rfl⟩
  | nudged => exact ⟨rfl, rfl, rfl, rfl, rfl⟩

omit [FloatMath F] in
/-- The two outcomes of `drift_step` on an output that asks for nothing yet. -/
theorem driftStep_cases (common : CommonState F) (input : StepInput F) (magnitude : F)
    (out : StepOutput F) (hsave : out.saveCalibration = false) :
    (∃ drift, common.drift.update input.stick.rawX input.stick.rawY magnitude common.center
          input.now = (false, drift, common.center) ∧
        driftStep common input magnitude out = ({ common with drift := drift }, out)) ∨
    ∃ drift center, common.drift.update input.stick.rawX input.stick.rawY magnitude common.center
          input.now = (true, drift, center) ∧
        driftStep common input magnitude out =
          ({ common with
              drift := drift, center := center, driftNudgeCount := common.driftNudgeCount + 1 },
            { out with
              driftApplied := true
              saveCalibration :=
                decide ((common.driftNudgeCount + 1) % saveEveryNNudges = 0) }) := by
  have hkept := @DriftCompensator.update_center_of_not_nudged _ _ common.drift input.stick.rawX
    input.stick.rawY magnitude common.center input.now
  unfold driftStep
  revert hkept
  rcases common.drift.update input.stick.rawX input.stick.rawY magnitude common.center
    input.now with ⟨_ | _, drift, center⟩
  · intro hkept
    obtain rfl : center = common.center := hkept rfl
    exact .inl ⟨drift, rfl, rfl⟩
  · intro _
    exact .inr ⟨drift, center, rfl, by simp [hsave]⟩

theorem mouseStep_of_requested {s : MouseState F} {input : StepInput F}
    (h : input.recalibrationRequested = true) :
    mouseStep s input = (s.releaseNudge, recalibrationOutput) := by
  unfold mouseStep
  rw [if_pos h]

theorem xacStep_of_requested {s : XacState F} {input : StepInput F}
    (h : input.recalibrationRequested = true) : xacStep s input = (s, recalibrationOutput) := by
  unfold xacStep
  rw [if_pos h]

omit [FloatMath F] in
/-- The edge's flag is the monitor's fault after the sample. -/
theorem sensorFaultUpdate_faulted (common : CommonState F) (input : StepInput F) (w : W) :
    (sensorFaultUpdate common input w).1.faulted =
      (sensorFaultUpdate common input w).2.1.sensor.faulted :=
  SensorFaultMonitor.update_fst ..

/-- The mouse state once the monitor's edges were acted on. -/
def MouseState.sensed (s : MouseState F) (edge : FaultEdge) (common : CommonState F)
    (input : StepInput F) : MouseState F :=
  let tripped := if edge.tripped then { s with common := common }.releaseNudge
    else { s with common := common }
  if edge.recovered then
    { tripped.rebase input.now input.stick.x input.stick.y with initialised := true }
  else tripped

omit [MachineFloat F] [FloatMath F] in
@[simp] theorem MouseState.sensed_common (s : MouseState F) (edge : FaultEdge)
    (common : CommonState F) (input : StepInput F) :
    (s.sensed edge common input).common = common := by
  unfold MouseState.sensed
  dsimp only
  split_ifs <;> rfl

/-- The mouse state a step leaves, and the report it sends, before drift. -/
def MouseState.pointed (s : MouseState F) (input : StepInput F) : MouseState F × MouseReport :=
  let started := s.initialise input
  let duration := (input.now - started.windowStart).tdiv 1000000
  ((started.nudgeSwitch input).nudgeWindow input duration
    (FloatMath.hypot input.stick.x input.stick.y)).report input

@[simp] theorem MouseState.pointed_common (s : MouseState F) (input : StepInput F) :
    (s.pointed input).1.common = s.common := by
  unfold MouseState.pointed
  simp

theorem mouseStep_of_not_requested {s : MouseState F} {input : StepInput F}
    (h : input.recalibrationRequested = false) :
    mouseStep s input =
      let drifted := driftStep s.common input (FloatMath.hypot input.stick.x input.stick.y)
        { (StepOutput.default : StepOutput F) with
          sendReport := true, mouse := (s.pointed input).2 }
      ({ (s.pointed input).1 with common := drifted.1 }, drifted.2) := by
  unfold mouseStep
  rw [if_neg (by simp [h]), ← s.pointed_common input]
  rfl

theorem xacStep_of_not_requested {s : XacState F} {input : StepInput F}
    (h : input.recalibrationRequested = false) :
    xacStep s input =
      let drifted := driftStep s.common input (FloatMath.hypot input.stick.x input.stick.y)
        { (StepOutput.default : StepOutput F) with
          sendReport := true, xac := ⟨input.stick.x, input.stick.y⟩ }
      ({ s with common := drifted.1 }, drifted.2) := by
  unfold xacStep
  rw [if_neg (by simp [h])]

theorem mouseTick_common (s : MouseState F) (input : StepInput F) (w : W) :
    CommonTick input (sensorFaultUpdate s.common input w).2.1
      (sensorFaultUpdate s.common input w).2.2 (mouseTick s input w).1.common
      (mouseTick s input w).2 := by
  have hfault := sensorFaultUpdate_faulted s.common input w
  unfold mouseTick
  revert hfault
  rcases sensorFaultUpdate s.common input w with ⟨edge, common, w⟩
  intro hfault
  dsimp only at hfault ⊢
  -- the cases in the order of `tick`: held, quiet because of a fault, swept, moved
  by_cases hheld : holdsOutput input = true
  · rw [if_pos hheld]
    exact .quiet (.mouse {}) HidReport.neutral_mouse (.inl hheld)
  rw [if_neg hheld]
  rw [Bool.not_eq_true] at hheld
  -- a recovery resets the mouse's own state, of which nothing is read here
  generalize hbase : (if edge.recovered = true then _ else _ : MouseState F) = base
  have hcommon : base.common = common := by
    rw [← hbase]
    exact s.sensed_common edge common input
  clear hbase
  by_cases hquiet : (edge.faulted && !input.recalibrationRequested) = true
  · rw [if_pos hquiet]
    rw [Bool.and_eq_true, Bool.not_eq_true', hfault] at hquiet
    dsimp only
    rw [hcommon]
    exact .quiet (.mouse {}) HidReport.neutral_mouse (.inr hquiet)
  rw [if_neg hquiet]
  cases hrequested : input.recalibrationRequested with
  | true =>
      rw [mouseStep_of_requested hrequested]
      simp only [recalibrationOutput, ite_true, MouseState.releaseNudge_common, hcommon,
        MouseState.recalibrationDone]
      exact .swept (.mouse {}) HidReport.neutral_mouse hheld hrequested rfl rfl rfl
  | false =>
      -- not quiet and no request: the sensor is in order
      have hfaulted : common.sensor.faulted = false := by
        rw [← hfault]
        simpa [hrequested] using hquiet
      rw [mouseStep_of_not_requested hrequested, hcommon]
      rcases driftStep_cases common input (FloatMath.hypot input.stick.x input.stick.y)
          { (StepOutput.default : StepOutput F) with
            sendReport := true, mouse := (base.pointed input).2 } rfl with
        ⟨drift, hupdate, hstep⟩ | ⟨drift, center, hupdate, hstep⟩
      · rw [hstep]
        exact .rested (.mouse (base.pointed input).2) hheld hfaulted hrequested hupdate
      · rw [hstep]
        have hticked := CommonTick.nudged (w := w) (.mouse (base.pointed input).2) hheld hfaulted
          hrequested hupdate rfl
        simp only [ite_true, StepOutput.default, Bool.false_eq_true, ite_false, decide_eq_true_eq]
        exact hticked

theorem xacTick_common (s : XacState F) (input : StepInput F) (w : W) :
    CommonTick input (sensorFaultUpdate s.common input w).2.1
      (sensorFaultUpdate s.common input w).2.2 (xacTick s input w).1.common
      (xacTick s input w).2 := by
  have hfault := sensorFaultUpdate_faulted s.common input w
  unfold xacTick
  revert hfault
  rcases sensorFaultUpdate s.common input w with ⟨edge, common, w⟩
  intro hfault
  dsimp only at hfault ⊢
  by_cases hheld : holdsOutput input = true
  · rw [if_pos hheld]
    exact .quiet (.xac .default) HidReport.neutral_xac (.inl hheld)
  rw [if_neg hheld]
  rw [Bool.not_eq_true] at hheld
  by_cases hquiet : (edge.faulted && !input.recalibrationRequested) = true
  · rw [if_pos hquiet]
    rw [Bool.and_eq_true, Bool.not_eq_true', hfault] at hquiet
    exact .quiet (.xac .default) HidReport.neutral_xac (.inr hquiet)
  rw [if_neg hquiet]
  cases hrequested : input.recalibrationRequested with
  | true =>
      rw [xacStep_of_requested hrequested]
      simp only [recalibrationOutput, ite_true]
      exact .swept (.xac .default) HidReport.neutral_xac hheld hrequested rfl rfl rfl
  | false =>
      have hfaulted : common.sensor.faulted = false := by
        rw [← hfault]
        simpa [hrequested] using hquiet
      rw [xacStep_of_not_requested hrequested]
      rcases driftStep_cases common input (FloatMath.hypot input.stick.x input.stick.y)
          { (StepOutput.default : StepOutput F) with
            sendReport := true, xac := ⟨input.stick.x, input.stick.y⟩ } rfl with
        ⟨drift, hupdate, hstep⟩ | ⟨drift, center, hupdate, hstep⟩
      · rw [hstep]
        exact .rested (.xac ⟨input.stick.x, input.stick.y⟩) hheld hfaulted hrequested hupdate
      · rw [hstep]
        have hticked := CommonTick.nudged (w := w) (.xac ⟨input.stick.x, input.stick.y⟩) hheld
          hfaulted hrequested hupdate rfl
        simp only [ite_true, StepOutput.default, Bool.false_eq_true, ite_false, decide_eq_true_eq]
        exact hticked

end OmegaStick
