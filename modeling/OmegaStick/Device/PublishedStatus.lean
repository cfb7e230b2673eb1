import OmegaStick.Device.SensorStatus

/-!
# The status and the monitor

GET_DIAGNOSTICS reports the sensor's fault, its first fault and the trips since boot as
`sensor_fault_changed` last published them, and that is called on the edges between
healthy and faulted only.  The monitor can also trip with the other kind while it is in
fault, which changes its fault and its count and is no edge: a run's status follows the
monitor throughout exactly when that never happens (`published_iff`).
-/

namespace OmegaStick

open MachineFloat SensorFaultMonitor SensorPoll History TransitionSystem

variable {F O : Type*}

/-- What GET_DIAGNOSTICS says about the sensor is what the monitor says, once the sensor
was observed healthy or has tripped. -/
def Sensing.Published (s : Sensing F O) : Prop :=
  s.common.sensorObserved = true ∨ s.monitor.firstFault ≠ .none →
    s.diagnostics.sensorFault = s.monitor.fault.code ∧
      s.diagnostics.sensorFirstFault = s.monitor.firstFault.code ∧
      s.diagnostics.sensorFaultCount = s.monitor.faultCount

instance (s : Sensing F O) : Decidable s.Published :=
  inferInstanceAs (Decidable (_ ∨ _ → _ ∧ _ ∧ _))

theorem SensorFaultMonitor.Fault.code_injective {a b : Fault} (h : a.code = b.code) : a = b := by
  revert h
  cases a <;> cases b <;> decide

section Runs

variable [MachineFloat F]

/-- While the sensor is in fault, the step completes no trip condition of the other kind. -/
def Sensing.OneKind (s : Sensing F O) : PollingStep F → Prop
  | .iterate it => InFault s.config s.polls →
      completed s.config (it.stick.poll :: s.polls) = .none ∨
        completed s.config (it.stick.poll :: s.polls) = lastTrip s.config s.polls
  | .edit _ => True

variable [FloatMath F]

omit [FloatMath F] in
/-- A poll after which there is no fault publishes what the monitor says. -/
theorem Sensing.Watched.published_healthy {s : Sensing F O} (h : s.Watched)
    (hdown : s.common.sensor.faulted = false) : s.Published := by
  intro hguard
  obtain ⟨hcount, hbyte⟩ := h.healthy hdown
  have hnone : s.common.sensor.fault = .none := by simpa [faulted] using hdown
  refine ⟨?_, h.firstFault, hcount⟩
  rcases hbyte with ⟨hzero, -⟩ | ⟨-, hobserved, hfirst⟩
  · change s.device.shared.outside.sensorStatus.fault = s.common.sensor.fault.code
    rw [hzero, hnone]
    rfl
  · change s.common.sensorObserved = true ∨ s.common.sensor.firstFault ≠ .none at hguard
    simp [hobserved, hfirst] at hguard

/-- While the sensor is in fault an iteration publishes its edge and nothing else. -/
theorem Sensing.edge_of_faulted (s : Sensing F O) {it : Iteration F}
    (hnow : (s.next (.iterate it)).common.sensor.faulted = true) :
    (s.next (.iterate it)).device.shared.outside.sensorStatus =
      s.device.shared.outside.sensorStatus.edge s.common
        (s.next (.iterate it)).common.sensor := by
  rcases (s.iterate_polled it).status with ⟨-, hstatus⟩ | ⟨-, hdown, -⟩
  · exact hstatus
  · exact Bool.noConfusion (hnow.symm.trans hdown)

/-- The edge into a fault is published with the monitor's fault and count. -/
theorem Sensing.Watched.published_tripped {s : Sensing F O} (h : s.Watched) {it : Iteration F}
    (hbefore : s.common.sensor.faulted = false)
    (hnow : (s.next (.iterate it)).common.sensor.faulted = true) :
    (s.next (.iterate it)).Published := by
  have hchanged : (s.next (.iterate it)).common.sensor.faulted ≠ s.common.sensorWasFaulted := by
    rw [hnow, h.sensorWasFaulted, hbefore]
    decide
  have hedge := s.edge_of_faulted hnow
  have hfirst := (h.next (.iterate it)).firstFault
  rw [hedge] at hfirst
  intro _
  simp only [Sensing.diagnostics, Device.diagnostics, hedge]
  rw [SensorFaultStatus.edge_of_changed hchanged, hnow] at hfirst ⊢
  exact ⟨rfl, hfirst, rfl⟩

/-- Inside a fault nothing is published, so the status stays the monitor's exactly when the
monitor's fault and count stay. -/
theorem Sensing.Watched.published_inFault_iff {s : Sensing F O} (h : s.Watched) (hq : s.Published)
    {it : Iteration F} (hbefore : s.common.sensor.faulted = true)
    (hnow : (s.next (.iterate it)).common.sensor.faulted = true) :
    (s.next (.iterate it)).Published ↔ s.OneKind (.iterate it) := by
  have hpositive : s.config.Positive := s.device.loop.sensorConfig_positive
  have hnext := h.next (.iterate it)
  have hsensor := (s.iterate_polled it).sensor
  have hsame : (s.next (.iterate it)).common.sensor.faulted = s.common.sensorWasFaulted := by
    rw [hnow, h.sensorWasFaulted, hbefore]
  have hedge := s.edge_of_faulted hnow
  rw [SensorFaultStatus.edge_of_same hsame] at hedge
  have hfault := (h.tracks.faulted_iff hpositive).mp hbefore
  have hafter := hnow
  rw [hsensor] at hafter
  obtain ⟨hkept, hother⟩ := h.tracks.poll_inFault hpositive it.stick.poll hafter
  obtain ⟨hbyte, hfirst, hcount⟩ := hq (.inr (h.inFault hbefore).2)
  rw [← hsensor] at hkept hother
  rw [h.kind hbefore] at hkept hother
  constructor
  · -- the other kind would have changed the monitor's fault, but not the byte
    intro hpublished _
    obtain ⟨hbyte', -, -⟩ := hpublished (.inr (hnext.inFault hnow).2)
    have hkind := Fault.code_injective (hbyte'.symm.trans
      ((congrArg SensorFaultStatus.fault hedge).trans hbyte))
    by_contra hcrossed
    rw [not_or] at hcrossed
    exact hother hcrossed.1 hcrossed.2 (hkind.trans (h.kind hbefore))
  · intro hone _
    obtain ⟨hfault', hcount'⟩ := hkept (hone hfault)
    refine ⟨?_, hnext.firstFault, ?_⟩
    · show (s.next (.iterate it)).device.shared.outside.sensorStatus.fault =
        (s.next (.iterate it)).common.sensor.fault.code
      rw [hedge, hfault', ← h.kind hbefore]
      exact hbyte
    · show (s.next (.iterate it)).device.shared.outside.sensorStatus.count =
        (s.next (.iterate it)).common.sensor.faultCount
      rw [hedge, hcount']
      exact hcount

/-- One step keeps the status that of the monitor exactly when no trip condition of the
other kind is completed while the sensor is in fault. -/
theorem Sensing.Watched.published_next_iff {s : Sensing F O} (h : s.Watched) (hq : s.Published)
    (step : PollingStep F) : (s.next step).Published ↔ s.OneKind step := by
  have hpositive : s.config.Positive := s.device.loop.sensorConfig_positive
  cases step with
  | edit edit =>
      obtain ⟨hcommon, -, -, hstatus⟩ := s.edit_status edit
      have hkept : (s.next (.edit edit)).Published := by
        simp only [Sensing.Published, Sensing.monitor, Sensing.diagnostics, Device.diagnostics,
          hcommon, hstatus] at hq ⊢
        exact hq
      exact ⟨fun _ => trivial, fun _ => hkept⟩
  | iterate it =>
      cases hnow : (s.next (.iterate it)).common.sensor.faulted with
      | false =>
          refine ⟨fun _ _ => .inl ?_, fun _ => (h.next (.iterate it)).published_healthy hnow⟩
          by_contra hcompleted
          have hup := h.tracks.faulted_of_completed hpositive it.stick.poll hcompleted
          rw [(s.iterate_polled it).sensor] at hnow
          exact Bool.noConfusion (hup.symm.trans hnow)
      | true =>
          cases hbefore : s.common.sensor.faulted with
          | false =>
              have hhealthy : ¬ InFault s.config s.polls := fun hfault => by
                have hup := (h.tracks.faulted_iff hpositive).mpr hfault
                exact Bool.noConfusion (hup.symm.trans hbefore)
              exact ⟨fun _ hfault => absurd hfault hhealthy,
                fun _ => h.published_tripped hbefore hnow⟩
          | true => exact h.published_inFault_iff hq hbefore hnow

variable [FloatText F]

/-- **The published status follows the monitor** throughout a run, once the sensor was
observed healthy or has tripped, exactly when no poll of the run completes a trip
condition of the other kind while the sensor is in fault. -/
theorem published_iff {s t : Sensing F O} (hs : s.Booted)
    {steps : List (Sensing F O × PollingStep F × Sensing F O)} (hpath : Path sensing s steps t) :
    (∀ x ∈ steps, x.2.2.Published) ↔ ∀ x ∈ steps, x.1.OneKind x.2.1 := by
  have hwatched := hs.watched
  have hinit : s.Published := hwatched.published_healthy (by
    by_contra hup
    obtain ⟨hbyte, -⟩ := hwatched.inFault (by simpa using hup)
    rw [hs.2.1] at hbyte
    exact absurd hbyte (by decide))
  refine hpath.forall_iff (I := Sensing.Watched) ?_ ?_ hwatched hinit
  · rintro s step t h rfl
    exact h.next step
  · rintro s step t h hq rfl
    exact h.published_next_iff hq step

end Runs

/-- A poll that fails. -/
def failsToAnswer (i : ℕ) : PollingStep ℚ :=
  .iterate
    { stick := ⟨0, 0, 0, 0, false, none⟩
      now := i * 10000000
      recalibrationRequested := false
      outputHold := false
      readings := fun _ => none
      postSweep := ⟨0, 0, 0, 0, false, none⟩
      clock := 0 }

/-- A poll whose conversion counter stands still. -/
def standsStill (i : ℕ) : PollingStep ℚ :=
  .iterate
    { stick := ⟨0, 0, i, 0, true, some 5⟩
      now := i * 10000000
      recalibrationRequested := false
      outputHold := false
      readings := fun _ => none
      postSweep := ⟨0, 0, 0, 0, false, none⟩
      clock := 0 }

/-- Three failed reads from boot are one edge, and published as the monitor has it. -/
theorem published_iff_failing :
    List.Forall (fun x => x.1.OneKind x.2.1)
      (runSteps Sensing.next answeringBoard ((List.range 3).map failsToAnswer)) := by
  have hbooted : answeringBoard.Booted := ⟨neutral_blankBoard.1, rfl, rfl⟩
  have hpath := path_runSteps Sensing.Booted Sensing.next ((List.range 3).map failsToAnswer)
    answeringBoard
  exact List.forall_iff_forall_mem.mpr ((published_iff hbooted hpath).mp (by decide +kernel))

/-- A frozen conversion counter trips the monitor; when the sensor then stops answering
the monitor's fault becomes `READ_FAILED` and its count two, and the status still says
`STUCK` and one. -/
theorem not_published_stuckThenFailed :
    answeringBoard.Booted ∧
      ¬ (((List.range 51).map standsStill ++ (List.range 3).map failsToAnswer).foldl
        Sensing.next answeringBoard).Published :=
  ⟨⟨neutral_blankBoard.1, rfl, rfl⟩, by decide +kernel⟩

end OmegaStick
