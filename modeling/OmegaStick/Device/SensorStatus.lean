import OmegaStick.Calibration.MonitorHistory
import OmegaStick.Device.Neutral

/-!
# The published sensor status

What GET_DIAGNOSTICS says about the sensor, over every run of the polling loop from
a boot.  `Sensing` keeps the polls of the run beside the device, and `Watched` is
what the loop's counters and the published bytes say about them: the status is never
healthy before the sensor has answered enough polls in a row, and a published fault
only clears after as many good ones (`never_healthy_unseen`).
-/

namespace OmegaStick

open MachineFloat SensorFaultMonitor SensorPoll History TransitionSystem

variable {F O : Type*}

/-! ## The status across a tick -/

section Ticks

variable [MachineFloat F] [FloatMath F]

/-- After the monitor ran, a tick publishes nothing. -/
theorem TickOutcome.sensorStatus {input : StepInput F} {common common' : CommonState F}
    {w w' : EspWorld F O} (h : TickOutcome common w input common' w') :
    w'.outside.sensorStatus = w.outside.sensorStatus := by
  cases h with
  | held => rfl
  | swept =>
      simp only [EspWorld.runSweep]
      split <;> rfl
  | moved => rfl
  | drifted => rfl

end Ticks

/-! ## One sample -/

/-- What the sensor monitor is given of a sample. -/
def StickSample.poll (stick : StickSample F) : SensorPoll F :=
  ⟨stick.readOk, stick.rawX, stick.rawY, stick.conversionCount⟩

/-- The status once the edge of a poll, if there is one, is published. -/
def SensorFaultStatus.edge (status : SensorFaultStatus) (common : CommonState F)
    (sensor : SensorFaultMonitor F) : SensorFaultStatus :=
  if sensor.faulted != common.sensorWasFaulted then
    status.publish sensor.faulted sensor.fault sensor.faultCount
  else status

/-- The state and the published status before and after one poll of the sensor. -/
structure Polled [MachineFloat F] (p : SensorPoll F) (common common' : CommonState F)
    (status status' : SensorFaultStatus) : Prop where
  sensor : common'.sensor = (common.sensor.poll p).2
  sensorWasFaulted : common'.sensorWasFaulted = common'.sensor.faulted
  goodReads : common'.goodReads = if p.readOk then common.goodReads + 1 else 0
  observeAfterGoodReads : common'.observeAfterGoodReads = common.observeAfterGoodReads
  status :
    (common'.sensorObserved = common.sensorObserved ∧ status' = status.edge common common'.sensor) ∨
      common'.sensorObserved = true ∧ common'.sensor.faulted = false ∧
        common.observeAfterGoodReads ≤ common'.goodReads ∧
        status' = (status.edge common common'.sensor).observedHealthy

theorem observed_polled [MachineFloat F] [FloatMath F] (common : CommonState F)
    (input : StepInput F) (w : EspWorld F O) :
    Polled input.stick.poll common (observed common input w).1 w.outside.sensorStatus
      (observed common input w).2.outside.sensorStatus where
  sensor := rfl
  sensorWasFaulted := SensorFaultMonitor.update_fst ..
  goodReads := rfl
  observeAfterGoodReads := rfl
  status := by
    have hfaulted := faulted_observed common input w
    unfold SensorFaultStatus.edge
    rw [← hfaulted]
    unfold observed sensorFaultUpdate
    rcases common.sensor.update input.stick.readOk input.stick.rawX input.stick.rawY
      input.stick.conversionCount with ⟨faulted, sensor⟩
    dsimp only
    generalize hobserves : (!common.sensorObserved && !faulted &&
      decide (common.observeAfterGoodReads ≤
        if input.stick.readOk then common.goodReads + 1 else 0)) = observes
    cases observes with
    | false =>
        refine .inl ⟨Bool.or_false _, ?_⟩
        cases faulted != common.sensorWasFaulted <;> rfl
    | true =>
        simp only [Bool.and_eq_true, Bool.not_eq_true', decide_eq_true_eq] at hobserves
        refine .inr ⟨Bool.or_true _, hobserves.1.2, hobserves.2, ?_⟩
        cases faulted != common.sensorWasFaulted <;> rfl

/-! ## What the state says about the polls -/

section Watched

variable [MachineFloat F]

/-- The sensor has answered as many polls in a row as a recovery needs. -/
def Seen (config : SensorFaultMonitor.Config) (polls : List (SensorPoll F)) : Prop :=
  ∃ seen, seen <:+ polls ∧ Lasted Read config.recoverAfterGoodReads.toNat seen

/-- What the loop's state and the published status say about the polls so far. -/
structure Watched (config : SensorFaultMonitor.Config) (polls : List (SensorPoll F))
    (common : CommonState F) (status : SensorFaultStatus) : Prop where
  tracks : Tracks config polls common.sensor
  kind : common.sensor.faulted = true → common.sensor.fault = lastTrip config polls
  sensorWasFaulted : common.sensorWasFaulted = common.sensor.faulted
  goodReads : common.goodReads = streak Read polls
  observeAfterGoodReads : common.observeAfterGoodReads = config.recoverAfterGoodReads
  firstFault : status.firstFault = common.sensor.firstFault.code
  /-- Without a fault the count is up to date, and the byte is healthy once the sensor
  was seen; until then nothing has tripped. -/
  healthy : common.sensor.faulted = false → status.count = common.sensor.faultCount ∧
    (status.fault = 0 ∧ Seen config polls ∨
      status.fault = sensorNotObserved ∧ common.sensorObserved = false ∧
        common.sensor.firstFault = .none)
  inFault : common.sensor.faulted = true → (status.fault = 1 ∨ status.fault = 2) ∧
    common.sensor.firstFault ≠ .none

variable {config : SensorFaultMonitor.Config} {polls : List (SensorPoll F)}
  {common common' : CommonState F} {status status' : SensorFaultStatus} {p : SensorPoll F}

omit [MachineFloat F] in
theorem Seen.cons (h : Seen config polls) (p : SensorPoll F) : Seen config (p :: polls) := by
  obtain ⟨seen, hseen, hread⟩ := h
  exact ⟨seen, hseen.trans (List.suffix_cons p polls), hread⟩

theorem SensorFaultMonitor.Recovers.seen (h : Recovers config polls) : Seen config polls :=
  ⟨polls, List.suffix_refl polls, h.1, fun i hi => (h.2 i hi).1⟩

omit [MachineFloat F] in
/-- A poll that does not change whether the sensor is in fault publishes no edge. -/
theorem SensorFaultStatus.edge_of_same {sensor : SensorFaultMonitor F}
    (h : sensor.faulted = common.sensorWasFaulted) : status.edge common sensor = status := by
  simp [SensorFaultStatus.edge, h]

omit [MachineFloat F] in
theorem SensorFaultStatus.edge_of_changed {sensor : SensorFaultMonitor F}
    (h : sensor.faulted ≠ common.sensorWasFaulted) :
    status.edge common sensor = status.publish sensor.faulted sensor.fault sensor.faultCount := by
  simp [SensorFaultStatus.edge, h]

omit [MachineFloat F] in
@[simp] theorem SensorFaultStatus.observedHealthy_count (status : SensorFaultStatus) :
    status.observedHealthy.count = status.count := by
  unfold SensorFaultStatus.observedHealthy
  split <;> rfl

omit [MachineFloat F] in
@[simp] theorem SensorFaultStatus.observedHealthy_firstFault (status : SensorFaultStatus) :
    status.observedHealthy.firstFault = status.firstFault := by
  unfold SensorFaultStatus.observedHealthy
  split <;> rfl

omit [MachineFloat F] in
theorem SensorFaultStatus.observedHealthy_fault
    (h : status.fault = 0 ∨ status.fault = sensorNotObserved) :
    status.observedHealthy.fault = 0 := by
  unfold SensorFaultStatus.observedHealthy
  rcases h with h | h <;> simp [h, sensorNotObserved]

theorem SensorFaultMonitor.Fault.code_of_ne_none {fault : Fault} (h : fault ≠ .none) :
    fault.code = 1 ∨ fault.code = 2 := by
  cases fault with
  | none => exact absurd rfl h
  | readFailed => exact .inl rfl
  | stuck => exact .inr rfl

/-- What an edge leaves while the sensor is in fault. -/
theorem Watched.edge_inFault (hpos : config.Positive)
    (h : Watched config polls common status)
    (hup : (common.sensor.poll p).2.faulted = true) :
    ((status.edge common (common.sensor.poll p).2).fault = 1 ∨
        (status.edge common (common.sensor.poll p).2).fault = 2) ∧
      (common.sensor.poll p).2.firstFault ≠ .none ∧
      (status.edge common (common.sensor.poll p).2).firstFault =
        (common.sensor.poll p).2.firstFault.code := by
  obtain ⟨hkept, hlatched⟩ := h.tracks.poll_firstFault hpos p
  have hfault : (common.sensor.poll p).2.fault ≠ .none := by
    simpa [faulted] using hup
  cases hbefore : common.sensor.faulted with
  | true =>
      obtain ⟨hbyte, hfirst⟩ := h.inFault hbefore
      have hsame : (common.sensor.poll p).2.faulted = common.sensorWasFaulted := by
        rw [hup, h.sensorWasFaulted, hbefore]
      rw [SensorFaultStatus.edge_of_same hsame, hkept hfirst]
      exact ⟨hbyte, hfirst, h.firstFault⟩
  | false =>
      have hchanged : (common.sensor.poll p).2.faulted ≠ common.sensorWasFaulted := by
        rw [hup, h.sensorWasFaulted, hbefore]
        decide
      rw [SensorFaultStatus.edge_of_changed hchanged, hup]
      refine ⟨Fault.code_of_ne_none hfault, ?_⟩
      -- the monitor and the status each latch their first fault, on the same edge
      by_cases hfirst : common.sensor.firstFault = .none
      · have hzero : status.firstFault = 0 := by rw [h.firstFault, hfirst]; rfl
        rw [hlatched hfirst hbefore hup]
        exact ⟨hfault, by simp [SensorFaultStatus.publish, hzero]⟩
      · have hset : status.firstFault ≠ 0 := by
          rw [h.firstFault]
          rcases Fault.code_of_ne_none hfirst with hcode | hcode <;> simp [hcode]
        rw [hkept hfirst]
        exact ⟨hfirst, by simpa [SensorFaultStatus.publish, hset] using h.firstFault⟩

/-- What an edge leaves while the sensor is not in fault. -/
theorem Watched.edge_healthy (hpos : config.Positive)
    (h : Watched config polls common status)
    (hdown : (common.sensor.poll p).2.faulted = false) :
    (status.edge common (common.sensor.poll p).2).count = (common.sensor.poll p).2.faultCount ∧
      (status.edge common (common.sensor.poll p).2).firstFault =
        (common.sensor.poll p).2.firstFault.code ∧
      ((status.edge common (common.sensor.poll p).2).fault = 0 ∧ Seen config (p :: polls) ∨
        (status.edge common (common.sensor.poll p).2).fault = sensorNotObserved ∧
          common.sensorObserved = false ∧ (common.sensor.poll p).2.firstFault = .none) := by
  obtain ⟨hfirst, hcount, hrecovers⟩ := h.tracks.poll_healthy hpos p hdown
  cases hbefore : common.sensor.faulted with
  | true =>
      have hchanged : (common.sensor.poll p).2.faulted ≠ common.sensorWasFaulted := by
        rw [hdown, h.sensorWasFaulted, hbefore]
        decide
      rw [SensorFaultStatus.edge_of_changed hchanged, hdown, hfirst]
      exact ⟨rfl, h.firstFault, .inl ⟨rfl, (hrecovers hbefore).seen⟩⟩
  | false =>
      have hsame : (common.sensor.poll p).2.faulted = common.sensorWasFaulted := by
        rw [hdown, h.sensorWasFaulted, hbefore]
      obtain ⟨hcount', hbyte⟩ := h.healthy hbefore
      rw [SensorFaultStatus.edge_of_same hsame, hfirst, hcount]
      refine ⟨hcount', h.firstFault, ?_⟩
      rcases hbyte with ⟨hbyte, hseen⟩ | hbyte
      · exact .inl ⟨hbyte, hseen.cons p⟩
      · exact .inr hbyte

/-- One poll of the sensor, with what it publishes. -/
theorem Watched.polled (hpos : config.Positive) (h : Watched config polls common status)
    (hp : Polled p common common' status status') :
    Watched config (p :: polls) common' status' := by
  have htracks := h.tracks.poll hpos p
  have hkind := h.tracks.fault_eq_lastTrip hpos h.kind p
  rw [← hp.sensor] at htracks hkind
  have hgood : common'.goodReads = streak Read (p :: polls) := by
    rw [hp.goodReads, h.goodReads, streak_cons]
    change (if p.readOk = true then _ else _) = ((if p.readOk = true then _ else _ : ℕ) : ℤ)
    split <;> simp
  have hobserve := hp.observeAfterGoodReads.trans h.observeAfterGoodReads
  have hedgeUp := h.edge_inFault (p := p) hpos
  have hedgeDown := h.edge_healthy (p := p) hpos
  rw [← hp.sensor] at hedgeUp hedgeDown
  rcases hp.status with ⟨hkept, hstatus⟩ | ⟨hobserved, hdown, henough, hstatus⟩
  · subst hstatus
    refine ⟨htracks, hkind, hp.sensorWasFaulted, hgood, hobserve, ?_, ?_, ?_⟩
    · cases hnow : common'.sensor.faulted with
      | true => exact (hedgeUp hnow).2.2
      | false => exact (hedgeDown hnow).2.1
    · intro hdown
      obtain ⟨hcount, -, hbyte⟩ := hedgeDown hdown
      rw [hkept]
      exact ⟨hcount, hbyte⟩
    · intro hup
      exact ⟨(hedgeUp hup).1, (hedgeUp hup).2.1⟩
  · -- observed healthy: the tick's own counter has seen enough good reads
    subst hstatus
    obtain ⟨hcount, hfirst, hbyte⟩ := hedgeDown hdown
    have hseen : Seen config (p :: polls) := by
      refine ⟨p :: polls, List.suffix_refl _, le_streak_iff.mp ?_⟩
      rw [h.observeAfterGoodReads, hgood] at henough
      omega
    have hzero : (status.edge common common'.sensor).observedHealthy.fault = 0 :=
      SensorFaultStatus.observedHealthy_fault (hbyte.imp And.left And.left)
    refine ⟨htracks, hkind, hp.sensorWasFaulted, hgood, hobserve, ?_, ?_, ?_⟩
    · rw [SensorFaultStatus.observedHealthy_firstFault]
      exact hfirst
    · intro _
      rw [SensorFaultStatus.observedHealthy_count]
      exact ⟨hcount, .inl ⟨hzero, hseen⟩⟩
    · intro hup
      exact Bool.noConfusion (hup.symm.trans hdown)

end Watched

/-! ## Runs of the polling loop -/

/-- The thresholds of the loop's monitor. -/
def LoopState.sensorConfig : LoopState F → SensorFaultMonitor.Config
  | .mouse _ => mouseSensorFaultConfig
  | .xac _ => xacSensorFaultConfig

theorem LoopState.sensorConfig_positive (loop : LoopState F) : loop.sensorConfig.Positive := by
  have hmouse : mouseSensorFaultConfig.Positive := ⟨by decide, by decide, by decide, by decide⟩
  have hxac : xacSensorFaultConfig.Positive := ⟨by decide, by decide, by decide, by decide⟩
  cases loop with
  | mouse _ => exact hmouse
  | xac _ => exact hxac

/-- The device, and every poll of its sensor since boot, newest first. -/
structure Sensing (F O : Type*) where
  device : Polling F O
  polls : List (SensorPoll F)

namespace Sensing

def common (s : Sensing F O) : CommonState F := s.device.loop.common

def config (s : Sensing F O) : SensorFaultMonitor.Config := s.device.loop.sensorConfig

def monitor (s : Sensing F O) : SensorFaultMonitor F := s.common.sensor

/-- What GET_DIAGNOSTICS answers. -/
def diagnostics (s : Sensing F O) : DiagnosticsData := s.device.shared.outside.diagnostics

variable [MachineFloat F] [FloatMath F]

def next (s : Sensing F O) : PollingStep F → Sensing F O
  | .iterate it => ⟨s.device.next (.iterate it), it.stick.poll :: s.polls⟩
  | .edit edit => ⟨s.device.next (.edit edit), s.polls⟩

/-- A device booted on any files, with the status `main.cpp` starts with. -/
def Booted [FloatText F] (s : Sensing F O) : Prop :=
  s.device.Booted ∧ s.device.shared.outside.sensorStatus = .new ∧ s.polls = []

end Sensing

section Runs

variable [MachineFloat F] [FloatMath F]

/-- Every run of the polling loop, with console edits in between. -/
def sensing [FloatText F] : TransitionSystem (Sensing F O) (PollingStep F) :=
  .ofFun Sensing.Booted Sensing.next

/-- `Watched`, of a device. -/
def Sensing.Watched (s : Sensing F O) : Prop :=
  OmegaStick.Watched s.config s.polls s.common s.device.shared.outside.sensorStatus

theorem LoopState.tick_sensorConfig (loop : LoopState F) (input : StepInput F)
    (w : EspWorld F O) : (loop.tick input w).1.sensorConfig = loop.sensorConfig := by
  cases loop <;> rfl

/-- An iteration polls the sensor once. -/
theorem Sensing.iterate_polled (s : Sensing F O) (it : Iteration F) :
    Polled it.stick.poll s.common (s.next (.iterate it)).common
      s.device.shared.outside.sensorStatus
      (s.next (.iterate it)).device.shared.outside.sensorStatus := by
  have hobserved := observed_polled s.common (it.input s.device.shared) (it.world s.device.shared)
  have hsame := (s.device.loop.tick_common (it.input s.device.shared)
    (it.world s.device.shared)).sameSensor
  have hstatus := (s.device.loop.tick_outcome (it.input s.device.shared)
    (it.world s.device.shared)).sensorStatus
  have hcommon : (s.next (.iterate it)).common =
      (s.device.loop.tick (it.input s.device.shared) (it.world s.device.shared)).1.common := rfl
  have hworld : (s.next (.iterate it)).device.shared.outside.sensorStatus =
      (s.device.loop.tick (it.input s.device.shared)
        (it.world s.device.shared)).2.outside.sensorStatus := rfl
  rw [hcommon, hworld, hstatus]
  exact
    { sensor := hsame.sensor.trans hobserved.sensor
      sensorWasFaulted := by
        rw [hsame.sensorWasFaulted, hsame.sensor]
        exact hobserved.sensorWasFaulted
      goodReads := hsame.goodReads.trans hobserved.goodReads
      observeAfterGoodReads :=
        hsame.observeAfterGoodReads.trans hobserved.observeAfterGoodReads
      status := by
        rw [hsame.sensorObserved, hsame.sensor, hsame.goodReads]
        exact hobserved.status }

/-- A console edit leaves the sensor alone. -/
theorem Sensing.edit_status (s : Sensing F O) (edit : ConsoleEdit F) :
    (s.next (.edit edit)).common = s.common ∧ (s.next (.edit edit)).polls = s.polls ∧
      (s.next (.edit edit)).config = s.config ∧
      (s.next (.edit edit)).device.shared.outside.sensorStatus =
        s.device.shared.outside.sensorStatus := by
  refine ⟨rfl, rfl, rfl, ?_⟩
  simp only [Sensing.next, Polling.next]
  split <;> rfl

theorem Sensing.next_config (s : Sensing F O) (step : PollingStep F) :
    (s.next step).config = s.config := by
  cases step with
  | edit edit => exact (s.edit_status edit).2.2.1
  | iterate it => exact LoopState.tick_sensorConfig _ _ _

theorem Sensing.Watched.next {s : Sensing F O} (h : s.Watched) (step : PollingStep F) :
    (s.next step).Watched := by
  cases step with
  | edit edit =>
      obtain ⟨hcommon, hpolls, hconfig, hstatus⟩ := s.edit_status edit
      rw [Sensing.Watched, hcommon, hpolls, hconfig, hstatus]
      exact h
  | iterate it =>
      have hconfig := s.next_config (.iterate it)
      rw [Sensing.Watched, hconfig]
      exact h.polled s.device.loop.sensorConfig_positive (s.iterate_polled it)

variable [FloatText F]

omit [FloatMath F] in
theorem Sensing.Booted.watched {s : Sensing F O} (h : s.Booted) : s.Watched := by
  obtain ⟨⟨files, -, -, hloop, -, -⟩, hstatus, hpolls⟩ := h
  have hpositive := s.device.loop.sensorConfig_positive
  have hnew : s.common.sensor = .new s.config ∧ s.common.sensorWasFaulted = false ∧
      s.common.goodReads = 0 ∧
      s.common.observeAfterGoodReads = s.config.recoverAfterGoodReads ∧
      s.common.sensorObserved = false := by
    unfold Sensing.common Sensing.config
    rw [hloop, bootLoop]
    split <;> exact ⟨rfl, rfl, rfl, rfl, rfl⟩
  obtain ⟨hsensor, hwas, hgood, hafter, hobserved⟩ := hnew
  rw [Sensing.Watched, hstatus, hpolls]
  refine ⟨?_, ?_, ?_, ?_, hafter, ?_, ?_, ?_⟩
  · rw [hsensor]
    exact tracks_new hpositive
  · rw [hsensor]
    exact fun hup => Bool.noConfusion hup
  · rw [hwas, hsensor]
    rfl
  · rw [hgood]
    rfl
  · rw [hsensor]
    rfl
  · intro _
    rw [hsensor]
    exact ⟨rfl, .inr ⟨rfl, hobserved, rfl⟩⟩
  · rw [hsensor]
    exact fun hup => Bool.noConfusion hup

theorem watched_of_reachable {s : Sensing F O} (hs : sensing.Reachable s) : s.Watched := by
  refine Reachable.invariant (I := Sensing.Watched) ?_ ?_ hs
  · exact fun s h => h.watched
  · rintro s step t h rfl
    exact h.next step

/-- **Never healthy before it was seen healthy.**  In every reachable state the byte is
0 only if the sensor answered `recover_after_good_reads` polls in a row at some point
since boot; and a published fault is only ever replaced by another or by 0, and by 0
only when the last that many polls all succeeded and were not stuck. -/
theorem never_healthy_unseen {s : Sensing F O} (hs : sensing.Reachable s) :
    (s.diagnostics.sensorFault = 0 →
      ∃ seen, seen <:+ s.polls ∧ Lasted Read s.config.recoverAfterGoodReads.toNat seen) ∧
    ∀ step, s.diagnostics.sensorFault ≠ 0 → s.diagnostics.sensorFault ≠ sensorNotObserved →
      (s.next step).diagnostics.sensorFault ≠ sensorNotObserved ∧
        ((s.next step).diagnostics.sensorFault = 0 →
          Lasted (Good s.config) s.config.recoverAfterGoodReads.toNat (s.next step).polls) := by
  have hwatched := watched_of_reachable hs
  have hpositive : s.config.Positive := s.device.loop.sensorConfig_positive
  constructor
  · intro hzero
    change s.device.shared.outside.sensorStatus.fault = 0 at hzero
    cases hnow : s.common.sensor.faulted with
    | true =>
        rcases (hwatched.inFault hnow).1 with hbyte | hbyte <;> simp [hbyte] at hzero
    | false =>
        rcases (hwatched.healthy hnow).2 with ⟨-, hseen⟩ | ⟨hbyte, -⟩
        · exact hseen
        · simp [hbyte, sensorNotObserved] at hzero
  · intro step hnonzero hpublished
    change s.device.shared.outside.sensorStatus.fault ≠ 0 at hnonzero
    change s.device.shared.outside.sensorStatus.fault ≠ sensorNotObserved at hpublished
    -- only a sensor in fault has a published one
    have hup : s.common.sensor.faulted = true := by
      by_contra hdown
      rcases (hwatched.healthy (Bool.eq_false_iff.mpr hdown)).2 with ⟨hbyte, -⟩ | ⟨hbyte, -⟩
      · exact hnonzero hbyte
      · exact hpublished hbyte
    cases step with
    | edit edit =>
        obtain ⟨-, -, -, hstatus⟩ := s.edit_status edit
        change (s.next (.edit edit)).device.shared.outside.sensorStatus.fault ≠ _ ∧
          ((s.next (.edit edit)).device.shared.outside.sensorStatus.fault = 0 → _)
        rw [hstatus]
        exact ⟨hpublished, fun hzero => absurd hzero hnonzero⟩
    | iterate it =>
        have hnext := hwatched.next (.iterate it)
        have hpolled := (s.iterate_polled it).sensor
        change (s.next (.iterate it)).device.shared.outside.sensorStatus.fault ≠ _ ∧
          ((s.next (.iterate it)).device.shared.outside.sensorStatus.fault = 0 → _)
        cases hnow : (s.next (.iterate it)).common.sensor.faulted with
        | true =>
            rcases (hnext.inFault hnow).1 with hbyte | hbyte <;> simp [hbyte, sensorNotObserved]
        | false =>
            have hafter := hnow
            rw [hpolled] at hafter
            obtain ⟨hfirst, -, hrecovers⟩ :=
              hwatched.tracks.poll_healthy hpositive it.stick.poll hafter
            refine ⟨fun hbyte => ?_, fun _ => hrecovers hup⟩
            -- a first fault is latched, and the not-observed value means there is none
            rcases (hnext.healthy hnow).2 with ⟨hzero, -⟩ | ⟨-, -, hnone⟩
            · rw [hzero] at hbyte
              simp [sensorNotObserved] at hbyte
            · rw [hpolled, hfirst] at hnone
              exact (hwatched.inFault hup).2 hnone

/-- A board with empty files that polls a sensor which answers. -/
def answeringBoard : Sensing ℚ SimOta := ⟨blankBoard, []⟩

def answers (i : ℕ) : PollingStep ℚ :=
  .iterate
    { stick := ⟨0, 0, i, 0, true, none⟩
      now := i * 10000000
      recalibrationRequested := false
      outputHold := false
      readings := fun _ => none
      postSweep := ⟨0, 0, 0, 0, false, none⟩
      clock := 0 }

/-- Ten good reads since boot, and the status is healthy. -/
theorem never_healthy_unseen_answering :
    ∃ seen, seen <:+ (((List.range 10).map answers).foldl Sensing.next answeringBoard).polls ∧
      Lasted Read 10 seen := by
  have hbooted : answeringBoard.Booted := ⟨neutral_blankBoard.1, rfl, rfl⟩
  have hreached := (path_runSteps Sensing.Booted Sensing.next ((List.range 10).map answers)
    answeringBoard).reachable (.init hbooted)
  exact (never_healthy_unseen hreached).1 (by decide +kernel)

end Runs

end OmegaStick
