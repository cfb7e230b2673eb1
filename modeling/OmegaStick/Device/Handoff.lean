import OmegaStick.Device.SharedHold
import OmegaStick.Device.EspPorts

/-!
# The recalibration hand-off

START_CALIBRATION on either service, against the polling loop: an iteration
reads the hold, takes the request, runs its tick and finishes, and between any
two of these steps anything else may happen.

What the gate promises is the protocol `Phase`: a request is accepted, its one
sweep runs, the gate is finished, and so on.  Every run keeps to it
(`Handoff.Follows`); that each sweep belongs to one request, and the order of
the two, are facts about the protocol.
-/

namespace OmegaStick

open TransitionSystem

/-! ## The protocol -/

/-- What is observed of the hand-off. -/
inductive HandoffEvent where
  /-- A START_CALIBRATION was answered OK on this link. -/
  | accepted (id : LinkId)
  | swept
  | finished
  deriving DecidableEq, Repr

def HandoffEvent.isAccepted : HandoffEvent → Bool
  | accepted _ => true
  | _ => false

/-- `swept` lasts until the gate is finished. -/
inductive Phase where
  | idle
  | pending
  | swept
  deriving DecidableEq, Repr

namespace Phase

def next : Phase → HandoffEvent → Option Phase
  | idle, .accepted _ => some pending
  | pending, .swept => some swept
  | swept, .finished => some idle
  | _, _ => none

/-- The phase after a log; `none` when the log breaks the protocol. -/
def run (log : List HandoffEvent) : Option Phase := log.foldlM next idle

theorem run_append (log events : List HandoffEvent) :
    run (log ++ events) = (run log).bind fun phase => events.foldlM next phase :=
  List.foldlM_append

theorem run_concat {log : List HandoffEvent} {phase phase' : Phase} {event : HandoffEvent}
    (hlog : run log = some phase) (hevent : phase.next event = some phase') :
    run (log ++ [event]) = some phase' := by
  simp [run_append, hlog, hevent]

/-- Acceptances, sweeps and finishes take turns: how many of each there are
follows from the phase. -/
theorem counts_of_run {log : List HandoffEvent} :
    ∀ {phase : Phase}, run log = some phase →
      log.countP HandoffEvent.isAccepted = log.count .finished + (if phase = idle then 0 else 1) ∧
        log.count .swept = log.count .finished + if phase = swept then 1 else 0 := by
  induction log using List.reverseRecOn with
  | nil =>
      rintro phase h
      obtain rfl : idle = phase := Option.some.inj h
      exact ⟨rfl, rfl⟩
  | append_singleton log event ih =>
      intro phase h
      rw [run_append] at h
      cases hbefore : run log with
      | none => simp [hbefore] at h
      | some before =>
          obtain ⟨haccepted, hswept⟩ := ih hbefore
          have hnext : before.next event = some phase := by simpa [hbefore] using h
          cases before <;> cases event <;>
            simp only [next, Option.some.injEq, reduceCtorEq] at hnext <;> subst hnext <;>
            simp_all [List.countP_append, List.count_append, HandoffEvent.isAccepted]

/-- What a log that follows the protocol says of each of its prefixes. -/
theorem counts_of_prefix {log before : List HandoffEvent} (hlog : (run log).isSome)
    (hbefore : before <+: log) :
    before.count .finished ≤ before.count .swept ∧
      before.count .swept ≤ before.countP HandoffEvent.isAccepted ∧
      before.countP HandoffEvent.isAccepted ≤ before.count .finished + 1 := by
  obtain ⟨rest, rfl⟩ := hbefore
  cases hrun : run before with
  | none => simp [run_append, hrun] at hlog
  | some phase =>
      obtain ⟨haccepted, hswept⟩ := counts_of_run hrun
      rw [haccepted, hswept]
      cases phase <;> simp

end Phase

/-! ## The interleaving -/

variable {F O : Type*}

/-- Where the polling loop is in its iteration. -/
inductive LoopPc where
  | top
  /-- The hold was read. -/
  | held (hold : Bool)
  /-- The request was asked for, unless held. -/
  | taken (hold recal : Bool)
  | ticked (recal : Bool)
  deriving DecidableEq, Repr

/-- Whether this iteration took a request. -/
def LoopPc.recal : LoopPc → Bool
  | .top | .held _ => false
  | .taken _ recal | .ticked recal => recal

/-- Both services and the polling loop; what they did so far, oldest first. -/
structure Handoff (F O : Type*) extends TwoServices F O where
  loop : LoopState F
  pc : LoopPc
  log : List HandoffEvent
  notified : List (LinkId × Frame)

inductive HandoffStep (F : Type*) where
  /-- One locked section of a service, the health check, or anything else that
  leaves the gate alone. -/
  | services (step : TwoServicesStep F)
  /-- Holds come and go, also ones no service makes. -/
  | outputHolds (holds : ℤ)
  | readHold
  | take
  | tick (it : Iteration F)
  | finish

namespace Handoff

def gate (s : Handoff F O) : RecalibrationGate := s.shared.outside.recalibrationGate

def setGate (s : Handoff F O) (gate : RecalibrationGate) : Handoff F O :=
  { s with
    shared := { s.shared with outside := { s.shared.outside with recalibrationGate := gate } } }

/-- The step of the rest of the firmware, with the gate as it is. -/
def keepGate (s : Handoff F O) : TwoServicesStep F → TwoServicesStep F
  | .others store device => .others store { device with recalibrationGate := s.gate }
  | step => step

variable [MachineFloat F] [FloatMath F] [FloatBits F] [OtaEngine O] (errc : ErrcTable) (ota : Bool)

/-- What a service answers to START_CALIBRATION. -/
def answer (s : Handoff F O) (id : LinkId) (payload : List UInt8) (now : Time) : Option Frame :=
  ((s.link id).handleFrameLocked (calibrationConfig errc ota) Msg.startCalibration.code payload
    now).1

/-- The request a step of a service accepts, if any. -/
def acceptedBy (s : Handoff F O) : TwoServicesStep F → List HandoffEvent
  | .handleFrame id type payload now =>
      if type = Msg.startCalibration.code ∧
          s.answer errc ota id payload now = some (buildOk kModule 0) then [.accepted id]
      else []
  | _ => []

def next (s : Handoff F O) : HandoffStep F → Option (Handoff F O)
  | .services step =>
      (s.toTwoServices.next errc ota (s.keepGate step)).map fun two =>
        { s with toTwoServices := two, log := s.log ++ s.acceptedBy errc ota step }
  | .outputHolds holds =>
      some { s with
        shared := { s.shared with outside := { s.shared.outside with outputHolds := holds } } }
  | .readHold =>
      if s.pc = .top then
        some { s with pc := .held (decide (0 < s.shared.outside.outputHolds)) }
      else none
  | .take =>
      match s.pc with
      | .held true => some { s with pc := .taken true false }
      | .held false =>
          let (recal, gate) := s.gate.take
          some { s.setGate gate with pc := .taken false recal }
      | _ => none
  | .tick it =>
      match s.pc with
      | .taken hold recal =>
          let it := { it with outputHold := hold, recalibrationRequested := recal }
          let (loop, w) := s.loop.tick (it.input s.shared) (it.world s.shared)
          some { s with
            shared := w.toShared
            loop := loop
            pc := .ticked recal
            log := s.log ++ List.replicate w.sweeps .swept
            notified := s.notified ++ w.notifications }
      | _ => none
  | .finish =>
      match s.pc with
      | .ticked true =>
          some { s.setGate s.gate.finish with pc := .top, log := s.log ++ [.finished] }
      | .ticked false => some { s with pc := .top }
      | _ => none

end Handoff

/-- Fresh services, an idle gate, and the loop about to start. -/
def handoff [MachineFloat F] [FloatMath F] [FloatBits F] [OtaEngine O] (errc : ErrcTable)
    (ota : Bool) : TransitionSystem (Handoff F O) (HandoffStep F) :=
  .ofOption
    (fun s => (twoServices errc ota).init s.toTwoServices ∧ s.gate = .idle ∧ s.pc = .top ∧
      s.log = [] ∧ s.notified = [])
    (Handoff.next errc ota)

/-! ## What a request does to the gate -/

section Requests

variable [MachineFloat F] [FloatBits F] [OtaEngine O] (errc : ErrcTable) (ota : Bool)

/-- START_CALIBRATION asks the gate, and answers busy when it is not idle. -/
theorem handleFrameLocked_startCalibration (l : Link F O (Device F)) (now : Time) :
    l.handleFrameLocked (calibrationConfig errc ota) Msg.startCalibration.code [] now =
      if l.outside.recalibrationGate = .idle then
        (some (buildOk kModule 0),
          { l with outside := { l.outside with recalibrationGate := .requested } })
      else
        (some (buildError errc kModule (errc.makeErrorCode .deviceOrResourceBusy)
          (ascii "START_CALIBRATION could not be started")), l) := by
  have hcode : Msg.ofCode Msg.startCalibration.code = some .startCalibration := by decide
  simp only [Link.handleFrameLocked, hcode]
  obtain ⟨service, store, engine, ⟨gate, _⟩⟩ := l
  cases gate <;> rfl

/-- It takes no payload. -/
theorem handleFrameLocked_startCalibration_payload (l : Link F O (Device F)) {payload : List UInt8}
    (hpayload : payload ≠ []) (now : Time) :
    l.handleFrameLocked (calibrationConfig errc ota) Msg.startCalibration.code payload now =
      (some (buildError errc kModule (errc.makeErrorCode .invalidArgument)
        (ascii "START_CALIBRATION takes no payload")), l) := by
  have hcode : Msg.ofCode Msg.startCalibration.code = some .startCalibration := by decide
  simp only [Link.handleFrameLocked, hcode, Link.handleRequest, Link.handleStartCalibration,
    if_pos hpayload]
  rfl

omit [FloatBits F] [OtaEngine O] in
theorem buildError_ne_buildOk (ec : ErrorCode) (context : List UInt8) (value : UInt32) :
    buildError errc kModule ec context ≠ buildOk kModule value := by
  intro h
  have : Msg.error.code = Msg.ok.code := congrArg Frame.type h
  exact absurd this (by decide)

omit [FloatBits F] [OtaEngine O] in
theorem calibrationConfig_leaves_gate :
    (calibrationConfig (F := F) errc ota).Leaves Device.recalibrationGate where
  outputHold forward hforward hold device := by
    obtain rfl : Device.outputHold = forward := Option.some.inj hforward
    rfl
  saveToFlash _ _ := rfl
  onCalibrationChanged _ _ := rfl
  onModeChanged _ _ _ := rfl

end Requests

/-! ## What one tick does to the hand-off -/

section Tick

variable [MachineFloat F] [FloatMath F]

/-- The result frame a service is notified of. -/
def resultFrame (result : Option ErrorCode) : Frame :=
  build .calibrationResult (calibrationResultPayload result) kModule

theorem runSweep_handoff (w : EspWorld F O) (center : CenterResult F) (range : RangeResult F) :
    (w.runSweep center range).2.2.2.sweeps = w.sweeps + 1 ∧
      (w.runSweep center range).2.2.2.outside.recalibrationGate = w.outside.recalibrationGate ∧
      ∃ result, (w.runSweep center range).2.2.2.notifications =
        w.notifications ++ [(.vendor, resultFrame result), (.cdc, resultFrame result)] := by
  cases hsweep : sweepCalibration w.readings with
  | ok found =>
      rw [@EspWorld.runSweep_of_ok _ _ _ _ _ found.1 found.2 hsweep]
      exact ⟨rfl, rfl, none, rfl⟩
  | error e =>
      rw [EspWorld.runSweep_of_error hsweep]
      exact ⟨rfl, rfl, some e.toErrorCode, rfl⟩

/-- A tick sweeps once for a request it is not held for, and else not at all;
every sweep is told to both services. -/
theorem tick_handoff (loop : LoopState F) (it : Iteration F) (shared : Shared F O (Device F))
    (hhold : it.recalibrationRequested = true → it.outputHold = false) :
    let w := (loop.tick (it.input shared) (it.world shared)).2
    w.outside.recalibrationGate = shared.outside.recalibrationGate ∧
      (it.recalibrationRequested = false → w.sweeps = 0 ∧ w.notifications = []) ∧
      (it.recalibrationRequested = true → w.sweeps = 1 ∧ ∃ result, w.notifications =
        [(.vendor, resultFrame result), (.cdc, resultFrame result)]) := by
  obtain ⟨-, -, status, hworld⟩ := observed_spec loop.common (it.input shared) (it.world shared)
  have houtcome := loop.tick_outcome (it.input shared) (it.world shared)
  revert hworld houtcome
  generalize observed loop.common (it.input shared) (it.world shared) = seen
  generalize loop.tick (it.input shared) (it.world shared) = after
  obtain ⟨common, world⟩ := seen
  intro hworld houtcome
  dsimp only at hworld houtcome ⊢
  subst hworld
  -- a request that is not held for comes past the hold
  have hnotHeld : it.recalibrationRequested = true → holdsOutput (it.input shared) = false := by
    intro hrequested
    simp [holdsOutput, Iteration.input, hrequested, hhold hrequested]
  revert houtcome
  generalize after.2 = w
  intro houtcome
  cases houtcome with
  | held report _ hheld =>
      refine ⟨rfl, fun _ => ⟨rfl, rfl⟩, fun hrequested => ?_⟩
      rcases hheld with hheld | ⟨-, hnot⟩
      · simp [hnotHeld hrequested] at hheld
      · simp [Iteration.input, hrequested] at hnot
  | swept report _ _ hrequested =>
      obtain ⟨hsweeps, hgate, result, hnotifications⟩ := runSweep_handoff
        (EspWorld.send
          { it.world shared with outside := { shared.outside with sensorStatus := status } } report)
        common.center common.range
      exact ⟨hgate, fun hnot => absurd hrequested (by simp [Iteration.input, hnot]),
        fun _ => ⟨hsweeps, result, hnotifications⟩⟩
  -- and without a request nothing is swept
  | moved report _ _ hnot =>
      exact ⟨rfl, fun _ => ⟨rfl, rfl⟩,
        fun hrequested => by simp [Iteration.input, hrequested] at hnot⟩
  | drifted report nudged _ _ hnot =>
      exact ⟨rfl, fun _ => ⟨rfl, rfl⟩,
        fun hrequested => by simp [Iteration.input, hrequested] at hnot⟩

end Tick

/-! ## What one step does to the hand-off -/

section Steps

variable [MachineFloat F] [FloatMath F] [FloatBits F] [OtaEngine O] {errc : ErrcTable} {ota : Bool}
  {s t : Handoff F O}

/-- A step as the hand-off sees it. -/
inductive Move (s t : Handoff F O) : HandoffStep F → Prop where
  | quiet {step} (hgate : t.gate = s.gate) (hpc : t.pc = s.pc) (hlog : t.log = s.log)
      (hnotified : t.notified = s.notified) : Move s t step
  | accepted {step} (id : LinkId) (hidle : s.gate = .idle) (hgate : t.gate = .requested)
      (hpc : t.pc = s.pc) (hlog : t.log = s.log ++ [.accepted id])
      (hnotified : t.notified = s.notified) : Move s t (.services step)
  | readHold (hold : Bool) (htop : s.pc = .top) (hgate : t.gate = s.gate) (hpc : t.pc = .held hold)
      (hlog : t.log = s.log) (hnotified : t.notified = s.notified) : Move s t .readHold
  | skipped (hheld : s.pc = .held true) (hgate : t.gate = s.gate) (hpc : t.pc = .taken true false)
      (hlog : t.log = s.log) (hnotified : t.notified = s.notified) : Move s t .take
  | took (hheld : s.pc = .held false) (hgate : t.gate = s.gate.take.2)
      (hpc : t.pc = .taken false s.gate.take.1) (hlog : t.log = s.log)
      (hnotified : t.notified = s.notified) : Move s t .take
  | ticked (it : Iteration F) (hold recal : Bool) (htaken : s.pc = .taken hold recal)
      (hgate : (recal = true → hold = false) → t.gate = s.gate) (hpc : t.pc = .ticked recal)
      (hnone : recal = false → t.log = s.log ∧ t.notified = s.notified)
      (hsweep : recal = true → hold = false → t.log = s.log ++ [.swept] ∧
        ∃ result, t.notified =
          s.notified ++ [(.vendor, resultFrame result), (.cdc, resultFrame result)]) :
      Move s t (.tick it)
  | finished (hticked : s.pc = .ticked true) (hgate : t.gate = .idle) (hpc : t.pc = .top)
      (hlog : t.log = s.log ++ [.finished]) (hnotified : t.notified = s.notified) :
      Move s t .finish
  | returned (hticked : s.pc = .ticked false) (hgate : t.gate = s.gate) (hpc : t.pc = .top)
      (hlog : t.log = s.log) (hnotified : t.notified = s.notified) : Move s t .finish

omit [FloatMath F] in
/-- A frame leaves the gate alone, unless it is a request that is accepted. -/
theorem acceptedBy_handleFrame (s : Handoff F O) (id : LinkId) (type : UInt8)
    (payload : List UInt8) (now : Time) :
    let l := ((s.link id).handleFrameLocked (calibrationConfig errc ota) type payload now).2
    l.outside.recalibrationGate = s.gate ∧
        s.acceptedBy errc ota (.handleFrame id type payload now) = [] ∨
      s.gate = .idle ∧ l.outside.recalibrationGate = .requested ∧
        s.acceptedBy errc ota (.handleFrame id type payload now) = [.accepted id] := by
  by_cases htype : type = Msg.startCalibration.code
  · subst htype
    by_cases hpayload : payload = []
    · subst hpayload
      simp only [Handoff.acceptedBy, Handoff.answer, handleFrameLocked_startCalibration, true_and]
      by_cases hidle : (s.link id).outside.recalibrationGate = .idle
      · rw [if_pos hidle]
        exact .inr ⟨hidle, rfl, if_pos rfl⟩
      · rw [if_neg hidle]
        refine .inl ⟨rfl, if_neg ?_⟩
        simpa using buildError_ne_buildOk errc _ _ 0
    · simp only [Handoff.acceptedBy, Handoff.answer,
        handleFrameLocked_startCalibration_payload errc ota _ hpayload, true_and]
      refine .inl ⟨rfl, if_neg ?_⟩
      simpa using buildError_ne_buildOk errc _ _ 0
  · refine .inl ⟨?_, if_neg fun h => htype h.1⟩
    exact (calibrationConfig_leaves_gate errc ota).handleFrameLocked htype _ payload now

theorem move_services {step : TwoServicesStep F}
    (h : s.next errc ota (.services step) = some t) : Move s t (.services step) := by
  have hleaves := calibrationConfig_leaves_gate (F := F) errc ota
  simp only [Handoff.next, Option.map_eq_some_iff] at h
  obtain ⟨two, htwo, rfl⟩ := h
  cases step with
  | handleFrame id type payload now =>
      obtain rfl := Option.some.inj htwo
      rcases @acceptedBy_handleFrame _ _ _ _ _ errc ota s id type payload now with
        ⟨hgate, hlog⟩ | ⟨hidle, hgate, hlog⟩
      · exact .quiet hgate rfl (by rw [hlog, List.append_nil]) rfl
      · exact .accepted id hidle hgate rfl (by rw [hlog]) rfl
  | runAfterReply id queued =>
      obtain rfl := Option.some.inj htwo
      exact .quiet (hleaves.runAfterReply (s.link id) queued) rfl (List.append_nil _) rfl
  | abortUpdate id =>
      obtain rfl := Option.some.inj htwo
      exact .quiet (hleaves.abortUpdate (s.link id)) rfl (List.append_nil _) rfl
  | expireStaleUpdate id maxIdle now locked =>
      obtain rfl := Option.some.inj htwo
      exact .quiet (hleaves.expireStaleUpdate (s.link id) maxIdle now locked) rfl
        (List.append_nil _) rfl
  | healthCheck now =>
      simp only [Handoff.keepGate, TwoServices.next, Option.map_eq_some_iff] at htwo
      obtain ⟨_, -, rfl⟩ := htwo
      exact .quiet rfl rfl (List.append_nil _) rfl
  | others store device =>
      obtain rfl := Option.some.inj htwo
      exact .quiet rfl rfl (List.append_nil _) rfl

theorem move_tick {it : Iteration F} (h : s.next errc ota (.tick it) = some t) :
    Move s t (.tick it) := by
  simp only [Handoff.next] at h
  split at h
  · rename_i hold recal htaken
    have htick := tick_handoff s.loop
      { it with outputHold := hold, recalibrationRequested := recal }
      s.shared
    revert htick h
    generalize s.loop.tick
      (Iteration.input { it with outputHold := hold, recalibrationRequested := recal } s.shared)
      (Iteration.world { it with outputHold := hold, recalibrationRequested := recal } s.shared)
      = after
    intro h htick
    obtain rfl := Option.some.inj h
    refine .ticked it hold recal htaken (fun hhold => (htick hhold).1) rfl ?_ ?_
    · intro hnone
      obtain ⟨hsweeps, hnotifications⟩ := (htick (by simp [hnone])).2.1 hnone
      exact ⟨by rw [hsweeps]; exact List.append_nil _,
        by rw [hnotifications]; exact List.append_nil _⟩
    · intro hrecal hhold
      obtain ⟨hsweeps, result, hnotifications⟩ := (htick fun _ => hhold).2.2 hrecal
      exact ⟨by rw [hsweeps]; rfl, result, by rw [hnotifications]⟩
  · simp at h

/-- Every step is one of these moves. -/
theorem move_of_next {step : HandoffStep F} (h : s.next errc ota step = some t) :
    Move s t step := by
  cases step with
  | services step => exact move_services h
  | tick it => exact move_tick h
  | outputHolds holds =>
      obtain rfl := Option.some.inj h
      exact .quiet rfl rfl rfl rfl
  | readHold =>
      simp only [Handoff.next] at h
      split at h
      · rename_i htop
        obtain rfl := Option.some.inj h
        exact .readHold _ htop rfl rfl rfl rfl
      · simp at h
  | take =>
      simp only [Handoff.next] at h
      split at h
      · rename_i hheld
        obtain rfl := Option.some.inj h
        exact .skipped hheld rfl rfl rfl rfl
      · rename_i hheld
        obtain rfl := Option.some.inj h
        exact .took hheld rfl rfl rfl rfl
      · simp at h
  | finish =>
      simp only [Handoff.next] at h
      split at h
      · rename_i hticked
        obtain rfl := Option.some.inj h
        exact .finished hticked rfl rfl rfl rfl
      · rename_i hticked
        obtain rfl := Option.some.inj h
        exact .returned hticked rfl rfl rfl rfl
      · simp at h

end Steps

/-! ## Every run follows the protocol -/

namespace Handoff

def phase (s : Handoff F O) : Phase :=
  match s.gate, s.pc with
  | .idle, _ => .idle
  | .requested, _ => .pending
  | .running, .ticked _ => .swept
  | .running, _ => .pending

/-- The log follows the protocol, in the phase the gate and the loop show, and
every sweep so far was told once to each service. -/
structure Follows (s : Handoff F O) : Prop where
  log : Phase.run s.log = some s.phase
  running : s.gate = .running ↔ s.pc.recal = true
  notHeld : ∀ recal, s.pc = .taken true recal → recal = false
  notified : ∀ id, s.notified.countP (fun n => n.1 = id) = s.log.count .swept
  results : ∀ n ∈ s.notified, ∃ result, n.2 = resultFrame result

/-- How many requests were accepted so far. -/
def accepted (s : Handoff F O) : ℕ := s.log.countP HandoffEvent.isAccepted

def sweeps (s : Handoff F O) : ℕ := s.log.count .swept

def finishes (s : Handoff F O) : ℕ := s.log.count .finished

/-- From acceptance until finish. -/
def Busy (s : Handoff F O) : Prop := s.finishes < s.accepted

/-- From acceptance until the sweep. -/
def Pending (s : Handoff F O) : Prop := s.sweeps < s.accepted

section Phases

variable {s : Handoff F O}

/-- A request is only taken by an iteration that read no hold. -/
theorem Follows.hold_eq_false (hs : s.Follows) {hold : Bool} (htaken : s.pc = .taken hold true) :
    hold = false := by
  cases hold with
  | false => rfl
  | true => simpa using hs.notHeld true htaken

theorem Follows.busy_iff (hs : s.Follows) : s.Busy ↔ s.gate ≠ .idle := by
  obtain ⟨haccepted, -⟩ := Phase.counts_of_run hs.log
  have hidle : s.phase = .idle ↔ s.gate = .idle := by
    unfold phase
    cases s.gate <;> cases s.pc <;> simp
  unfold Busy accepted finishes
  rw [haccepted, ne_eq, ← hidle]
  split_ifs with h <;> simp [h]

theorem Follows.pending_iff (hs : s.Follows) : s.Pending ↔ s.phase = .pending := by
  obtain ⟨haccepted, hswept⟩ := Phase.counts_of_run hs.log
  unfold Pending accepted sweeps
  rw [haccepted, hswept]
  cases s.phase <;> simp

/-- A request is pending at the gate, or this iteration took it and has not
run its tick. -/
theorem phase_eq_pending_iff (hrunning : s.gate = .running ↔ s.pc.recal = true) :
    s.phase = .pending ↔ s.gate = .requested ∨ ∃ hold, s.pc = .taken hold true := by
  unfold phase
  cases hgate : s.gate <;> cases hpc : s.pc <;> simp_all [LoopPc.recal]

end Phases

section Runs

variable [MachineFloat F] [FloatMath F] [FloatBits F] [OtaEngine O] {errc : ErrcTable} {ota : Bool}
  {s t : Handoff F O}

omit [MachineFloat F] [FloatMath F] [FloatBits F] [OtaEngine O] in
theorem Follows.of_eq (hs : s.Follows) (hgate : t.gate = s.gate) (hphase : t.phase = s.phase)
    (hrecal : t.pc.recal = s.pc.recal)
    (hnotHeld : ∀ recal, t.pc = .taken true recal → recal = false)
    (hlog : t.log = s.log) (hnotified : t.notified = s.notified) : t.Follows where
  log := by rw [hlog, hphase]; exact hs.log
  running := by rw [hgate, hrecal]; exact hs.running
  notHeld := hnotHeld
  notified := by rw [hlog, hnotified]; exact hs.notified
  results := by rw [hnotified]; exact hs.results

omit [MachineFloat F] [FloatMath F] [FloatBits F] [OtaEngine O] in
theorem Follows.move (hs : s.Follows) {step : HandoffStep F} (hmove : Move s t step) :
    t.Follows := by
  have hrunning := hs.running
  cases hmove with
  | quiet hgate hpc hlog hnotified =>
      refine hs.of_eq hgate ?_ (by rw [hpc]) (by rw [hpc]; exact hs.notHeld) hlog hnotified
      rw [phase, phase, hgate, hpc]
  | readHold hold htop hgate hpc hlog hnotified =>
      -- `loop` reads the hold before it asks the gate
      rw [htop] at hrunning
      refine hs.of_eq hgate ?_ (by rw [htop, hpc]; rfl) (by simp [hpc]) hlog hnotified
      rw [phase, phase, hgate, hpc, htop]
      cases s.gate <;> rfl
  | skipped hheld hgate hpc hlog hnotified =>
      rw [hheld] at hrunning
      refine hs.of_eq hgate ?_ (by rw [hheld, hpc]; rfl) ?_ hlog hnotified
      · rw [phase, phase, hgate, hpc, hheld]
        cases s.gate <;> rfl
      · rintro recal hrecal
        simpa using (hpc.symm.trans hrecal).symm
  | took hheld hgate hpc hlog hnotified =>
      rw [hheld] at hrunning
      have hlog' := hs.log
      rw [phase, hheld] at hlog'
      refine ⟨?_, ?_, by simp [hpc], by rw [hlog, hnotified]; exact hs.notified,
        by rw [hnotified]; exact hs.results⟩
      · rw [hlog, hlog', phase, hgate, hpc]
        cases hs' : s.gate <;> simp_all [RecalibrationGate.take, LoopPc.recal]
      · rw [hgate, hpc]
        cases hs' : s.gate <;> simp_all [RecalibrationGate.take, LoopPc.recal]
  | accepted id hidle hgate hpc hlog hnotified =>
      have hnot : s.pc.recal = false := by
        rw [hidle] at hrunning
        simpa using hrunning
      refine ⟨?_, ?_, by rw [hpc]; exact hs.notHeld, ?_, by rw [hnotified]; exact hs.results⟩
      · have hphase : s.phase = .idle := by rw [phase, hidle]
        -- what `requestRecalibration` accepts, it accepts from `idle`
        rw [hlog, phase, hgate]
        exact Phase.run_concat hs.log (by rw [hphase]; rfl)
      · rw [hgate, hpc, hnot]
        simp
      · rw [hlog, hnotified]
        intro id'
        rw [hs.notified id', List.count_append]
        rfl
  | ticked it hold recal htaken hgate hpc hnone hsweep =>
      have hhold : recal = true → hold = false := by
        rintro rfl
        exact hs.hold_eq_false htaken
      rw [htaken] at hrunning
      have hrunning' : t.gate = .running ↔ t.pc.recal = true := by
        rw [hgate hhold, hpc]
        exact hrunning
      cases recal with
      | false =>
          -- an iteration without a request sweeps nothing
          obtain ⟨hlog, hnotified⟩ := hnone rfl
          refine hs.of_eq (hgate hhold) ?_ (by rw [htaken, hpc]; rfl) (by simp [hpc]) hlog hnotified
          rw [phase, phase, hgate hhold, hpc, htaken]
          cases hs' : s.gate <;> simp_all [LoopPc.recal]
      | true =>
          -- the sweep of the request that was taken
          obtain ⟨hlog, result, hnotified⟩ := hsweep rfl (hhold rfl)
          have hran : s.gate = .running := hrunning.mpr rfl
          refine ⟨?_, hrunning', by simp [hpc], ?_, ?_⟩
          · have hphase : s.phase = .pending := by rw [phase, hran, htaken]
            rw [hlog, phase, hgate hhold, hran, hpc]
            exact Phase.run_concat hs.log (by rw [hphase]; rfl)
          · intro id
            rw [hlog, hnotified, List.countP_append, List.count_append, hs.notified id]
            cases id <;> rfl
          · rw [hnotified]
            intro n hn
            simp only [List.mem_append, List.mem_cons, List.not_mem_nil, or_false] at hn
            rcases hn with hn | rfl | rfl
            · exact hs.results n hn
            · exact ⟨result, rfl⟩
            · exact ⟨result, rfl⟩
  | finished hticked hgate hpc hlog hnotified =>
      rw [hticked] at hrunning
      have hran : s.gate = .running := hrunning.mpr rfl
      refine ⟨?_, by simp [hgate, hpc, LoopPc.recal], by simp [hpc], ?_,
        by rw [hnotified]; exact hs.results⟩
      · have hphase : s.phase = .swept := by rw [phase, hran, hticked]
        rw [hlog, phase, hgate]
        exact Phase.run_concat hs.log (by rw [hphase]; rfl)
      · rw [hlog, hnotified]
        intro id
        rw [hs.notified id, List.count_append]
        rfl
  | returned hticked hgate hpc hlog hnotified =>
      rw [hticked] at hrunning
      refine hs.of_eq hgate ?_ (by rw [hticked, hpc]; rfl) (by simp [hpc]) hlog hnotified
      rw [phase, phase, hgate, hpc, hticked]
      cases hs' : s.gate <;> simp_all [LoopPc.recal]

theorem follows_of_reachable (hs : (handoff errc ota).Reachable s) : s.Follows := by
  refine Reachable.invariant (I := Follows) ?_ ?_ hs
  · rintro s ⟨-, hgate, hpc, hlog, hnotified⟩
    refine ⟨?_, by simp [hgate, hpc, LoopPc.recal], by simp [hpc], by simp [hlog, hnotified],
      by simp [hnotified]⟩
    rw [hlog, phase, hgate]
    rfl
  · intro s step t hs ht
    exact hs.move (move_of_next ht)

/-! ## No request is dropped -/

/-- The iteration read no hold, and its tick is still to come. -/
def AboutToSweep (s : Handoff F O) : Prop := s.pc = .held false ∨ ∃ hold, s.pc = .taken hold true

omit [MachineFloat F] [FloatMath F] [FloatBits F] [OtaEngine O] in
/-- A step never shortens the log. -/
theorem sweeps_le_of_move {step : HandoffStep F} (hs : s.Follows) (hmove : Move s t step) :
    s.sweeps ≤ t.sweeps := by
  have hgrows : ∃ events, t.log = s.log ++ events := by
    cases hmove with
    | quiet _ _ hlog | readHold _ _ _ _ hlog | skipped _ _ _ hlog | took _ _ _ hlog
    | returned _ _ _ hlog => exact ⟨[], by rw [hlog, List.append_nil]⟩
    | accepted id _ _ _ hlog => exact ⟨_, hlog⟩
    | finished _ _ _ hlog => exact ⟨_, hlog⟩
    | ticked it hold recal htaken _ _ hnone hsweep =>
        cases recal with
        | false => exact ⟨[], by rw [(hnone rfl).1, List.append_nil]⟩
        | true =>
            have hhold := hs.hold_eq_false htaken
            exact ⟨_, (hsweep rfl hhold).1⟩
  obtain ⟨events, hlog⟩ := hgrows
  rw [sweeps, sweeps, hlog, List.count_append]
  exact Nat.le_add_right _ _

omit [MachineFloat F] [FloatMath F] [FloatBits F] [OtaEngine O] in
/-- A pending request stays pending, or the step is the tick that sweeps for it. -/
theorem pending_of_move {step : HandoffStep F} (hs : s.Follows) (hpending : s.phase = .pending)
    (hmove : Move s t step) :
    t.phase = .pending ∨ (∃ it, step = .tick it) ∧ t.log = s.log ++ [.swept] := by
  have ht := hs.move hmove
  rw [phase_eq_pending_iff hs.running] at hpending
  rw [phase_eq_pending_iff ht.running]
  cases hmove with
  | quiet hgate hpc => exact .inl (by rw [hgate, hpc]; exact hpending)
  | accepted id hidle hgate => exact .inl (.inl hgate)
  | readHold hold htop hgate =>
      simp only [htop, reduceCtorEq, exists_false, or_false] at hpending
      exact .inl (.inl (hgate.trans hpending))
  | skipped hheld hgate =>
      simp only [hheld, reduceCtorEq, exists_false, or_false] at hpending
      exact .inl (.inl (hgate.trans hpending))
  | took hheld hgate hpc =>
      simp only [hheld, reduceCtorEq, exists_false, or_false] at hpending
      rw [hpending] at hpc
      exact .inl (.inr ⟨false, hpc⟩)
  | ticked it hold recal htaken hgate hpc hnone hsweep =>
      cases recal with
      | false =>
          simp only [htaken, LoopPc.taken.injEq, Bool.false_eq_true, and_false, exists_false,
            or_false] at hpending
          exact .inl (.inl ((hgate (by simp)).trans hpending))
      | true =>
          have hhold := hs.hold_eq_false htaken
          exact .inr ⟨⟨it, rfl⟩, (hsweep rfl hhold).1⟩
  | finished hticked hgate =>
      have hran : s.gate = .running := hs.running.mpr (by rw [hticked]; rfl)
      simp [hticked, hran] at hpending
  | returned hticked hgate =>
      simp only [hticked, reduceCtorEq, exists_false, or_false] at hpending
      exact .inl (.inl (hgate.trans hpending))

omit [MachineFloat F] [FloatMath F] [FloatBits F] [OtaEngine O] in
/-- Until its tick, an iteration that read no hold keeps the pending request. -/
theorem aboutToSweep_of_move {step : HandoffStep F} (hs : s.Follows)
    (hpending : s.phase = .pending) (habout : s.AboutToSweep) (hmove : Move s t step) :
    t.phase = .pending ∧ t.AboutToSweep ∨ s.sweeps < t.sweeps := by
  rcases pending_of_move hs hpending hmove with hkept | ⟨-, hlog⟩
  · refine .inl ⟨hkept, ?_⟩
    rw [phase_eq_pending_iff hs.running] at hpending
    unfold AboutToSweep at habout ⊢
    cases hmove with
    | quiet _ hpc => rw [hpc]; exact habout
    | accepted id _ _ hpc => rw [hpc]; exact habout
    | readHold hold htop => simp [htop] at habout
    | skipped hheld => simp [hheld] at habout
    | took hheld hgate hpc =>
        simp only [hheld, reduceCtorEq, exists_false, or_false] at hpending
        rw [hpending] at hpc
        exact .inr ⟨false, hpc⟩
    | ticked it hold recal htaken hgate hpc _ hsweep =>
        obtain rfl : recal = true := by simpa [htaken] using habout
        have hran : s.gate = .running := hs.running.mpr (by rw [htaken]; rfl)
        have hhold := hs.hold_eq_false htaken
        rw [phase, hgate fun _ => hhold, hran, hpc] at hkept
        exact absurd hkept (by simp)
    | finished hticked => simp [hticked] at habout
    | returned hticked => simp [hticked] at habout
  · refine .inr ?_
    rw [sweeps, sweeps, hlog, List.count_append]
    exact Nat.lt_add_one _

/-- Along any run from an iteration that read no hold while a request was
pending, the request is still pending or its sweep has run. -/
theorem swept_or_aboutToSweep {u : Handoff F O}
    {steps : List (Handoff F O × HandoffStep F × Handoff F O)}
    (hpath : Path (handoff errc ota) s steps u) (hs : s.Follows) (hpending : s.phase = .pending)
    (habout : s.AboutToSweep) :
    u.phase = .pending ∧ u.AboutToSweep ∨ s.sweeps < u.sweeps := by
  -- from then on nothing is taken back
  have hrun : ∀ {s u : Handoff F O} {steps}, Path (handoff errc ota) s steps u → s.Follows →
      s.sweeps ≤ u.sweeps := by
    intro s u steps hpath
    induction hpath with
    | nil => exact fun _ => le_rfl
    | cons ha _ ih =>
        intro hs
        have hmove := move_of_next ha
        exact (sweeps_le_of_move hs hmove).trans (ih (hs.move hmove))
  induction hpath with
  | nil => exact .inl ⟨hpending, habout⟩
  | cons ha hrest ih =>
      have hmove := move_of_next ha
      have hnext := hs.move hmove
      rcases aboutToSweep_of_move hs hpending habout hmove with ⟨hpending', habout'⟩ | hswept
      · refine (ih hnext hpending' habout').imp_right fun h => ?_
        exact (sweeps_le_of_move hs hmove).trans_lt h
      · exact .inr (hswept.trans_le (hrun hrest hnext))

omit [MachineFloat F] [FloatMath F] [FloatBits F] [OtaEngine O] in
/-- A step sweeps and tells both services, or does neither. -/
theorem sweeps_of_move {step : HandoffStep F} (hs : s.Follows) (hmove : Move s t step) :
    t.sweeps = s.sweeps ∧ t.notified = s.notified ∨
      t.sweeps = s.sweeps + 1 ∧ ∃ result, t.notified =
        s.notified ++ [(.vendor, resultFrame result), (.cdc, resultFrame result)] := by
  unfold sweeps
  cases hmove with
  | quiet _ _ hlog hnotified | readHold _ _ _ _ hlog hnotified | skipped _ _ _ hlog hnotified
  | took _ _ _ hlog hnotified | returned _ _ _ hlog hnotified =>
      exact .inl ⟨by rw [hlog], hnotified⟩
  | accepted id _ _ _ hlog hnotified =>
      exact .inl ⟨by rw [hlog, List.count_append]; rfl, hnotified⟩
  | finished _ _ _ hlog hnotified =>
      exact .inl ⟨by rw [hlog, List.count_append]; rfl, hnotified⟩
  | ticked it hold recal htaken _ _ hnone hsweep =>
      cases recal with
      | false =>
          obtain ⟨hlog, hnotified⟩ := hnone rfl
          exact .inl ⟨by rw [hlog], hnotified⟩
      | true =>
          have hhold := hs.hold_eq_false htaken
          obtain ⟨hlog, hnotified⟩ := hsweep rfl hhold
          exact .inr ⟨by rw [hlog, List.count_append]; rfl, hnotified⟩

/-! ## A second request -/

omit [FloatMath F] in
/-- From acceptance until finish, a request is answered busy and changes nothing. -/
theorem handleFrameLocked_of_busy (hs : s.Follows) (hbusy : s.Busy) (errc : ErrcTable) (ota : Bool)
    (id : LinkId) (now : Time) :
    (s.link id).handleFrameLocked (calibrationConfig errc ota) Msg.startCalibration.code [] now =
      (some (buildError errc kModule (errc.makeErrorCode .deviceOrResourceBusy)
        (ascii "START_CALIBRATION could not be started")), s.link id) := by
  rw [handleFrameLocked_startCalibration]
  exact if_neg (hs.busy_iff.mp hbusy)

theorem next_of_busy (hs : s.Follows) (hbusy : s.Busy) {id : LinkId} {now : Time}
    (ht : s.next errc ota (.services (.handleFrame id Msg.startCalibration.code [] now)) =
      some t) : t = s := by
  have hanswer := handleFrameLocked_of_busy hs hbusy errc ota id now
  have hrefused : s.answer errc ota id [] now = _ := congrArg Prod.fst hanswer
  obtain rfl := Option.some.inj ht
  -- it is not answered OK, so that the log has no acceptance
  have hnone : s.acceptedBy errc ota
      (.handleFrame id Msg.startCalibration.code [] now) = [] := by
    refine if_neg fun h => ?_
    exact buildError_ne_buildOk errc _ _ 0 (Option.some.inj (hrefused.symm.trans h.2))
  rw [hnone, hanswer, TwoServices.withLink_link, List.append_nil]

/-! ## The hand-off -/

/-- **In every interleaving** acceptances, sweeps and finishes take turns, so
that the n-th sweep belongs to the n-th accepted request and starts after its
acceptance; a request is accepted exactly when none is unfinished, and else
answered busy, which changes nothing; a pending request stays pending until a
tick sweeps for it, and the tick of an iteration that read no hold does; each
sweep sends one result on each service, and nothing else does. -/
theorem handoff_follows (hs : (handoff errc ota).Reachable s) :
    (∀ before, before <+: s.log →
      before.count .finished ≤ before.count .swept ∧
        before.count .swept ≤ before.countP HandoffEvent.isAccepted ∧
        before.countP HandoffEvent.isAccepted ≤ before.count .finished + 1) ∧
    (∀ id now, ¬ s.Busy → s.answer errc ota id [] now = some (buildOk kModule 0)) ∧
    (∀ id now t, s.Busy →
      s.answer errc ota id [] now =
          some (buildError errc kModule (errc.makeErrorCode .deviceOrResourceBusy)
            (ascii "START_CALIBRATION could not be started")) ∧
        (s.next errc ota (.services (.handleFrame id Msg.startCalibration.code [] now)) = some t →
          t = s)) ∧
    (∀ step t, s.Pending → s.next errc ota step = some t →
      t.Pending ∨ (∃ it, step = .tick it) ∧ t.log = s.log ++ [.swept]) ∧
    (∀ steps u, s.Pending → s.pc = .held false → Path (handoff errc ota) s steps u →
      u.pc = .top ∨ (∃ recal, u.pc = .ticked recal) → s.sweeps < u.sweeps) ∧
    (∀ id, s.notified.countP (fun n => n.1 = id) = s.sweeps) ∧
    (∀ n ∈ s.notified, ∃ result, n.2 = resultFrame result) ∧
    ∀ step t, s.next errc ota step = some t →
      t.sweeps = s.sweeps ∧ t.notified = s.notified ∨
      t.sweeps = s.sweeps + 1 ∧ ∃ result, t.notified =
        s.notified ++ [(.vendor, resultFrame result), (.cdc, resultFrame result)] := by
  have hfollows := follows_of_reachable hs
  refine ⟨?_, ?_, ?_, ?_, ?_, hfollows.notified, hfollows.results,
    fun step t ht => sweeps_of_move hfollows (move_of_next ht)⟩
  -- acceptances, sweeps and finishes take turns
  · intro before hbefore
    exact Phase.counts_of_prefix (by rw [hfollows.log]; rfl) hbefore
  -- a request is accepted when none is unfinished
  · intro id now hfree
    have hidle : (s.link id).outside.recalibrationGate = .idle :=
      not_ne_iff.mp fun h => hfree (hfollows.busy_iff.mpr h)
    rw [answer, handleFrameLocked_startCalibration, if_pos hidle]
  -- and else answered busy
  · intro id now t hbusy
    have hanswer := handleFrameLocked_of_busy hfollows hbusy errc ota id now
    exact ⟨congrArg Prod.fst hanswer, next_of_busy hfollows hbusy⟩
  -- a pending request waits for a tick
  · intro step t hpending ht
    have hmove := move_of_next ht
    rw [hfollows.pending_iff] at hpending
    rw [(hfollows.move hmove).pending_iff]
    exact pending_of_move hfollows hpending hmove
  -- which is the one of the first iteration that reads no hold
  · intro steps u hpending hheld hpath hover
    rw [hfollows.pending_iff] at hpending
    rcases swept_or_aboutToSweep hpath hfollows hpending (.inl hheld) with ⟨-, habout⟩ | hswept
    · -- the iteration is over, so that it is no longer about to sweep
      unfold AboutToSweep at habout
      rcases hover with htop | ⟨recal, hticked⟩
      · simp [htop] at habout
      · simp [hticked] at habout
    · exact hswept

end Runs

/-- A request on the vendor link is accepted. -/
def requested : Handoff ℚ SimOta where
  toTwoServices := freshTwoServices.withLink .vendor
    ((freshTwoServices.link .vendor).handleFrameLocked (calibrationConfig hostErrc true)
      Msg.startCalibration.code [] 0).2
  loop := .mouse .new
  pc := .top
  log := [.accepted .vendor]
  notified := []

/-- The other link is answered busy from then on. -/
theorem handoff_requested :
    requested.answer hostErrc true .cdc [] 0 =
      some (buildError hostErrc kModule (hostErrc.makeErrorCode .deviceOrResourceBusy)
        (ascii "START_CALIBRATION could not be started")) := by
  have hfresh : (handoff hostErrc true).Reachable
      ⟨freshTwoServices, .mouse .new, .top, [], []⟩ :=
    .init ⟨⟨fun _ => rfl, rfl, rfl, rfl⟩, rfl, rfl, rfl, rfl⟩
  have hrequest : Handoff.next hostErrc true ⟨freshTwoServices, .mouse .new, .top, [], []⟩
      (.services (.handleFrame .vendor Msg.startCalibration.code [] 0)) = some requested := rfl
  have hreachable : (handoff hostErrc true).Reachable requested := .step hfresh hrequest
  have hbusy : requested.Busy := Nat.zero_lt_one
  exact ((handoff_follows hreachable).2.2.1 .cdc 0 requested hbusy).1

end Handoff

end OmegaStick
