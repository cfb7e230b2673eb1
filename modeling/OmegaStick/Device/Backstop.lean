import Mathlib.Tactic.Linarith
import OmegaStick.Service.EngineCalls
import OmegaStick.Device.Handoff
import OmegaStick.Device.Rounds

/-!
# The rollback backstop

The polling loop with a health check on top of it: an iteration runs the check,
reads the counter of holds, and ticks.  Between any two of these the services do
whatever they do, MARK_VALID included.  What `run_health_check` and the tick of an
iteration did is its round, and every round keeps the backstop's promise
(`RoundKept`).

The clock may answer anything: nothing here needs it to run forward.
-/

namespace OmegaStick

open OtaEngine TransitionSystem

variable {F O : Type*}

open FirmwareHealthCheck

/-! ## One tick of the loop -/

/-- A tick leaves the engine and the counter alone, and one that is held sends
a neutral report. -/
theorem tick_holds [MachineFloat F] [FloatMath F] (loop : LoopState F) (it : Iteration F)
    (shared : Shared F O (Device F)) :
    let w := (loop.tick (it.input shared) (it.world shared)).2
    w.ota = shared.ota ∧ w.outside.outputHolds = shared.outside.outputHolds ∧
      (it.outputHold = true → ∃ report, w.reports = [report] ∧ report.Neutral) := by
  obtain ⟨-, -, status, hworld⟩ := observed_spec loop.common (it.input shared) (it.world shared)
  have houtcome := loop.tick_outcome (it.input shared) (it.world shared)
  revert hworld houtcome
  generalize observed loop.common (it.input shared) (it.world shared) = seen
  generalize loop.tick (it.input shared) (it.world shared) = after
  obtain ⟨common, world⟩ := seen
  intro hworld houtcome
  dsimp only at hworld houtcome ⊢
  subst hworld
  have hheldTick : it.outputHold = true → holdsOutput (it.input shared) = true := by
    intro hhold
    simp [holdsOutput, Iteration.input, hhold]
  revert houtcome
  generalize after.2 = w
  intro houtcome
  cases houtcome with
  | held report hneutral => exact ⟨rfl, rfl, fun _ => ⟨report, rfl, hneutral⟩⟩
  | swept report _ hheld =>
      refine ⟨?_, ?_, fun hhold => absurd (hheldTick hhold) (by simp [hheld])⟩
      all_goals
        simp only [EspWorld.runSweep]
        split <;> rfl
  | moved report hheld =>
      exact ⟨rfl, rfl, fun hhold => absurd (hheldTick hhold) (by simp [hheld])⟩
  | drifted report nudged hheld =>
      exact ⟨rfl, rfl, fun hhold => absurd (hheldTick hhold) (by simp [hheld])⟩

/-! ## The interleaving -/

/-- Where the polling loop is in its iteration; `restarted` is the end of the run. -/
inductive BackstopPc where
  | top
  | checked
  | holdRead (hold : Bool)
  | restarted
  deriving DecidableEq, Repr

/-- Both services and the polling loop, with the rounds so far, newest first. -/
structure Backstop (F O : Type*) extends TwoServices F O where
  loop : LoopState F
  pc : BackstopPc
  start : Time
  pendingAtStart : Bool
  /-- Whether the image was ever seen confirmed since `start`. -/
  confirmed : Bool
  rounds : List (Round F)

inductive BackstopStep (F : Type*) where
  /-- One locked section of a service, or anything else the firmware does. -/
  | services (step : TwoServicesStep F)
  | healthCheck (now : Time)
  | readHold
  | tick (it : Iteration F)

namespace Backstop

variable [OtaEngine O]

/-- Takes note of a confirmation. -/
def observe (s : Backstop F O) : Backstop F O :=
  { s with confirmed := s.confirmed || !isPendingVerify s.shared.ota }

/-- The round `run_health_check` begins. -/
def round (s : Backstop F O) (now : Time) (returned : Bool) (change : ℤ) : Round F where
  now := now
  pending := isPendingVerify s.shared.ota
  confirmed := s.confirmed
  checked := s.health.checks now
  action := (s.health.tick (isPendingVerify s.shared.ota) now).1
  returned := returned
  change := change
  reports := none

/-- `run_health_check` -/
def runHealthCheck (s : Backstop F O) (now : Time) : Backstop F O :=
  match s.health.run now s.shared.ota s.shared.outside.outputHolds with
  | none => { s with pc := .restarted, rounds := s.round now false 0 :: s.rounds }
  | some (health, engine, outputHolds) =>
      { s with
        health := health
        shared := { s.shared with
          ota := engine
          outside := { s.shared.outside with outputHolds := outputHolds } }
        pc := .checked
        rounds :=
          s.round now true (outputHolds - s.shared.outside.outputHolds) :: s.rounds }.observe

variable [MachineFloat F] [FloatMath F] [FloatBits F] (errc : ErrcTable) (ota : Bool)

def next (s : Backstop F O) : BackstopStep F → Option (Backstop F O)
  | .services (.healthCheck _) => none
  | .services step =>
      if s.pc = .restarted then none
      else (s.toTwoServices.next errc ota step).map fun two =>
        { s with toTwoServices := two }.observe
  | .healthCheck now => if s.pc = .top then some (s.runHealthCheck now) else none
  | .readHold =>
      if s.pc = .checked then
        some { s with pc := .holdRead (decide (0 < s.shared.outside.outputHolds)) }
      else none
  | .tick it =>
      match s.pc, s.rounds with
      | .holdRead hold, r :: earlier =>
          let it := { it with outputHold := hold }
          let (loop, w) := s.loop.tick (it.input s.shared) (it.world s.shared)
          some { s with
            shared := w.toShared
            loop := loop
            pc := .top
            rounds := { r with reports := some w.reports } :: earlier }
      | _, _ => none

end Backstop

/-- The services have been running for any time when the health check is constructed. -/
def backstop [OtaEngine O] [MachineFloat F] [FloatMath F] [FloatBits F] (errc : ErrcTable)
    (ota : Bool) : TransitionSystem (Backstop F O) (BackstopStep F) :=
  .ofOption
    (fun s => (twoServices errc ota).Reachable { s.toTwoServices with health := .new false 0 } ∧
      s.health = .new (isPendingVerify s.shared.ota) s.start ∧
      s.pc = .top ∧
      s.pendingAtStart = isPendingVerify s.shared.ota ∧
      s.confirmed = !isPendingVerify s.shared.ota ∧
      s.rounds = [])
    (Backstop.next errc ota)

/-! ## The invariant -/

/-- `espp::Ota`: a running image that is not pending stays so, and
`mark_app_valid` confirms it. -/
structure ConfirmsOnce (O : Type*) [OtaEngine O] : Prop where
  keeps : EngineKeeps fun o : O => isPendingVerify o = false
  confirms : ∀ o : O, (markAppValid o).1 = none → isPendingVerify (markAppValid o).2 = false

/-- What holds of the health check, the counter and the loop while the device runs. -/
structure Backstop.Running [OtaEngine O] (session : O → Option (List UInt8)) (s : Backstop F O) :
    Prop where
  shared : SharedHold session s.toTwoServices
  confirmed : s.confirmed = !isPendingVerify s.shared.ota
  watch : Watch s.start s.pendingAtStart s.confirmed s.health s.rounds
  completed : s.pc = .top → ∀ q ∈ s.rounds, q.reports.isSome
  holdRead : ∀ hold, s.pc = .holdRead hold → held s.rounds = true → hold = true

/-- The invariant: the promise, and what carries it. -/
structure Backstop.Inv [OtaEngine O] [MachineFloat F] (session : O → Option (List UInt8))
    (s : Backstop F O) : Prop where
  kept : Kept s.start s.pendingAtStart s.rounds
  running : s.pc ≠ .restarted → s.Running session

namespace Backstop

section Steps

variable [OtaEngine O] [MachineFloat F] {session : O → Option (List UInt8)} {s t : Backstop F O}

/-- The round a health check begins keeps the promise. -/
theorem Running.roundKept (hs : s.Running session) (hkept : Kept s.start s.pendingAtStart s.rounds)
    (hpc : s.pc = .top) {now : Time} {returned : Bool} {change : ℤ}
    (hreturned : (s.round now returned change).marked = false → returned = true)
    (hchange : change = match (s.round now returned change).action with
      | .holdOutput => 1
      | .rollBack => if returned then -1 else 0
      | .none => 0) :
    RoundKept s.start s.pendingAtStart (s.round now returned change) s.rounds := by
  have hstart := hs.watch.startedAt
  -- the hold is raised by a check that is due, too long after the start
  have hraises : (s.round now returned change).action = .holdOutput →
      s.health.pending = true ∧ s.health.checks now = true ∧ isPendingVerify s.shared.ota = true ∧
        s.start + rollbackDeadline ≤ now := by
    intro haction
    obtain ⟨hchecks, hstill, hlate⟩ := tick_holdOutput_iff.mp haction
    exact ⟨(checks_iff.mp hchecks).2.1, hchecks, hstill, by linarith⟩
  have hback : (s.round now returned change).action = .rollBack →
      s.health.holding = true ∧ s.health.holdStart + rollbackHold ≤ now := by
    intro haction
    obtain ⟨hholding, hlate⟩ := tick_rollBack_iff.mp haction
    exact ⟨hholding, by linarith⟩
  have hlate : s.health.checks now = true → isPendingVerify s.shared.ota = true →
      s.start + rollbackDeadline ≤ now → (s.round now returned change).action = .holdOutput :=
    fun hchecks hstill hdue => tick_holdOutput_iff.mpr ⟨hchecks, hstill, by linarith⟩
  refine ⟨?_, ?_, hlate, ?_, ?_, ?_, ?_, hs.completed hpc, ?_, hreturned, hchange, ?_⟩
  · exact fun haction => (hs.watch.waiting (hraises haction).1).2.2.1
  · exact fun haction => (hraises haction).2
  -- an image that is still unconfirmed: this round's check is late, or an earlier one was
  · intro hstill hdue
    replace hstill : isPendingVerify s.shared.ota = true := hstill
    replace hdue : s.start + rollbackDeadline + checkInterval ≤ now := hdue
    rw [List.exists_mem_cons_iff]
    cases hpending : s.health.pending with
    | false => exact .inr (hs.watch.watched hpending (by rw [hs.confirmed, hstill]; rfl))
    | true =>
        obtain ⟨hholding, -, -, hlast⟩ := hs.watch.waiting hpending
        have hchecks := checks_iff.mpr ⟨hholding, hpending, (by linarith :
          checkInterval ≤ now - s.health.lastCheck)⟩
        have hinterval : 0 ≤ checkInterval := by decide
        exact .inl (hlate hchecks hstill (by linarith))
  -- no earlier round has rolled back: the hold is still up
  · intro haction q hq hqback
    have hheld := hs.watch.holding.symm.trans (hback haction).1
    simp only [held, Bool.and_eq_true, Bool.not_eq_true', List.any_eq_false,
      decide_eq_true_eq] at hheld
    exact hheld.2 q hq hqback
  -- the rollback comes `rollbackHold` after the hold was raised, and neutral was sent in between
  · intro haction
    obtain ⟨hholding, hlate⟩ := hback haction
    obtain ⟨q, hq, hqaction, hqnow⟩ := hs.watch.raised hholding
    exact ⟨q, hq, hqaction, by rw [hqnow]; exact hlate,
      hkept.holdOutput_sentNeutral hq hqaction (hs.completed hpc q hq)⟩
  · intro _ hreports
    cases hreports
  · intro hconfirmed
    have hstill : isPendingVerify s.shared.ota = false := by
      simpa using hs.confirmed.symm.trans hconfirmed
    simp [Round.marked, round, hstill]
  -- an image that was not pending at the start is left alone
  · intro hnever
    cases haction : (s.round now returned change).action with
    | none => rfl
    | holdOutput =>
        have hstarted := (hs.watch.waiting (hraises haction).1).2.1
        exact absurd hstarted (by simp [hnever])
    | rollBack =>
        obtain ⟨q, hq, hqaction, -⟩ := hs.watch.raised (hback haction).1
        obtain ⟨before, hqkept⟩ := hkept.of_mem hq
        exact absurd (hqkept.neverPending hnever) (by simp [hqaction])

omit [MachineFloat F] in
/-- The health check is called, and returns. -/
theorem Running.returns (hota : LawfulOta session) (hs : s.Running session)
    {now : Time} {health : FirmwareHealthCheck} {engine : O} {outputHolds change : ℤ}
    (hrun : s.health.run now s.shared.ota s.shared.outside.outputHolds =
      some (health, engine, outputHolds)) :
    ({ s with
        health := health
        shared := { s.shared with
          ota := engine
          outside := { s.shared.outside with outputHolds := outputHolds } }
        pc := .checked
        rounds := s.round now true change :: s.rounds } :
        Backstop F O).observe.Running session := by
  obtain ⟨hhealth, hengine, -⟩ := run_returns hrun
  have hconfirmed : (s.confirmed || !isPendingVerify engine) = !isPendingVerify engine := by
    rw [hs.confirmed]
    cases hstill : isPendingVerify s.shared.ota with
    | true => simp
    | false => simp [hengine hstill, hstill]
  have hticked : Ticked s.health (isPendingVerify s.shared.ota) now
      ((s.round now true change).action, health) := by
    rw [hhealth]
    exact s.health.ticked (isPendingVerify s.shared.ota) now
  have hwatch := hs.watch.ticked hticked rfl (by simp [hs.confirmed])
  refine ⟨hs.shared.healthCheck hota hrun, hconfirmed, hwatch.mono ?_, ?_, ?_⟩
  · intro hseen
    exact Bool.or_eq_true_iff.mpr (.inl hseen)
  · exact fun htop => nomatch htop
  · exact fun _ hread => nomatch hread

theorem Inv.healthCheck (hota : LawfulOta session) (h : s.Inv session) (hpc : s.pc = .top)
    (now : Time) : (s.runHealthCheck now).Inv session := by
  have hs := h.running (by simp [hpc])
  unfold runHealthCheck
  split
  · rename_i hrun
    obtain ⟨haction, hstill⟩ := run_none hrun
    refine ⟨.cons (hs.roundKept h.kept hpc ?_ ?_) h.kept, fun hrunning => absurd rfl hrunning⟩
    · intro hunmarked
      have hmarked : (s.round now false 0).marked = true := by
        rw [Round.marked, show (s.round now false 0).action = .rollBack from haction]
        exact hstill
      exact absurd hunmarked (by simp [hmarked])
    · simp [round, haction]
  · rename_i health engine outputHolds hrun
    refine ⟨.cons (hs.roundKept h.kept hpc (fun _ => rfl) ?_) h.kept,
      fun _ => hs.returns hota hrun⟩
    rw [(run_returns hrun).2.2]
    dsimp only [round]
    cases (s.health.tick (isPendingVerify s.shared.ota) now).1 <;> rfl

omit [MachineFloat F] in
/-- While the hold is the health check's, the loop reads it. -/
theorem Running.outputHolds_pos (hs : s.Running session) (hheld : held s.rounds = true) :
    0 < s.shared.outside.outputHolds := by
  rw [hs.shared.outputHolds_pos_iff, hs.watch.holding]
  exact .inr hheld

omit [MachineFloat F] in
theorem Running.readHold (hs : s.Running session) :
    ({ s with pc := .holdRead (decide (0 < s.shared.outside.outputHolds)) } :
      Backstop F O).Running session where
  shared := hs.shared
  confirmed := hs.confirmed
  watch := hs.watch
  completed := fun htop => nomatch htop
  holdRead hold hread hheld := by
    obtain rfl : decide (0 < s.shared.outside.outputHolds) = hold := by
      simpa using hread
    exact decide_eq_true (hs.outputHolds_pos hheld)

variable [FloatMath F]

theorem Inv.tick (h : s.Inv session) {hold : Bool} {r : Round F} {earlier : List (Round F)}
    (hpc : s.pc = .holdRead hold) (hrounds : s.rounds = r :: earlier) {it : Iteration F}
    (hhold : it.outputHold = hold) {loop : LoopState F} {w : EspWorld F O}
    (htick : s.loop.tick (it.input s.shared) (it.world s.shared) = (loop, w)) :
    ({ s with
        shared := w.toShared
        loop := loop
        pc := .top
        rounds := { r with reports := some w.reports } :: earlier } :
      Backstop F O).Inv session := by
  have hs := h.running (by simp [hpc])
  have hkept := h.kept
  obtain ⟨hota, hholds, hneutral⟩ := tick_holds s.loop it s.shared
  rw [htick] at hota hholds hneutral
  dsimp only at hota hholds hneutral
  have hwatch := hs.watch
  rw [hrounds] at hkept hwatch
  have hround :
      RoundKept s.start s.pendingAtStart { r with reports := some w.reports } earlier := by
    refine hkept.head.report fun hheld => ?_
    have hread := hs.holdRead hold hpc (by rw [hrounds]; exact hheld)
    obtain ⟨report, hreports, hreport⟩ := hneutral (hhold.trans hread)
    rw [hreports]
    simpa using hreport
  refine ⟨.cons hround hkept.tail, fun _ => ⟨⟨?_, ?_, ?_, ?_⟩, ?_, ?_, ?_, ?_⟩⟩
  · exact hs.shared.atMostOneOwner
  · rw [show w.toShared.ota = s.shared.ota from hota]
    exact hs.shared.session_owned
  · exact hs.shared.owner_holding
  · rw [show w.toShared.outside.outputHolds = s.shared.outside.outputHolds from hholds]
    exact hs.shared.counter
  · rw [show w.toShared.ota = s.shared.ota from hota]
    exact hs.confirmed
  · exact hwatch.report w.reports
  · exact fun _ => List.forall_mem_cons.mpr ⟨rfl, hkept.head.completed⟩
  · exact fun _ hread => nomatch hread

variable [FloatBits F] {errc : ErrcTable} {ota : Bool}

omit [FloatMath F] in
/-- A section of a service: the health check's members stay, and so does what
every call of the engine keeps. -/
theorem next_services {two two' : TwoServices F O} {step : TwoServicesStep F}
    (hstep : ∀ now, step ≠ .healthCheck now) (h : two.next errc ota step = some two') :
    two'.health = two.health ∧
      ∀ P : O → Prop, EngineKeeps P → P two.shared.ota → P two'.shared.ota := by
  cases step with
  | handleFrame id type payload now =>
      obtain rfl := Option.some.inj h
      exact ⟨rfl, fun P hP hbefore => hP.handleFrameLocked hbefore type payload now⟩
  | runAfterReply id queued =>
      obtain rfl := Option.some.inj h
      exact ⟨rfl, fun P _ hbefore => EngineKeepsUnfinished.runAfterReply hbefore queued⟩
  | abortUpdate id =>
      obtain rfl := Option.some.inj h
      exact ⟨rfl, fun P hP hbefore => hP.abortUpdate hbefore⟩
  | expireStaleUpdate id maxIdle now locked =>
      obtain rfl := Option.some.inj h
      exact ⟨rfl, fun P hP hbefore => hP.expireStaleUpdate hbefore maxIdle now locked⟩
  | healthCheck now => exact absurd rfl (hstep now)
  | others store device =>
      obtain rfl := Option.some.inj h
      exact ⟨rfl, fun P _ hbefore => hbefore⟩

/-- What a step of the services is. -/
theorem next_services_some {step : TwoServicesStep F}
    (h : s.next errc ota (.services step) = some t) :
    (∀ now, step ≠ .healthCheck now) ∧ s.pc ≠ .restarted ∧
      ∃ two, s.toTwoServices.next errc ota step = some two ∧
        t = ({ s with toTwoServices := two } : Backstop F O).observe := by
  have hstep : ∀ now, step ≠ .healthCheck now := by
    rintro now rfl
    exact nomatch h
  have hnext : s.next errc ota (.services step) =
      if s.pc = .restarted then none
      else (s.toTwoServices.next errc ota step).map fun two =>
        ({ s with toTwoServices := two } : Backstop F O).observe := by
    cases step with
    | healthCheck now => exact absurd rfl (hstep now)
    | _ => rfl
  rw [hnext] at h
  split at h
  · exact nomatch h
  · rename_i hpc
    obtain ⟨two, htwo, rfl⟩ := Option.map_eq_some_iff.mp h
    exact ⟨hstep, hpc, two, htwo, rfl⟩

theorem Inv.services (hota : LawfulOta session) (honce : ConfirmsOnce O) (h : s.Inv session)
    {step : TwoServicesStep F} (ht : s.next errc ota (.services step) = some t) :
    t.Inv session := by
  obtain ⟨hstep, hpc, two, htwo, rfl⟩ := next_services_some ht
  have hs := h.running hpc
  obtain ⟨hhealth, hengine⟩ := next_services hstep htwo
  have hconfirmed : (s.confirmed || !isPendingVerify two.shared.ota) =
      !isPendingVerify two.shared.ota := by
    rw [hs.confirmed]
    cases hstill : isPendingVerify s.shared.ota with
    | true => simp
    | false => simp [hengine _ honce.keeps hstill]
  refine ⟨h.kept, fun _ => ⟨(hs.shared.next hota htwo).1, hconfirmed, ?_, hs.completed,
    hs.holdRead⟩⟩
  have hwatch := hs.watch
  rw [← hhealth] at hwatch
  exact hwatch.mono fun hseen => Bool.or_eq_true_iff.mpr (.inl hseen)

/-- Every step keeps the invariant. -/
theorem Inv.next (hota : LawfulOta session) (honce : ConfirmsOnce O) (h : s.Inv session)
    {step : BackstopStep F} (ht : s.next errc ota step = some t) : t.Inv session := by
  cases step with
  | services step => exact h.services hota honce ht
  | healthCheck now =>
      simp only [Backstop.next] at ht
      split at ht
      · rename_i hpc
        obtain rfl := Option.some.inj ht
        exact h.healthCheck hota hpc now
      · exact nomatch ht
  | readHold =>
      simp only [Backstop.next] at ht
      split at ht
      · rename_i hpc
        obtain rfl := Option.some.inj ht
        exact ⟨h.kept, fun _ => (h.running (by simp [hpc])).readHold⟩
      · exact nomatch ht
  | tick it =>
      simp only [Backstop.next] at ht
      split at ht
      · rename_i hold r earlier hpc hrounds
        obtain rfl := Option.some.inj ht
        exact h.tick hpc hrounds rfl rfl
      · exact nomatch ht

end Steps

/-! ## Every run -/

section Runs

variable [OtaEngine O] [MachineFloat F] [FloatMath F] [FloatBits F]
  {session : O → Option (List UInt8)} {errc : ErrcTable} {ota : Bool} {s t : Backstop F O}

omit [FloatMath F] in
/-- MARK_VALID answered OK: the engine took it. -/
theorem markAppValid_of_ok {l : Link F O (Device F)} {payload : List UInt8} {now : Time}
    (h : (l.handleFrameLocked (calibrationConfig errc ota) Msg.markValid.code payload now).1 =
      some (buildOk kModule 0)) :
    (markAppValid l.ota).1 = none ∧
      (l.handleFrameLocked (calibrationConfig errc ota) Msg.markValid.code payload now).2.ota =
        (markAppValid l.ota).2 := by
  have hcode : Msg.ofCode Msg.markValid.code = some .markValid := by decide
  simp only [Link.handleFrameLocked, hcode, Link.handleRequest, Option.some.injEq] at h ⊢
  cases ota with
  | false => exact absurd h (buildError_ne_buildOk _ _ _ _)
  | true =>
      rcases hmark : markAppValid l.ota with ⟨_ | ec, engine⟩
      · refine ⟨rfl, ?_⟩
        rw [Link.handleMarkValid_snd, if_pos (by rfl), hmark]
      · simp only [Link.handleMarkValid, hmark, calibrationConfig, Bool.not_true,
          Bool.false_eq_true, ite_false] at h
        exact absurd h (buildError_ne_buildOk _ _ _ _)

theorem inv_of_reachable (hota : LawfulOta session) (honce : ConfirmsOnce O)
    (hs : (backstop errc ota).Reachable s) : s.Inv session := by
  refine Reachable.invariant (I := fun s => s.Inv session) ?_ ?_ hs
  · rintro s ⟨hbefore, hhealth, hpc, hpending, hconfirmed, hrounds⟩
    obtain ⟨hshared, -⟩ := sharedHold_of_reachable hota hbefore
    refine ⟨by rw [hrounds]; exact kept_nil, fun _ => ⟨⟨?_, ?_, ?_, ?_⟩, hconfirmed, ?_, ?_, ?_⟩⟩
    · exact hshared.atMostOneOwner
    · exact hshared.session_owned
    · exact hshared.owner_holding
    · rw [hhealth]
      exact hshared.counter
    · rw [hhealth, hrounds, hconfirmed, hpending]
      exact .new s.start _
    · simp [hrounds]
    · simp [hpc]
  · intro s step t hs ht
    exact hs.next hota honce ht

/-- **In every run**, over any clock, every round keeps the backstop's promise;
the counter is the services' holds and, from HOLD_OUTPUT to ROLL_BACK, one more;
once the image was seen confirmed, as it is when MARK_VALID is answered OK, a
rollback would leave it alone. -/
theorem backstop_kept (hota : LawfulOta session) (honce : ConfirmsOnce O)
    (hs : (backstop errc ota).Reachable s) :
    Kept s.start s.pendingAtStart s.rounds ∧
      (s.pc ≠ .restarted → s.shared.outside.outputHolds =
        (s.services .vendor).holding.toInt + (s.services .cdc).holding.toInt +
          (held s.rounds).toInt) ∧
      (s.pc ≠ .restarted → s.confirmed = true →
        rollbackNow s.shared.ota = some s.shared.ota) ∧
      ∀ id payload now t,
        s.next errc ota (.services (.handleFrame id Msg.markValid.code payload now)) = some t →
        ((s.link id).handleFrameLocked (calibrationConfig errc ota) Msg.markValid.code payload
          now).1 = some (buildOk kModule 0) → t.confirmed = true := by
  have hinv := inv_of_reachable hota honce hs
  refine ⟨hinv.kept, fun hpc => ?_, fun hpc hconfirmed => ?_, ?_⟩
  · rw [(hinv.running hpc).shared.counter, (hinv.running hpc).watch.holding]
  · have hstill : isPendingVerify s.shared.ota = false := by
      simpa using (hinv.running hpc).confirmed.symm.trans hconfirmed
    simp [rollbackNow, hstill]
  · intro id payload now t ht hok
    obtain ⟨-, -, two, htwo, rfl⟩ := next_services_some ht
    obtain rfl := Option.some.inj htwo
    obtain ⟨hnone, hengine⟩ := markAppValid_of_ok hok
    have hstill : isPendingVerify ((s.toTwoServices.withLink id
        ((s.link id).handleFrameLocked (calibrationConfig errc ota) Msg.markValid.code payload
          now).2).shared.ota) = false := by
      rw [TwoServices.withLink_shared, hengine]
      exact honce.confirms _ hnone
    exact Bool.or_eq_true_iff.mpr (.inr (by rw [hstill]; rfl))

end Runs

end Backstop

/-! ## The simulator's engine -/

/-- The calls of the engine write the slot that is not running, if any. -/
theorem Flash.pendingVerify_setSlot_other {D : Type*} (flash : Flash D) (slot : Slot D) :
    (flash.setSlot (Flash.otherOf flash.running) slot).pendingVerify = flash.pendingVerify := by
  have hrunning : (flash.setSlot (Flash.otherOf flash.running) slot).runningSlot =
      flash.runningSlot := by
    simp [Flash.runningSlot]
  rw [Flash.pendingVerify, hrunning]
  rfl

theorem SimOta.confirmsOnce : ConfirmsOnce SimOta where
  keeps :=
    { begin := by
        intro size o h
        change o.flash.pendingVerify = false at h
        change (o.begin size).2.flash.pendingVerify = false
        unfold SimOta.begin
        split_ifs
        · exact h
        · exact h
        · exact (o.flash.pendingVerify_setSlot_other _).trans h
      write := by
        intro data o h
        change o.flash.pendingVerify = false at h
        change (o.write data).2.flash.pendingVerify = false
        unfold SimOta.write
        split
        · exact h
        · dsimp only
          split
          · exact (o.flash.pendingVerify_setSlot_other _).trans h
          · exact h
      finish := by
        intro o h
        change o.flash.pendingVerify = false at h
        change (o.finish).2.flash.pendingVerify = false
        unfold SimOta.finish
        split
        · exact h
        · split
          · exact h
          · exact (o.flash.pendingVerify_setSlot_other _).trans h
      abort := fun o h => h
      markAppValid := fun o _ => by
        change o.flash.markValid.pendingVerify = false
        simp [Flash.markValid, Flash.pendingVerify, Flash.runningSlot]
      setBootOther := by
        intro o h
        change o.flash.pendingVerify = false at h
        change (o.flash.setBoot (Flash.otherOf o.flash.running)).2.pendingVerify = false
        unfold Flash.setBoot
        split_ifs
        · exact h
        · exact h
        · exact (o.flash.pendingVerify_setSlot_other _).trans h }
  confirms o _ := by
    change o.flash.markValid.pendingVerify = false
    simp [Flash.markValid, Flash.pendingVerify, Flash.runningSlot]

namespace Backstop

attribute [local instance] Flash.neZero_two in
/-- A board that has just booted an image uploaded to ota_1. -/
def trialBoot : Backstop ℚ SimOta where
  toTwoServices :=
    { freshTwoServices with
      shared := { freshTwoServices.shared with
        ota := .new
          { slots := fun i => ⟨true, decide (i = 0), false, default,
              if i = 0 then .valid else .pendingVerify, .ok⟩
            running := 1
            boot := 1
            nextImage := .ok } }
      health := .new true 0 }
  loop := .mouse .new
  pc := .top
  start := 0
  pendingAtStart := true
  confirmed := false
  rounds := []

/-- Nobody confirms it: two iterations, the second one after the hold. -/
def unconfirmed : List (BackstopStep ℚ) :=
  [.healthCheck (seconds 120), .readHold,
    .tick ⟨⟨1, 0, 0, 0, true, none⟩, seconds 120, false, false, fun _ => none,
      ⟨0, 0, 0, 0, true, none⟩, 0⟩,
    .healthCheck (seconds 121)]

/-- The device restarts into the other image, after a neutral report. -/
theorem backstop_kept_unconfirmed :
    ∃ s, runOption (next hostErrc true) trialBoot unconfirmed = some s ∧ s.pc = .restarted ∧
      s.rounds.map Round.action = [.rollBack, .holdOutput] ∧
      s.rounds.map Round.marked = [true, false] ∧
      Kept 0 true s.rounds := by
  have hinit : (backstop hostErrc true).init trialBoot :=
    ⟨.init ⟨fun _ => rfl, rfl, rfl, rfl⟩, rfl, rfl, rfl, rfl, rfl⟩
  have hrun : (runOption (next hostErrc true) trialBoot unconfirmed).map (fun s =>
      (s.pc, s.start, s.pendingAtStart, s.rounds.map Round.action, s.rounds.map Round.marked)) =
        some (.restarted, 0, true, [.rollBack, .holdOutput], [true, false]) := by
    decide +kernel
  obtain ⟨s, hs, hfields⟩ := Option.map_eq_some_iff.mp hrun
  simp only [Prod.mk.injEq] at hfields
  obtain ⟨hpc, hstart, hpending, hactions, hmarked⟩ := hfields
  obtain ⟨steps, hpath⟩ := path_of_runOption (backstop hostErrc true).init hs
  have hkept := (backstop_kept SimOta.lawful SimOta.confirmsOnce
    (hpath.reachable (.init hinit))).1
  rw [hstart, hpending] at hkept
  exact ⟨s, hs, hpc, hactions, hmarked, hkept⟩

end Backstop

end OmegaStick
