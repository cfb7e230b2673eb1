import OmegaStick.Console.Page

/-!
# What a confirming run has seen

`Sent` is what MARK_VALID follows: on the connection it is sent over, the expected
build and still pending, a STATE reply, and a sensor that passed.  A run keeps to it
by what it has seen so far (`ConfirmRun.Good`), as long as it goes on with the frames
of its own connection only.
-/

namespace OmegaStick

namespace Console

open TransitionSystem

/-! ## What MARK_VALID follows -/

/-- A reading of the sensor over this connection. -/
def Reading (c : ConnId) (event : CheckEvent) : Prop :=
  ∃ now sensorFault, event = .diagnostics c now sensorFault

/-- A reading that finds it healthy. -/
def Healthy (c : ConnId) (event : CheckEvent) : Prop := ∃ now, event = .diagnostics c now 0

theorem Healthy.reading {c : ConnId} {event : CheckEvent} (h : Healthy c event) :
    Reading c event := by
  obtain ⟨now, rfl⟩ := h
  exact ⟨now, 0, rfl⟩

/-- The sensor check passed: not supported, or healthy twice, a dwell apart, and
healthy in between. -/
inductive SensorPassed (c : ConnId) : List CheckEvent → Prop where
  | unsupported (before : List CheckEvent) (message : JsString)
      (hbefore : ∀ e ∈ before, Reading c e) (hmessage : Console.unsupported message = true) :
      SensorPassed c (before ++ [.unsupported message])
  | healthy (before between : List CheckEvent) (first second : Time)
      (hbefore : ∀ e ∈ before, Reading c e) (hbetween : ∀ e ∈ between, Healthy c e)
      (hdwell : sensorDwellMs ≤ second - first) :
      SensorPassed c
        (before ++ .diagnostics c first 0 :: between ++ [.diagnostics c second 0])

/-- The first two checks passed over this connection, and then came `rest`. -/
def Checked [BrowserText] (c : ConnId) (rest log : List CheckEvent) : Prop :=
  ∃ expected info, info.Expects expected ∧ log = .fwInfo c expected info :: .state c :: rest

/-- Every check passed over this connection, and MARK_VALID went out over it
without its having been interrupted. -/
def Sent [BrowserText] (c : ConnId) (log : List CheckEvent) : Prop :=
  ∃ sensor, SensorPassed c sensor ∧ Checked c (sensor ++ [.markValid c false]) log

/-- No MARK_VALID was sent. -/
def Unmarked (log : List CheckEvent) : Prop := ∀ target interrupted,
  .markValid target interrupted ∉ log

section Logs

variable {c : ConnId} {log : List CheckEvent}

theorem unmarked_of_readings (h : ∀ e ∈ log, Reading c e) : Unmarked log := by
  intro target interrupted hmem
  obtain ⟨now, sensorFault, heq⟩ := h _ hmem
  exact nomatch heq

theorem unmarked_fwInfo {expected : Expected} {info : FwInfo} :
    Unmarked [.fwInfo c expected info] := by
  intro target interrupted hmem
  simp at hmem

theorem Unmarked.append (h : Unmarked log) {event : CheckEvent}
    (hevent : ∀ target interrupted, event ≠ .markValid target interrupted) :
    Unmarked (log ++ [event]) := by
  intro target interrupted hmem
  rcases List.mem_append.mp hmem with hmem | hmem
  · exact h target interrupted hmem
  · exact hevent target interrupted (List.mem_singleton.mp hmem).symm

theorem SensorPassed.unmarked (h : SensorPassed c log) : Unmarked log := by
  cases h with
  | unsupported before message hbefore =>
      exact (unmarked_of_readings hbefore).append fun _ _ => CheckEvent.noConfusion
  | healthy before between first second hbefore hbetween =>
      refine Unmarked.append (unmarked_of_readings (c := c) fun e he => ?_) fun _ _ =>
        CheckEvent.noConfusion
      rw [List.mem_append, List.mem_cons] at he
      rcases he with he | rfl | he
      · exact hbefore e he
      · exact ⟨first, 0, rfl⟩
      · exact (hbetween e he).reading

theorem Checked.unmarked [BrowserText] {rest : List CheckEvent} (h : Checked c rest log)
    (hrest : Unmarked rest) : Unmarked log := by
  obtain ⟨expected, info, -, rfl⟩ := h
  intro target interrupted hmem
  simp only [List.mem_cons, reduceCtorEq, false_or] at hmem
  exact hrest target interrupted hmem

theorem Checked.append [BrowserText] {rest : List CheckEvent} (h : Checked c rest log)
    (event : CheckEvent) : Checked c (rest ++ [event]) (log ++ [event]) := by
  obtain ⟨expected, info, hexpects, rfl⟩ := h
  exact ⟨expected, info, hexpects, rfl⟩

/-- MARK_VALID went out over the connection of the checks. -/
theorem Sent.target [BrowserText] (h : Sent c log) {target : ConnId} {interrupted : Bool}
    (hmem : .markValid target interrupted ∈ log) : target = c := by
  obtain ⟨sensor, hsensor, expected, info, -, rfl⟩ := h
  simp only [List.mem_cons, List.mem_append, reduceCtorEq, false_or, List.not_mem_nil, or_false,
    CheckEvent.markValid.injEq] at hmem
  rcases hmem with hmem | ⟨rfl, -⟩
  · exact absurd hmem (hsensor.unmarked target interrupted)
  · rfl

/-- A run that was stopped sends nothing. -/
theorem Sent.not_stopped [BrowserText] (h : Sent c log) : .stopped ∉ log := by
  obtain ⟨sensor, hsensor, expected, info, -, rfl⟩ := h
  intro hmem
  simp only [List.mem_cons, List.mem_append, reduceCtorEq, false_or, List.not_mem_nil,
    or_false] at hmem
  cases hsensor with
  | unsupported before message hbefore =>
      simp only [List.mem_append, List.mem_singleton, reduceCtorEq, or_false] at hmem
      obtain ⟨now, sensorFault, heq⟩ := hbefore _ hmem
      exact nomatch heq
  | healthy before between first second hbefore hbetween =>
      simp only [List.mem_append, List.mem_cons, List.not_mem_nil, reduceCtorEq, or_false,
        false_or] at hmem
      rcases hmem with hmem | hmem
      · obtain ⟨now, sensorFault, heq⟩ := hbefore _ hmem
        exact nomatch heq
      · obtain ⟨now, heq⟩ := hbetween _ hmem
        exact nomatch heq

end Logs

/-! ## One run -/

/-- The readings of a sensor check that goes on. -/
structure Watching (c : ConnId) (healthySince : Option Time) (sensor : List CheckEvent) :
    Prop where
  readings : ∀ e ∈ sensor, Reading c e
  since : ∀ first, healthySince = some first → ∃ before between,
    sensor = before ++ .diagnostics c first 0 :: between ∧ ∀ e ∈ between, Healthy c e

theorem Watching.nil (c : ConnId) : Watching c none [] where
  readings _ he := nomatch he
  since _ h := nomatch h

section Watching

variable {c : ConnId} {healthySince : Option Time} {sensor : List CheckEvent}

theorem Watching.readings_append (h : Watching c healthySince sensor) (now : Time)
    (sensorFault : UInt8) : ∀ e ∈ sensor ++ [.diagnostics c now sensorFault], Reading c e := by
  intro e he
  rcases List.mem_append.mp he with he | he
  · exact h.readings e he
  · exact ⟨now, sensorFault, List.mem_singleton.mp he⟩

/-- Not observed: the sensor has to be healthy anew. -/
theorem Watching.notObserved (h : Watching c healthySince sensor) (now : Time)
    (sensorFault : UInt8) : Watching c none (sensor ++ [.diagnostics c now sensorFault]) where
  readings := h.readings_append now sensorFault
  since _ h := nomatch h

/-- Healthy for the first time. -/
theorem Watching.first (h : Watching c none sensor) (now : Time) :
    Watching c (some now) (sensor ++ [.diagnostics c now 0]) where
  readings := h.readings_append now 0
  since first hfirst := by
    obtain rfl := Option.some.inj hfirst
    exact ⟨sensor, [], rfl, fun _ he => nomatch he⟩

/-- Still healthy. -/
theorem Watching.again {first : Time} (h : Watching c (some first) sensor) (now : Time) :
    Watching c (some first) (sensor ++ [.diagnostics c now 0]) where
  readings := h.readings_append now 0
  since t ht := by
    obtain ⟨before, between, rfl, hbetween⟩ := h.since t ht
    refine ⟨before, between ++ [.diagnostics c now 0], by simp, fun e he => ?_⟩
    rcases List.mem_append.mp he with he | he
    · exact hbetween e he
    · exact ⟨now, List.mem_singleton.mp he⟩

/-- Healthy for long enough. -/
theorem Watching.passed {first now : Time} (h : Watching c (some first) sensor)
    (hdwell : sensorDwellMs ≤ now - first) :
    SensorPassed c (sensor ++ [.diagnostics c now 0]) := by
  have hreadings := h.readings
  obtain ⟨before, between, rfl, hbetween⟩ := h.since first rfl
  exact .healthy before between first now
    (fun e he => hreadings e (List.mem_append.mpr (.inl he))) hbetween hdwell

end Watching

namespace ConfirmRun

variable [BrowserText]

/-- What a run has seen, by where it is. -/
def Good (run : ConfirmRun) : Prop :=
  match run.pc with
  | .firmware => run.log = []
  | .protocol => ∃ expected info, info.Expects expected ∧
      run.log = [.fwInfo run.conn expected info]
  | .sensor _ healthySince | .asleep _ healthySince =>
      ∃ sensor, Watching run.conn healthySince sensor ∧ Checked run.conn sensor run.log
  | .marking => ∃ sensor, SensorPassed run.conn sensor ∧ Checked run.conn sensor run.log
  | .marked | .verifying => Sent run.conn run.log
  | .done => Unmarked run.log ∨ Sent run.conn run.log

/-- A run has sent MARK_VALID after its checks, or not at all. -/
theorem Good.unmarked_or_sent {run : ConfirmRun} (h : run.Good) :
    Unmarked run.log ∨ Sent run.conn run.log := by
  obtain ⟨conn, pc, log⟩ := run
  cases pc with
  | firmware =>
      obtain rfl : log = [] := h
      exact .inl fun _ _ hmem => nomatch hmem
  | protocol =>
      obtain ⟨expected, info, -, hlog⟩ := h
      obtain rfl : log = [.fwInfo conn expected info] := hlog
      exact .inl unmarked_fwInfo
  | sensor started healthySince | asleep started healthySince =>
      obtain ⟨sensor, hwatching, hchecked⟩ := h
      exact .inl (hchecked.unmarked (unmarked_of_readings hwatching.readings))
  | marking =>
      obtain ⟨sensor, hsensor, hchecked⟩ := h
      exact .inl (hchecked.unmarked hsensor.unmarked)
  | marked | verifying => exact .inr h
  | done => exact h

omit [BrowserText] in
theorem unmarked_stop {run : ConfirmRun} (h : Unmarked run.log) : Unmarked run.stop.log :=
  h.append fun _ _ => CheckEvent.noConfusion

theorem good_stop {run : ConfirmRun} (h : Unmarked run.log) : run.stop.Good :=
  .inl (unmarked_stop h)

variable {run : ConfirmRun} {stale : Bool} {upd : Option Update} {r : Judgement}
  {pc : ConfirmPc} {call : Call Unit}

/-- A check passes or stops the run. -/
theorem good_judged (hstop : Unmarked run.log)
    (hnext : r.ok = true → r.alreadyConfirmed = false → ({ run with pc := pc } : ConfirmRun).Good) :
    (run.judged stale upd r pc call).run.Good := by
  unfold judged
  split_ifs with hstale hconfirmed hfailed
  · exact good_stop hstop
  · exact good_stop hstop
  · exact good_stop hstop
  · exact hnext (by simpa using hfailed) (by simpa using hconfirmed)

theorem good_resumeSensor {now started : Time} {healthySince : Option Time} {source : ConnId}
    {read : Except JsString DecodedDiagnostics} {sensor : List CheckEvent}
    (hwatching : Watching run.conn healthySince sensor)
    (hchecked : Checked run.conn sensor run.log) (hsource : read.isOk = true → source = run.conn) :
    (run.resumeSensor stale upd now started healthySince source read).run.Good := by
  have hunmarked := hchecked.unmarked (unmarked_of_readings hwatching.readings)
  unfold resumeSensor
  cases read with
  | error message =>
      -- only a firmware without the request may fail the read
      cases hunsupported : unsupported message with
      | false =>
          simp only [seeSensor, judgeConfirmCheck, hunsupported, Bool.false_eq_true, ite_false,
            Bool.not_false, Bool.and_self, Bool.or_true, ite_true]
          exact good_judged hunmarked fun hok => nomatch hok
      | true =>
          simp only [seeSensor, judgeConfirmCheck, hunsupported, ite_true, Bool.true_or]
          refine good_judged (hunmarked.append fun _ _ => CheckEvent.noConfusion) fun _ _ => ?_
          exact ⟨_, .unsupported sensor message hwatching.readings hunsupported,
            hchecked.append _⟩
  | ok diagnostics =>
      obtain rfl := hsource rfl
      have hseen : Unmarked (run.log ++ [.diagnostics run.conn now diagnostics.sensorFault]) :=
        hunmarked.append fun _ _ => CheckEvent.noConfusion
      -- the three readings: not observed yet, healthy, faulty
      by_cases hobserved : diagnostics.sensorFault = sensorNotObservedCode
      · simp only [seeSensor, judgeConfirmCheck, hobserved, ite_true, Bool.not_false, Bool.not_true,
          Bool.and_false, Bool.or_self, Bool.false_eq_true, ite_false]
        rw [hobserved] at hseen
        split_ifs with hlate
        · exact good_judged hseen fun hok => nomatch hok
        · exact ⟨_, hwatching.notObserved now _, hchecked.append _⟩
      · by_cases hhealthy : diagnostics.sensorFault = 0
        · rw [hhealthy] at hseen
          simp only [seeSensor, judgeConfirmCheck, hhealthy, decide_true, Bool.not_true,
            Bool.false_and, Bool.or_self, Bool.false_eq_true, ite_false, ite_true,
            show ¬ (0 : UInt8) = sensorNotObservedCode by decide]
          -- healthy readings have to last
          cases healthySince with
          | none => exact ⟨_, hwatching.first now, hchecked.append _⟩
          | some since =>
              dsimp only
              split_ifs with hdwell
              · exact good_judged hseen fun _ _ => ⟨_, hwatching.passed hdwell, hchecked.append _⟩
              · exact ⟨_, hwatching.again now, hchecked.append _⟩
        · simp only [seeSensor, judgeConfirmCheck, hobserved, hhealthy, decide_false, ite_false,
            Bool.not_false, Bool.and_self, Bool.or_true, ite_true]
          exact good_judged hseen fun hok => nomatch hok

/-- A run goes on as it should, on the frames of its own connection. -/
theorem good_resume (hrun : run.Good) {source : ConnId} {now : Time} {settled : Settled}
    (hsource : ∀ frame, settled = .resolved frame → source = run.conn) :
    (run.resume stale upd source now settled).run.Good := by
  obtain ⟨conn, pc, log⟩ := run
  cases pc with
  -- the firmware's version is asked first, and nothing is noted yet
  | firmware =>
      obtain rfl : log = [] := hrun
      have hnothing : Unmarked [] := fun _ _ h => nomatch h
      cases upd with
      | none => exact good_stop hnothing
      | some u =>
          cases settled with
          | rejected message =>
              refine good_judged hnothing fun hok => ?_
              simp [judgeConfirmCheck, decideOutcome] at hok
          | resolved frame =>
              obtain rfl := hsource frame rfl
              refine good_judged (hnothing.append fun _ _ => CheckEvent.noConfusion)
                fun hok hconfirmed => ?_
              -- the check goes on only for the firmware that was expected
              have hconfirming : decideOutcome u.expected (some (readFwInfo frame.payload)) =
                  .confirming := by
                revert hok hconfirmed
                simp only [judgeConfirmCheck]
                split <;> simp [*]
              obtain ⟨info, hinfo, hexpects⟩ := decideOutcome_confirming_iff.mp hconfirming
              obtain rfl := Option.some.inj hinfo
              exact ⟨u.expected, _, hexpects, rfl⟩
  -- an answer to the protocol's request shows that the link works
  | protocol =>
      obtain ⟨expected, info, hexpects, hlog⟩ := hrun
      obtain rfl : log = [.fwInfo conn expected info] := hlog
      cases settled with
      | rejected message => exact good_judged unmarked_fwInfo fun hok => nomatch hok
      | resolved frame =>
          obtain rfl := hsource frame rfl
          refine good_judged (unmarked_fwInfo.append fun _ _ => CheckEvent.noConfusion)
            fun _ _ => ?_
          exact ⟨[], .nil _, expected, info, hexpects, rfl⟩
  -- a sensor status, which has to come from the same connection
  | sensor started healthySince =>
      obtain ⟨sensor, hwatching, hchecked⟩ := hrun
      refine good_resumeSensor hwatching hchecked fun hok => ?_
      cases settled with
      | rejected message => exact nomatch hok
      | resolved frame => exact hsource frame rfl
  | asleep started healthySince => exact hrun
  -- MARK_VALID was sent, and whatever comes back it was sent on what the log shows
  | marking =>
      obtain ⟨sensor, hsensor, hchecked⟩ := hrun
      exact .inl (hchecked.unmarked hsensor.unmarked)
  | marked =>
      cases settled with
      | rejected message => exact .inr hrun
      | resolved frame => exact hrun
  | verifying => exact .inr hrun
  | done => exact hrun

omit [BrowserText] in
theorem judged_conn : (run.judged stale upd r pc call).run.conn = run.conn := by
  unfold judged
  split_ifs <;> rfl

omit [BrowserText] in
/-- A check that passes makes the next call, of a run that is not stale. -/
theorem judged_call {made : Call Unit} (h : (run.judged stale upd r pc call).call = some made) :
    made = call ∧ (run.judged stale upd r pc call).run.pc = pc ∧ stale = false := by
  revert h
  unfold judged
  split_ifs with hstale
  · exact fun h => nomatch h
  · exact fun h => nomatch h
  · exact fun h => nomatch h
  · exact fun h => ⟨(Option.some.inj h).symm, rfl, by simpa using hstale⟩

end ConfirmRun

/-- What a run waits for. -/
def ConfirmPc.awaits : ConfirmPc → Msg → Bool
  | .firmware, .getFwInfo | .protocol, .getState | .sensor .., .getDiagnostics
  | .marking, .markValid | .marked, .markValid | .verifying, .getFwInfo => true
  | _, _ => false

namespace ConfirmRun

variable [BrowserText] {run : ConfirmRun} {stale : Bool} {upd : Option Update} {source : ConnId}
  {now : Time} {settled : Settled}

theorem resumeSensor_conn (started : Time) (healthySince : Option Time)
    (read : Except JsString DecodedDiagnostics) :
    (run.resumeSensor stale upd now started healthySince source read).run.conn = run.conn := by
  have hseen : (run.seeSensor source now read).conn = run.conn := by
    cases read with
    | ok diagnostics => rfl
    | error message =>
        simp only [seeSensor]
        split <;> rfl
  unfold resumeSensor
  dsimp only
  split_ifs
  · exact judged_conn.trans hseen
  · split
    · exact hseen
    · split
      · exact judged_conn.trans hseen
      · exact hseen
  · exact judged_conn.trans hseen
  · exact hseen

theorem resume_conn : (run.resume stale upd source now settled).run.conn = run.conn := by
  unfold resume
  split
  · split
    · rfl
    · refine judged_conn.trans ?_
      cases settled <;> rfl
  · split
    · exact judged_conn.trans rfl
    · exact judged_conn
  · exact resumeSensor_conn _ _ _
  · rfl
  · split <;> rfl
  all_goals rfl

omit [BrowserText] in
/-- What a check asks for next is what the run then waits for. -/
theorem judged_awaits {r : Judgement} {pc : ConfirmPc} {call made : Call Unit}
    (hpc : pc.awaits call.type = true)
    (h : (run.judged stale upd r pc call).call = some made) :
    (run.judged stale upd r pc call).run.pc.awaits made.type = true ∧
      (stale = true → ∃ frame, settled = .resolved frame) := by
  obtain ⟨rfl, hnext, hstale⟩ := judged_call h
  exact ⟨by rw [hnext, hpc], fun h => by simp [hstale] at h⟩

/-- The call a run makes is the one it waits for then; it is made while the
connection is the run's, but for the last one, which follows MARK_VALID. -/
theorem resume_call {call : Call Unit}
    (h : (run.resume stale upd source now settled).call = some call) :
    (run.resume stale upd source now settled).run.pc.awaits call.type = true ∧
      (stale = true → ∃ frame, settled = .resolved frame) := by
  revert h
  unfold resume
  split
  · split
    · exact fun h => nomatch h
    · exact judged_awaits rfl
  · split
    · exact judged_awaits rfl
    · exact judged_awaits rfl
  · unfold resumeSensor
    dsimp only
    split_ifs
    · exact judged_awaits rfl
    · split
      · exact fun h => nomatch h
      · split
        · exact judged_awaits rfl
        · exact fun h => nomatch h
    · exact judged_awaits rfl
    · exact fun h => nomatch h
  · exact fun h => nomatch h
  · split
    · -- the last call follows MARK_VALID, stale or not
      rename_i frame
      intro h
      obtain rfl := Option.some.inj h
      exact ⟨rfl, fun _ => ⟨frame, rfl⟩⟩
    · exact fun h => nomatch h
  all_goals exact fun h => nomatch h

end ConfirmRun

end Console

end OmegaStick
