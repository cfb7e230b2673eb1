import OmegaStick.Device.TickHistory
import OmegaStick.Device.SensorStatus

/-!
# The range of the sensor's counters

The streaks of the sensor monitor and `good_reads` are `int`s in the source.  The
checked versions of the functions below yield nothing where one of them would
overflow.  The repetitions saturate at their thresholds, as long as these are on; the
streak of failed reads and the two of successful ones only count up, so that the
checked run exists exactly as long as no run of polls is too long for an `int`
(`counters_fit_iff`).
-/

namespace OmegaStick

open MachineFloat SensorFaultMonitor SensorPoll History

variable {F : Type*}

/-! ## `int` -/

/-- The value of an `int`. -/
def IsInt (n : ℤ) : Prop := -2 ^ 31 ≤ n ∧ n < 2 ^ 31

/-- `++` on an `int`; overflow is undefined. -/
def increment (n : ℤ) : Option ℤ := if n + 1 < 2 ^ 31 then some (n + 1) else none

namespace SensorFaultMonitor

/-! ## The monitor with `int` streaks -/

/-- The thresholds are `int`s. -/
structure Config.IsInt (config : Config) : Prop where
  tripAfterFailedReads : OmegaStick.IsInt config.tripAfterFailedReads
  stuckAfterSamples : OmegaStick.IsInt config.stuckAfterSamples
  stuckAfterStaleConversions : OmegaStick.IsInt config.stuckAfterStaleConversions
  recoverAfterGoodReads : OmegaStick.IsInt config.recoverAfterGoodReads

/-- `saturating_increment`, checked. -/
def saturatingIncrementChecked (streak limit : ℤ) : Option ℤ :=
  if 0 < limit ∧ limit ≤ streak then some limit else increment streak

section Checked

variable [MachineFloat F] (monitor : SensorFaultMonitor F)

/-- The streak of identical readings after a successful read, checked. -/
def trackSamplesChecked (rawX rawY : F) : Option (SensorFaultMonitor F) :=
  (if monitor.haveLast && feq rawX monitor.lastX && feq rawY monitor.lastY then
    saturatingIncrementChecked monitor.identicalStreak monitor.config.stuckAfterSamples
  else some 0).map fun identicalStreak =>
    { monitor with
      identicalStreak := identicalStreak
      haveLast := true
      lastX := rawX
      lastY := rawY }

omit [MachineFloat F] in
/-- The streak of polls on which the conversion counter did not advance, checked. -/
def trackConversionsChecked (conversionCount : Option UInt8) : Option (SensorFaultMonitor F) :=
  match conversionCount with
  | none => some monitor
  | some count =>
      (if monitor.haveLastConversion && count == monitor.lastConversion then
        saturatingIncrementChecked monitor.staleConversionStreak
          monitor.config.stuckAfterStaleConversions
      else some 0).map fun staleConversionStreak =>
        { monitor with
          staleConversionStreak := staleConversionStreak
          haveLastConversion := true
          lastConversion := count }

/-- `update`, checked. -/
def updateChecked (readOk : Bool) (rawX rawY : F) (conversionCount : Option UInt8) :
    Option (Bool × SensorFaultMonitor F) :=
  if !readOk then
    (increment monitor.failedStreak).map fun failedStreak =>
      let failed := { monitor with failedStreak := failedStreak, goodStreak := 0 }
      let after :=
        if failed.config.tripAfterFailedReads ≤ failed.failedStreak then failed.trip .readFailed
        else failed
      (after.faulted, after)
  else
    (increment monitor.goodStreak).bind fun goodStreak =>
    let good := { monitor with failedStreak := 0, goodStreak := goodStreak }
    (good.trackSamplesChecked rawX rawY).bind fun sampled =>
    (sampled.trackConversionsChecked conversionCount).map fun tracked =>
      if tracked.samplesStuck || tracked.conversionsStuck then
        (true, { tracked.trip .stuck with goodStreak := 0 })
      else
        let after :=
          if tracked.faulted && decide (tracked.config.recoverAfterGoodReads ≤ tracked.goodStreak)
          then { tracked with fault := .none }
          else tracked
        (after.faulted, after)

end Checked

end SensorFaultMonitor

/-! ## Ticks with `int` counters -/

/-- All counters of the sensor path are `int`s. -/
structure CommonState.CountersFit (common : CommonState F) : Prop where
  failedStreak : IsInt common.sensor.failedStreak
  goodStreak : IsInt common.sensor.goodStreak
  identicalStreak : IsInt common.sensor.identicalStreak
  staleConversionStreak : IsInt common.sensor.staleConversionStreak
  goodReads : IsInt common.goodReads

section Ticks

variable [MachineFloat F] {W : Type*} [Ports F W]

/-- `sensor_fault_update`, checked. -/
def sensorFaultUpdateChecked (common : CommonState F) (input : StepInput F) (w : W) :
    Option (FaultEdge × CommonState F × W) :=
  (common.sensor.updateChecked input.stick.readOk input.stick.rawX input.stick.rawY
    input.stick.conversionCount).bind fun (faulted, sensor) =>
  let changed := faulted != common.sensorWasFaulted
  let edge : FaultEdge := ⟨faulted, changed && faulted, changed && !faulted⟩
  let w := if changed then
      Ports.sensorFaultChanged faulted sensor.fault sensor.faultCount w
    else w
  (if input.stick.readOk then increment common.goodReads else some 0).bind fun goodReads =>
  let observes := !common.sensorObserved && !faulted &&
    decide (common.observeAfterGoodReads ≤ goodReads)
  let w := if observes then Ports.sensorObservedHealthy w else w
  some (edge,
    { common with
      sensor := sensor
      sensorWasFaulted := faulted
      goodReads := goodReads
      sensorObserved := common.sensorObserved || observes },
    w)

namespace LoopState

variable [FloatMath F]

/-- A loop after a history of ticks, newest first, each on its input and through its
ports. -/
def ran (s : LoopState F) : List (StepInput F × W) → LoopState F
  | [] => s
  | call :: older => ((s.ran older).through call.1 call.2).1

/-- On no tick of the history a counter overflows: the checked update is defined and
decides as the unbounded one, and every counter is an `int`. -/
structure NeverOverflows (s : LoopState F) (calls : List (StepInput F × W)) : Prop where
  defined : ∀ call older, call :: older <:+ calls →
    sensorFaultUpdateChecked (s.ran older).common call.1 call.2 =
      some (sensorFaultUpdate (s.ran older).common call.1 call.2)
  fit : ∀ moment, moment <:+ calls → (s.ran moment).common.CountersFit

end LoopState

end Ticks

/-! ## What makes a run too long -/

/-- The polls of a history of ticks. -/
def pollsOf {W : Type*} (calls : List (StepInput F × W)) : List (SensorPoll F) :=
  calls.map fun call => call.1.stick.poll

/-- The newest poll does not end a run that an `int` cannot count.  The repetitions
matter only where their check is off. -/
structure ShortRuns [MachineFloat F] (config : Config) (polls : List (SensorPoll F)) : Prop where
  failed : ¬ Lasted Failed (2 ^ 31) polls
  read : ¬ Lasted Read (2 ^ 31) polls
  identical : config.stuckAfterSamples ≤ 0 → ¬ Repeated SameReading (2 ^ 31) (readings polls)
  stale : config.stuckAfterStaleConversions ≤ 0 → ¬ Repeated (· = ·) (2 ^ 31) (conversions polls)

/-! ## One poll -/

section Poll

variable [MachineFloat F] {config : Config} {polls : List (SensorPoll F)}
  {monitor : SensorFaultMonitor F} {p : SensorPoll F}

theorem bind_if {α β : Type*} {c : Prop} [Decidable c] {x : α} {f : α → Option β} :
    (if c then some x else none).bind f = if c then f x else none := by
  split <;> rfl

/-- A counter of repetitions only overflows where it does not saturate. -/
theorem saturatingIncrementChecked_eq {α : Type*} {r : α → α → Prop} [DecidableRel r]
    {entries : List α} {newest last : α} {haveLast same : Bool} {count limit : ℤ}
    (hlimit : IsInt limit) (hcount : count = saturated limit (repeats r entries))
    (hlast : entries.head? = if haveLast then some last else none)
    (hsame : same = true ↔ r newest last) :
    (if haveLast && same then saturatingIncrementChecked count limit else some 0) =
      if limit ≤ 0 → ¬ Repeated r (2 ^ 31) (newest :: entries) then
        some (if haveLast && same then saturatingIncrement count limit else 0)
      else none := by
  have hnext := saturatingIncrement_saturated hcount hlast hsame
  have hrepeated : Repeated r (2 ^ 31) (newest :: entries) ↔
      2 ^ 31 ≤ repeats r (newest :: entries) := (le_repeats_iff (by norm_num)).symm
  simp only [hrepeated]
  cases hrepeat : haveLast && same with
  | false =>
      rw [hrepeat] at hnext
      have hzero : limit ≤ 0 → ¬ 2 ^ 31 ≤ repeats r (newest :: entries) := by
        intro hoff
        simp only [saturated, if_neg (not_lt.mpr hoff), Bool.false_eq_true, if_false] at hnext
        omega
      rw [if_pos hzero]
      rfl
  | true =>
      simp only [hrepeat, if_true] at hnext ⊢
      unfold saturatingIncrementChecked increment
      unfold saturatingIncrement at hnext ⊢
      unfold saturated at hnext
      obtain ⟨-, hmax⟩ := hlimit
      split_ifs at hnext ⊢ <;> first | rfl | omega

theorem map_if {α β : Type*} {c : Prop} [Decidable c] {x : α} {f : α → β} :
    (if c then some x else none).map f = if c then some (f x) else none := by
  split <;> rfl

theorem trackSamplesChecked_eq (hconfig : config.IsInt) (h : Repeating config polls monitor) :
    monitor.trackSamplesChecked p.rawX p.rawY =
      if config.stuckAfterSamples ≤ 0 →
          ¬ Repeated SameReading (2 ^ 31) ((p.rawX, p.rawY) :: readings polls) then
        some (monitor.trackSamples p.rawX p.rawY)
      else none := by
  have htracked := saturatingIncrementChecked_eq hconfig.stuckAfterSamples h.identical h.last
    (sameReading_iff monitor p)
  unfold trackSamplesChecked
  rw [Bool.and_assoc, h.config_eq, htracked, map_if]
  unfold trackSamples
  rw [Bool.and_assoc, h.config_eq]

omit [MachineFloat F] in
theorem trackConversionsChecked_eq (hconfig : config.IsInt) (hmonitor : monitor.config = config)
    (hstale : monitor.staleConversionStreak =
      saturated config.stuckAfterStaleConversions (repeats (· = ·) (conversions polls)))
    (hlast : (conversions polls).head? =
      if monitor.haveLastConversion then some monitor.lastConversion else none)
    (hp : p.readOk = true)
    (hbefore : config.stuckAfterStaleConversions ≤ 0 →
      ¬ Repeated (· = ·) (2 ^ 31) (conversions polls)) :
    monitor.trackConversionsChecked p.conversionCount =
      if config.stuckAfterStaleConversions ≤ 0 →
          ¬ Repeated (· = ·) (2 ^ 31) (conversions (p :: polls)) then
        some (monitor.trackConversions p.conversionCount)
      else none := by
  rw [conversions_of_read hp]
  cases p.conversionCount with
  | none => exact (if_pos hbefore).symm
  | some count =>
      have hsame : (count == monitor.lastConversion) = true ↔ count = monitor.lastConversion :=
        beq_iff_eq
      have htracked := saturatingIncrementChecked_eq hconfig.stuckAfterStaleConversions hstale
        hlast hsame
      unfold trackConversionsChecked
      dsimp only
      rw [hmonitor, htracked, map_if]
      unfold trackConversions
      dsimp only
      rw [hmonitor]
      rfl

/-- `update` on a failed read, checked. -/
theorem updateChecked_of_failed (hp : p.readOk = false) :
    monitor.updateChecked p.readOk p.rawX p.rawY p.conversionCount =
      if monitor.failedStreak + 1 < 2 ^ 31 then some (monitor.poll p) else none := by
  unfold updateChecked SensorFaultMonitor.poll update increment
  simp only [hp, Bool.not_false, if_true, map_if]

/-- `update` on a successful read, checked. -/
theorem updateChecked_of_read (hconfig : config.IsInt) (h : Repeating config polls monitor)
    (hp : p.readOk = true)
    (hbefore : config.stuckAfterStaleConversions ≤ 0 →
      ¬ Repeated (· = ·) (2 ^ 31) (conversions polls)) :
    monitor.updateChecked p.readOk p.rawX p.rawY p.conversionCount =
      if monitor.goodStreak + 1 < 2 ^ 31 ∧
          (config.stuckAfterSamples ≤ 0 →
            ¬ Repeated SameReading (2 ^ 31) (readings (p :: polls))) ∧
          (config.stuckAfterStaleConversions ≤ 0 →
            ¬ Repeated (· = ·) (2 ^ 31) (conversions (p :: polls))) then
        some (monitor.poll p)
      else none := by
  rw [readings_of_read hp]
  unfold updateChecked SensorFaultMonitor.poll update increment
  simp only [hp, Bool.not_true, Bool.false_eq_true, if_false, bind_if]
  by_cases hgood : monitor.goodStreak + 1 < 2 ^ 31
  · set good : SensorFaultMonitor F :=
      { monitor with failedStreak := 0, goodStreak := monitor.goodStreak + 1 }
    have hmonitor : Repeating config polls good := { h with }
    rw [if_pos hgood, trackSamplesChecked_eq hconfig hmonitor, bind_if]
    by_cases hsamples : config.stuckAfterSamples ≤ 0 →
        ¬ Repeated SameReading (2 ^ 31) ((p.rawX, p.rawY) :: readings polls)
    · have hsampled := trackConversionsChecked_eq hconfig
        (show (good.trackSamples p.rawX p.rawY).config = config from h.config_eq)
        h.stale h.lastConversion hp hbefore
      rw [if_pos hsamples, hsampled, map_if]
      by_cases hconversions : config.stuckAfterStaleConversions ≤ 0 →
          ¬ Repeated (· = ·) (2 ^ 31) (conversions (p :: polls))
      · rw [if_pos hconversions]
        exact (if_pos ⟨hgood, hsamples, hconversions⟩).symm
      · rw [if_neg hconversions, if_neg fun hall => hconversions hall.2.2]
    · rw [if_neg hsamples, if_neg fun hall => hsamples hall.2.1]
  · rw [if_neg hgood, if_neg fun hall => hgood hall.1]

/-- What the counters say about the polls so far, whatever the thresholds. -/
structure Counted (config : Config) (polls : List (SensorPoll F)) (common : CommonState F) :
    Prop where
  repeating : Repeating config polls common.sensor
  failed : common.sensor.failedStreak = streak Failed polls
  goodReads : common.goodReads = streak Read polls
  good_nonneg : 0 ≤ common.sensor.goodStreak
  good_le : common.sensor.goodStreak ≤ common.goodReads

omit [MachineFloat F] in
theorem trip_goodStreak_le (monitor : SensorFaultMonitor F) (fault : Fault)
    (h : 0 ≤ monitor.goodStreak) :
    0 ≤ (monitor.trip fault).goodStreak ∧
      (monitor.trip fault).goodStreak ≤ monitor.goodStreak := by
  unfold trip
  split
  · exact ⟨h, le_rfl⟩
  · exact ⟨le_rfl, h⟩

/-- A poll counts as the history does. -/
theorem Counted.polled {common common' : CommonState F} (h : Counted config polls common)
    (hsensor : common'.sensor = (common.sensor.poll p).2)
    (hgood : common'.goodReads = if p.readOk then common.goodReads + 1 else 0) :
    Counted config (p :: polls) common' := by
  cases hp : p.readOk with
  -- a failed read: its streak grows, and both counts of good reads start over
  | false =>
      have hfailed : Failed (p :: polls) := hp
      have hread : ¬ Read (p :: polls) := fun hread => Read.not_failed hread hfailed
      have hrepeating : Repeating config (p :: polls)
          { common.sensor with failedStreak := common.sensor.failedStreak + 1, goodStreak := 0 } :=
        { h.repeating.of_failed hp with }
      have hstreak : common.sensor.failedStreak + 1 = streak Failed (p :: polls) := by
        rw [streak_cons, if_pos hfailed, h.failed]
        push_cast
        rfl
      have hzero : common'.goodReads = 0 := by rw [hgood, hp]; rfl
      rw [poll_of_failed hp] at hsensor
      dsimp only at hsensor
      split at hsensor
      -- the streak is long enough to trip the monitor
      · have htrip := trip_goodStreak_le
          { common.sensor with failedStreak := common.sensor.failedStreak + 1, goodStreak := 0 }
          .readFailed le_rfl
        refine ⟨hsensor ▸ hrepeating.trip _, ?_, ?_, ?_, ?_⟩
        · rw [hsensor, trip_failedStreak]
          exact hstreak
        · rw [hzero, streak_cons, if_neg hread]
          rfl
        · rw [hsensor]
          exact htrip.1
        · rw [hsensor, hzero]
          exact htrip.2
      · refine ⟨hsensor ▸ hrepeating, hsensor ▸ hstreak, ?_, hsensor ▸ le_rfl, ?_⟩
        · rw [hzero, streak_cons, if_neg hread]
          rfl
        · rw [hsensor, hzero]
  | true =>
      -- a successful read adds one to both counts
      have hread : Read (p :: polls) := hp
      have hfailed : ¬ Failed (p :: polls) := Read.not_failed hread
      obtain ⟨-, -, -, hnone, hcounted⟩ := counted_kept common.sensor p
      have hrepeating : Repeating config (p :: polls) (common.sensor.counted p) :=
        Repeating.of_read { h.repeating with } hp
      have hzero : (0 : ℤ) = streak Failed (p :: polls) := by
        rw [streak_cons, if_neg hfailed]
        rfl
      have hmore : common'.goodReads = common.goodReads + 1 := by rw [hgood, hp]; rfl
      have hstreak : common'.goodReads = streak Read (p :: polls) := by
        rw [hmore, streak_cons, if_pos hread, h.goodReads]
        push_cast
        rfl
      have hnonneg := h.good_nonneg
      have hle := h.good_le
      rw [poll_of_read hp] at hsensor
      split at hsensor
      -- a frozen sensor is counted by `goodReads` alone
      · have hstuck : Repeating config (p :: polls)
            { (common.sensor.counted p).trip .stuck with goodStreak := 0 } :=
          { hrepeating.trip .stuck with }
        refine ⟨hsensor ▸ hstuck, ?_, hstreak, hsensor ▸ le_rfl, ?_⟩
        · rw [hsensor]
          exact (trip_failedStreak _ _).trans (hnone.trans hzero)
        · rw [hsensor, hmore]
          dsimp only
          omega
      · have hkept : common'.sensor.failedStreak = 0 ∧
            common'.sensor.goodStreak = common.sensor.goodStreak + 1 ∧
            Repeating config (p :: polls) common'.sensor := by
          split at hsensor
          · exact ⟨hsensor ▸ hnone, hsensor ▸ hcounted, hsensor ▸ { hrepeating with }⟩
          · exact ⟨hsensor ▸ hnone, hsensor ▸ hcounted, hsensor ▸ hrepeating⟩
        exact ⟨hkept.2.2, hkept.1.trans hzero, hstreak, by omega, by omega⟩

theorem lasted_iff {α : Type*} {q : List α → Prop} [DecidablePred q] {history : List α} :
    ¬ Lasted q (2 ^ 31) history ↔ (streak q history : ℤ) < 2 ^ 31 := by
  rw [← le_streak_iff]
  omega

omit [MachineFloat F] in
theorem repeats_lt_of_not_repeated {α : Type*} {r : α → α → Prop} [DecidableRel r]
    {entries : List α} (h : ¬ Repeated r (2 ^ 31) entries) :
    (repeats r entries : ℤ) < 2 ^ 31 := by
  have hlt := not_le.mp (mt (le_repeats_iff (by norm_num)).mp h)
  omega

/-- A failed read makes the run of failed reads longer. -/
theorem ShortRuns.failed_iff (h : ShortRuns config polls) (hp : p.readOk = false) :
    ShortRuns config (p :: polls) ↔ (streak Failed polls : ℤ) + 1 < 2 ^ 31 := by
  have hfailed : Failed (p :: polls) := hp
  have hread : ¬ Read (p :: polls) := fun hread => hread.not_failed hfailed
  have hstreak : (streak Failed (p :: polls) : ℤ) = streak Failed polls + 1 := by
    rw [streak_cons, if_pos hfailed]
    push_cast
    rfl
  constructor
  · intro hshort
    rw [← hstreak]
    exact lasted_iff.mp hshort.failed
  · intro hlt
    refine ⟨lasted_iff.mpr (hstreak ▸ hlt), ?_, ?_, ?_⟩
    · rw [lasted_iff, streak_cons, if_neg hread]
      norm_num
    · rw [readings_of_failed hp]
      exact h.identical
    · rw [conversions_of_failed hp]
      exact h.stale

/-- A successful read makes the run of successful reads longer, and may repeat. -/
theorem ShortRuns.read_iff (hp : p.readOk = true) :
    ShortRuns config (p :: polls) ↔ (streak Read polls : ℤ) + 1 < 2 ^ 31 ∧
      (config.stuckAfterSamples ≤ 0 →
        ¬ Repeated SameReading (2 ^ 31) (readings (p :: polls))) ∧
      (config.stuckAfterStaleConversions ≤ 0 →
        ¬ Repeated (· = ·) (2 ^ 31) (conversions (p :: polls))) := by
  have hread : Read (p :: polls) := hp
  have hstreak : (streak Read (p :: polls) : ℤ) = streak Read polls + 1 := by
    rw [streak_cons, if_pos hread]
    push_cast
    rfl
  rw [← hstreak]
  constructor
  · exact fun h => ⟨lasted_iff.mp h.read, h.identical, h.stale⟩
  · rintro ⟨hlt, hidentical, hstale⟩
    refine ⟨?_, lasted_iff.mpr hlt, hidentical, hstale⟩
    rw [lasted_iff, streak_cons, if_neg hread.not_failed]
    norm_num

end Poll

/-! ## One tick -/

section Tick

variable [MachineFloat F] {W : Type*} [Ports F W] {config : Config} {polls : List (SensorPoll F)}
  {common : CommonState F}

/-- The part of a tick after the monitor has seen the sample, checked. -/
theorem sensorFaultUpdateChecked_of_updated {input : StepInput F} (w : W)
    (hupdated : common.sensor.updateChecked input.stick.readOk input.stick.rawX input.stick.rawY
      input.stick.conversionCount = some (common.sensor.poll input.stick.poll))
    (hgood : input.stick.readOk = true → common.goodReads + 1 < 2 ^ 31) :
    sensorFaultUpdateChecked common input w = some (sensorFaultUpdate common input w) := by
  unfold sensorFaultUpdateChecked
  rw [hupdated]
  unfold sensorFaultUpdate increment
  rw [show common.sensor.poll input.stick.poll = common.sensor.update input.stick.readOk
    input.stick.rawX input.stick.rawY input.stick.conversionCount from rfl]
  rcases common.sensor.update input.stick.readOk input.stick.rawX input.stick.rawY
    input.stick.conversionCount with ⟨faulted, sensor⟩
  cases hread : input.stick.readOk with
  | false => rfl
  | true =>
      rw [Option.bind_some, if_pos rfl, if_pos (hgood hread)]
      rfl

/-- A tick is defined exactly when it does not make a run too long. -/
theorem sensorFaultUpdateChecked_eq (hconfig : config.IsInt) (h : Counted config polls common)
    (hbefore : ShortRuns config polls) (input : StepInput F) (w : W) :
    (ShortRuns config (input.stick.poll :: polls) →
      sensorFaultUpdateChecked common input w = some (sensorFaultUpdate common input w)) ∧
    (¬ ShortRuns config (input.stick.poll :: polls) →
      sensorFaultUpdateChecked common input w = none) := by
  have hstreak := h.failed
  have hgood := h.goodReads
  have hle := h.good_le
  cases hp : input.stick.readOk with
  | false =>
      have hp' : input.stick.poll.readOk = false := hp
      have hupdate : common.sensor.updateChecked _ _ _ _ = _ := updateChecked_of_failed hp'
      rw [hbefore.failed_iff hp', ← hstreak]
      constructor
      · intro hshort
        rw [if_pos hshort] at hupdate
        exact sensorFaultUpdateChecked_of_updated w hupdate fun hread =>
          Bool.noConfusion (hp.symm.trans hread)
      · intro hlong
        rw [if_neg hlong] at hupdate
        unfold sensorFaultUpdateChecked
        rw [show common.sensor.updateChecked input.stick.readOk input.stick.rawX
          input.stick.rawY input.stick.conversionCount = none from hupdate]
        rfl
  | true =>
      have hp' : input.stick.poll.readOk = true := hp
      have hupdate := updateChecked_of_read hconfig h.repeating hp' hbefore.stale
      rw [ShortRuns.read_iff hp', ← hgood]
      constructor
      · rintro ⟨hshort, hrest⟩
        rw [if_pos ⟨by omega, hrest⟩] at hupdate
        exact sensorFaultUpdateChecked_of_updated w hupdate fun _ => hshort
      · intro hlong
        unfold sensorFaultUpdateChecked
        rw [show common.sensor.updateChecked input.stick.readOk input.stick.rawX
          input.stick.rawY input.stick.conversionCount = _ from hupdate]
        -- the monitor's own streak of good reads is never the longer one
        by_cases hrest : common.goodReads + 1 < 2 ^ 31
        · rw [if_neg fun hall => hlong ⟨hrest, hall.2⟩]
          rfl
        · simp only [hp, if_true, increment, if_neg hrest]
          split <;> rfl

end Tick

/-! ## Whole runs -/

section Run

variable [MachineFloat F] {config : Config}

/-- A state from which the sensor has not been polled. -/
structure CommonState.Unpolled (common : CommonState F) (config : Config) : Prop where
  sensor : common.sensor = .new config
  goodReads : common.goodReads = 0

theorem CommonState.Unpolled.counted {common : CommonState F} (h : common.Unpolled config) :
    Counted config [] common := by
  have hzero (limit : ℤ) : (0 : ℤ) = saturated limit 0 := by
    unfold saturated
    split_ifs <;> omega
  refine ⟨⟨?_, ?_, ?_, ?_, ?_⟩, ?_, h.goodReads, ?_, ?_⟩
  all_goals rw [h.sensor]
  · rfl
  · exact hzero _
  · rfl
  · exact hzero _
  · rfl
  · rfl
  · exact le_rfl
  · rw [h.goodReads]
    exact le_rfl

theorem shortRuns_nil : ShortRuns config ([] : List (SensorPoll F)) where
  failed h := absurd h.1 (by norm_num)
  read h := absurd h.1 (by norm_num)
  identical _ h := absurd h.1 (by norm_num [readings])
  stale _ h := absurd h.1 (by norm_num [conversions])

variable [FloatMath F] {W : Type*} [Ports F W]

/-- After any history the counters are what the history says. -/
theorem LoopState.counted_ran {s : LoopState F} (hstart : s.common.Unpolled config)
    (calls : List (StepInput F × W)) : Counted config (pollsOf calls) (s.ran calls).common := by
  induction calls with
  | nil => exact hstart.counted
  | cons call older ih =>
      have hsame := ((s.ran older).through_common call.1 call.2).sameSensor
      exact ih.polled hsame.sensor hsame.goodReads

/-- No moment of the history makes a run too long. -/
def AllShort (config : Config) (polls : List (SensorPoll F)) : Prop :=
  ∀ moment, moment <:+ polls → ShortRuns config moment

omit [FloatMath F] in
theorem allShort_cons {polls : List (SensorPoll F)} {p : SensorPoll F} :
    AllShort config (p :: polls) ↔ ShortRuns config (p :: polls) ∧ AllShort config polls := by
  constructor
  · intro h
    exact ⟨h _ (List.suffix_refl _), fun moment hmoment =>
      h moment (hmoment.trans (List.suffix_cons p polls))⟩
  · rintro ⟨hnow, hbefore⟩ moment hmoment
    rcases List.suffix_cons_iff.mp hmoment with rfl | hmoment
    · exact hnow
    · exact hbefore moment hmoment

theorem saturated_isInt {limit : ℤ} {n : ℕ} (hlimit : IsInt limit)
    (hn : limit ≤ 0 → (n : ℤ) < 2 ^ 31) : IsInt (saturated limit n) := by
  obtain ⟨hmin, hmax⟩ := hlimit
  unfold saturated IsInt
  split_ifs <;> omega

omit [FloatMath F] in
/-- A moment that is short leaves `int`s. -/
theorem Counted.fit (hconfig : config.IsInt) {polls : List (SensorPoll F)}
    {common : CommonState F} (h : Counted config polls common) (hshort : ShortRuns config polls) :
    common.CountersFit := by
  have hfailed := lasted_iff.mp hshort.failed
  have hread := lasted_iff.mp hshort.read
  have hnonneg := h.good_nonneg
  have hle := h.good_le
  rw [h.goodReads] at hle
  refine ⟨?_, ⟨by omega, by omega⟩, ?_, ?_, ?_⟩
  · rw [h.failed]
    exact ⟨by omega, hfailed⟩
  · rw [h.repeating.identical]
    exact saturated_isInt hconfig.stuckAfterSamples fun hoff =>
      repeats_lt_of_not_repeated (hshort.identical hoff)
  · rw [h.repeating.stale]
    exact saturated_isInt hconfig.stuckAfterStaleConversions fun hoff =>
      repeats_lt_of_not_repeated (hshort.stale hoff)
  · rw [h.goodReads]
    exact ⟨by omega, hread⟩

theorem LoopState.neverOverflows_nil (hconfig : config.IsInt) {s : LoopState F}
    (hstart : s.common.Unpolled config) :
    s.NeverOverflows ([] : List (StepInput F × W)) where
  defined call older h := nomatch List.suffix_nil.mp h
  fit moment h := by
    rw [List.suffix_nil.mp h]
    exact hstart.counted.fit hconfig shortRuns_nil

theorem LoopState.neverOverflows_cons {s : LoopState F} {call : StepInput F × W}
    {older : List (StepInput F × W)} :
    s.NeverOverflows (call :: older) ↔
      (sensorFaultUpdateChecked (s.ran older).common call.1 call.2 =
          some (sensorFaultUpdate (s.ran older).common call.1 call.2) ∧
        (s.ran (call :: older)).common.CountersFit) ∧ s.NeverOverflows older := by
  constructor
  · rintro ⟨hdefined, hfit⟩
    have hsuffix := List.suffix_cons call older
    exact ⟨⟨hdefined call older (List.suffix_refl _), hfit _ (List.suffix_refl _)⟩,
      fun c o h => hdefined c o (h.trans hsuffix), fun m h => hfit m (h.trans hsuffix)⟩
  · rintro ⟨⟨hnow, hfitNow⟩, hdefined, hfit⟩
    constructor
    · intro c o h
      rcases List.suffix_cons_iff.mp h with h | h
      · obtain ⟨rfl, rfl⟩ := List.cons.inj h
        exact hnow
      · exact hdefined c o h
    · intro moment h
      rcases List.suffix_cons_iff.mp h with rfl | h
      · exact hfitNow
      · exact hfit moment h

/-- The counters of the sensor path never overflow, and decide as unbounded ones do,
exactly when no run of failed polls, of successful polls, or of repetitions whose check
is off, is longer than an `int` can count. -/
theorem counters_fit_iff (hconfig : config.IsInt) {s : LoopState F}
    (hstart : s.common.Unpolled config) (calls : List (StepInput F × W)) :
    s.NeverOverflows calls ↔ AllShort config (pollsOf calls) := by
  induction calls with
  | nil =>
      refine iff_of_true (LoopState.neverOverflows_nil hconfig hstart) fun moment hmoment => ?_
      rw [List.suffix_nil.mp hmoment]
      exact shortRuns_nil
  | cons call older ih =>
      rw [LoopState.neverOverflows_cons, ih]
      change _ ↔ AllShort config (call.1.stick.poll :: pollsOf older)
      rw [allShort_cons]
      refine and_congr_left fun hbefore => ?_
      obtain ⟨hshort, hlong⟩ := sensorFaultUpdateChecked_eq hconfig (s.counted_ran hstart older)
        (hbefore _ (List.suffix_refl _)) call.1 call.2
      constructor
      · rintro ⟨hdefined, -⟩
        by_contra hnot
        exact Option.some_ne_none _ (hdefined.symm.trans (hlong hnot))
      · exact fun hnow => ⟨hshort hnow, (s.counted_ran hstart (call :: older)).fit hconfig hnow⟩

end Run

/-! ## A healthy sensor -/

/-- Ticks on a sensor that always answers, with noise of one bit. -/
def noisyTicks (n : ℕ) : List (StepInput ℚ × EspWorld ℚ SimOta) :=
  (List.range n).map fun i =>
    (⟨⟨0, 0, (i % 2 : ℕ), 0, true, none⟩, milliseconds (10 * (n - i)), false, false, false,
      .default⟩, dwellWorld)

theorem lasted_read {polls : List (SensorPoll F)} (h : ∀ p ∈ polls, p.readOk = true) :
    Lasted Read polls.length polls := by
  refine ⟨le_rfl, fun i hi => ?_⟩
  rw [List.drop_eq_getElem_cons hi]
  exact h _ (List.getElem_mem hi)

/-- A history that is itself short has no run that is too long. -/
theorem allShort_of_length [MachineFloat F] {config : Config} {polls : List (SensorPoll F)}
    (h : polls.length < 2 ^ 31) : AllShort config polls := by
  intro moment hmoment
  have hlength := hmoment.length_le
  have hfilter := List.length_filter_le SensorPoll.readOk moment
  have hcounts := List.length_filterMap_le SensorPoll.conversionCount (moment.filter readOk)
  refine ⟨fun hlasted => ?_, fun hlasted => ?_, fun _ hrepeated => ?_, fun _ hrepeated => ?_⟩
  · have hlong := hlasted.1
    omega
  · have hlong := hlasted.1
    omega
  · have hlong := hrepeated.1
    rw [readings, List.length_map] at hlong
    omega
  · have hlong := hrepeated.1
    unfold conversions at hlong
    omega

theorem mouseLoop_unpolled :
    (LoopState.mouse (.new : MouseState ℚ)).common.Unpolled mouseSensorFaultConfig := ⟨rfl, rfl⟩

/-- A minute of the mouse loop. -/
theorem counters_fit_iff_minute :
    (LoopState.mouse (.new : MouseState ℚ)).NeverOverflows (noisyTicks 6000) := by
  have hconfig : mouseSensorFaultConfig.IsInt := by
    constructor <;> norm_num [IsInt, mouseSensorFaultConfig]
  refine (counters_fit_iff hconfig mouseLoop_unpolled _).mpr (allShort_of_length ?_)
  simp [pollsOf, noisyTicks]

theorem le_streak_noisyTicks (n : ℕ) : n ≤ streak Read (pollsOf (noisyTicks n)) := by
  have hlength : (pollsOf (noisyTicks n)).length = n := by
    rw [pollsOf, noisyTicks, List.length_map, List.length_map, List.length_range]
  have hread : ∀ p ∈ pollsOf (noisyTicks n), p.readOk = true := by
    intro p hp
    obtain ⟨call, hcall, rfl⟩ := List.mem_map.mp hp
    obtain ⟨i, -, rfl⟩ := List.mem_map.mp hcall
    rfl
  have hlasted := lasted_read hread
  rw [hlength] at hlasted
  exact le_streak_iff.mpr hlasted

/-- Eight months of it. -/
theorem not_neverOverflows_healthy :
    ¬ (LoopState.mouse (.new : MouseState ℚ)).NeverOverflows (noisyTicks (2 ^ 31)) := by
  intro h
  have hfit := (h.fit _ (List.suffix_refl _)).goodReads.2
  have hcounted := LoopState.counted_ran mouseLoop_unpolled (noisyTicks (2 ^ 31))
  have hstreak := le_streak_noisyTicks (2 ^ 31)
  rw [hcounted.goodReads] at hfit
  omega

end OmegaStick
