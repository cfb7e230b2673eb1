import Mathlib.Tactic.Linarith
import OmegaStick.Library.History
import OmegaStick.Calibration.Monitor

/-!
# The sensor monitor and its history

What `SensorFaultMonitor` promises, in terms of the polls so far and without its
counters: which polls trip it (`Trips`), which ones count towards its recovery
(`Good`), and when the sensor is in fault (`InFault`).  `Tracks` is what each of the
counters says about the history; the monitor's own fault is then the latch that a
trip raises and a recovery lowers.
-/

namespace OmegaStick

open MachineFloat History

variable {F : Type*}

/-! ## Polls -/

/-- What the monitor is given at one poll. -/
structure SensorPoll (F : Type*) where
  readOk : Bool
  rawX : F
  rawY : F
  conversionCount : Option UInt8
  deriving DecidableEq, Repr

namespace SensorPoll

/-- The newest poll failed. -/
def Failed : List (SensorPoll F) → Prop
  | [] => False
  | poll :: _ => poll.readOk = false

/-- The newest poll was successful. -/
def Read : List (SensorPoll F) → Prop
  | [] => False
  | poll :: _ => poll.readOk = true

instance : DecidablePred (Failed (F := F))
  | [] => isFalse id
  | poll :: _ => inferInstanceAs (Decidable (poll.readOk = false))

instance : DecidablePred (Read (F := F))
  | [] => isFalse id
  | poll :: _ => inferInstanceAs (Decidable (poll.readOk = true))

theorem Read.not_failed {polls : List (SensorPoll F)} (h : Read polls) : ¬ Failed polls := by
  cases polls with
  | nil => exact fun hfailed => hfailed
  | cons poll older =>
      intro hfailed
      exact Bool.noConfusion (h.symm.trans hfailed)

/-- The raw pairs of the successful reads. -/
def readings (polls : List (SensorPoll F)) : List (F × F) :=
  (polls.filter readOk).map fun poll => (poll.rawX, poll.rawY)

/-- The conversion counts of the successful reads that carried one. -/
def conversions (polls : List (SensorPoll F)) : List UInt8 :=
  (polls.filter readOk).filterMap conversionCount

/-- The raw pairs compare equal. -/
def SameReading [MachineFloat F] (a b : F × F) : Prop :=
  (feq a.1 b.1 && feq a.2 b.2) = true

instance [MachineFloat F] : DecidableRel (SameReading (F := F)) :=
  fun a b => inferInstanceAs (Decidable ((feq a.1 b.1 && feq a.2 b.2) = true))

end SensorPoll

/-! ## What the monitor promises -/

namespace SensorFaultMonitor

open SensorPoll

/-- Every check is on. -/
structure Config.Positive (config : Config) : Prop where
  tripAfterFailedReads : 0 < config.tripAfterFailedReads
  stuckAfterSamples : 0 < config.stuckAfterSamples
  stuckAfterStaleConversions : 0 < config.stuckAfterStaleConversions
  recoverAfterGoodReads : 0 < config.recoverAfterGoodReads

section History

variable [MachineFloat F] (config : Config)

/-- A successful read of a sensor that is frozen: it repeats the raw pair, or the
conversion count, for as long as the thresholds say. -/
def Stuck (polls : List (SensorPoll F)) : Prop :=
  Read polls ∧
    (Repeated SameReading config.stuckAfterSamples.toNat (readings polls) ∨
      Repeated (· = ·) config.stuckAfterStaleConversions.toNat (conversions polls))

/-- The newest poll completes a trip condition. -/
def Trips (polls : List (SensorPoll F)) : Prop :=
  Lasted Failed config.tripAfterFailedReads.toNat polls ∨ Stuck config polls

/-- The newest poll is successful, and not stuck. -/
def Good (polls : List (SensorPoll F)) : Prop := Read polls ∧ ¬ Stuck config polls

/-- As many polls in a row were good as a recovery needs. -/
def Recovers (polls : List (SensorPoll F)) : Prop :=
  Lasted (Good config) config.recoverAfterGoodReads.toNat polls

instance : DecidablePred (Stuck (F := F) config) :=
  fun polls => inferInstanceAs (Decidable (Read polls ∧ (_ ∨ _)))

instance : DecidablePred (Trips (F := F) config) :=
  fun _ => inferInstanceAs (Decidable (_ ∨ _))

instance : DecidablePred (Good (F := F) config) :=
  fun polls => inferInstanceAs (Decidable (Read polls ∧ ¬ Stuck config polls))

instance : DecidablePred (Recovers (F := F) config) :=
  fun polls => inferInstanceAs (Decidable (Lasted (Good config) _ polls))

/-- The kind of the trip condition the newest poll completes. -/
def completed (polls : List (SensorPoll F)) : Fault :=
  if Lasted Failed config.tripAfterFailedReads.toNat polls then .readFailed
  else if Stuck config polls then .stuck
  else .none

/-- The kind of the last completed trip condition. -/
def lastTrip : List (SensorPoll F) → Fault
  | [] => .none
  | p :: older => match completed config (p :: older) with
      | .none => lastTrip older
      | kind => kind

/-- The sensor tripped, and no recovery has been completed by polls after that. -/
def InFault (polls : List (SensorPoll F)) : Prop :=
  ∃ since, since <:+ polls ∧ Trips config since ∧
    ∀ later, later <:+ polls →
      since.length + config.recoverAfterGoodReads.toNat ≤ later.length → ¬ Recovers config later

/-- Every successful read after `polls` is stuck. -/
def Frozen (polls later : List (SensorPoll F)) : Prop :=
  ∀ moment, moment <:+ later → polls.length < moment.length → Read moment →
    Stuck config moment

/-- One poll. -/
def poll (monitor : SensorFaultMonitor F) (p : SensorPoll F) : Bool × SensorFaultMonitor F :=
  monitor.update p.readOk p.rawX p.rawY p.conversionCount

/-- A new monitor after a history. -/
def after : List (SensorPoll F) → SensorFaultMonitor F
  | [] => new config
  | p :: older => ((after older).poll p).2

end History

/-! ## What the counters say -/

variable [MachineFloat F]

/-- A counter of `n` repetitions: it stops at its limit, if that is positive. -/
def saturated (limit : ℤ) (n : ℕ) : ℤ := if 0 < limit then min n limit else n

/-- What the counters of repetitions say about the polls so far, whatever the thresholds. -/
structure Repeating (config : Config) (polls : List (SensorPoll F))
    (monitor : SensorFaultMonitor F) : Prop where
  config_eq : monitor.config = config
  identical : monitor.identicalStreak =
    saturated config.stuckAfterSamples (repeats SameReading (readings polls))
  last : (readings polls).head? =
    if monitor.haveLast then some (monitor.lastX, monitor.lastY) else none
  stale : monitor.staleConversionStreak =
    saturated config.stuckAfterStaleConversions (repeats (· = ·) (conversions polls))
  lastConversion : (conversions polls).head? =
    if monitor.haveLastConversion then some monitor.lastConversion else none

/-- What the counters of repetitions say about the polls so far. -/
structure Counts (config : Config) (polls : List (SensorPoll F)) (monitor : SensorFaultMonitor F) :
    Prop where
  config_eq : monitor.config = config
  identical : monitor.identicalStreak =
    min (repeats SameReading (readings polls) : ℤ) config.stuckAfterSamples
  last : (readings polls).head? =
    if monitor.haveLast then some (monitor.lastX, monitor.lastY) else none
  stale : monitor.staleConversionStreak =
    min (repeats (· = ·) (conversions polls) : ℤ) config.stuckAfterStaleConversions
  lastConversion : (conversions polls).head? =
    if monitor.haveLastConversion then some monitor.lastConversion else none

/-- What the whole monitor says about the polls so far. -/
structure Tracks (config : Config) (polls : List (SensorPoll F)) (monitor : SensorFaultMonitor F) :
    Prop extends Counts config polls monitor where
  failed : monitor.failedStreak = streak Failed polls
  good : monitor.goodStreak = streak (Good config) polls
  faulted : monitor.faulted = latch (Trips config) (Recovers config) polls

section Counting

variable {config : Config} {polls : List (SensorPoll F)} {monitor : SensorFaultMonitor F}
  {p : SensorPoll F}

omit [MachineFloat F] in
theorem readings_of_failed (hp : p.readOk = false) : readings (p :: polls) = readings polls := by
  simp [readings, hp]

omit [MachineFloat F] in
theorem conversions_of_failed (hp : p.readOk = false) :
    conversions (p :: polls) = conversions polls := by
  simp [conversions, hp]

omit [MachineFloat F] in
theorem readings_of_read (hp : p.readOk = true) :
    readings (p :: polls) = (p.rawX, p.rawY) :: readings polls := by
  simp [readings, hp]

omit [MachineFloat F] in
theorem conversions_of_read (hp : p.readOk = true) :
    conversions (p :: polls) = p.conversionCount.toList ++ conversions polls := by
  cases hcount : p.conversionCount <;> simp [conversions, hp, hcount]

/-- A counter goes on as the number of repetitions does. -/
theorem saturatingIncrement_saturated {α : Type*} {r : α → α → Prop} [DecidableRel r]
    {entries : List α} {newest last : α} {haveLast same : Bool} {count limit : ℤ}
    (hcount : count = saturated limit (repeats r entries))
    (hlast : entries.head? = if haveLast then some last else none)
    (hsame : same = true ↔ r newest last) :
    (if haveLast && same then saturatingIncrement count limit else 0) =
      saturated limit (repeats r (newest :: entries)) := by
  rw [repeats_cons]
  have hiff : (haveLast && same) = true ↔
      ∃ previous, entries.head? = some previous ∧ r newest previous := by
    rw [hlast]
    cases haveLast <;> simp [hsame]
  by_cases hrepeat : ∃ previous, entries.head? = some previous ∧ r newest previous
  · rw [if_pos hrepeat, if_pos (hiff.mpr hrepeat), hcount]
    unfold saturatingIncrement saturated
    split_ifs <;> omega
  · rw [if_neg hrepeat, if_neg (mt hiff.mp hrepeat)]
    unfold saturated
    split_ifs <;> omega

/-- A failed read repeats nothing. -/
theorem Repeating.of_failed (h : Repeating config polls monitor) (hp : p.readOk = false) :
    Repeating config (p :: polls) monitor where
  config_eq := h.config_eq
  identical := by rw [readings_of_failed hp, h.identical]
  last := by rw [readings_of_failed hp, h.last]
  stale := by rw [conversions_of_failed hp, h.stale]
  lastConversion := by rw [conversions_of_failed hp, h.lastConversion]

theorem sameReading_iff (monitor : SensorFaultMonitor F) (p : SensorPoll F) :
    (feq p.rawX monitor.lastX && feq p.rawY monitor.lastY) = true ↔
      SameReading (p.rawX, p.rawY) (monitor.lastX, monitor.lastY) := Iff.rfl

/-- A successful read is counted among the raw pairs, and its conversion count, if it
carried one, among the conversion counts. -/
theorem Repeating.of_read (h : Repeating config polls monitor) (hp : p.readOk = true) :
    Repeating config (p :: polls)
      ((monitor.trackSamples p.rawX p.rawY).trackConversions p.conversionCount) := by
  have hidentical : (monitor.trackSamples p.rawX p.rawY).identicalStreak =
      saturated config.stuckAfterSamples
        (repeats SameReading ((p.rawX, p.rawY) :: readings polls)) := by
    rw [← saturatingIncrement_saturated h.identical h.last (sameReading_iff monitor p)]
    simp only [trackSamples, Bool.and_assoc, h.config_eq]
  cases hcount : p.conversionCount with
  | none =>
      have hconversions : conversions (p :: polls) = conversions polls := by
        simp [conversions_of_read hp, hcount]
      exact
        { config_eq := h.config_eq
          identical := by rw [readings_of_read hp]; exact hidentical
          last := by rw [readings_of_read hp]; rfl
          stale := by rw [hconversions]; exact h.stale
          lastConversion := by rw [hconversions]; exact h.lastConversion }
  | some count =>
      have hconversions : conversions (p :: polls) = count :: conversions polls := by
        simp [conversions_of_read hp, hcount]
      have hsame : (count == monitor.lastConversion) = true ↔ count = monitor.lastConversion :=
        beq_iff_eq
      have hstale := saturatingIncrement_saturated h.stale h.lastConversion hsame
      exact
        { config_eq := h.config_eq
          identical := by rw [readings_of_read hp]; exact hidentical
          last := by rw [readings_of_read hp]; rfl
          stale := by
            rw [hconversions, ← hstale]
            simp only [trackConversions, trackSamples, h.config_eq]
          lastConversion := by rw [hconversions]; rfl }

theorem saturated_of_pos {limit : ℤ} (h : 0 < limit) (n : ℕ) :
    saturated limit n = min (n : ℤ) limit := if_pos h

/-- With positive thresholds every counter stops at its own. -/
theorem counts_iff_repeating (hpos : config.Positive) :
    Counts config polls monitor ↔ Repeating config polls monitor := by
  have hidentical := saturated_of_pos hpos.stuckAfterSamples
  have hstale := saturated_of_pos hpos.stuckAfterStaleConversions
  constructor
  · intro h
    exact ⟨h.config_eq, h.identical.trans (hidentical _).symm, h.last,
      h.stale.trans (hstale _).symm, h.lastConversion⟩
  · intro h
    exact ⟨h.config_eq, h.identical.trans (hidentical _), h.last, h.stale.trans (hstale _),
      h.lastConversion⟩

theorem Counts.of_failed (hpos : config.Positive) (h : Counts config polls monitor)
    (hp : p.readOk = false) : Counts config (p :: polls) monitor :=
  (counts_iff_repeating hpos).mpr (((counts_iff_repeating hpos).mp h).of_failed hp)

theorem Counts.of_read (hpos : config.Positive) (h : Counts config polls monitor)
    (hp : p.readOk = true) :
    Counts config (p :: polls)
      ((monitor.trackSamples p.rawX p.rawY).trackConversions p.conversionCount) :=
  (counts_iff_repeating hpos).mpr (((counts_iff_repeating hpos).mp h).of_read hp)

/-- The counters notice that the sensor is frozen. -/
theorem Counts.stuck_iff (hpos : config.Positive) (h : Counts config (p :: polls) monitor)
    (hp : p.readOk = true) :
    (monitor.samplesStuck || monitor.conversionsStuck) = true ↔ Stuck config (p :: polls) := by
  have hsamples : monitor.samplesStuck = true ↔
      Repeated SameReading config.stuckAfterSamples.toNat (readings (p :: polls)) := by
    have hlimit := hpos.stuckAfterSamples
    rw [← le_repeats_iff (by omega), samplesStuck, h.config_eq, h.identical]
    simp only [Bool.and_eq_true, decide_eq_true_eq]
    omega
  have hconversions : monitor.conversionsStuck = true ↔
      Repeated (· = ·) config.stuckAfterStaleConversions.toNat (conversions (p :: polls)) := by
    have hlimit := hpos.stuckAfterStaleConversions
    rw [← le_repeats_iff (by omega), conversionsStuck, h.config_eq, h.stale]
    simp only [Bool.and_eq_true, decide_eq_true_eq]
    omega
  rw [Bool.or_eq_true, hsamples, hconversions]
  exact ⟨fun hfrozen => ⟨hp, hfrozen⟩, And.right⟩

end Counting

/-! ## One poll -/

section Step

variable {config : Config} {polls : List (SensorPoll F)} {monitor : SensorFaultMonitor F}
  {p : SensorPoll F}

omit [MachineFloat F] in
@[simp] theorem trip_failedStreak (monitor : SensorFaultMonitor F) (fault : Fault) :
    (monitor.trip fault).failedStreak = monitor.failedStreak := by
  unfold trip; split <;> rfl

theorem Repeating.trip (h : Repeating config polls monitor) (fault : Fault) :
    Repeating config polls (monitor.trip fault) := by
  unfold SensorFaultMonitor.trip
  split
  · exact h
  · exact { h with }

theorem Counts.trip (hpos : config.Positive) (h : Counts config polls monitor) (fault : Fault) :
    Counts config polls (monitor.trip fault) :=
  (counts_iff_repeating hpos).mpr (((counts_iff_repeating hpos).mp h).trip fault)

omit [MachineFloat F] in
theorem trip_faulted (monitor : SensorFaultMonitor F) {fault : Fault} (h : fault ≠ .none) :
    (monitor.trip fault).faulted = true := by
  simpa [faulted, trip_fault] using h

theorem Tracks.failed_succ (h : Tracks config polls monitor) (hp : p.readOk = false) :
    monitor.failedStreak + 1 = streak Failed (p :: polls) := by
  rw [streak_cons, if_pos (show Failed (p :: polls) from hp), h.failed]
  push_cast
  rfl

/-- A failed read completes no other condition. -/
theorem Tracks.trips_of_failed (hpos : config.Positive) (h : Tracks config polls monitor)
    (hp : p.readOk = false) :
    Trips config (p :: polls) ↔
      monitor.config.tripAfterFailedReads ≤ monitor.failedStreak + 1 := by
  have hpositive := hpos.tripAfterFailedReads
  rw [h.config_eq, h.failed_succ hp, Trips,
    or_iff_left fun hstuck => hstuck.1.not_failed hp, ← le_streak_iff]
  omega

omit [MachineFloat F] in
/-- A poll is not the end of a run of failed reads unless it failed. -/
theorem not_lasted_failed (hpos : config.Positive) (hp : p.readOk = true) :
    ¬ Lasted Failed config.tripAfterFailedReads.toNat (p :: polls) := fun hlasted => by
  have hpositive := hpos.tripAfterFailedReads
  exact Read.not_failed (show Read (p :: polls) from hp) (hlasted.2 0 (by omega))

theorem Recovers.good (hpos : config.Positive) (h : Recovers config polls) : Good config polls := by
  have hpositive := hpos.recoverAfterGoodReads
  exact h.2 0 (by omega)

/-- `update` on a failed read. -/
theorem poll_of_failed (hp : p.readOk = false) :
    (monitor.poll p).2 =
      let failed := { monitor with failedStreak := monitor.failedStreak + 1, goodStreak := 0 }
      if monitor.config.tripAfterFailedReads ≤ monitor.failedStreak + 1 then
        failed.trip .readFailed
      else failed := by
  simp [SensorFaultMonitor.poll, update, hp]

/-- The monitor once a successful read is counted, before it is judged. -/
def counted (monitor : SensorFaultMonitor F) (p : SensorPoll F) : SensorFaultMonitor F :=
  (({ monitor with failedStreak := 0, goodStreak := monitor.goodStreak + 1 }
    : SensorFaultMonitor F).trackSamples p.rawX p.rawY).trackConversions p.conversionCount

theorem counted_kept (monitor : SensorFaultMonitor F) (p : SensorPoll F) :
    (monitor.counted p).fault = monitor.fault ∧
      (monitor.counted p).firstFault = monitor.firstFault ∧
      (monitor.counted p).faultCount = monitor.faultCount ∧
      (monitor.counted p).failedStreak = 0 ∧
      (monitor.counted p).goodStreak = monitor.goodStreak + 1 := by
  unfold counted
  cases p.conversionCount <;> exact ⟨rfl, rfl, rfl, rfl, rfl⟩

/-- `update` on a successful read. -/
theorem poll_of_read (hp : p.readOk = true) :
    (monitor.poll p).2 =
      if (monitor.counted p).samplesStuck || (monitor.counted p).conversionsStuck then
        { (monitor.counted p).trip .stuck with goodStreak := 0 }
      else if (monitor.counted p).faulted &&
          decide ((monitor.counted p).config.recoverAfterGoodReads ≤
            (monitor.counted p).goodStreak) then
        { monitor.counted p with fault := .none }
      else monitor.counted p := by
  simp only [SensorFaultMonitor.poll, update, hp, Bool.not_true, Bool.false_eq_true, if_false]
  change (if (monitor.counted p).samplesStuck || (monitor.counted p).conversionsStuck then _
    else _ : Bool × SensorFaultMonitor F).2 = _
  split <;> rfl

/-- `update` on a successful read, with the checks in terms of the history. -/
theorem Tracks.poll_of_read (hpos : config.Positive) (h : Tracks config polls monitor)
    (hp : p.readOk = true) :
    (monitor.poll p).2 =
      if Stuck config (p :: polls) then { (monitor.counted p).trip .stuck with goodStreak := 0 }
      else if (monitor.counted p).faulted ∧
          config.recoverAfterGoodReads ≤ (monitor.counted p).goodStreak then
        { monitor.counted p with fault := .none }
      else monitor.counted p := by
  have hcounts : Counts config (p :: polls) (monitor.counted p) :=
    Counts.of_read hpos { h.toCounts with } hp
  have hstuck := hcounts.stuck_iff hpos hp
  rw [← hcounts.config_eq] at hstuck ⊢
  rw [SensorFaultMonitor.poll_of_read hp]
  by_cases hfrozen : Stuck (monitor.counted p).config (p :: polls)
  · rw [if_pos (hstuck.mpr hfrozen), if_pos hfrozen]
  · rw [if_neg (mt hstuck.mp hfrozen), if_neg hfrozen]
    simp only [Bool.and_eq_true, decide_eq_true_eq]

/-- The good reads are enough for a recovery when the monitor has counted as many. -/
theorem Tracks.recovers_of_good (hpos : config.Positive) (h : Tracks config polls monitor)
    (hgood : Good config (p :: polls)) :
    Recovers config (p :: polls) ↔
      config.recoverAfterGoodReads ≤ (monitor.counted p).goodStreak := by
  have hpositive := hpos.recoverAfterGoodReads
  have hcount : monitor.goodStreak + 1 = streak (Good config) (p :: polls) := by
    rw [streak_cons, if_pos hgood, h.good]
    push_cast
    rfl
  rw [(counted_kept monitor p).2.2.2.2, hcount, Recovers, ← le_streak_iff]
  omega

/-- A failed read trips the monitor when enough of them came in a row. -/
theorem Tracks.of_failed (hpos : config.Positive) (h : Tracks config polls monitor)
    (hp : p.readOk = false) : Tracks config (p :: polls) (monitor.poll p).2 := by
  have hgood : ¬ Good config (p :: polls) := fun hgood => hgood.1.not_failed hp
  have hzero : (0 : ℤ) = streak (Good config) (p :: polls) := by
    rw [streak_cons, if_neg hgood]
    rfl
  have hlatch : latch (Trips config) (Recovers config) (p :: polls) =
      if Trips config (p :: polls) then true else latch (Trips config) (Recovers config) polls := by
    simp only [latch, if_neg fun hrecovers : Recovers config (p :: polls) =>
      hgood (hrecovers.good hpos)]
  have hcounts : Counts config (p :: polls)
      { monitor with failedStreak := monitor.failedStreak + 1, goodStreak := 0 } :=
    { h.toCounts.of_failed hpos hp with }
  rw [poll_of_failed hp]
  dsimp only
  simp only [h.trips_of_failed hpos hp] at hlatch
  split at hlatch
  · rename_i htrip
    rw [if_pos htrip]
    exact
      { hcounts.trip hpos .readFailed with
        failed := by rw [trip_failedStreak]; exact h.failed_succ hp
        good := by
          rw [← hzero]
          unfold SensorFaultMonitor.trip
          split <;> rfl
        faulted := by rw [hlatch, trip_faulted _ (by decide)] }
  · rename_i htrip
    rw [if_neg htrip]
    exact
      { hcounts with
        failed := h.failed_succ hp
        good := hzero
        faulted := h.faulted.trans hlatch.symm }

/-- A successful read trips the monitor when the sensor is frozen, and counts towards
the recovery otherwise. -/
theorem Tracks.of_read (hpos : config.Positive) (h : Tracks config polls monitor)
    (hp : p.readOk = true) : Tracks config (p :: polls) (monitor.poll p).2 := by
  have hstreak : (0 : ℤ) = streak Failed (p :: polls) := by
    rw [streak_cons, if_neg (Read.not_failed (show Read (p :: polls) from hp))]
    rfl
  -- a read that succeeded trips it only by repeating
  have htrips : Trips config (p :: polls) ↔ Stuck config (p :: polls) :=
    or_iff_right (not_lasted_failed hpos hp)
  have hcounts : Counts config (p :: polls) (monitor.counted p) :=
    Counts.of_read hpos { h.toCounts with } hp
  obtain ⟨hfault, -, -, hfailed, hsucc⟩ := counted_kept monitor p
  have hfaulted : (monitor.counted p).faulted = latch (Trips config) (Recovers config) polls := by
    rw [SensorFaultMonitor.faulted, hfault]
    exact h.faulted
  rw [h.poll_of_read hpos hp]
  by_cases hstuck : Stuck config (p :: polls)
  · rw [if_pos hstuck]
    have hzero : (0 : ℤ) = streak (Good config) (p :: polls) := by
      rw [streak_cons, if_neg fun hgood => hgood.2 hstuck]
      rfl
    exact
      { hcounts.trip hpos .stuck with
        failed := by
          change ((monitor.counted p).trip .stuck).failedStreak = _
          rw [trip_failedStreak, hfailed, hstreak]
        good := hzero
        faulted := by
          change ((monitor.counted p).trip .stuck).faulted = _
          rw [trip_faulted _ (by decide), latch, if_pos (htrips.mpr hstuck)] }
  · rw [if_neg hstuck]
    have hgood : Good config (p :: polls) := ⟨hp, hstuck⟩
    have hcount : (monitor.counted p).goodStreak = streak (Good config) (p :: polls) := by
      rw [streak_cons, if_pos hgood, hsucc, h.good]
      push_cast
      rfl
    have hrecovers := h.recovers_of_good hpos hgood
    have hlatch : latch (Trips config) (Recovers config) (p :: polls) =
        if Recovers config (p :: polls) then false
        else latch (Trips config) (Recovers config) polls := by
      rw [latch, if_neg fun htrip => hstuck (htrips.mp htrip)]
    -- the fault ends here, or stays as the latch has it
    by_cases hclears : (monitor.counted p).faulted ∧
        config.recoverAfterGoodReads ≤ (monitor.counted p).goodStreak
    · rw [if_pos hclears]
      exact
        { hcounts with
          failed := hfailed.trans hstreak
          good := hcount
          faulted := by rw [hlatch, if_pos (hrecovers.mpr hclears.2)]; rfl }
    · rw [if_neg hclears]
      refine { hcounts with failed := hfailed.trans hstreak, good := hcount, faulted := ?_ }
      rw [hlatch]
      split
      · rename_i henough
        exact Bool.eq_false_iff.mpr fun hup => hclears ⟨hup, hrecovers.mp henough⟩
      · exact hfaulted

/-- One poll moves every counter as the history says. -/
theorem Tracks.poll (hpos : config.Positive) (h : Tracks config polls monitor)
    (p : SensorPoll F) : Tracks config (p :: polls) (monitor.poll p).2 := by
  cases hp : p.readOk with
  | false => exact h.of_failed hpos hp
  | true => exact h.of_read hpos hp

/-! ### Which fault -/

/-- The monitors report the same faults. -/
structure SameFaults (a b : SensorFaultMonitor F) : Prop where
  fault : a.fault = b.fault
  firstFault : a.firstFault = b.firstFault
  faultCount : a.faultCount = b.faultCount

omit [MachineFloat F] in
theorem SameFaults.trip {a b : SensorFaultMonitor F} (h : SameFaults a b) (kind : Fault) :
    SameFaults (a.trip kind) (b.trip kind) := by
  unfold SensorFaultMonitor.trip
  rw [h.fault]
  split
  · exact h
  · exact ⟨rfl, by rw [h.firstFault], by rw [h.faultCount]⟩

omit [MachineFloat F] in
theorem trip_firstFault (monitor : SensorFaultMonitor F) {kind : Fault} (h : kind ≠ .none) :
    (monitor.firstFault ≠ .none → (monitor.trip kind).firstFault = monitor.firstFault) ∧
      (monitor.firstFault = .none → (monitor.fault != .none) = false →
        ((monitor.trip kind).fault != .none) = true →
          (monitor.trip kind).firstFault = (monitor.trip kind).fault) := by
  unfold SensorFaultMonitor.trip
  split
  · rename_i hsame
    refine ⟨fun _ => rfl, fun _ hdown => ?_⟩
    simp [hsame, h] at hdown
  · exact ⟨fun hfirst => if_neg hfirst, fun hfirst _ _ => if_pos hfirst⟩

omit [MachineFloat F] in
theorem trip_inFault (monitor : SensorFaultMonitor F) {kind : Fault} (h : kind ≠ .none) :
    (kind = .none ∨ kind = monitor.fault →
      (monitor.trip kind).fault = monitor.fault ∧
        (monitor.trip kind).faultCount = monitor.faultCount) ∧
    (kind ≠ .none → kind ≠ monitor.fault → (monitor.trip kind).fault ≠ monitor.fault) := by
  rw [trip_fault]
  refine ⟨?_, fun _ hother => hother⟩
  rintro (hnone | hsame)
  · exact absurd hnone h
  · exact ⟨hsame, by rw [SensorFaultMonitor.trip, if_pos hsame.symm]⟩

/-- What the newest poll makes of the faults: a completed trip condition trips the
monitor, and a completed recovery clears it. -/
def judge (config : Config) (polls : List (SensorPoll F)) (monitor : SensorFaultMonitor F) :
    SensorFaultMonitor F :=
  match completed config polls with
  | .none => if Recovers config polls then { monitor with fault := .none } else monitor
  | kind => monitor.trip kind

theorem Tracks.poll_faults (hpos : config.Positive) (h : Tracks config polls monitor)
    (p : SensorPoll F) :
    SameFaults (monitor.poll p).2 (judge config (p :: polls) monitor) := by
  cases hp : p.readOk with
  | false =>
      have hnot : ¬ Recovers config (p :: polls) := fun hrecovers =>
        (hrecovers.good hpos).1.not_failed hp
      have hfailed : SameFaults
          { monitor with failedStreak := monitor.failedStreak + 1, goodStreak := 0 } monitor :=
        ⟨rfl, rfl, rfl⟩
      have hstuck : ¬ Stuck config (p :: polls) := fun hstuck => hstuck.1.not_failed hp
      have htrips := h.trips_of_failed hpos hp
      rw [Trips, or_iff_left hstuck] at htrips
      rw [poll_of_failed hp]
      dsimp only
      by_cases hlong : Lasted Failed config.tripAfterFailedReads.toNat (p :: polls)
      · rw [if_pos (htrips.mp hlong), judge, completed, if_pos hlong]
        exact hfailed.trip .readFailed
      · rw [if_neg (mt htrips.mpr hlong), judge, completed, if_neg hlong, if_neg hstuck,
          if_neg hnot]
        exact hfailed
  | true =>
      obtain ⟨hfault, hfirst, hcount, -⟩ := counted_kept monitor p
      have hsame : SameFaults (monitor.counted p) monitor := ⟨hfault, hfirst, hcount⟩
      -- a read that succeeded ends the row of failures
      have hlong : ¬ Lasted Failed config.tripAfterFailedReads.toNat (p :: polls) :=
        not_lasted_failed hpos hp
      rw [h.poll_of_read hpos hp]
      by_cases hstuck : Stuck config (p :: polls)
      · rw [if_pos hstuck, judge, completed, if_neg hlong, if_pos hstuck]
        have htripped := hsame.trip .stuck
        exact ⟨htripped.fault, htripped.firstFault, htripped.faultCount⟩
      · rw [if_neg hstuck, judge, completed, if_neg hlong, if_neg hstuck]
        have hrecovers := h.recovers_of_good hpos ⟨hp, hstuck⟩
        by_cases henough : Recovers config (p :: polls)
        · rw [if_pos henough]
          split
          · exact ⟨rfl, hfirst, hcount⟩
          · rename_i hclear
            have hquiet : (monitor.counted p).fault = .none := by
              by_contra hup
              exact hclear ⟨by simpa [SensorFaultMonitor.faulted] using hup, hrecovers.mp henough⟩
            exact ⟨hquiet, hfirst, hcount⟩
        · rw [if_neg henough, if_neg fun hclear => henough (hrecovers.mpr hclear.2)]
          exact hsame

/-- A poll that leaves the monitor without a fault keeps its first fault and its count,
and has completed a recovery if there was a fault before it. -/
theorem Tracks.poll_healthy (hpos : config.Positive) (h : Tracks config polls monitor)
    (p : SensorPoll F) (hafter : (monitor.poll p).2.faulted = false) :
    (monitor.poll p).2.firstFault = monitor.firstFault ∧
      (monitor.poll p).2.faultCount = monitor.faultCount ∧
      (monitor.faulted = true → Recovers config (p :: polls)) := by
  obtain ⟨hfault, hfirst, hcount⟩ := h.poll_faults hpos p
  rw [SensorFaultMonitor.faulted, hfault] at hafter
  rw [hfirst, hcount]
  unfold judge at hafter ⊢
  cases hcompleted : completed config (p :: polls) with
  | none =>
      rw [hcompleted] at hafter
      dsimp only at hafter ⊢
      split
      · rename_i hrecovers
        exact ⟨rfl, rfl, fun _ => hrecovers⟩
      · rename_i hnot
        rw [if_neg hnot] at hafter
        exact ⟨rfl, rfl, fun hup => Bool.noConfusion (hup.symm.trans hafter)⟩
  | readFailed => simp [hcompleted, trip_fault] at hafter
  | stuck => simp [hcompleted, trip_fault] at hafter

/-- The first fault is latched once. -/
theorem Tracks.poll_firstFault (hpos : config.Positive) (h : Tracks config polls monitor)
    (p : SensorPoll F) :
    (monitor.firstFault ≠ .none → (monitor.poll p).2.firstFault = monitor.firstFault) ∧
      (monitor.firstFault = .none → monitor.faulted = false → (monitor.poll p).2.faulted = true →
        (monitor.poll p).2.firstFault = (monitor.poll p).2.fault) := by
  obtain ⟨hfault, hfirst, -⟩ := h.poll_faults hpos p
  rw [SensorFaultMonitor.faulted, SensorFaultMonitor.faulted, hfault, hfirst]
  unfold judge
  cases completed config (p :: polls) with
  | none =>
      dsimp only
      split
      · exact ⟨fun _ => rfl, fun hnone _ _ => hnone⟩
      · exact ⟨fun _ => rfl, fun _ hdown hup => Bool.noConfusion (hup.symm.trans hdown)⟩
  | readFailed => exact trip_firstFault monitor (by decide)
  | stuck => exact trip_firstFault monitor (by decide)

/-- While the sensor stays in fault, the fault and the count only change when a trip
condition of the other kind is completed. -/
theorem Tracks.poll_inFault (hpos : config.Positive) (h : Tracks config polls monitor)
    (p : SensorPoll F) (hafter : (monitor.poll p).2.faulted = true) :
    (completed config (p :: polls) = .none ∨ completed config (p :: polls) = monitor.fault →
      (monitor.poll p).2.fault = monitor.fault ∧
        (monitor.poll p).2.faultCount = monitor.faultCount) ∧
    (completed config (p :: polls) ≠ .none → completed config (p :: polls) ≠ monitor.fault →
      (monitor.poll p).2.fault ≠ monitor.fault) := by
  obtain ⟨hfault, -, hcount⟩ := h.poll_faults hpos p
  rw [SensorFaultMonitor.faulted, hfault] at hafter
  rw [hfault, hcount]
  unfold judge at hafter ⊢
  cases hcompleted : completed config (p :: polls) with
  | none =>
      rw [hcompleted] at hafter
      dsimp only at hafter ⊢
      split at hafter
      · simp at hafter
      · rename_i hnot
        rw [if_neg hnot]
        exact ⟨fun _ => ⟨rfl, rfl⟩, fun hsome => absurd rfl hsome⟩
  | readFailed => exact trip_inFault monitor (by decide)
  | stuck => exact trip_inFault monitor (by decide)

/-- A poll that completes a trip condition leaves the monitor in fault. -/
theorem Tracks.faulted_of_completed (hpos : config.Positive) (h : Tracks config polls monitor)
    (p : SensorPoll F) (hcompleted : completed config (p :: polls) ≠ .none) :
    (monitor.poll p).2.faulted = true := by
  have hfault := (h.poll_faults hpos p).fault
  rw [SensorFaultMonitor.faulted, hfault]
  unfold judge
  cases hkind : completed config (p :: polls) with
  | none => exact absurd hkind hcompleted
  | readFailed => simp [trip_fault]
  | stuck => simp [trip_fault]

/-- While the sensor is in fault, the fault is the last one that tripped. -/
theorem Tracks.fault_eq_lastTrip (hpos : config.Positive) (h : Tracks config polls monitor)
    (hkind : monitor.faulted = true → monitor.fault = lastTrip config polls) (p : SensorPoll F)
    (hfaulted : (monitor.poll p).2.faulted = true) :
    (monitor.poll p).2.fault = lastTrip config (p :: polls) := by
  have hfault := (h.poll_faults hpos p).fault
  rw [SensorFaultMonitor.faulted, hfault] at hfaulted
  rw [hfault]
  unfold judge at hfaulted ⊢
  unfold lastTrip
  cases hcompleted : completed config (p :: polls) with
  | none =>
      rw [hcompleted] at hfaulted
      dsimp only at hfaulted ⊢
      split at hfaulted
      · simp at hfaulted
      · rename_i hnot
        rw [if_neg hnot]
        exact hkind hfaulted
  | readFailed => exact trip_fault monitor _
  | stuck => exact trip_fault monitor _

end Step

/-! ## A whole history -/

section Run

variable {config : Config}

/-- A new monitor has seen nothing. -/
theorem tracks_new (hpos : config.Positive) :
    Tracks config ([] : List (SensorPoll F)) (new config) where
  config_eq := rfl
  identical := by
    have hlimit := hpos.stuckAfterSamples
    simp [new, readings, repeats]
    omega
  last := rfl
  stale := by
    have hlimit := hpos.stuckAfterStaleConversions
    simp [new, conversions, repeats]
    omega
  lastConversion := rfl
  failed := rfl
  good := rfl
  faulted := rfl

/-- After any history the monitor's counters and its fault are what the history says. -/
theorem tracks_after (hpos : config.Positive) (polls : List (SensorPoll F)) :
    Tracks config polls (after config polls) := by
  induction polls with
  | nil => exact tracks_new hpos
  | cons p older ih => exact ih.poll hpos p

/-- A trip is not a good poll. -/
theorem Trips.not_good (hpos : config.Positive) {polls : List (SensorPoll F)}
    (h : Trips config polls) : ¬ Good config polls := by
  rintro ⟨hread, hstuck⟩
  rcases h with hlasted | h
  · have hpositive := hpos.tripAfterFailedReads
    exact hread.not_failed (hlasted.2 0 (by omega))
  · exact hstuck h

/-- A recovery is completed by polls after the trip: the trip itself is not good. -/
theorem inFault_iff (hpos : config.Positive) (polls : List (SensorPoll F)) :
    InFault config polls ↔ ∃ since, since <:+ polls ∧ Trips config since ∧
      ∀ later, later <:+ polls → since.length < later.length → ¬ Recovers config later := by
  have hpositive := hpos.recoverAfterGoodReads
  constructor
  · rintro ⟨since, hsince, htrips, hkept⟩
    refine ⟨since, hsince, htrips, fun later hlater hlt hrecovers => ?_⟩
    by_cases hlong : since.length + config.recoverAfterGoodReads.toNat ≤ later.length
    · exact hkept later hlater hlong hrecovers
    -- the recovery's polls go back to the trip
    have hsuffix : since <:+ later :=
      List.suffix_of_suffix_length_le hsince hlater hlt.le
    have hdrop : later.drop (later.length - since.length) = since := by
      obtain ⟨newer, rfl⟩ := hsuffix
      simp
    have hgood := hrecovers.2 (later.length - since.length) (by omega)
    rw [hdrop] at hgood
    exact htrips.not_good hpos hgood
  · rintro ⟨since, hsince, htrips, hkept⟩
    exact ⟨since, hsince, htrips, fun later hlater hlong => hkept later hlater (by omega)⟩

/-- The monitor is in fault exactly when the sensor is. -/
theorem Tracks.faulted_iff (hpos : config.Positive) {polls : List (SensorPoll F)}
    {monitor : SensorFaultMonitor F} (h : Tracks config polls monitor) :
    monitor.faulted = true ↔ InFault config polls := by
  have hnil : ¬ Trips config ([] : List (SensorPoll F)) := by
    rintro (hlasted | ⟨hread, -⟩)
    · have hpositive := hpos.tripAfterFailedReads
      exact hlasted.2 0 (by omega)
    · exact hread
  rw [h.faulted, latch_iff hnil, inFault_iff hpos]

/-- A recovery ends every fault. -/
theorem InFault.cons_iff (hpos : config.Positive) {polls : List (SensorPoll F)}
    {p : SensorPoll F} :
    InFault config (p :: polls) ↔
      Trips config (p :: polls) ∨ InFault config polls ∧ ¬ Recovers config (p :: polls) := by
  have hafter := tracks_after hpos polls
  rw [← (tracks_after hpos (p :: polls)).faulted_iff hpos, ← hafter.faulted_iff hpos,
    (tracks_after hpos (p :: polls)).faulted, hafter.faulted, latch]
  split_ifs with htrips hrecovers
  · simp [htrips]
  · simp [htrips, hrecovers]
  · simp [htrips, hrecovers]

/-- A frozen sensor that is in fault stays in fault. -/
theorem Frozen.inFault (hpos : config.Positive) {polls later : List (SensorPoll F)}
    (h : Frozen config polls later) (hsuffix : polls <:+ later) (hfault : InFault config polls) :
    InFault config later := by
  induction later with
  | nil => rwa [List.suffix_nil.mp hsuffix] at hfault
  | cons p newer ih =>
      rcases List.suffix_cons_iff.mp hsuffix with rfl | hsuffix
      · exact hfault
      have hbefore : InFault config newer :=
        ih (fun moment hmoment => h moment (hmoment.trans (List.suffix_cons p newer))) hsuffix
      rw [InFault.cons_iff hpos]
      refine .inr ⟨hbefore, fun hrecovers => ?_⟩
      have hgood := hrecovers.good hpos
      have hlength : polls.length < (p :: newer).length :=
        Nat.lt_succ_of_le hsuffix.length_le
      exact hgood.2 (h _ (List.suffix_refl _) hlength hgood.1)

/-- `update` returns true after a sample exactly when the sensor is in fault.  No run
that is shorter than every threshold makes it true, a single failed read least of all
where more than one is asked for, and a frozen sensor never clears. -/
theorem update_follows_history (config : Config) (hpos : config.Positive) :
    (∀ (polls : List (SensorPoll F)) (p : SensorPoll F),
      ((after config polls).poll p).1 = true ↔ InFault config (p :: polls)) ∧
    (∀ (polls : List (SensorPoll F)) (p : SensorPoll F),
      ¬ InFault config polls → ¬ Trips config (p :: polls) →
        ((after config polls).poll p).1 = false) ∧
    (1 < config.tripAfterFailedReads → ∀ (polls : List (SensorPoll F)) (p : SensorPoll F),
      ¬ InFault config polls → ¬ Failed polls → p.readOk = false →
        ((after config polls).poll p).1 = false) ∧
    (∀ (polls newer : List (SensorPoll F)) (p : SensorPoll F),
      InFault config polls → Frozen config polls (p :: newer ++ polls) →
        ((after config (newer ++ polls)).poll p).1 = true) := by
  have hupdate : ∀ (polls : List (SensorPoll F)) (p : SensorPoll F),
      ((after config polls).poll p).1 = true ↔ InFault config (p :: polls) := by
    intro polls p
    rw [SensorFaultMonitor.poll, update_fst]
    exact (tracks_after hpos (p :: polls)).faulted_iff hpos
  have hshort : ∀ (polls : List (SensorPoll F)) (p : SensorPoll F),
      ¬ InFault config polls → ¬ Trips config (p :: polls) →
        ((after config polls).poll p).1 = false := by
    intro polls p hfault htrips
    rw [Bool.eq_false_iff, Ne, hupdate, InFault.cons_iff hpos]
    rintro (h | ⟨h, -⟩)
    · exact htrips h
    · exact hfault h
  refine ⟨hupdate, hshort, ?_, ?_⟩
  · intro hmore polls p hfault hbefore hp
    apply hshort polls p hfault
    rintro (hlasted | ⟨hread, -⟩)
    · have hlong := hlasted.1
      have hfailed := hlasted.2 1 (by omega)
      exact hbefore hfailed
    · exact hread.not_failed hp
  · intro polls newer p hfault hfrozen
    rw [hupdate]
    exact hfrozen.inFault hpos (List.suffix_append (p :: newer) polls) hfault

/-- A poll whose read failed. -/
def failedPoll : SensorPoll ℚ := ⟨false, 0, 0, none⟩

/-- Three failed reads in a row, with the thresholds of the mouse loop. -/
theorem update_follows_history_threeFailed : InFault {} [failedPoll, failedPoll, failedPoll] :=
  ((update_follows_history (F := ℚ) {} ⟨by decide, by decide, by decide, by decide⟩).1
    [failedPoll, failedPoll] failedPoll).mp (by decide)

/-- Where one failed read is enough, a single one makes `update` return true. -/
theorem not_singleFailedRead_tolerated :
    ∃ config : Config, config.Positive ∧ failedPoll.readOk = false ∧
      ((new config).poll failedPoll).1 = true :=
  ⟨{ tripAfterFailedReads := 1 }, ⟨by decide, by decide, by decide, by decide⟩, by decide,
    by decide⟩

end Run

end SensorFaultMonitor

end OmegaStick
