import Mathlib.Algebra.Order.Ring.Cast
import OmegaStick.Console.Page

/-!
# Waiting for the sensor

The loop of `awaitSensorHealthy` in `omega_protocol.js`, with everything it is given
from outside as one sequence of rounds: whether it is aborted, what the diagnostics
request comes to, and what the clock says after it.

`Waiting` is what holds on the way into a round.  A not-observed reply is
not the last one only before the wait is over, so at most twenty rounds come before
the healthy replies the loop ends in, and of those the fourth is late enough:
`Waiting.round_le` bounds the rounds, whatever the order of the replies.
-/

namespace OmegaStick

namespace Console

/-- `SENSOR_POLL_MS` -/
def sensorPollMs : ℤ := 500

/-- What one round of the loop is given. -/
structure SensorRound (T : Type*) where
  abort : Bool
  read : Except JsString DecodedDiagnostics
  now : T

/-- What `awaitSensorHealthy` returns, but for the message. -/
structure SensorResult extends Judgement where
  aborted : Bool := false
  deriving DecidableEq, Repr

/-- How a round ends: with the result, or in `sleep(SENSOR_POLL_MS)`. -/
inductive RoundEnd (T : Type*) where
  | done (result : SensorResult)
  | asleep (healthySince : Option T)
  deriving DecidableEq, Repr

section Loop

variable {T : Type*} [CommRing T] [LinearOrder T] [BrowserText]

/-- One round of the loop. -/
def sensorRound (started : T) (healthySince : Option T) (round : SensorRound T) : RoundEnd T :=
  if round.abort then .done { ok := false, aborted := true }
  else
    let r := judgeConfirmCheck (.sensor round.read)
    if r.skipped || (!r.ok && !r.wait) then .done { r with }
    else if r.ok then
      match healthySince with
      | none => .asleep (some round.now)
      | some since =>
          if (sensorDwellMs : T) ≤ round.now - since then .done { r with }
          else .asleep healthySince
    else if (sensorWaitMs : T) ≤ round.now - started then .done { ok := false }
    else .asleep none

/-- The rounds from number `k` on, with the number of the last one. -/
def sensorRounds (started : T) (rounds : ℕ → SensorRound T) :
    ℕ → ℕ → Option T → Option (SensorResult × ℕ)
  | 0, _, _ => none
  | fuel + 1, k, healthySince =>
      match sensorRound started healthySince (rounds k) with
      | .done result => some (result, k)
      | .asleep healthySince => sensorRounds started rounds fuel (k + 1) healthySince

/-- `awaitSensorHealthy`, up to a number of rounds. -/
def awaitSensorHealthy (started : T) (rounds : ℕ → SensorRound T) (fuel : ℕ) :
    Option (SensorResult × ℕ) :=
  sensorRounds started rounds fuel 0 none

end Loop

/-! ## The replies -/

section Replies

variable (read : Except JsString DecodedDiagnostics)

def IsHealthy : Prop := ∃ d, read = .ok d ∧ d.sensorFault = 0

def IsNotObserved : Prop := ∃ d, read = .ok d ∧ d.sensorFault = sensorNotObservedCode

/-- A fault, or a code the console does not know. -/
def IsFault : Prop := ∃ d, read = .ok d ∧ d.sensorFault ≠ 0 ∧ d.sensorFault ≠ sensorNotObservedCode

/-- The request failed, and not because the firmware does not know it. -/
def IsError : Prop := ∃ message, read = .error message ∧ unsupported message = false

/-- The firmware does not know the request. -/
def IsUnsupported : Prop := ∃ message, read = .error message ∧ unsupported message = true

theorem reply_cases :
    IsHealthy read ∨ IsNotObserved read ∨ (IsFault read ∨ IsError read) ∨ IsUnsupported read := by
  cases read with
  | error message =>
      cases h : unsupported message with
      | true => exact .inr (.inr (.inr ⟨message, rfl, h⟩))
      | false => exact .inr (.inr (.inl (.inr ⟨message, rfl, h⟩)))
  | ok d =>
      by_cases hhealthy : d.sensorFault = 0
      · exact .inl ⟨d, rfl, hhealthy⟩
      by_cases hwait : d.sensorFault = sensorNotObservedCode
      · exact .inr (.inl ⟨d, rfl, hwait⟩)
      · exact .inr (.inr (.inl (.inl ⟨d, rfl, hhealthy, hwait⟩)))

variable {read} [BrowserText]

theorem IsHealthy.judge (h : IsHealthy read) :
    judgeConfirmCheck (.sensor read) = { ok := true } := by
  obtain ⟨d, rfl, hcode⟩ := h
  simp [judgeConfirmCheck, hcode, sensorNotObservedCode]

theorem IsNotObserved.judge (h : IsNotObserved read) :
    judgeConfirmCheck (.sensor read) = { ok := false, wait := true } := by
  obtain ⟨d, rfl, hcode⟩ := h
  simp [judgeConfirmCheck, hcode]

theorem judge_of_failed (h : IsFault read ∨ IsError read) :
    judgeConfirmCheck (.sensor read) = { ok := false } := by
  rcases h with ⟨d, rfl, hhealthy, hwait⟩ | ⟨message, rfl, hcategory⟩
  · simp [judgeConfirmCheck, hhealthy, hwait]
  · simp [judgeConfirmCheck, hcategory]

theorem IsUnsupported.judge (h : IsUnsupported read) :
    judgeConfirmCheck (.sensor read) = { ok := true, skipped := true } := by
  obtain ⟨message, rfl, hcategory⟩ := h
  simp [judgeConfirmCheck, hcategory]

end Replies

/-! ## One round -/

section Rounds

variable {T : Type*} [CommRing T] [LinearOrder T] [BrowserText]
variable {started : T} {healthySince healthySince' : Option T} {round : SensorRound T}

theorem sensorRound_of_healthy (hgoes : round.abort = false) (h : IsHealthy round.read) :
    sensorRound started healthySince round =
      match healthySince with
      | none => .asleep (some round.now)
      | some since =>
          if (sensorDwellMs : T) ≤ round.now - since then .done { ok := true }
          else .asleep healthySince := by
  simp only [sensorRound, hgoes, h.judge]
  rfl

theorem sensorRound_of_notObserved (hgoes : round.abort = false) (h : IsNotObserved round.read) :
    sensorRound started healthySince round =
      if (sensorWaitMs : T) ≤ round.now - started then .done { ok := false }
      else .asleep none := by
  simp only [sensorRound, hgoes, h.judge]
  rfl

theorem sensorRound_of_failed (hgoes : round.abort = false)
    (h : IsFault round.read ∨ IsError round.read) :
    sensorRound started healthySince round = .done { ok := false } := by
  simp only [sensorRound, hgoes, judge_of_failed h]
  rfl

theorem sensorRound_of_unsupported (hgoes : round.abort = false)
    (h : IsUnsupported round.read) :
    sensorRound started healthySince round = .done { ok := true, skipped := true } := by
  simp only [sensorRound, hgoes, h.judge]
  rfl

theorem sensorRound_of_abort (h : round.abort = true) :
    sensorRound started healthySince round = .done { ok := false, aborted := true } := by
  rw [sensorRound, if_pos h]

/-- The rounds the loop goes on after. -/
theorem asleep_cases (h : sensorRound started healthySince round = .asleep healthySince') :
    round.abort = false ∧
      ((IsHealthy round.read ∧ ((healthySince = none ∧ healthySince' = some round.now) ∨
          ∃ since, healthySince = some since ∧ healthySince' = some since ∧
            round.now - since < sensorDwellMs)) ∨
        (IsNotObserved round.read ∧ healthySince' = none ∧
          round.now - started < sensorWaitMs)) := by
  cases hgoes : round.abort with
  | true => cases (sensorRound_of_abort hgoes).symm.trans h
  | false =>
      refine ⟨rfl, ?_⟩
      rcases reply_cases round.read with hread | hread | hread | hread
      · rw [sensorRound_of_healthy hgoes hread] at h
        refine .inl ⟨hread, ?_⟩
        cases healthySince with
        | none => exact .inl ⟨rfl, (RoundEnd.asleep.inj h).symm⟩
        | some since =>
            dsimp only at h
            split_ifs at h with hdwell
            exact .inr ⟨since, rfl, (RoundEnd.asleep.inj h).symm, not_le.mp hdwell⟩
      · rw [sensorRound_of_notObserved hgoes hread] at h
        split_ifs at h with hwait
        exact .inr ⟨hread, (RoundEnd.asleep.inj h).symm, not_le.mp hwait⟩
      · cases (sensorRound_of_failed hgoes hread).symm.trans h
      · cases (sensorRound_of_unsupported hgoes hread).symm.trans h

/-- It passes on a healthy reply that comes late enough after another one. -/
theorem passed_cases {result : SensorResult}
    (h : sensorRound started healthySince round = .done result) (hok : result.ok = true)
    (hskipped : result.skipped = false) :
    round.abort = false ∧ IsHealthy round.read ∧
      ∃ since, healthySince = some since ∧ (sensorDwellMs : T) ≤ round.now - since := by
  cases hgoes : round.abort with
  | true =>
      rw [sensorRound_of_abort hgoes] at h
      cases h
      cases hok
  | false =>
      refine ⟨rfl, ?_⟩
      rcases reply_cases round.read with hread | hread | hread | hread
      · rw [sensorRound_of_healthy hgoes hread] at h
        refine ⟨hread, ?_⟩
        cases healthySince with
        | none => cases h
        | some since =>
            dsimp only at h
            split_ifs at h with hdwell
            exact ⟨since, rfl, hdwell⟩
      · rw [sensorRound_of_notObserved hgoes hread] at h
        split_ifs at h
        cases h
        cases hok
      · rw [sensorRound_of_failed hgoes hread] at h
        cases h
        cases hok
      · rw [sensorRound_of_unsupported hgoes hread] at h
        cases h
        cases hskipped

/-! ## All rounds -/

variable {rounds : ℕ → SensorRound T}

/-- The clock does not run backwards, and a sleep takes its time. -/
structure SensorClock (started : T) (rounds : ℕ → SensorRound T) : Prop where
  start : started ≤ (rounds 0).now
  sleep : ∀ k, (rounds k).now + sensorPollMs ≤ (rounds (k + 1)).now

/-- What holds on the way into round `k`: since round `first` every reply was healthy, and
before it the wait was not over. -/
structure Waiting (started : T) (rounds : ℕ → SensorRound T) (k : ℕ)
    (healthySince : Option T) (first : ℕ) : Prop where
  le : first ≤ k
  since : healthySince = if first = k then none else some (rounds first).now
  healthy : ∀ j, first ≤ j → j < k → IsHealthy (rounds j).read
  dwell : ∀ j, first ≤ j → j < k → (rounds j).now - (rounds first).now < sensorDwellMs
  wait : ∀ j, j + 1 = first → (rounds j).now - started < sensorWaitMs

omit [BrowserText] in
theorem Waiting.new : Waiting started rounds 0 none 0 where
  le := le_rfl
  since := rfl
  healthy := fun j _ hj => absurd hj (Nat.not_lt_zero j)
  dwell := fun j _ hj => absurd hj (Nat.not_lt_zero j)
  wait := nofun

theorem Waiting.next [IsStrictOrderedRing T] {k first : ℕ}
    (h : Waiting started rounds k healthySince first)
    (hround : sensorRound started healthySince (rounds k) = .asleep healthySince') :
    ∃ first', Waiting started rounds (k + 1) healthySince' first' := by
  obtain ⟨-, ⟨hread, hsince⟩ | ⟨-, rfl, hwait⟩⟩ := asleep_cases hround
  · refine ⟨first, h.le.trans (Nat.le_succ k), ?_, ?_, ?_, h.wait⟩
    · have hne : first ≠ k + 1 := by have := h.le; omega
      rw [if_neg hne]
      have hbefore := h.since
      rcases hsince with ⟨rfl, rfl⟩ | ⟨since, rfl, rfl, -⟩
      · split_ifs at hbefore with hk
        rw [hk]
      · split_ifs at hbefore
        exact hbefore
    · intro j hfirst hj
      rcases Nat.lt_succ_iff_lt_or_eq.mp hj with hj | rfl
      · exact h.healthy j hfirst hj
      · exact hread
    · intro j hfirst hj
      rcases Nat.lt_succ_iff_lt_or_eq.mp hj with hj | rfl
      · exact h.dwell j hfirst hj
      · have hbefore := h.since
        rcases hsince with ⟨rfl, -⟩ | ⟨since, rfl, -, hdwell⟩
        · split_ifs at hbefore with hk
          rw [hk, sub_self]
          simp [sensorDwellMs]
        · split_ifs at hbefore
          rw [← Option.some.inj hbefore]
          exact hdwell
  · refine ⟨k + 1, le_rfl, by rw [if_pos rfl], fun j hle hlt => absurd hlt (not_lt.mpr hle),
      fun j hle hlt => absurd hlt (not_lt.mpr hle), ?_⟩
    intro j hj
    rw [Nat.succ_injective hj]
    exact hwait

omit [BrowserText] in
theorem SensorClock.le [IsStrictOrderedRing T] (h : SensorClock started rounds) (i n : ℕ) :
    (rounds i).now + n * sensorPollMs ≤ (rounds (i + n)).now := by
  induction n with
  | zero => simp
  | succ n ih =>
      have hsleep := h.sleep (i + n)
      push_cast
      calc (rounds i).now + (n + 1) * sensorPollMs
          = (rounds i).now + n * sensorPollMs + sensorPollMs := by ring
        _ ≤ (rounds (i + n)).now + sensorPollMs := by gcongr
        _ ≤ (rounds (i + n + 1)).now := hsleep

omit [BrowserText] in
/-- **The rounds are bounded**: the last not-observed reply comes before the wait is over,
and the healthy ones after it within the dwell. -/
theorem Waiting.round_le [IsStrictOrderedRing T] (hclock : SensorClock started rounds) {k first : ℕ}
    (h : Waiting started rounds k healthySince first) : k ≤ 23 := by
  have hfirst : first ≤ 20 := by
    cases first with
    | zero => exact Nat.zero_le 20
    | succ j =>
        have hwait := h.wait j rfl
        have hafter := hclock.le 0 j
        rw [Nat.zero_add] at hafter
        have hpolls : (j : T) * 500 < 10000 := by
          have hstart := hclock.start
          simp only [sensorPollMs, sensorWaitMs, Int.cast_ofNat] at hafter hwait
          linarith
        have hj : j * 500 < 10000 := by exact_mod_cast hpolls
        omega
  rcases h.le.eq_or_lt with rfl | hlt
  · omega
  · obtain ⟨n, rfl⟩ : ∃ n, k = first + n + 1 := ⟨k - first - 1, by omega⟩
    have hdwell := h.dwell (first + n) (Nat.le_add_right _ _) (Nat.lt_succ_self _)
    have hafter := hclock.le first n
    have hpolls : (n : T) * 500 < 1500 := by
      simp only [sensorPollMs, sensorDwellMs, Int.cast_ofNat] at hafter hdwell
      linarith
    have hn : n * 500 < 1500 := by exact_mod_cast hpolls
    omega

/-- The loop from round `k` on: it ends in a round of its own, and went on after every
round before that. -/
theorem sensorRounds_ends [IsStrictOrderedRing T] (hclock : SensorClock started rounds) (left : ℕ) :
    ∀ {k : ℕ} {healthySince : Option T} {first : ℕ},
      Waiting started rounds k healthySince first → 24 ≤ k + left →
      ∃ result last since first',
        (∀ fuel, left ≤ fuel →
          sensorRounds started rounds fuel k healthySince = some (result, last)) ∧
        Waiting started rounds last since first' ∧
        sensorRound started since (rounds last) = .done result ∧
        ∀ j, k ≤ j → j < last → ∃ since since', sensorRound started since (rounds j) =
          .asleep since' := by
  induction left with
  | zero =>
      intro k healthySince first h hleft
      have hround := h.round_le hclock
      omega
  | succ left ih =>
      intro k healthySince first h hleft
      cases hround : sensorRound started healthySince (rounds k) with
      | done result =>
          refine ⟨result, k, healthySince, first, ?_, h, hround,
            fun j hle hlt => absurd hlt (not_lt.mpr hle)⟩
          intro fuel hfuel
          obtain ⟨fuel, rfl⟩ := Nat.exists_eq_add_of_lt hfuel
          rw [sensorRounds, hround]
      | asleep since =>
          obtain ⟨first', hnext⟩ := h.next hround
          obtain ⟨result, last, since', first'', hrun, hlast, hdone, hbefore⟩ :=
            ih hnext (by omega)
          refine ⟨result, last, since', first'', ?_, hlast, hdone, ?_⟩
          · intro fuel hfuel
            obtain ⟨fuel, rfl⟩ := Nat.exists_eq_add_of_lt hfuel
            rw [sensorRounds, hround]
            exact hrun _ (Nat.le_add_right _ _)
          · intro j hle hlt
            rcases hle.eq_or_lt with rfl | hlater
            · exact ⟨_, _, hround⟩
            · exact hbefore j hlater hlt

/-- **The sensor wait is sound, and ends.** Within 24 rounds, whatever the replies: it
passes only on two healthy replies far enough apart with healthy ones in between; a fault
ends it at once as a failure, and so does an error that does not say the firmware lacks
the request, which ends it as skipped; and a not-observed reply once the wait is over
ends it as a failure. -/
theorem awaitSensorHealthy_sound [IsStrictOrderedRing T] (hclock : SensorClock started rounds) :
    ∃ result last, last < 24 ∧
      (∀ fuel, 24 ≤ fuel → awaitSensorHealthy started rounds fuel = some (result, last)) ∧
      (result.ok = true → result.skipped = false →
        ∃ first < last, (sensorDwellMs : T) ≤ (rounds last).now - (rounds first).now ∧
          ∀ j, first ≤ j → j ≤ last → IsHealthy (rounds j).read) ∧
      (∀ j ≤ last, (rounds j).abort = false →
        IsFault (rounds j).read ∨ IsError (rounds j).read →
        j = last ∧ result = { ok := false }) ∧
      (∀ j ≤ last, (rounds j).abort = false → IsUnsupported (rounds j).read →
        j = last ∧ result = { ok := true, skipped := true }) ∧
      (∀ j ≤ last, (rounds j).abort = false → IsNotObserved (rounds j).read →
        (sensorWaitMs : T) ≤ (rounds j).now - started →
        j = last ∧ result = { ok := false }) := by
  obtain ⟨result, last, since, first, hrun, hlast, hdone, hbefore⟩ :=
    sensorRounds_ends hclock 24 Waiting.new le_rfl
  -- a reply on which no round goes on is the last one
  have hends : ∀ {j : ℕ} {result' : SensorResult}, j ≤ last →
      (∀ since, sensorRound started since (rounds j) = .done result') →
      j = last ∧ result = result' := by
    intro j result' hle hround
    rcases hle.eq_or_lt with rfl | hlt
    · exact ⟨rfl, RoundEnd.done.inj (hdone.symm.trans (hround since))⟩
    · obtain ⟨since, since', hasleep⟩ := hbefore j (Nat.zero_le j) hlt
      cases (hround since).symm.trans hasleep
  refine ⟨result, last, Nat.lt_succ_of_le (hlast.round_le hclock), hrun, ?_, ?_, ?_, ?_⟩
  · intro hok hskipped
    obtain ⟨-, hread, t, rfl, hdwell⟩ := passed_cases hdone hok hskipped
    have hsince := hlast.since
    split_ifs at hsince with hne
    refine ⟨first, lt_of_le_of_ne hlast.le hne, ?_, ?_⟩
    · rw [← Option.some.inj hsince]
      exact hdwell
    · intro j hfirst hle
      rcases hle.eq_or_lt with rfl | hlt
      · exact hread
      · exact hlast.healthy j hfirst hlt
  · intro j hle hgoes hread
    exact hends hle fun _ => sensorRound_of_failed hgoes hread
  · intro j hle hgoes hread
    exact hends hle fun _ => sensorRound_of_unsupported hgoes hread
  · intro j hle hgoes hread hwait
    exact hends hle fun _ => by rw [sensorRound_of_notObserved hgoes hread, if_pos hwait]

end Rounds

/-- Three replies before the first readings, then healthy ones, every half second. -/
def startsUp (k : ℕ) : SensorRound ℤ :=
  ⟨false, .ok ⟨if k < 3 then sensorNotObservedCode else 0, 0, 0, 0, [], none⟩, 500 * k⟩

theorem awaitSensorHealthy_sound_startsUp :
    awaitSensorHealthy 0 startsUp 24 = some ({ ok := true }, 6) ∧
      ∃ first < 6, 1500 ≤ (startsUp 6).now - (startsUp first).now ∧
        ∀ j, first ≤ j → j ≤ 6 → IsHealthy (startsUp j).read := by
  have hclock : SensorClock 0 startsUp := ⟨le_rfl, fun k => by
    simp only [startsUp, sensorPollMs, Int.cast_id]
    push_cast
    omega⟩
  obtain ⟨result, last, -, hrun, hpassed, -⟩ := awaitSensorHealthy_sound hclock
  have hends : awaitSensorHealthy 0 startsUp 24 = some ({ ok := true }, 6) := by decide +kernel
  obtain ⟨rfl, rfl⟩ := Prod.mk.inj (Option.some.inj ((hrun 24 le_rfl).symm.trans hends))
  exact ⟨hends, hpassed rfl rfl⟩

/-- The firmware does not know the request. -/
def lacksDiagnostics (k : ℕ) : SensorRound ℤ :=
  ⟨false, .error (js "device error (code 88): GET_DIAGNOSTICS: Function not implemented"), 500 * k⟩

/-- An error that ends the wait at once, and not as a failure. -/
theorem not_fails_lacksDiagnostics :
    ¬ ∀ (started : ℤ) (rounds : ℕ → SensorRound ℤ), SensorClock started rounds →
      ∀ result last, awaitSensorHealthy started rounds 24 = some (result, last) →
      ∀ j ≤ last, (rounds j).abort = false →
        IsFault (rounds j).read ∨ (∃ message, (rounds j).read = .error message) →
        j = last ∧ result.ok = false := by
  intro h
  have hclock : SensorClock 0 lacksDiagnostics := ⟨le_rfl, fun k => by
    simp only [lacksDiagnostics, sensorPollMs, Int.cast_id]
    push_cast
    omega⟩
  have hends : awaitSensorHealthy 0 lacksDiagnostics 24 =
      some ({ ok := true, skipped := true }, 0) := by decide +kernel
  have hfails := h 0 lacksDiagnostics hclock _ _ hends 0 le_rfl rfl (.inr ⟨_, rfl⟩)
  cases hfails.2

end Console

end OmegaStick
