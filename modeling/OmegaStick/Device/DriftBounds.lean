import OmegaStick.Device.Neutral
import OmegaStick.Device.TickHistory

/-!
# What drift correction can do

Every run of the polling loop on the device in exact arithmetic, with the saves it asks
for counted.  The store's center stays in the hull of where it was at boot or after the
last successful sweep and of the raw readings it was nudged toward since; nudges keep
their distance in time; they move nothing else of the calibration; and a save is asked
for on every twentieth.
-/

namespace OmegaStick

open MachineFloat TransitionSystem TickRecord

variable {F O : Type*}

/-! ## Counting the saves -/

/-- The world of an iteration, and how often `save_to_flash` was called so far. -/
structure SavingWorld (F O : Type*) extends EspWorld F O where
  saves : ℕ

namespace SavingWorld

variable [MachineFloat F] [FloatMath F]

/-- The ports of `main.cpp`, with the saves counted. -/
instance : Ports F (SavingWorld F O) where
  sendMouse report w := { w with toEspWorld := Ports.sendMouse report w.toEspWorld }
  sendXac report w := { w with toEspWorld := Ports.sendXac report w.toEspWorld }
  runSweep center range w :=
    let (ok, center, range, esp) := Ports.runSweep center range w.toEspWorld
    (ok, center, range, { w with toEspWorld := esp })
  saveToFlash w := { w with toEspWorld := Ports.saveToFlash w.toEspWorld, saves := w.saves + 1 }
  applyDrift center range w :=
    let (center, esp) := Ports.applyDrift center range w.toEspWorld
    (center, { w with toEspWorld := esp })
  readStick w :=
    let (stick, esp) := Ports.readStick w.toEspWorld
    (stick, { w with toEspWorld := esp })
  now w :=
    let (now, esp) := Ports.now w.toEspWorld
    (now, { w with toEspWorld := esp })
  sensorFaultChanged faulted fault faultCount w :=
    { w with toEspWorld := Ports.sensorFaultChanged faulted fault faultCount w.toEspWorld }
  sensorObservedHealthy w :=
    { w with toEspWorld := Ports.sensorObservedHealthy w.toEspWorld }

/-- The worlds agree in what drift correction and sweeps are about. -/
structure Same (w w' : SavingWorld F O) : Prop where
  store : w'.store = w.store
  readings : w'.readings = w.readings
  saves : w'.saves = w.saves

theorem same_send (report : HidReport F) (w : SavingWorld F O) : Same w (report.send w) := by
  cases report <;> exact ⟨rfl, rfl, rfl⟩

theorem same_sensorFaultUpdate (common : CommonState F) (input : StepInput F)
    (w : SavingWorld F O) : Same w (sensorFaultUpdate common input w).2.2 := by
  unfold sensorFaultUpdate
  dsimp only
  split_ifs <;> exact ⟨rfl, rfl, rfl⟩

omit [MachineFloat F] [FloatMath F] in
theorem Same.trans {w w' w'' : SavingWorld F O} (h : Same w w') (h' : Same w' w'') : Same w w'' :=
  ⟨h'.store.trans h.store, h'.readings.trans h.readings, h'.saves.trans h.saves⟩

/-- A sweep: the flag, and what it leaves in the two references, the store and the count. -/
theorem runSweep_cases {w w' : SavingWorld F O} {center center' : CenterResult F}
    {range range' : RangeResult F} {ok : Bool}
    (h : Ports.runSweep center range w = (ok, center', range', w')) :
    w'.saves = w.saves ∧
      ((∃ newCenter newRange, sweepCalibration w.readings = .ok (newCenter, newRange) ∧
          ok = true ∧ w'.store = w.store.setMeasuredCalibration newCenter newRange ∧
          center' = w'.store.center ∧ range' = newRange) ∨
        (∃ e, sweepCalibration w.readings = .error e) ∧ ok = false ∧ w'.store = w.store) := by
  change (let (ok, center, range, esp) := w.toEspWorld.runSweep center range
    ((ok, center, range, { w with toEspWorld := esp }) :
      Bool × CenterResult F × RangeResult F × SavingWorld F O)) = _ at h
  cases hsweep : sweepCalibration w.readings with
  | ok swept =>
      obtain ⟨newCenter, newRange⟩ := swept
      rw [EspWorld.runSweep_of_ok hsweep] at h
      simp only [Prod.mk.injEq] at h
      obtain ⟨rfl, rfl, hrange, rfl⟩ := h
      exact ⟨rfl, .inl ⟨newCenter, newRange, rfl, rfl, rfl, rfl, hrange.symm⟩⟩
  | error e =>
      rw [EspWorld.runSweep_of_error hsweep] at h
      simp only [Prod.mk.injEq] at h
      obtain ⟨rfl, rfl, rfl, rfl⟩ := h
      exact ⟨rfl, .inr ⟨⟨e, rfl⟩, rfl, rfl⟩⟩

/-- A push: what it leaves in the center, the store and the count. -/
theorem applyDrift_pushed {w w' : SavingWorld F O} {center center' : CenterResult F}
    {range : RangeResult F} (h : Ports.applyDrift center range w = (center', w')) :
    w'.store = w.store.setMeasuredCalibration center range ∧ center' = w'.store.center ∧
      w'.saves = w.saves := by
  obtain ⟨rfl, rfl⟩ := Prod.mk.inj h
  exact ⟨rfl, rfl, rfl⟩

end SavingWorld

/-! ## Nudges in time -/

/-- Two nudges without a sweep in between are at least the interval apart. -/
def Spaced (interval : Time) (past : List (TickRecord F)) : Prop :=
  ∀ (newer between older : List (TickRecord F)) (n₂ n₁ : TickRecord F),
    past = newer ++ n₂ :: (between ++ n₁ :: older) →
    n₁.kind = .fed true → n₂.kind = .fed true → (∀ r ∈ between, ¬ r.Swept) →
      interval ≤ n₂.now - n₁.now

/-- What the compensator's last nudge says of the ticks so far. -/
structure NudgeTimes [MachineFloat F] (drift : DriftCompensator F) (past : List (TickRecord F)) :
    Prop where
  last : ∀ between n older, past = between ++ n :: older → n.kind = .fed true →
    (∀ r ∈ between, ¬ r.Swept) → ∃ last, drift.lastNudge = some last ∧ n.now ≤ last
  spaced : Spaced (milliseconds drift.config.minNudgeInterval) past

section Times

variable [MachineFloat F] {drift drift' : DriftCompensator F} {r : TickRecord F}
  {past : List (TickRecord F)}

theorem nudgeTimes_nil (drift : DriftCompensator F) : NudgeTimes drift [] where
  last between n older hpast := by simp at hpast
  spaced newer between older n₂ n₁ hpast := by simp at hpast

/-- A tick that is not a nudge, before which the last nudge is still known. -/
theorem NudgeTimes.cons_of_not_nudged (h : NudgeTimes drift past) (hkind : r.kind ≠ .fed true)
    (hconfig : drift'.config = drift.config)
    (hlast : r.Swept ∨ drift'.lastNudge = drift.lastNudge) : NudgeTimes drift' (r :: past) where
  last between n older hpast hnudged hbetween := by
    cases between with
    | nil =>
        obtain ⟨rfl, -⟩ := List.cons.inj hpast
        exact absurd hnudged hkind
    | cons x between =>
        obtain ⟨rfl, hrest⟩ := List.cons.inj hpast
        rw [hlast.resolve_left (hbetween r List.mem_cons_self)]
        exact h.last between n older hrest hnudged fun x hx =>
          hbetween x (List.mem_cons_of_mem r hx)
  spaced newer between older n₂ n₁ hpast hn₁ hn₂ hbetween := by
    rw [hconfig]
    cases newer with
    | nil =>
        obtain ⟨rfl, -⟩ := List.cons.inj hpast
        exact absurd hn₂ hkind
    | cons x newer =>
        exact h.spaced newer between older n₂ n₁ (List.cons.inj hpast).2 hn₁ hn₂ hbetween

theorem NudgeTimes.tick (h : NudgeTimes drift past) (hsteady : Steady (r :: past))
    (htick : DriftTick drift r drift') : NudgeTimes drift' (r :: past) := by
  cases htick with
  | unseen hkind => exact h.cons_of_not_nudged (by simp [hkind]) rfl (.inr rfl)
  | swept ended hkind => exact h.cons_of_not_nudged (by simp [hkind]) rfl (.inl ⟨ended, hkind⟩)
  | deflected hkind => exact h.cons_of_not_nudged (by simp [hkind]) rfl (.inr rfl)
  | rested hkind => exact h.cons_of_not_nudged (by simp [hkind]) rfl (.inr rfl)
  | nudged hkind hidle hdwelt hspaced =>
      refine ⟨fun between n older hpast hnudged hbetween => ⟨r.now, rfl, ?_⟩,
        fun newer between older n₂ n₁ hpast hn₁ hn₂ hbetween => ?_⟩
      · have hn : n ∈ r :: past := by simp [hpast]
        rcases List.mem_cons.mp hn with rfl | hn
        · exact le_rfl
        · exact hsteady.starts_le hn
      · cases newer with
        | nil =>
            obtain ⟨rfl, hrest⟩ := List.cons.inj hpast
            obtain ⟨last, hlast, hle⟩ := h.last between n₁ older hrest hn₁ hbetween
            show milliseconds drift.config.minNudgeInterval ≤ r.now - n₁.now
            calc milliseconds drift.config.minNudgeInterval
                ≤ r.now - last := hspaced last hlast
              _ ≤ r.now - n₁.now := sub_le_sub_left hle r.now
        | cons x newer =>
            exact h.spaced newer between older n₂ n₁ (List.cons.inj hpast).2 hn₁ hn₂ hbetween

end Times

/-! ## The hull -/

/-- Between the smallest and the largest of the values. -/
def Between (values : List ℚ) (v : ℚ) : Prop := (∃ a ∈ values, a ≤ v) ∧ ∃ b ∈ values, v ≤ b

theorem between_singleton (v : ℚ) : Between [v] v := ⟨⟨v, by simp, le_rfl⟩, ⟨v, by simp, le_rfl⟩⟩

/-- Moving a fraction of the way toward a new value stays between. -/
theorem Between.blend {values : List ℚ} {v : ℚ} (h : Between values v) (raw : ℚ) {rate : ℚ}
    (hrate : 0 ≤ rate) (hrate' : rate ≤ 1) : Between (raw :: values) (v + (raw - v) * rate) := by
  obtain ⟨⟨a, ha, hav⟩, b, hb, hvb⟩ := h
  rcases le_total v raw with hle | hle
  · have hup : v + (raw - v) * rate ≤ raw := calc
      v + (raw - v) * rate ≤ v + (raw - v) := by
        gcongr
        exact mul_le_of_le_one_right (sub_nonneg.mpr hle) hrate'
      _ = raw := add_sub_cancel v raw
    have hdown : v ≤ v + (raw - v) * rate :=
      le_add_of_nonneg_right (mul_nonneg (sub_nonneg.mpr hle) hrate)
    exact ⟨⟨a, List.mem_cons_of_mem raw ha, hav.trans hdown⟩, ⟨raw, List.mem_cons_self, hup⟩⟩
  · have hdown : raw ≤ v + (raw - v) * rate := calc
      raw = v - (v - raw) := (sub_sub_cancel v raw).symm
      _ ≤ v - (v - raw) * rate := by
        gcongr
        exact mul_le_of_le_one_right (sub_nonneg.mpr hle) hrate'
      _ = v + (raw - v) * rate := by ring
    have hup : v + (raw - v) * rate ≤ v :=
      add_le_of_nonpos_right (mul_nonpos_of_nonpos_of_nonneg (sub_nonpos.mpr hle) hrate)
    exact ⟨⟨raw, List.mem_cons_self, hdown⟩, ⟨b, List.mem_cons_of_mem raw hb, hup.trans hvb⟩⟩

/-! ## What a tick does to the calibration -/

/-- The part of a tick's effect that drift correction and sweeps have. -/
inductive CalibrationEffect [MachineFloat F] [FloatMath F] (common : CommonState F)
    (w : SavingWorld F O) (input : StepInput F) (kind : TickKind) (common' : CommonState F)
    (w' : SavingWorld F O) : Prop
  /-- Neither a nudge nor a successful sweep. -/
  | kept (hkind : kind ≠ .fed true)
      (hfailed : ∀ ended, kind = .swept ended → ∃ e, sweepCalibration w.readings = .error e)
      (hcenter : common'.center = common.center) (hrange : common'.range = common.range)
      (hcount : common'.driftNudgeCount = common.driftNudgeCount) (hstore : w'.store = w.store)
      (hsaves : w'.saves = w.saves)
  | swept (ended : Time) (hkind : kind = .swept ended) (center : CenterResult F)
      (range : RangeResult F) (hsweep : sweepCalibration w.readings = .ok (center, range))
      (hcenter : common'.center = w'.store.center) (hrange : common'.range = range)
      (hcount : common'.driftNudgeCount = common.driftNudgeCount)
      (hstore : w'.store = w.store.setMeasuredCalibration center range)
      (hsaves : w'.saves = w.saves)
  | nudged (hkind : kind = .fed true) (hcenter : common'.center = w'.store.center)
      (hrange : common'.range = common.range)
      (hcount : common'.driftNudgeCount = common.driftNudgeCount + 1)
      (hstore : w'.store = w.store.setMeasuredCalibration
        (common.drift.nudge input.stick.rawX input.stick.rawY common.center) common.range)
      (hsaves : w'.saves =
        if (common.driftNudgeCount + 1) % saveEveryNNudges = 0 then w.saves + 1 else w.saves)

theorem DriftCompensator.Updated.nudged_eq [MachineFloat F] {drift drift' : DriftCompensator F}
    {rawX rawY magnitude : F} {center center' : CenterResult F} {now : Time}
    (h : drift.Updated rawX rawY magnitude center now (true, drift', center')) :
    center' = drift.nudge rawX rawY center := by
  cases h with
  | nudged => rfl

/-- Every tick has one of the three effects. -/
theorem calibrationEffect [MachineFloat F] [FloatMath F] (s : LoopState F) (input : StepInput F)
    (w : SavingWorld F O) :
    CalibrationEffect s.common w input (s.record input w).kind (s.through input w).1.common
      (s.through input w).2 := by
  have htick := s.through_common input w
  have hkind : (s.record input w).kind = s.kindAfter input (sensorFaultUpdate s.common input w).2.1
    (sensorFaultUpdate s.common input w).2.2 := rfl
  have hsame := SavingWorld.same_sensorFaultUpdate s.common input w
  -- the sensor monitor leaves what this is about alone
  have hdrift : (sensorFaultUpdate s.common input w).2.1.drift = s.common.drift := rfl
  have hcenter : (sensorFaultUpdate s.common input w).2.1.center = s.common.center := rfl
  have hrange : (sensorFaultUpdate s.common input w).2.1.range = s.common.range := rfl
  have hcount : (sensorFaultUpdate s.common input w).2.1.driftNudgeCount =
    s.common.driftNudgeCount := rfl
  revert htick hkind hsame hdrift hcenter hrange hcount
  generalize (sensorFaultUpdate s.common input w).2.1 = common
  generalize (sensorFaultUpdate s.common input w).2.2 = w₁
  generalize (s.through input w).1.common = common'
  generalize (s.through input w).2 = w'
  intro htick hkind hsame hdrift hcenter hrange hcount
  cases htick with
  | quiet report hneutral hquiet =>
      rw [LoopState.kindAfter_quiet s w₁ hquiet] at hkind
      have hsent := hsame.trans (SavingWorld.same_send report w₁)
      rw [hkind]
      exact .kept nofun nofun hcenter hrange hcount hsent.store hsent.saves
  | @swept report hneutral hheld hrequested ok center range post now w₂ w₃ w₄ hsweep hpost hnow =>
      rw [LoopState.kindAfter_swept s w₁ hheld hrequested] at hkind
      have hsent := hsame.trans (SavingWorld.same_send report w₁)
      obtain rfl : w₂ = w₃ := congrArg Prod.snd hpost
      obtain rfl : w₂ = w₄ := congrArg Prod.snd hnow
      have hover := SavingWorld.same_send report w₂
      obtain ⟨hsaves, ⟨newCenter, newRange, hswept, rfl, hstore, rfl, rfl⟩ |
        ⟨⟨e, hfailed⟩, rfl, hstore⟩⟩ := SavingWorld.runSweep_cases hsweep
      · rw [hsent.readings] at hswept
        rw [hsent.store] at hstore
        rw [hkind]
        exact .swept _ rfl newCenter range hswept
          (congrArg OmegaStore.center hover.store.symm) rfl hcount
          (hover.store.trans hstore) (hover.saves.trans (hsaves.trans hsent.saves))
      · rw [hsent.readings] at hfailed
        rw [hkind]
        exact .kept nofun (fun _ _ => ⟨e, hfailed⟩) hcenter hrange hcount
          (hover.store.trans (hstore.trans hsent.store))
          (hover.saves.trans (hsaves.trans hsent.saves))
  | rested report hheld hfaulted hrequested hupdate =>
      rw [LoopState.kindAfter_fed s w₁ hheld hfaulted hrequested, hupdate] at hkind
      have hsent := hsame.trans (SavingWorld.same_send report w₁)
      rw [hkind]
      exact .kept nofun nofun hcenter hrange hcount hsent.store hsent.saves
  | @nudged report hheld hfaulted hrequested drift center pushed w₂ hupdate hpush =>
      rw [LoopState.kindAfter_fed s w₁ hheld hfaulted hrequested, hupdate] at hkind
      have hsent := hsame.trans (SavingWorld.same_send report w₁)
      have hupdated := common.drift.update_updated input.stick.rawX input.stick.rawY
        (FloatMath.hypot input.stick.x input.stick.y) common.center input.now
      rw [hupdate] at hupdated
      obtain rfl := hupdated.nudged_eq
      obtain ⟨hstore, hcenter', hsaves⟩ := SavingWorld.applyDrift_pushed hpush
      have hkept : (if (common.driftNudgeCount + 1) % saveEveryNNudges = 0 then
          Ports.saveToFlash w₂ else w₂).store = w₂.store := by
        split <;> rfl
      rw [hkind]
      refine .nudged rfl (hcenter'.trans (congrArg _ hkept.symm)) hrange
        (congrArg (· + 1) hcount) ?_ ?_
      · rw [hkept, hstore, hsent.store, hdrift, hcenter, hrange]
      · rw [← hcount]
        split
        · exact congrArg (· + 1) (hsaves.trans hsent.saves)
        · exact hsaves.trans hsent.saves

/-! ## Runs -/

/-- The device, the saves it asked for, its ticks since boot, and the hull: the stored
center at boot or after the last successful sweep, and the raw readings of the nudges
since. -/
structure Drifting (O : Type*) where
  loop : LoopState ℚ
  shared : Shared ℚ O (Device ℚ)
  saves : ℕ
  past : List (TickRecord ℚ)
  hull : List (ℚ × ℚ)

/-- The measured part of a center. -/
def CenterResult.measured (center : CenterResult F) : F × F := (center.centerX, center.centerY)

namespace Drifting

/-- The world of an iteration. -/
def world (s : Drifting O) (it : Iteration ℚ) : SavingWorld ℚ O where
  toEspWorld := it.world s.shared
  saves := s.saves

variable [FloatMath ℚ]

/-- What is kept of an iteration's tick. -/
def record (s : Drifting O) (it : Iteration ℚ) : TickRecord ℚ :=
  s.loop.record (it.input s.shared) (s.world it)

/-- The hull after an iteration that left this center in the store. -/
def hullAfter (s : Drifting O) (it : Iteration ℚ) (center : CenterResult ℚ) : List (ℚ × ℚ) :=
  match (s.record it).kind with
  | .fed true => ((s.record it).rawX, (s.record it).rawY) :: s.hull
  | .swept _ =>
      match sweepCalibration it.readings with
      | .ok _ => [center.measured]
      | .error _ => s.hull
  | .fed false | .unseen => s.hull

/-- One iteration or one console edit; `none` if the clock ran backwards. -/
def next (s : Drifting O) : PollingStep ℚ → Option (Drifting O)
  | .iterate it =>
      let (loop, w) := s.loop.through (it.input s.shared) (s.world it)
      if Steady (s.record it :: s.past) then
        some ⟨loop, w.toShared, w.saves, s.record it :: s.past, s.hullAfter it w.store.center⟩
      else none
  | .edit edit =>
      let store := edit.apply s.shared.store
      let device := if edit.fires then s.shared.outside.onCalibrationChanged store
        else s.shared.outside
      some { s with shared := { s.shared with store := store, outside := device } }

/-- A device whose loop runs with the store's calibration and has not nudged yet. -/
structure Started (s : Drifting O) : Prop where
  center : s.loop.common.center = s.shared.store.center
  range : s.loop.common.range = s.shared.store.range
  blend : 0 ≤ s.loop.common.drift.config.blendRate ∧ s.loop.common.drift.config.blendRate ≤ 1
  count : s.loop.common.driftNudgeCount = 0
  saves : s.saves = 0
  past : s.past = []
  hull : s.hull = [s.shared.store.center.measured]

end Drifting

/-- Every run of the polling loop with console edits in between, under a clock that does
not run backwards. -/
def drifting (O : Type*) [FloatMath ℚ] : TransitionSystem (Drifting O) (PollingStep ℚ) :=
  .ofOption Drifting.Started Drifting.next

/-- A tick that nudged the center. -/
def TickRecord.isNudge (r : TickRecord F) : Bool := r.kind == .fed true

/-- What is promised of drift correction. -/
structure BoundedDrift (s : Drifting O) : Prop where
  centerX : Between (s.hull.map Prod.fst) s.shared.store.center.centerX
  centerY : Between (s.hull.map Prod.snd) s.shared.store.center.centerY
  spaced : Spaced (milliseconds s.loop.common.drift.config.minNudgeInterval) s.past
  saves : (s.saves : ℤ) = s.past.countP TickRecord.isNudge / saveEveryNNudges

/-- What holds of every state of a run. -/
structure Drifted (s : Drifting O) : Prop extends BoundedDrift s where
  steady : Steady s.past
  measured : s.loop.common.center.measured = s.shared.store.center.measured
  range : s.loop.common.range = s.shared.store.range
  blend : 0 ≤ s.loop.common.drift.config.blendRate ∧ s.loop.common.drift.config.blendRate ≤ 1
  times : NudgeTimes s.loop.common.drift s.past
  count : s.loop.common.driftNudgeCount = s.past.countP TickRecord.isNudge

section Run

variable [FloatMath ℚ]

omit [FloatMath ℚ] in
theorem Drifting.Started.drifted {s : Drifting O} (h : s.Started) : Drifted s := by
  have hhull := h.hull
  have hspaced := nudgeTimes_nil s.loop.common.drift
  rw [← h.past] at hspaced
  exact {
    centerX := by rw [hhull]; exact between_singleton _
    centerY := by rw [hhull]; exact between_singleton _
    spaced := hspaced.spaced
    saves := by rw [h.saves, h.past]; rfl
    steady := by rw [h.past]; exact History.steady_nil
    measured := by rw [h.center]
    range := h.range
    blend := h.blend
    times := hspaced
    count := by rw [h.count, h.past]; rfl }

theorem Drifting.next_iterate_eq {s t : Drifting O} {it : Iteration ℚ}
    (h : s.next (.iterate it) = some t) :
    Steady (s.record it :: s.past) ∧
      t = ⟨(s.loop.through (it.input s.shared) (s.world it)).1,
        (s.loop.through (it.input s.shared) (s.world it)).2.toShared,
        (s.loop.through (it.input s.shared) (s.world it)).2.saves, s.record it :: s.past,
        s.hullAfter it (s.loop.through (it.input s.shared) (s.world it)).2.store.center⟩ := by
  unfold Drifting.next at h
  dsimp only at h
  split at h
  · exact ⟨‹_›, (Option.some.inj h).symm⟩
  · cases h

/-! ### One iteration -/

namespace Drifting

variable (s : Drifting O) {it : Iteration ℚ}

theorem hullAfter_kept (hkind : (s.record it).kind ≠ .fed true)
    (hfailed : ∀ ended, (s.record it).kind = .swept ended →
      ∃ e, sweepCalibration it.readings = .error e) (center : CenterResult ℚ) :
    s.hullAfter it center = s.hull := by
  unfold hullAfter
  split
  · exact absurd ‹_› hkind
  · rename_i ended hswept
    obtain ⟨e, he⟩ := hfailed ended hswept
    rw [he]
  all_goals rfl

/-- A successful sweep starts a new hull. -/
theorem hullAfter_swept {ended : Time} (hkind : (s.record it).kind = .swept ended)
    {measured : CenterResult ℚ × RangeResult ℚ}
    (hsweep : sweepCalibration it.readings = .ok measured)
    (center : CenterResult ℚ) : s.hullAfter it center = [center.measured] := by
  unfold hullAfter
  rw [hkind, hsweep]

/-- A nudge adds its raw reading. -/
theorem hullAfter_nudged (hkind : (s.record it).kind = .fed true) (center : CenterResult ℚ) :
    s.hullAfter it center = (it.stick.rawX, it.stick.rawY) :: s.hull := by
  unfold hullAfter
  rw [hkind]
  rfl

end Drifting

omit [FloatMath ℚ] in
theorem countP_record {r : TickRecord ℚ} (past : List (TickRecord ℚ)) :
    ((r :: past).countP TickRecord.isNudge : ℤ) =
      past.countP TickRecord.isNudge + if r.kind = .fed true then 1 else 0 := by
  rw [List.countP_cons]
  by_cases h : r.kind = .fed true <;> simp [TickRecord.isNudge, h]

omit [FloatMath ℚ] in
/-- Every twentieth nudge is one more save. -/
theorem saves_succ {saves : ℕ} {nudges : ℤ} (h : (saves : ℤ) = nudges / saveEveryNNudges) :
    ((if (nudges + 1) % saveEveryNNudges = 0 then saves + 1 else saves : ℕ) : ℤ) =
      (nudges + 1) / saveEveryNNudges := by
  unfold saveEveryNNudges at *
  split <;> push_cast <;> omega

theorem Drifted.iterate {s t : Drifting O} (h : Drifted s) {it : Iteration ℚ}
    (hnext : s.next (.iterate it) = some t) : Drifted t := by
  obtain ⟨hsteady, rfl⟩ := Drifting.next_iterate_eq hnext
  have htick := s.loop.through_driftTick (it.input s.shared) (s.world it)
  have heffect := calibrationEffect s.loop (it.input s.shared) (s.world it)
  have htimes := h.times.tick hsteady htick
  have hconfig := htick.config_eq
  have hrecord : s.loop.record (it.input s.shared) (s.world it) = s.record it := rfl
  have hstore₀ : (s.world it).store = s.shared.store := rfl
  have hsaves₀ : (s.world it).saves = s.saves := rfl
  rw [hrecord] at heffect
  revert htick heffect htimes hconfig
  generalize s.loop.through (it.input s.shared) (s.world it) = after
  intro htick heffect htimes hconfig
  have hblend := h.blend
  rw [← hconfig] at hblend
  cases heffect with
  | kept hkind hfailed hcenter hrange hcount hstore hsaves =>
      have hhull := s.hullAfter_kept hkind hfailed after.2.store.center
      have hnudges := countP_record (r := s.record it) s.past
      rw [if_neg hkind, add_zero] at hnudges
      rw [hstore₀] at hstore
      refine { toBoundedDrift := ⟨?_, ?_, htimes.spaced, ?_⟩, steady := hsteady, measured := ?_,
               range := ?_, blend := hblend, times := htimes, count := ?_ }
      · rw [hhull, hstore]
        exact h.centerX
      · rw [hhull, hstore]
        exact h.centerY
      · rw [hsaves, hnudges]
        exact h.saves
      · rw [hcenter, hstore]
        exact h.measured
      · rw [hrange, hstore]
        exact h.range
      · rw [hcount, hnudges]
        exact h.count
  | swept ended hkind center range hsweep hcenter hrange hcount hstore hsaves =>
      have hhull := s.hullAfter_swept hkind hsweep after.2.store.center
      have hnudges := countP_record (r := s.record it) s.past
      rw [if_neg (by simp [hkind]), add_zero] at hnudges
      refine { toBoundedDrift := ⟨?_, ?_, htimes.spaced, ?_⟩, steady := hsteady, measured := ?_,
               range := ?_, blend := hblend, times := htimes, count := ?_ }
      · rw [hhull]
        exact between_singleton _
      · rw [hhull]
        exact between_singleton _
      · rw [hsaves, hnudges]
        exact h.saves
      · rw [hcenter]
      · rw [hrange, hstore]
        rfl
      · rw [hcount, hnudges]
        exact h.count
  | nudged hkind hcenter hrange hcount hstore hsaves =>
      have hhull := s.hullAfter_nudged hkind after.2.store.center
      have hnudges := countP_record (r := s.record it) s.past
      rw [if_pos hkind] at hnudges
      obtain ⟨hx, hy⟩ := Prod.mk.inj h.measured
      refine { toBoundedDrift := ⟨?_, ?_, htimes.spaced, ?_⟩, steady := hsteady, measured := ?_,
               range := ?_, blend := hblend, times := htimes, count := ?_ }
      · -- the loop's center is the store's, and moved toward a point of the new hull
        rw [hhull, hstore]
        exact (hx ▸ h.centerX).blend it.stick.rawX h.blend.1 h.blend.2
      · rw [hhull, hstore]
        exact (hy ▸ h.centerY).blend it.stick.rawY h.blend.1 h.blend.2
      · rw [hsaves, hsaves₀, hnudges, h.count]
        exact saves_succ h.saves
      · rw [hcenter]
      · rw [hrange, hstore]
        rfl
      · rw [hcount, hnudges, h.count]

theorem Drifted.edit {s t : Drifting O} (h : Drifted s) {edit : ConsoleEdit ℚ}
    (hnext : s.next (.edit edit) = some t) : Drifted t := by
  obtain rfl := Option.some.inj hnext
  have hmeasured : (edit.apply s.shared.store).center.measured =
      s.shared.store.center.measured := by
    rw [ConsoleEdit.apply_center]
    cases edit <;> rfl
  obtain ⟨hx, hy⟩ := Prod.mk.inj hmeasured
  exact { h with
    centerX := hx ▸ h.centerX
    centerY := hy ▸ h.centerY
    measured := h.measured.trans hmeasured.symm
    range := h.range.trans (ConsoleEdit.apply_range edit s.shared.store).symm }

theorem drifted_of_reachable {s : Drifting O} (hs : Reachable (drifting O) s) : Drifted s := by
  refine Reachable.invariant (T := drifting O) (I := Drifted) (fun _ h => h.drifted) ?_ hs
  rintro s step t hdrifted hnext
  cases step with
  | iterate it => exact hdrifted.iterate hnext
  | edit edit => exact hdrifted.edit hnext

/-- Drift correction is bounded and rate limited: in every state a run of the polling loop
reaches the stored center is in the hull, nudges without a sweep in between keep their
distance, and the saves asked for are the nudges divided by twenty; and a nudge leaves the
manual offset and the range in the store as they were. -/
theorem drift_bounded {s : Drifting O} (hs : Reachable (drifting O) s) :
    BoundedDrift s ∧
      ∀ it t, s.next (.iterate it) = some t → (s.record it).kind = .fed true →
        t.shared.store.center.manualOffset = s.shared.store.center.manualOffset ∧
          t.shared.store.range = s.shared.store.range := by
  have h := drifted_of_reachable hs
  refine ⟨h.toBoundedDrift, fun it t hnext hkind => ?_⟩
  obtain ⟨-, rfl⟩ := Drifting.next_iterate_eq hnext
  have heffect := calibrationEffect s.loop (it.input s.shared) (s.world it)
  have hrecord : s.loop.record (it.input s.shared) (s.world it) = s.record it := rfl
  rw [hrecord, hkind] at heffect
  cases heffect with
  | kept hnot => exact absurd rfl hnot
  | swept ended hswept => exact nomatch hswept
  | nudged _ hcenter hrange hcount hstore =>
      dsimp only
      rw [hstore]
      exact ⟨rfl, h.range⟩

end Run

/-! ## From boot -/

theorem bootCalibration_center [MachineFloat F] [FloatText F]
    (files : StoreFile → Option (List UInt8)) :
    (bootCalibration (F := F) files).store.center = (bootCalibration files).center ∧
      (bootCalibration (F := F) files).store.range = (bootCalibration files).range := by
  unfold bootCalibration
  dsimp only
  split <;> exact ⟨rfl, rfl⟩

/-- The device as `main.cpp` boots it on any files starts such a run. -/
theorem Drifting.started_boot (files : StoreFile → Option (List UInt8)) {s : Drifting O}
    (hstore : s.shared.store = (bootCalibration files).store)
    (hloop : s.loop = bootLoop (bootCalibration files)) (hsaves : s.saves = 0) (hpast : s.past = [])
    (hhull : s.hull = [s.shared.store.center.measured]) : s.Started := by
  obtain ⟨hcenter, hrange⟩ := bootCalibration_center (F := ℚ) files
  have hcommon : ∃ config : SensorFaultMonitor.Config,
      s.loop.common = { (CommonState.new config : CommonState ℚ) with
        center := (bootCalibration files).center, range := (bootCalibration files).range } := by
    rw [hloop, bootLoop]
    split
    · exact ⟨xacSensorFaultConfig, rfl⟩
    · exact ⟨mouseSensorFaultConfig, rfl⟩
  obtain ⟨config, hcommon⟩ := hcommon
  exact {
    center := by rw [hcommon, hstore, hcenter]
    range := by rw [hcommon, hstore, hrange]
    blend := by
      rw [hcommon]
      exact ⟨by norm_num [CommonState.new, DriftCompensator.default,
          DriftCompensator.Config.default, ofRat],
        by norm_num [CommonState.new, DriftCompensator.default,
          DriftCompensator.Config.default, ofRat]⟩
    count := by rw [hcommon]; rfl
    saves := hsaves
    past := hpast
    hull := hhull }

/-- A calibrated gamepad, its center at the origin. -/
def restingGamepad : Drifting SimOta where
  loop := .xac .new
  shared :=
    { store := ⟨.default, .default, .default⟩
      ota := .new (.format default)
      outside := ⟨.idle, 0, false, .new, none, none, 0, []⟩ }
  saves := 0
  past := []
  hull := [(0, 0)]

/-- The stick rests at a raw reading of (30, -10), `now` milliseconds after boot. -/
def restingTick (now : ℤ) : PollingStep ℚ :=
  .iterate ⟨⟨0, 0, 30, -10, true, none⟩, milliseconds now, false, false, fun _ => none,
    ⟨0, 0, 30, -10, true, none⟩, milliseconds now⟩

/-- After two seconds of rest the center has gone a fiftieth of the way. -/
theorem drift_bounded_resting :
    ∃ s : Drifting SimOta, Reachable (drifting SimOta) s ∧ BoundedDrift s ∧
      s.hull = [(30, -10), (0, 0)] ∧ s.shared.store.center.measured = (3 / 5, -1 / 5) := by
  have hrun : (runOption Drifting.next restingGamepad [restingTick 0, restingTick 2000]).any
      (fun s => decide (s.hull = [(30, -10), (0, 0)]) &&
        decide (s.shared.store.center.measured = (3 / 5, -1 / 5))) = true := by
    decide +kernel
  obtain ⟨s, steps, hpath, hfinal⟩ := path_of_runOption_any (drifting SimOta).init hrun
  simp only [Bool.and_eq_true, decide_eq_true_eq] at hfinal
  have hstarted : restingGamepad.Started :=
    ⟨rfl, rfl, ⟨by decide +kernel, by decide +kernel⟩, rfl, rfl, rfl, rfl⟩
  have hreached : Reachable (drifting SimOta) s := hpath.reachable (.init hstarted)
  exact ⟨s, hreached, (drift_bounded hreached).1, hfinal.1, hfinal.2⟩

end OmegaStick
