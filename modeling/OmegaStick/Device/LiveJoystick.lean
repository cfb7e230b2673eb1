import OmegaStick.Device.StaleReads
import OmegaStick.Device.EspPorts

/-!
# The joystick and the store

Whoever changes the calibration in the store applies it to the joystick
afterwards, with values read one by one and applied outside the lock; the loop
applies its own copies, and the callback applies nothing before the joystick's
pointer is set.

`UpToDate` is the invariant these steps are meant to keep: nothing was changed in
the store since what the joystick has was read, or an application is still to
come.  A step loses it exactly when it is the last application to come and applies
what was changed since it was read, or skips one (`upToDate_next_iff`); that is a
matter of the order of the steps alone, and `Tied` says what it means for the
values.
-/

namespace OmegaStick

open Interleaving TransitionSystem

variable {ι F : Type*}

/-! ## Applications to come -/

/-- An application, or a change of the calibration that one follows. -/
def Instr.applies : Instr F → Bool
  | .edit change _ => change.fires
  | .setMeasuredCalibration .. | .onCalibrationChanged _ | .apply | .applyLocal | .build => true
  | .read _ | .readBack | .publish | .snapshot | .write _ | .answer => false

/-- An edit that fires leads to the callback, another one to nothing that applies. -/
theorem any_applies_callback (change : ConsoleEdit F) (order : ReadOrder) (store : OmegaStore F) :
    (callback change order store).any Instr.applies = change.fires := by
  cases change with
  | setManualOffset | setDeadzoneOverride | setNudgeSettings | setNudgeEnabled => rfl
  | setInputMode mode =>
      simp only [callback]
      split <;> rfl

theorem any_applies_dropWhile (code : List (Instr F)) :
    (code.dropWhile Instr.ofSave).any Instr.applies = code.any Instr.applies := by
  induction code with
  | nil => rfl
  | cons instr code ih =>
      rw [List.dropWhile_cons]
      split
      · rename_i hsave
        rw [ih, List.any_cons]
        revert hsave
        cases instr <;> simp [Instr.ofSave, Instr.applies]
      · rfl

/-- What an instruction that does not apply puts before the rest does not apply either. -/
theorem any_applies_exec [MachineFloat F] {instr : Instr F} (h : instr.applies = false)
    (b : Board F) (regs : Regs F) : (instr.exec b regs).2.2.any Instr.applies = false := by
  cases instr with
  | edit change order => exact (any_applies_callback change order b.store).trans h
  | setMeasuredCalibration | onCalibrationChanged | apply | applyLocal | build => cases h
  | read | readBack | publish | snapshot | write | answer => rfl

/-- An application is still to come when this task has only `rest` left. -/
def Tasks.StillToCome (s : Tasks ι F) (id : TaskId ι) (rest : List (Instr F)) : Prop :=
  rest.any Instr.applies = true ∨ s.ToComeElsewhere Instr.applies id

/-- A step that begins a call. -/
def TaskStep.begins : TaskStep ι F → Bool
  | .request .. | .loop _ => true
  | .run _ | .fail _ => false

namespace Observed

/-- Nothing was changed since what the joystick has was read, or an application is still to
come. -/
def UpToDate (w : Observed ι F) : Prop :=
  w.tasks.ToCome Instr.applies ∨ ∀ field, w.outdated.joystick field = false

/-- A step that applies something, when no further application is to come, applies what was
not changed since it was read; and the callback is not skipped then, unless nothing was changed
since what the joystick has was read. -/
def AppliesUnchanged (w : Observed ι F) : TaskStep ι F → Prop
  | .run id =>
      match (w.tasks.tasks id).code with
      | .apply :: rest =>
          w.tasks.StillToCome id rest ∨ ∀ field, w.outdated.read id field = false
      | .applyLocal :: rest | .build :: rest =>
          w.tasks.StillToCome id rest ∨ ∀ field, w.outdated.ofLoop id field = false
      | .onCalibrationChanged _ :: rest =>
          w.tasks.shared.published = true ∨ w.tasks.StillToCome id rest ∨
            ∀ field, w.outdated.joystick field = false
      | _ => True
  | .request .. | .loop _ | .fail _ => True

section Step

variable [DecidableEq ι] {s t : Tasks ι F} {o o' : Outdated ι}

theorem upToDate_step (id : TaskId ι) (b : Board F) (task : Task (Instr F) (Regs F)) :
    UpToDate ⟨s.step id b task, o'⟩ ↔
      s.StillToCome id task.code ∨ ∀ field, o'.joystick field = false :=
  or_congr_left (State.toCome_step s id b task)

/-- A step that outdates nothing the joystick has, and has as much to apply as before. -/
theorem UpToDate.step (h : UpToDate ⟨s, o⟩) {id : TaskId ι} {b : Board F}
    {task : Task (Instr F) (Regs F)}
    (hjoystick : ∀ field, o.joystick field = false → o'.joystick field = false)
    (hcode : (s.tasks id).code.any Instr.applies = true → task.code.any Instr.applies = true) :
    UpToDate ⟨s.step id b task, o'⟩ := by
  rw [upToDate_step]
  rcases h with h | h
  · exact .inl (((State.toCome_iff s id).mp h).imp_left hcode)
  · exact .inr fun field => hjoystick field (h field)

variable [MachineFloat F]

/-- **One step** keeps the joystick up to date exactly when it applies what was not changed. -/
theorem upToDate_next_iff (h : UpToDate ⟨s, o⟩) {step : TaskStep ι F}
    (ht : s.next step = some t) :
    UpToDate ⟨t, o.next s step⟩ ↔ AppliesUnchanged ⟨s, o⟩ step := by
  cases taken_of_next ht with
  | request i call hidle heq =>
      subst heq
      exact iff_of_true (h.step (fun _ hfresh => hfresh) fun h => by simp [hidle] at h) trivial
  | loop call hidle heq =>
      subst heq
      exact iff_of_true (h.step (fun _ hfresh => hfresh) fun h => by simp [hidle] at h) trivial
  | fail id file rest hcode heq =>
      subst heq
      refine iff_of_true (h.step (fun _ hfresh => hfresh) ?_) trivial
      rw [hcode, any_applies_dropWhile, List.any_cons]
      exact fun h => h
  | run id instr rest hcode heq =>
      subst heq
      have hnext : o.next s (.run id) = o.exec id instr := by simp only [Outdated.next, hcode]
      rw [hnext]
      unfold AppliesUnchanged
      simp only [hcode]
      cases instr with
      | edit change order =>
          -- a change that touches anything fires its callback
          cases hfires : change.fires with
          | true =>
              refine iff_of_true ((upToDate_step ..).mpr (.inl (.inl ?_))) trivial
              simp only [Instr.exec, List.any_append, any_applies_callback, hfires, Bool.true_or]
          | false =>
              refine iff_of_true (h.step ?_ ?_) trivial
              · intro field hfresh
                refine Bool.or_eq_false_iff.mpr ⟨hfresh, ?_⟩
                cases change with
                | setManualOffset | setDeadzoneOverride => cases hfires
                | setNudgeSettings | setNudgeEnabled | setInputMode => rfl
              · simp only [Instr.exec, hcode, List.any_append, any_applies_callback, hfires,
                  Bool.false_or, List.any_cons, Instr.applies]
                exact fun h => h
      | setMeasuredCalibration center range order =>
          exact iff_of_true ((upToDate_step ..).mpr (.inl (.inl rfl))) trivial
      | onCalibrationChanged order =>
          -- before the loop has published anything, the callback does nothing
          cases hpublished : s.shared.published with
          | true =>
              refine iff_of_true ((upToDate_step ..).mpr (.inl (.inl ?_))) (.inl rfl)
              simp [Instr.exec, hpublished, Instr.applies]
          | false =>
              rw [upToDate_step]
              simp [Instr.exec, hpublished, Outdated.exec]
      | apply => exact upToDate_step ..
      | applyLocal | build => exact upToDate_step ..
      | read | readBack | publish | snapshot | write | answer =>
          refine iff_of_true (h.step (fun _ hfresh => hfresh) ?_) trivial
          simp only [Instr.exec, hcode, List.any_cons, Instr.applies, Bool.false_or,
            List.nil_append]
          exact fun h => h

/-- What is not up to date stays so until another call begins. -/
theorem UpToDate.of_next {step : TaskStep ι F} (hends : step.begins = false)
    (ht : s.next step = some t) (h : UpToDate ⟨t, o.next s step⟩) : UpToDate ⟨s, o⟩ := by
  cases taken_of_next ht with
  | request => cases hends
  | loop => cases hends
  | fail id file rest hcode heq =>
      subst heq
      rw [upToDate_step] at h
      refine h.imp_left fun hstill => (State.toCome_iff s id).mpr (hstill.imp_left ?_)
      rw [hcode, any_applies_dropWhile, List.any_cons]
      exact fun h => h
  | run id instr rest hcode heq =>
      subst heq
      have hnext : o.next s (.run id) = o.exec id instr := by simp only [Outdated.next, hcode]
      rw [hnext, upToDate_step] at h
      cases happlies : instr.applies with
      | true => exact .inl ⟨id, by simp [hcode, happlies]⟩
      | false =>
          rcases h with hstill | hfresh
          · refine .inl ((State.toCome_iff s id).mpr (hstill.imp_left ?_))
            rw [hcode, List.any_append, any_applies_exec happlies, List.any_cons, happlies]
            exact fun h => h
          · refine .inr fun field => ?_
            have hfield := hfresh field
            cases instr with
            | edit => exact (Bool.or_eq_false_iff.mp hfield).1
            | setMeasuredCalibration | onCalibrationChanged | apply | applyLocal | build =>
                cases happlies
            | read | readBack | publish | snapshot | write | answer => exact hfield

end Step

/-! ## Every run -/

/-- The runs whose steps all apply what was not changed. -/
def unchangedTasks [MachineFloat F] [DecidableEq ι] :
    TransitionSystem (Observed ι F) (TaskStep ι F) :=
  observedTasks.restrict AppliesUnchanged

section Runs

variable [MachineFloat F] [DecidableEq ι]

theorem upToDate_of_reachable {w : Observed ι F} (hw : unchangedTasks.Reachable w) :
    w.UpToDate := by
  refine Reachable.invariant (I := UpToDate) ?_ ?_ hw
  · rintro w ⟨hbooted, -⟩
    exact .inl ⟨.loop, by rw [hbooted.loop]; rfl⟩
  · rintro ⟨s, o⟩ step ⟨t, o'⟩ h ⟨⟨ht, ho⟩, hstep⟩
    obtain rfl : o' = o.next s step := ho
    exact (upToDate_next_iff h ht).mpr hstep

/-- **The joystick agrees with the store** once every call has completed, in every run whose
last application to come always applies what was not changed since it was read. Every run has
such a record of what it outdates; and after a step that fails the condition the joystick lacks
a change in every state reached before another call begins, where every call has completed. -/
theorem joystick_agrees :
    (∀ {s : Tasks ι F}, OmegaStick.tasks.Reachable s → ∃ o, observedTasks.Reachable ⟨s, o⟩) ∧
    (∀ {w : Observed ι F}, unchangedTasks.Reachable w → w.tasks.Quiescent →
      w.tasks.shared.joystick = some w.tasks.shared.current) ∧
    ∀ {w v u : Observed ι F} {step steps}, unchangedTasks.Reachable w →
      observedTasks.step w step v → ¬ w.AppliesUnchanged step →
      Path (observedTasks.restrict fun _ step => step.begins = false) v steps u →
      u.tasks.Quiescent → ∃ field, u.outdated.joystick field = true := by
  refine ⟨observed_of_reachable, ?_, ?_⟩
  · intro w hw hquiet
    have hfresh := (upToDate_of_reachable hw).resolve_left hquiet.not_toCome
    exact (tied_of_reachable hw.of_restrict).2.joystick hfresh
  · rintro ⟨s, o⟩ ⟨t, o'⟩ u step steps hw ⟨ht, ho⟩ hfails hpath hquiet
    obtain rfl : o' = o.next s step := ho
    have hlost : ¬ UpToDate ⟨t, o.next s step⟩ := fun h =>
      hfails ((upToDate_next_iff (upToDate_of_reachable hw) ht).mp h)
    have hstill : ¬ u.UpToDate := by
      refine Path.invariant (I := fun w => ¬ UpToDate w) ?_ hpath hlost
      rintro ⟨s, o⟩ step ⟨t, o'⟩ hlost ⟨⟨ht, ho⟩, hends⟩ h
      obtain rfl : o' = o.next s step := ho
      exact hlost (h.of_next hends ht)
    by_contra hnone
    refine hstill (.inr fun field => ?_)
    by_contra hfield
    exact hnone ⟨field, by simpa using hfield⟩

end Runs

end Observed

/-! ## A call with nobody in between -/

/-- The reads come in one of six orders. -/
theorem ReadOrder.fields_mem (order : ReadOrder) :
    order.fields ∈ [[StoreField.center, .range, .settings], [.center, .settings, .range],
      [.range, .center, .settings], [.range, .settings, .center], [.settings, .center, .range],
      [.settings, .range, .center]] := by
  obtain ⟨fields, hperm⟩ := order
  have hlength := hperm.length_eq
  match fields, hlength with
  | [a, b, c], _ =>
      revert hperm
      cases a <;> cases b <;> cases c <;> decide

variable [MachineFloat F] [DecidableEq ι]

/-- `on_calibration_changed` alone is the wiring's, once the pointer is set. -/
theorem execAll_onCalibrationChanged (order : ReadOrder) {b : Board F}
    (hpublished : b.published = true) (rest : List (Instr F)) (regs : Regs F) :
    execAll Instr.exec 5 b ⟨.onCalibrationChanged order :: rest, regs⟩ =
      some ({ b with joystick := some b.current },
        ⟨rest, ⟨⟨b.store.center, b.store.range, b.store.settings⟩, regs.version⟩⟩) := by
  obtain ⟨boot, store, log, joystick, published, files, answered, center, range⟩ := b
  obtain rfl : published = true := hpublished
  have hfields := order.fields_mem
  simp only [List.mem_cons, List.not_mem_nil, or_false] at hfields
  rcases hfields with h | h | h | h | h | h <;>
    simp only [execAll, Instr.exec, ite_true, h] <;> rfl

/-- An edit alone is the service's atomic one: the store is edited, and what it
then holds is applied. -/
theorem edit_alone (s : Tasks ι F) (i : ι) {change : ConsoleEdit F} (hfires : change.fires = true)
    (order : ReadOrder) (hidle : (s.tasks (.link i)).code = [])
    (hpublished : s.shared.published = true) (device : Device F)
    (hdevice : device.liveJoystick = s.shared.joystick) (hbuilt : s.shared.joystick.isSome) :
    ∃ t, (Tasks.next s (.request i (.edit change order))).bind
        (State.runAlone Instr.exec (.link i) 6) = some t ∧
      (t.tasks (.link i)).code = [] ∧ t.shared.store = change.apply s.shared.store ∧
      t.shared.joystick = (device.onCalibrationChanged t.shared.store).liveJoystick := by
  have hcallback : ∀ store, callback change order store = [.onCalibrationChanged order] := by
    cases change with
    | setManualOffset | setDeadzoneOverride => exact fun _ => rfl
    | setNudgeSettings | setNudgeEnabled | setInputMode => simp [ConsoleEdit.fires] at hfires
  have hrun := execAll_onCalibrationChanged order (b := s.shared.write (.edit change)) hpublished []
    (s.tasks (.link i)).regs
  obtain ⟨joystick, hjoystick⟩ := Option.isSome_iff_exists.mp hbuilt
  simp only [Tasks.next, State.start, hidle, ite_true, Option.bind_some, State.runAlone_eq,
    State.step_self, State.step_shared, ConsoleCall.code, execAll, Instr.exec, hcallback,
    List.append_nil, hrun, Option.map_some]
  refine ⟨_, rfl, by rw [State.step_self], rfl, ?_⟩
  rw [State.step_shared, Device.onCalibrationChanged, hdevice, hjoystick]
  rfl

/-- The steps of a drift correction, after the nudge. -/
theorem execAll_drift (order : ReadOrder) {b : Board F} (hpublished : b.published = true)
    (center : CenterResult F) (regs : Regs F) :
    ∃ regs', execAll Instr.exec 9 b
        ⟨[.setMeasuredCalibration center b.range order, .readBack, .read .settings, .applyLocal],
          regs⟩ =
      let pushed := b.write (.setMeasuredCalibration center b.range)
      some ({ pushed with center := pushed.store.center, joystick := some pushed.current },
        ⟨[], regs'⟩) := by
  obtain ⟨boot, store, log, joystick, published, files, answered, own, range⟩ := b
  obtain rfl : published = true := hpublished
  have hfields := order.fields_mem
  simp only [List.mem_cons, List.not_mem_nil, or_false] at hfields
  rcases hfields with h | h | h | h | h | h <;>
    simp only [execAll, Instr.exec, Board.write, ite_true, h, List.map_cons, List.map_nil,
      List.cons_append, List.nil_append] <;> exact ⟨_, rfl⟩

/-- A drift correction alone is the polling loop's atomic one. -/
theorem drift_alone (s : Tasks ι F) {O : Type*} (w : EspWorld F O)
    (compensator : DriftCompensator F)
    (rawX rawY : F) (order : ReadOrder) (hidle : (s.tasks .loop).code = [])
    (hpublished : s.shared.published = true) (hstore : w.store = s.shared.store) :
    ∃ t, (Tasks.next s (.loop (.drift compensator rawX rawY false order))).bind
        (State.runAlone Instr.exec .loop 9) = some t ∧
      (t.tasks .loop).code = [] ∧
      let (center, w') := w.applyDrift (compensator.nudge rawX rawY s.shared.center) s.shared.range
      t.shared.center = center ∧ t.shared.store = w'.store ∧
        t.shared.joystick = w'.outside.liveJoystick := by
  obtain ⟨regs, hrun⟩ := execAll_drift order
    (b := { s.shared with center := compensator.nudge rawX rawY s.shared.center }) hpublished
    (compensator.nudge rawX rawY s.shared.center) (s.tasks .loop).regs
  simp only [Tasks.next, LoopCall.begin, State.start, hidle, ite_true, Option.bind_some,
    State.runAlone_eq, State.step_self, State.step_shared, Bool.false_eq_true, ite_false,
    List.append_nil]
  refine ⟨_, congrArg (Option.map _) hrun, by rw [State.step_self], ?_⟩
  simp only [State.step_shared, EspWorld.applyDrift, EspWorld.setMeasuredCalibration, hstore]
  exact ⟨rfl, rfl, rfl⟩

/-! ## Built from old copies -/

/-- The joystick is built with nothing in between, and has what the store holds. -/
theorem joystick_agrees_buildOnly :
    ∃ s, runOption Tasks.next bootedTasks (List.replicate 3 (.run .loop)) = some s ∧
      s.shared.joystick = some s.shared.current := by
  obtain ⟨s₁, hread⟩ : ∃ s, Tasks.next bootedTasks (.run .loop) = some s := ⟨_, rfl⟩
  obtain ⟨s₂, hbuild⟩ : ∃ s, Tasks.next s₁ (.run .loop) = some s := by
    obtain rfl := Option.some.inj hread
    exact ⟨_, rfl⟩
  obtain ⟨s₃, hpublish⟩ : ∃ s, Tasks.next s₂ (.run .loop) = some s := by
    obtain rfl := Option.some.inj hread
    obtain rfl := Option.some.inj hbuild
    exact ⟨_, rfl⟩
  let o₁ := Outdated.boot.next bootedTasks (.run .loop)
  let o₂ := o₁.next s₁ (.run .loop)
  have hguards : Observed.AppliesUnchanged ⟨bootedTasks, .boot⟩ (.run .loop) ∧
      Observed.AppliesUnchanged ⟨s₁, o₁⟩ (.run .loop) ∧
      Observed.AppliesUnchanged ⟨s₂, o₂⟩ (.run .loop) := by
    obtain rfl := Option.some.inj hread
    obtain rfl := Option.some.inj hbuild
    exact ⟨trivial, .inr fun field => by cases field <;> rfl, trivial⟩
  have hreachable : Observed.unchangedTasks.Reachable ⟨s₃, o₂.next s₂ (.run .loop)⟩ :=
    .step (.step (.step (.init ⟨bootedTasks_booted, rfl⟩) ⟨⟨hread, rfl⟩, hguards.1⟩)
      ⟨⟨hbuild, rfl⟩, hguards.2.1⟩) ⟨⟨hpublish, rfl⟩, hguards.2.2⟩
  have hquiet : s₃.Quiescent := by
    obtain rfl := Option.some.inj hread
    obtain rfl := Option.some.inj hbuild
    obtain rfl := Option.some.inj hpublish
    intro id
    rcases id with _ | _ | _ <;> rfl
  refine ⟨s₃, ?_, Observed.joystick_agrees.2.1 hreachable hquiet⟩
  simp only [List.replicate, runOption, hread, hbuild, hpublish, Option.bind_some]

/-- An offset is set before the joystick is built from the copies made at boot. -/
def editBeforeBuild : List (TaskStep LinkId ℚ) :=
  [.request .vendor (.edit (.setManualOffset 3 4) readInOrder), .run (.link .vendor),
    .run (.link .vendor), .run .loop, .run .loop, .run .loop]

theorem not_joystick_agrees :
    ¬ ∀ s : Tasks LinkId ℚ, tasks.Reachable s → s.Quiescent →
      s.shared.joystick = some s.shared.current := by
  obtain ⟨s, hs⟩ : ∃ s, runOption Tasks.next bootedTasks editBeforeBuild = some s := ⟨_, rfl⟩
  obtain ⟨_, hpath⟩ := path_of_runOption Tasks.Booted hs
  intro hclaim
  have hagrees := hclaim s (hpath.reachable (.init bootedTasks_booted))
  obtain rfl := Option.some.inj hs
  have hsame := hagrees fun id => by rcases id with _ | _ | _ <;> rfl
  have hcenter := congrArg (Option.map fun joystick => joystick.x.center) hsame
  revert hcenter
  decide +kernel

end OmegaStick
