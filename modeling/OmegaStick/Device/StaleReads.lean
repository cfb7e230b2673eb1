import Mathlib.Data.List.TakeWhile
import OmegaStick.Device.StoreOrder

/-!
# What was changed after it was read

A task reads the store member by member and applies what it read later; the loop
also keeps copies of its own, from boot on.  `Outdated` records of a run which of
these the store's changes have overtaken since, by the order of the steps alone.

`Tied` is what that order says of the values: a member that was not changed since
it was read is what the store holds, and so is what the joystick has, when nothing
that was applied to it was changed since (`tied_of_reachable`).
-/

namespace OmegaStick

open Interleaving TransitionSystem

variable {ι F : Type*}

/-! ## The order of reads and changes -/

/-- The members a change touches, as far as a calibration of the joystick goes. -/
def StoreWrite.touches (write : StoreWrite F) (field : StoreField) : Bool :=
  match write, field with
  | .edit (.setManualOffset ..), .center => true
  | .edit (.setDeadzoneOverride ..), .settings => true
  | .setMeasuredCalibration .., .center | .setMeasuredCalibration .., .range => true
  | _, _ => false

/-- The members of the store that were changed after they were read: into the registers of a
task, into the loop's copies, and for what was last applied to the joystick. -/
structure Outdated (ι : Type*) where
  read : TaskId ι → StoreField → Bool
  copies : StoreField → Bool
  joystick : StoreField → Bool

namespace Outdated

/-- The loop's copies were made at boot; nothing else is read yet. -/
def boot : Outdated ι := ⟨fun _ _ => true, fun _ => false, fun _ => true⟩

def change (o : Outdated ι) (write : StoreWrite F) : Outdated ι where
  read id field := o.read id field || write.touches field
  copies field := o.copies field || write.touches field
  joystick field := o.joystick field || write.touches field

/-- What the loop applies: its own center and range, with the settings read. -/
def ofLoop (o : Outdated ι) (id : TaskId ι) : StoreField → Bool
  | .settings => o.read id .settings
  | .center => o.copies .center
  | .range => o.copies .range

variable [DecidableEq ι]

def exec (o : Outdated ι) (id : TaskId ι) : Instr F → Outdated ι
  | .edit change _ => o.change (.edit change)
  | .setMeasuredCalibration center range _ =>
      -- the range it pushes is the loop's own
      let o := o.change (.setMeasuredCalibration center range)
      { o with copies := Function.update o.copies .range false }
  | .read field =>
      { o with read := Function.update o.read id (Function.update (o.read id) field false) }
  | .readBack => { o with copies := Function.update o.copies .center false }
  | .apply => { o with joystick := o.read id }
  | .applyLocal | .build => { o with joystick := o.ofLoop id }
  | .onCalibrationChanged _ | .publish | .snapshot | .write _ | .answer => o

/-- What a step leaves outdated. -/
def next (o : Outdated ι) (s : Tasks ι F) : TaskStep ι F → Outdated ι
  | .run id =>
      match (s.tasks id).code with
      | [] => o
      | instr :: _ => o.exec id instr
  | .request .. | .loop _ | .fail _ => o

end Outdated

/-- The tasks, and what their run so far has outdated. -/
structure Observed (ι F : Type*) where
  tasks : Tasks ι F
  outdated : Outdated ι

/-- Every interleaving, with what it outdates. -/
def observedTasks [MachineFloat F] [DecidableEq ι] :
    TransitionSystem (Observed ι F) (TaskStep ι F) where
  init w := w.tasks.Booted ∧ w.outdated = .boot
  step w step w' :=
    w.tasks.next step = some w'.tasks ∧ w'.outdated = w.outdated.next w.tasks step

section Observe

variable [MachineFloat F] [DecidableEq ι]

/-- Every run is observed. -/
theorem observed_of_reachable {s : Tasks ι F} (hs : tasks.Reachable s) :
    ∃ o, observedTasks.Reachable ⟨s, o⟩ := by
  induction hs with
  | init h => exact ⟨.boot, .init ⟨h, rfl⟩⟩
  | @step s t step _ ht ih =>
      obtain ⟨o, ho⟩ := ih
      exact ⟨o.next s step, .step ho ⟨ht, rfl⟩⟩

end Observe

/-! ## The members of two stores -/

/-- Two stores have the same member, as far as a calibration of the joystick goes. -/
def SameField (field : StoreField) (a b : OmegaStore F) : Prop :=
  match field with
  | .center => a.center = b.center
  | .range => a.range = b.range
  | .settings => a.settings.manualCenterDeadzone = b.settings.manualCenterDeadzone ∧
      a.settings.manualRangeDeadzone = b.settings.manualRangeDeadzone

theorem SameField.refl (field : StoreField) (store : OmegaStore F) :
    SameField field store store := by
  cases field with
  | center | range => rfl
  | settings => exact ⟨rfl, rfl⟩

theorem SameField.trans {field : StoreField} {a b c : OmegaStore F} (h : SameField field a b)
    (h' : SameField field b c) : SameField field a c := by
  cases field with
  | center | range => exact Eq.trans h h'
  | settings => exact ⟨h.1.trans h'.1, h.2.trans h'.2⟩

/-- A change leaves the members alone that it does not touch. -/
theorem sameField_apply (write : StoreWrite F) {field : StoreField}
    (h : write.touches field = false) (store : OmegaStore F) :
    SameField field store (write.apply store) := by
  cases write with
  | setMeasuredCalibration center range =>
      cases field with
      | center | range => simp [StoreWrite.touches] at h
      | settings => exact ⟨rfl, rfl⟩
  | edit change =>
      cases field with
      | range => exact (ConsoleEdit.apply_range change store).symm
      | center =>
          refine Eq.trans ?_ (ConsoleEdit.apply_center change store).symm
          cases change with
          | setManualOffset => simp [StoreWrite.touches] at h
          | setDeadzoneOverride | setNudgeSettings | setNudgeEnabled | setInputMode => rfl
      | settings =>
          cases change with
          | setDeadzoneOverride => simp [StoreWrite.touches] at h
          | setManualOffset | setNudgeSettings | setNudgeEnabled => exact ⟨rfl, rfl⟩
          | setInputMode mode =>
              simp only [StoreWrite.apply, ConsoleEdit.apply, OmegaStore.setInputMode]
              split <;> exact ⟨rfl, rfl⟩

/-- A calibration is made of these members. -/
theorem applyCalibration_congr [MachineFloat F] {a b : OmegaStore F}
    (h : ∀ field, SameField field a b) :
    applyCalibration a.center a.range a.settings =
      applyCalibration b.center b.range b.settings := by
  have hcenter : a.center = b.center := h .center
  have hrange : a.range = b.range := h .range
  obtain ⟨hcenterDeadzone, hrangeDeadzone⟩ := h .settings
  simp only [applyCalibration, DeviceSettings.effectiveCenterDeadzone,
    DeviceSettings.effectiveRangeDeadzone, hcenter, hrange, hcenterDeadzone, hrangeDeadzone]

/-! ## The loop's copies -/

namespace Instr

def readsBack : Instr F → Bool
  | .readBack => true
  | _ => false

/-- The loop's copies are applied. -/
def appliesCopies : Instr F → Bool
  | .applyLocal | .build => true
  | _ => false

/-- Only the loop does this. -/
def ofLoop (instr : Instr F) : Bool := instr.pushes || instr.readsBack || instr.appliesCopies

/-- What an instruction puts before the rest is none of the loop's own. -/
theorem ofLoop_exec [MachineFloat F] (instr : Instr F) (b : Board F) (regs : Regs F) :
    ∀ more ∈ (instr.exec b regs).2.2, more.ofLoop = false := by
  have hreads : ∀ order : ReadOrder,
      ∀ more ∈ order.fields.map Instr.read ++ [Instr.apply (F := F)], more.ofLoop = false := by
    intro order more hmore
    simp only [List.mem_append, List.mem_map, List.mem_singleton] at hmore
    rcases hmore with ⟨field, -, rfl⟩ | rfl <;> rfl
  cases instr with
  | edit change order =>
      cases change with
      | setInputMode mode =>
          simp only [exec, callback, saveToFlash]
          split <;> simp [ofLoop, pushes, readsBack, appliesCopies]
      | setManualOffset | setDeadzoneOverride | setNudgeSettings | setNudgeEnabled =>
          simp [exec, callback, ofLoop, pushes, readsBack, appliesCopies]
  | onCalibrationChanged order =>
      simp only [exec]
      split
      · exact hreads order
      · simp
  | setMeasuredCalibration | read | apply | readBack | applyLocal | build | publish | snapshot
  | write | answer => simp [exec, ofLoop, pushes, readsBack, appliesCopies]

end Instr

/-- The loop's copies are not to be refreshed any more when they are applied. -/
def RefreshedFirst : List (Instr F) → Prop
  | [] => True
  | instr :: rest =>
      (instr.appliesCopies = true →
        ∀ later ∈ rest, later.pushes = false ∧ later.readsBack = false) ∧ RefreshedFirst rest

theorem RefreshedFirst.append {more rest : List (Instr F)}
    (hmore : ∀ instr ∈ more, instr.ofLoop = false) (h : RefreshedFirst rest) :
    RefreshedFirst (more ++ rest) := by
  induction more with
  | nil => exact h
  | cons instr more ih =>
      rw [List.forall_mem_cons] at hmore
      refine ⟨fun happlies => ?_, ih hmore.2⟩
      simp [Instr.ofLoop, happlies] at hmore

theorem RefreshedFirst.dropWhile {code : List (Instr F)} (h : RefreshedFirst code)
    (p : Instr F → Bool) : RefreshedFirst (code.dropWhile p) := by
  induction code with
  | nil => exact h
  | cons instr code ih =>
      rw [List.dropWhile_cons]
      split
      · exact ih h.2
      · exact h

theorem LoopCall.refreshedFirst_begin [MachineFloat F] (call : LoopCall F) (b : Board F) :
    RefreshedFirst (call.begin b).2 := by
  cases call with
  | sweep => simp [begin, saveToFlash, RefreshedFirst, Instr.appliesCopies]
  | drift compensator rawX rawY save order =>
      cases save <;> simp [begin, saveToFlash, RefreshedFirst, Instr.appliesCopies, Instr.pushes,
        Instr.readsBack]

/-- A call of the loop pushes the range that it leaves. -/
theorem LoopCall.range_of_mem_begin [MachineFloat F] (call : LoopCall F) {b : Board F}
    {center : CenterResult F} {range : RangeResult F} {order : ReadOrder}
    (h : .setMeasuredCalibration center range order ∈ (call.begin b).2) :
    range = (call.begin b).1.range := by
  have hpushed : ∀ instr ∈ (call.begin b).2, ∀ center range order,
      instr = .setMeasuredCalibration center range order → range = (call.begin b).1.range := by
    cases call with
    | sweep => simp [begin, saveToFlash]
    | drift compensator rawX rawY save order => cases save <;> simp [begin, saveToFlash]
  exact hpushed _ h _ _ _ rfl

namespace Tasks

/-- The loop alone works on its copies: what it pushes is its own range. -/
structure OwnCopies (s : Tasks ι F) : Prop where
  link : ∀ i, ∀ instr ∈ (s.tasks (.link i)).code, instr.ofLoop = false
  order : RefreshedFirst (s.tasks .loop).code
  pushed : ∀ center range order, .setMeasuredCalibration center range order ∈
    (s.tasks .loop).code → range = s.shared.range

section Steps

variable [DecidableEq ι] {s t : Tasks ι F}

/-- A step that puts nothing of the loop's own before what is left of a task's code. -/
theorem OwnCopies.step (h : s.OwnCopies) {id : TaskId ι} {b : Board F}
    {task : Task (Instr F) (Regs F)} {more rest : List (Instr F)}
    (hrange : b.range = s.shared.range)
    (hcode : task.code = more ++ rest) (hmore : ∀ instr ∈ more, instr.ofLoop = false)
    (hrest : rest <:+ (s.tasks id).code) : OwnCopies (s.step id b task) where
  link i := by
    intro instr hinstr
    by_cases hid : TaskId.link i = id
    · subst hid
      rw [State.step_self, hcode, List.mem_append] at hinstr
      exact hinstr.elim (hmore instr) fun hmem => h.link i instr (hrest.subset hmem)
    · rw [State.step_of_ne s hid] at hinstr
      exact h.link i instr hinstr
  order := by
    by_cases hid : TaskId.loop = id
    · subst hid
      rw [State.step_self, hcode]
      refine .append hmore ?_
      obtain ⟨before, hbefore⟩ := hrest
      have horder := h.order
      rw [← hbefore] at horder
      clear hbefore
      induction before with
      | nil => exact horder
      | cons instr before ih => exact ih horder.2
    · rw [State.step_of_ne s hid]
      exact h.order
  pushed center range order hmem := by
    rw [State.step_shared, hrange]
    by_cases hid : TaskId.loop = id
    · subst hid
      rw [State.step_self, hcode, List.mem_append] at hmem
      rcases hmem with hmem | hmem
      · simpa [Instr.ofLoop, Instr.pushes] using hmore _ hmem
      · exact h.pushed center range order (hrest.subset hmem)
    · rw [State.step_of_ne s hid] at hmem
      exact h.pushed center range order hmem

variable [MachineFloat F]

theorem OwnCopies.next (h : s.OwnCopies) {step : TaskStep ι F} (ht : s.next step = some t) :
    t.OwnCopies := by
  cases taken_of_next ht with
  | request i call hidle heq =>
      subst heq
      refine h.step rfl (List.append_nil _).symm ?_ List.nil_suffix
      cases call with
      | edit | saveToFlash => simp [ConsoleCall.code, saveToFlash, Instr.ofLoop, Instr.pushes,
          Instr.readsBack, Instr.appliesCopies]
  | loop call hidle heq =>
      subst heq
      refine ⟨fun i => ?_, ?_, ?_⟩
      · rw [State.step_of_ne s (by simp)]
        exact h.link i
      · rw [State.step_self]
        exact call.refreshedFirst_begin s.shared
      · rw [State.step_self, State.step_shared]
        exact fun center range order => call.range_of_mem_begin
  | fail id file rest hcode heq =>
      subst heq
      refine h.step rfl (List.nil_append _).symm (by simp) ?_
      rw [hcode]
      exact (List.dropWhile_suffix _).trans (List.suffix_cons _ _)
  | run id instr rest hcode heq =>
      subst heq
      have hrange : (instr.exec s.shared (s.tasks id).regs).1.range = s.shared.range := by
        cases instr <;> rfl
      exact h.step hrange (by rfl) (instr.ofLoop_exec s.shared (s.tasks id).regs)
        (hcode ▸ List.suffix_cons _ _)

omit [DecidableEq ι] [MachineFloat F] in
theorem OwnCopies.of_booted (h : s.Booted) : s.OwnCopies where
  link i := by simp [h.link i]
  order := by simp [h.loop, buildJoystick, RefreshedFirst, Instr.appliesCopies, Instr.pushes,
    Instr.readsBack]
  pushed := by simp [h.loop, buildJoystick]

end Steps

end Tasks

/-! ## What the order says of the values -/

namespace Observed

/-- A member that was not changed since it was read is what the store holds, and so is what
the joystick has when nothing was changed since. -/
structure Tied [MachineFloat F] (w : Observed ι F) : Prop where
  read : ∀ id field, w.outdated.read id field = false →
    SameField field (w.tasks.tasks id).regs.read w.tasks.shared.store
  center : w.outdated.copies .center = false →
    (∀ instr ∈ (w.tasks.tasks .loop).code, instr.readsBack = false) →
      w.tasks.shared.center = w.tasks.shared.store.center
  range : w.outdated.copies .range = false →
    (∀ instr ∈ (w.tasks.tasks .loop).code, instr.pushes = false) →
      w.tasks.shared.range = w.tasks.shared.store.range
  joystick : (∀ field, w.outdated.joystick field = false) →
    w.tasks.shared.joystick = some w.tasks.shared.current

section Steps

variable [DecidableEq ι] {s t : Tasks ι F} {o o' : Outdated ι} {id : TaskId ι} {b : Board F}
  {task : Task (Instr F) (Regs F)}

/-- The loop has no such instruction after a step that takes only others away. -/
theorem forall_loop_of_step {p : Instr F → Bool}
    (hcode : ∀ instr ∈ (s.tasks id).code, instr ∈ task.code ∨ p instr = false)
    (h : ∀ instr ∈ ((s.step id b task).tasks .loop).code, p instr = false) :
    ∀ instr ∈ (s.tasks .loop).code, p instr = false := by
  intro instr hinstr
  by_cases hid : TaskId.loop = id
  · subst hid
    rw [State.step_self] at h
    exact (hcode instr hinstr).elim (h instr) fun hp => hp
  · rw [State.step_of_ne s hid] at h
    exact h instr hinstr

variable [MachineFloat F]

theorem Tied.of_step
    (hself : ∀ field, o'.read id field = false → SameField field task.regs.read b.store)
    (hother : ∀ other, other ≠ id → ∀ field, o'.read other field = false →
      SameField field (s.tasks other).regs.read b.store)
    (hcenter : o'.copies .center = false →
      (∀ instr ∈ ((s.step id b task).tasks .loop).code, instr.readsBack = false) →
        b.center = b.store.center)
    (hrange : o'.copies .range = false →
      (∀ instr ∈ ((s.step id b task).tasks .loop).code, instr.pushes = false) →
        b.range = b.store.range)
    (hjoystick : (∀ field, o'.joystick field = false) → b.joystick = some b.current) :
    Tied ⟨s.step id b task, o'⟩ where
  read other field hread := by
    by_cases hid : other = id
    · subst hid
      simpa using hself field hread
    · simpa [State.step_of_ne s hid] using hother other hid field hread
  center := hcenter
  range := hrange
  joystick := hjoystick

/-- A step that leaves the store and the copies alone: it may read, and apply. -/
theorem Tied.step_read (h : Tied ⟨s, o⟩) (hstore : b.store = s.shared.store)
    (hcenter : b.center = s.shared.center) (hrange : b.range = s.shared.range)
    (hcode : ∀ instr ∈ (s.tasks id).code,
      instr ∈ task.code ∨ instr.pushes = false ∧ instr.readsBack = false)
    (hcopies : o'.copies = o.copies) (hother : ∀ other, other ≠ id → o'.read other = o.read other)
    (hself : ∀ field, o'.read id field = false → SameField field task.regs.read s.shared.store)
    (hjoystick : (∀ field, o'.joystick field = false) → b.joystick = some s.shared.current) :
    Tied ⟨s.step id b task, o'⟩ := by
  have hcurrent : b.current = s.shared.current := by rw [Board.current, hstore, Board.current]
  refine .of_step ?_ ?_ ?_ ?_ ?_
  · rwa [hstore]
  · intro other hid field hread
    rw [hother other hid] at hread
    rw [hstore]
    exact h.read other field hread
  · intro hfresh hnone
    rw [hcopies] at hfresh
    rw [hcenter, hstore]
    exact h.center hfresh
      (forall_loop_of_step (fun instr hmem => (hcode instr hmem).imp_right (·.2)) hnone)
  · intro hfresh hnone
    rw [hcopies] at hfresh
    rw [hrange, hstore]
    exact h.range hfresh
      (forall_loop_of_step (fun instr hmem => (hcode instr hmem).imp_right (·.1)) hnone)
  · rwa [hcurrent]

/-- A step that changes nothing that is observed. -/
theorem Tied.step_same (h : Tied ⟨s, o⟩) (hstore : b.store = s.shared.store)
    (hcenter : b.center = s.shared.center) (hrange : b.range = s.shared.range)
    (hjoystick : b.joystick = s.shared.joystick)
    (hcode : ∀ instr ∈ (s.tasks id).code,
      instr ∈ task.code ∨ instr.pushes = false ∧ instr.readsBack = false)
    (hregs : task.regs.read = (s.tasks id).regs.read ∨ task.regs.read = s.shared.store) :
    Tied ⟨s.step id b task, o⟩ := by
  refine h.step_read hstore hcenter hrange hcode rfl (fun _ _ => rfl) ?_
    fun hfresh => hjoystick.trans (h.joystick hfresh)
  intro field hread
  rcases hregs with hregs | hregs <;> rw [hregs]
  · exact h.read id field hread
  · exact .refl field _

/-- A change of the store, without what the loop's copies are then. -/
theorem Tied.step_write (h : Tied ⟨s, o⟩) (write : StoreWrite F)
    (hregs : task.regs = (s.tasks id).regs) {copies : StoreField → Bool}
    (hcenter : copies .center = false →
      (∀ instr ∈ ((s.step id (s.shared.write write) task).tasks .loop).code,
        instr.readsBack = false) → s.shared.center = (write.apply s.shared.store).center)
    (hrange : copies .range = false →
      (∀ instr ∈ ((s.step id (s.shared.write write) task).tasks .loop).code,
        instr.pushes = false) → s.shared.range = (write.apply s.shared.store).range) :
    Tied ⟨s.step id (s.shared.write write) task, { o.change write with copies := copies }⟩ := by
  have hread : ∀ other field, (o.change write).read other field = false →
      SameField field (s.tasks other).regs.read (write.apply s.shared.store) := by
    intro other field hfresh
    obtain ⟨hfresh, htouches⟩ := Bool.or_eq_false_iff.mp hfresh
    exact (h.read other field hfresh).trans (sameField_apply write htouches _)
  refine .of_step ?_ (fun other _ => hread other) hcenter hrange ?_
  · rw [hregs]
    exact hread id
  · intro hfresh
    have hsame : ∀ field, SameField field s.shared.store (write.apply s.shared.store) :=
      fun field => sameField_apply write (Bool.or_eq_false_iff.mp (hfresh field)).2 _
    have hjoystick := h.joystick fun field => (Bool.or_eq_false_iff.mp (hfresh field)).1
    exact hjoystick.trans (congrArg some (applyCalibration_congr hsame))

omit [DecidableEq ι] in
/-- What the callback applies, when nothing of it is outdated. -/
theorem Tied.calibration (h : Tied ⟨s, o⟩) (hfresh : ∀ field, o.read id field = false) :
    (s.tasks id).regs.calibration = s.shared.current :=
  applyCalibration_congr fun field => h.read id field (hfresh field)

omit [DecidableEq ι] in
/-- And what the loop applies, with its copies. -/
theorem Tied.loopCalibration (h : Tied ⟨s, o⟩) {instr : Instr F} {rest : List (Instr F)}
    (hcode : (s.tasks .loop).code = instr :: rest) (happlies : instr.appliesCopies = true)
    (horder : RefreshedFirst (s.tasks .loop).code)
    (hfresh : ∀ field, o.ofLoop .loop field = false) :
    s.shared.loopCalibration (s.tasks .loop).regs = s.shared.current := by
  rw [hcode] at horder
  have hdone : ∀ later ∈ (s.tasks .loop).code, later.pushes = false ∧ later.readsBack = false := by
    rw [hcode, List.forall_mem_cons]
    refine ⟨?_, horder.1 happlies⟩
    cases instr <;> first | exact ⟨rfl, rfl⟩ | simp [Instr.appliesCopies] at happlies
  have hcenter := h.center (hfresh .center) fun later hmem => (hdone later hmem).2
  have hrange := h.range (hfresh .range) fun later hmem => (hdone later hmem).1
  refine applyCalibration_congr (a := ⟨_, _, _⟩) fun field => ?_
  cases field with
  | center => exact hcenter
  | range => exact hrange
  | settings => exact h.read .loop .settings (hfresh .settings)

omit [DecidableEq ι] [MachineFloat F] in
/-- The instruction that runs is the only one taken away. -/
theorem mem_or_done_of_cons {code rest : List (Instr F)} {instr : Instr F}
    (more : List (Instr F)) (hcode : code = instr :: rest)
    (hdone : instr.pushes = false ∧ instr.readsBack = false) :
    ∀ later ∈ code, later ∈ more ++ rest ∨ later.pushes = false ∧ later.readsBack = false := by
  rw [hcode, List.forall_mem_cons]
  exact ⟨.inr hdone, fun later hmem => .inl (List.mem_append_right more hmem)⟩

/-- **One step** keeps the values tied to the order. -/
theorem Tied.next (h : Tied ⟨s, o⟩) (hown : s.OwnCopies) {step : TaskStep ι F}
    (ht : s.next step = some t) : Tied ⟨t, o.next s step⟩ := by
  cases taken_of_next ht with
  | request i call hidle heq =>
      subst heq
      exact h.step_same rfl rfl rfl rfl (by simp [hidle]) (.inl rfl)
  | loop call hidle heq =>
      -- the copies it changes are read back, or pushed, before they are applied
      subst heq
      have hboard := call.begin_store s.shared
      have hjoystick : (call.begin s.shared).1.joystick = s.shared.joystick := by
        cases call <;> rfl
      have hcode : .readBack ∈ (call.begin s.shared).2 ∧
          ∃ instr ∈ (call.begin s.shared).2, instr.pushes = true := by
        cases call with
        | drift => exact ⟨by simp [LoopCall.begin], _, List.mem_cons_self, rfl⟩
        | sweep => exact ⟨by simp [LoopCall.begin], _, List.mem_cons_self, rfl⟩
      refine .of_step ?_ ?_ ?_ ?_ ?_
      · intro field hread
        rw [hboard.2.1]
        exact h.read .loop field hread
      · intro other _ field hread
        rw [hboard.2.1]
        exact h.read other field hread
      · intro _ hnone
        rw [State.step_self] at hnone
        exact absurd (hnone _ hcode.1) (by simp [Instr.readsBack])
      · intro _ hnone
        obtain ⟨instr, hmem, hpushes⟩ := hcode.2
        rw [State.step_self] at hnone
        exact absurd (hnone instr hmem) (by simp [hpushes])
      · intro hfresh
        rw [hjoystick, h.joystick hfresh, Board.current, Board.current, hboard.2.1]
  | fail id file rest hcode heq =>
      subst heq
      refine h.step_same rfl rfl rfl rfl ?_ (.inl rfl)
      rw [hcode, List.forall_mem_cons]
      refine ⟨.inr ⟨rfl, rfl⟩, fun instr hmem => ?_⟩
      rw [← List.takeWhile_append_dropWhile (p := Instr.ofSave) (l := rest),
        List.mem_append] at hmem
      refine hmem.symm.imp_right fun htaken => ?_
      have hsave := List.mem_takeWhile_imp htaken
      cases instr <;> first | exact ⟨rfl, rfl⟩ | simp [Instr.ofSave] at hsave
  | run id instr rest hcode heq =>
      subst heq
      have hnext : o.next s (.run id) = o.exec id instr := by simp only [Outdated.next, hcode]
      rw [hnext]
      -- what only the loop does, the loop does
      have hloop : instr.ofLoop = true → id = .loop := by
        intro hof
        cases id with
        | loop => rfl
        | link i => simp [hown.link i instr (hcode ▸ List.mem_cons_self)] at hof
      cases instr with
      | edit change order =>
          -- a change that does not touch a member leaves the copies of it as good as they were
          have hcopies : ∀ {field}, (o.change (.edit change)).copies field = false →
              o.copies field = false ∧ (StoreWrite.edit change).touches field = false :=
            Bool.or_eq_false_iff.mp
          have hdone :=
            mem_or_done_of_cons (callback change order s.shared.store) hcode ⟨rfl, rfl⟩
          refine h.step_write (.edit change) (by rfl) ?_ ?_
          · intro hfresh hnone
            obtain ⟨hfresh, htouches⟩ := hcopies hfresh
            refine (h.center hfresh ?_).trans
              (sameField_apply (.edit change) htouches s.shared.store)
            exact forall_loop_of_step (fun instr hmem => (hdone instr hmem).imp_right (·.2)) hnone
          · intro hfresh hnone
            obtain ⟨hfresh, htouches⟩ := hcopies hfresh
            refine (h.range hfresh ?_).trans
              (sameField_apply (.edit change) htouches s.shared.store)
            exact forall_loop_of_step (fun instr hmem => (hdone instr hmem).imp_right (·.1)) hnone
      | setMeasuredCalibration center range order =>
          obtain rfl := hloop rfl
          have hrange := hown.pushed center range order (hcode ▸ List.mem_cons_self)
          refine h.step_write (.setMeasuredCalibration center range) (by rfl) ?_ ?_
          · intro hfresh
            simp [Outdated.change, StoreWrite.touches] at hfresh
          · exact fun _ _ => hrange.symm
      | onCalibrationChanged order =>
          exact h.step_same rfl rfl rfl rfl (mem_or_done_of_cons _ hcode ⟨rfl, rfl⟩) (.inl rfl)
      | publish | write | answer =>
          exact h.step_same rfl rfl rfl rfl (mem_or_done_of_cons _ hcode ⟨rfl, rfl⟩) (.inl rfl)
      | snapshot =>
          exact h.step_same rfl rfl rfl rfl (mem_or_done_of_cons _ hcode ⟨rfl, rfl⟩) (.inr rfl)
      | read field =>
          refine h.step_read rfl rfl rfl (mem_or_done_of_cons _ hcode ⟨rfl, rfl⟩) rfl ?_ ?_
            h.joystick
          · exact fun other hid => Function.update_of_ne hid _ _
          · intro other hfresh
            have hread : Function.update (o.read id) field false other = false := by
              simpa [Outdated.exec] using hfresh
            by_cases hfield : other = field
            · subst hfield
              cases other with
              | center | range => rfl
              | settings => exact ⟨rfl, rfl⟩
            · rw [Function.update_of_ne hfield] at hread
              have hold := h.read id other hread
              cases field <;> cases other <;> first | exact absurd rfl hfield | exact hold
      | readBack =>
          obtain rfl := hloop rfl
          refine .of_step (h.read .loop) (fun other _ => h.read other) (fun _ _ => rfl) ?_
            h.joystick
          intro hfresh hnone
          refine h.range ?_ ?_
          · simpa [Outdated.exec] using hfresh
          · rw [hcode, List.forall_mem_cons]
            rw [State.step_self] at hnone
            exact ⟨rfl, hnone⟩
      | apply =>
          refine h.step_read rfl rfl rfl (mem_or_done_of_cons _ hcode ⟨rfl, rfl⟩) rfl
            (fun _ _ => rfl) (h.read id) fun hfresh => ?_
          exact congrArg some (h.calibration hfresh)
      | applyLocal | build =>
          obtain rfl := hloop rfl
          refine h.step_read rfl rfl rfl (mem_or_done_of_cons _ hcode ⟨rfl, rfl⟩) rfl
            (fun _ _ => rfl) (h.read _) fun hfresh => ?_
          exact congrArg some (h.loopCalibration hcode rfl hown.order hfresh)

/-- **In every run** the values are tied to the order. -/
theorem tied_of_reachable {w : Observed ι F} (hw : observedTasks.Reachable w) :
    w.tasks.OwnCopies ∧ w.Tied := by
  refine Reachable.invariant (I := fun w => w.tasks.OwnCopies ∧ w.Tied) ?_ ?_ hw
  · rintro ⟨s, o⟩ ⟨hbooted, ho⟩
    obtain rfl : o = .boot := ho
    refine ⟨.of_booted hbooted, ?_, fun _ _ => ?_, fun _ _ => ?_, fun hfresh => ?_⟩
    · simp [Outdated.boot]
    · rw [hbooted.center, hbooted.store]
    · rw [hbooted.range, hbooted.store]
    · exact Bool.noConfusion (hfresh .center)
  · rintro ⟨s, o⟩ step ⟨t, o'⟩ ⟨hown, htied⟩ ⟨ht, ho⟩
    obtain rfl : o' = o.next s step := ho
    exact ⟨hown.next ht, htied.next hown ht⟩

end Steps

end Observed

end OmegaStick
