import OmegaStick.Device.Tasks
import OmegaStick.Device.Wiring

/-!
# Whose part of the calibration is whose

The manual offset belongs to the console, the measured center and range to the
loop.  The loop pushes its whole copy, offset included, and reads it back in a
separate step, so an edit can land anywhere in between; the store keeps the two
parts apart.

The store is always its boot value with every change made since applied in
order, so this is a fact about lists of changes (`center_storeAfter`).
-/

namespace OmegaStick

open Interleaving TransitionSystem

variable {ι F : Type*}

/-! ## The last of each -/

/-- The last SET_MANUAL_OFFSET, or the boot value. -/
def lastOffset (boot : OmegaStore F) (log : List (StoreWrite F)) : F × F :=
  log.foldl (fun offset write =>
    match write with
    | .edit (.setManualOffset x y) => (x, y)
    | _ => offset) boot.center.manualOffset

/-- What the loop pushed last, or the boot values. -/
def lastPush (boot : OmegaStore F) (log : List (StoreWrite F)) : CenterResult F × RangeResult F :=
  log.foldl (fun push write =>
    match write with
    | .setMeasuredCalibration center range => (center, range)
    | _ => push) (boot.center, boot.range)

theorem storeAfter_append (boot : OmegaStore F) (log : List (StoreWrite F))
    (write : StoreWrite F) :
    storeAfter boot (log ++ [write]) = write.apply (storeAfter boot log) := by
  simp [storeAfter]

/-- The store's center is what the loop pushed last, with the last offset. -/
theorem center_storeAfter (boot : OmegaStore F) (log : List (StoreWrite F)) :
    (storeAfter boot log).center = (lastPush boot log).1.setManualOffset (lastOffset boot log).1
      (lastOffset boot log).2 := by
  induction log using List.reverseRecOn with
  | nil => rfl
  | append_singleton log write ih =>
      have hpush : (lastPush boot log).1.setManualOffset (storeAfter boot log).center.manualOffsetX
          (storeAfter boot log).center.manualOffsetY = (storeAfter boot log).center := by
        rw [ih]
        rfl
      rw [storeAfter_append, lastPush, lastOffset, List.foldl_append, List.foldl_append]
      cases write with
      | edit change =>
          rw [StoreWrite.apply, ConsoleEdit.apply_center]
          cases change with
          | setManualOffset x y => rw [ih]; rfl
          | setDeadzoneOverride | setNudgeSettings | setNudgeEnabled | setInputMode => exact ih
      | setMeasuredCalibration center range =>
          change center.setManualOffset _ _ = center.setManualOffset _ _
          rw [ih]
          rfl

theorem range_storeAfter (boot : OmegaStore F) (log : List (StoreWrite F)) :
    (storeAfter boot log).range = (lastPush boot log).2 := by
  induction log using List.reverseRecOn with
  | nil => rfl
  | append_singleton log write ih =>
      rw [storeAfter_append, lastPush, List.foldl_append]
      cases write with
      | edit change =>
          rw [StoreWrite.apply, ConsoleEdit.apply_range]
          exact ih
      | setMeasuredCalibration center range => rfl

/-! ## The store in every interleaving -/

section Runs

variable [MachineFloat F] [DecidableEq ι] {s t : Tasks ι F}

/-- What an instruction does to the store and its log. -/
theorem Instr.exec_store (instr : Instr F) (b : Board F) (regs : Regs F) :
    (instr.exec b regs).1.boot = b.boot ∧
      match instr with
      | .edit change _ => (instr.exec b regs).1.store = (StoreWrite.edit change).apply b.store ∧
          (instr.exec b regs).1.log = b.log ++ [.edit change]
      | .setMeasuredCalibration center range _ =>
          (instr.exec b regs).1.store = b.store.setMeasuredCalibration center range ∧
            (instr.exec b regs).1.log = b.log ++ [.setMeasuredCalibration center range]
      | _ => (instr.exec b regs).1.store = b.store ∧ (instr.exec b regs).1.log = b.log := by
  cases instr <;> exact ⟨rfl, rfl, rfl⟩

theorem LoopCall.begin_store (call : LoopCall F) (b : Board F) :
    (call.begin b).1.boot = b.boot ∧ (call.begin b).1.store = b.store ∧
      (call.begin b).1.log = b.log := by
  cases call <;> exact ⟨rfl, rfl, rfl⟩

/-- A step that changes the store, and how. -/
inductive Changed (s t : Tasks ι F) : TaskStep ι F → Prop where
  | none {step} (hstore : t.shared.store = s.shared.store) (hlog : t.shared.log = s.shared.log) :
      Changed s t step
  | edit (id : TaskId ι) (change : ConsoleEdit F) (order : ReadOrder) (rest : List (Instr F))
      (hcode : (s.tasks id).code = .edit change order :: rest)
      (hstore : t.shared.store = change.apply s.shared.store)
      (hlog : t.shared.log = s.shared.log ++ [.edit change]) : Changed s t (.run id)
  | push (id : TaskId ι) (center : CenterResult F) (range : RangeResult F) (order : ReadOrder)
      (rest : List (Instr F))
      (hcode : (s.tasks id).code = .setMeasuredCalibration center range order :: rest)
      (hstore : t.shared.store = s.shared.store.setMeasuredCalibration center range)
      (hlog : t.shared.log = s.shared.log ++ [.setMeasuredCalibration center range]) :
      Changed s t (.run id)

theorem changed_of_next {step : TaskStep ι F} (h : s.next step = some t) :
    t.shared.boot = s.shared.boot ∧ Changed s t step := by
  cases taken_of_next h with
  | request i call _ ht => subst ht; exact ⟨rfl, .none rfl rfl⟩
  | loop call _ ht =>
      subst ht
      obtain ⟨hboot, hstore, hlog⟩ := call.begin_store s.shared
      exact ⟨hboot, .none hstore hlog⟩
  | fail id file rest _ ht => subst ht; exact ⟨rfl, .none rfl rfl⟩
  | run id instr rest hcode ht =>
      subst ht
      obtain ⟨hboot, hchange⟩ := instr.exec_store s.shared (s.tasks id).regs
      refine ⟨hboot, ?_⟩
      cases instr with
      | edit change order => exact .edit id change order rest hcode hchange.1 hchange.2
      | setMeasuredCalibration center range order =>
          exact .push id center range order rest hcode hchange.1 hchange.2
      | onCalibrationChanged | read | apply | readBack | applyLocal | build | publish | snapshot
      | write | answer => exact .none hchange.1 hchange.2

/-- The store is its boot value with the changes made since. -/
theorem store_eq_storeAfter (hs : tasks.Reachable s) :
    s.shared.store = storeAfter s.shared.boot s.shared.log := by
  refine Reachable.invariant
    (I := fun s : Tasks ι F => s.shared.store = storeAfter s.shared.boot s.shared.log) ?_ ?_ hs
  · intro s hbooted
    rw [hbooted.store, hbooted.log]
    rfl
  · intro s step t ih ht
    obtain ⟨hboot, hchange⟩ := changed_of_next ht
    rw [hboot]
    cases hchange with
    | none hstore hlog => rw [hstore, hlog, ih]
    | edit id change order rest _ hstore hlog =>
        rw [hstore, hlog, storeAfter_append, ← ih]
        rfl
    | push id center range order rest _ hstore hlog =>
        rw [hstore, hlog, storeAfter_append, ← ih]
        rfl

/-- `set_measured_calibration` -/
def Instr.pushes : Instr F → Bool
  | .setMeasuredCalibration .. => true
  | _ => false

/-- Only the loop pushes. -/
theorem not_pushes_of_link (hs : tasks.Reachable s) (i : ι) :
    ((s.tasks (.link i)).code.any Instr.pushes) = false := by
  refine Reachable.invariant
    (I := fun s : Tasks ι F => ∀ i, ((s.tasks (.link i)).code.any Instr.pushes) = false) ?_ ?_ hs i
  · intro s hbooted i
    rw [hbooted.link i]
    rfl
  · intro s step t ih ht i
    -- only the task that runs can change its own code
    have hother : ∀ (id : TaskId ι) (b : Board F) (task : Task (Instr F) (Regs F)),
        t = s.step id b task →
        (id = .link i → task.code.any Instr.pushes = false) →
        ((t.tasks (.link i)).code.any Instr.pushes) = false := by
      rintro id b task rfl hcode
      by_cases hid : TaskId.link i = id
      · subst hid
        rw [State.step_self]
        exact hcode rfl
      · rw [State.step_of_ne s hid]
        exact ih i
    cases taken_of_next ht with
    | request j call _ heq =>
        refine hother _ _ _ heq fun _ => ?_
        cases call <;> rfl
    | loop call _ heq => exact hother _ _ _ heq fun h => by simp at h
    | run id instr rest hcode heq =>
        refine hother _ _ _ heq ?_
        rintro rfl
        have hlink := ih i
        rw [hcode, List.any_cons, Bool.or_eq_false_iff] at hlink
        rw [List.any_append, hlink.2, Bool.or_false]
        -- the callbacks of a request apply and save, they do not push
        cases instr with
        | edit change order =>
            cases change with
            | setInputMode mode =>
                simp only [Instr.exec, callback]
                split <;> rfl
            | setManualOffset | setDeadzoneOverride | setNudgeSettings | setNudgeEnabled => rfl
        | onCalibrationChanged order =>
            simp only [Instr.exec]
            split
            · simp [Instr.pushes]
            · rfl
        | setMeasuredCalibration | read | apply | readBack | applyLocal | build | publish
        | snapshot | write | answer => rfl
    | fail id file rest hcode heq =>
        refine hother _ _ _ heq ?_
        rintro rfl
        have hlink := ih i
        rw [hcode, List.any_cons, Bool.or_eq_false_iff] at hlink
        rw [List.any_eq_false] at hlink ⊢
        exact fun instr hmem => hlink.2 instr ((List.dropWhile_sublist _).mem hmem)

/-- **No update is lost**: the store's manual offset is that of the last
SET_MANUAL_OFFSET, its measured center and range are what the loop pushed last,
and a push never changes the offset, however old the one it carries. -/
theorem no_lost_update (hs : tasks.Reachable s) :
    s.shared.store.center.manualOffset = lastOffset s.shared.boot s.shared.log ∧
      s.shared.store.center = (lastPush s.shared.boot s.shared.log).1.setManualOffset
        (lastOffset s.shared.boot s.shared.log).1 (lastOffset s.shared.boot s.shared.log).2 ∧
      s.shared.store.range = (lastPush s.shared.boot s.shared.log).2 ∧
      ∀ step t, s.next step = some t →
        t.shared.store = s.shared.store ∧ t.shared.log = s.shared.log ∨
        (∃ change, t.shared.store = change.apply s.shared.store ∧
          t.shared.log = s.shared.log ++ [.edit change]) ∨
        ∃ center range, step = .run .loop ∧
          t.shared.store = s.shared.store.setMeasuredCalibration center range ∧
          t.shared.store.center.manualOffset = s.shared.store.center.manualOffset ∧
          t.shared.log = s.shared.log ++ [.setMeasuredCalibration center range] := by
  have hstore := store_eq_storeAfter hs
  have hcenter := center_storeAfter s.shared.boot s.shared.log
  refine ⟨?_, ?_, ?_, ?_⟩
  · rw [hstore, hcenter]
    rfl
  · rw [hstore, hcenter]
  · rw [hstore, range_storeAfter]
  · intro step t ht
    cases (changed_of_next ht).2 with
    | none hstore hlog => exact .inl ⟨hstore, hlog⟩
    | edit id change order rest _ hstore hlog => exact .inr (.inl ⟨change, hstore, hlog⟩)
    | push id center range order rest hcode hstore hlog =>
        cases id with
        | loop => exact .inr (.inr ⟨center, range, rfl, hstore, by rw [hstore]; rfl, hlog⟩)
        | link i =>
            have hnot := not_pushes_of_link hs i
            simp [hcode, Instr.pushes] at hnot

end Runs

/-! ## A board to run on -/

/-- A board whose services begin to answer, with a store of zeros. -/
def bootedTasks : Tasks LinkId ℚ where
  shared :=
    { boot := ⟨.default, .default, .default⟩
      store := ⟨.default, .default, .default⟩
      log := []
      joystick := none
      published := false
      files := fun _ => none
      answered := []
      center := .default
      range := .default }
  tasks
    | .loop => ⟨buildJoystick, ⟨⟨.default, .default, .default⟩, 0⟩⟩
    | .link _ => ⟨[], ⟨⟨.default, .default, .default⟩, 0⟩⟩

theorem bootedTasks_booted : bootedTasks.Booted :=
  ⟨rfl, rfl, rfl, rfl, fun _ => rfl, rfl, rfl, rfl, rfl, fun _ => rfl⟩

/-- One order of the reads. -/
def readInOrder : ReadOrder := ⟨[.center, .range, .settings], .refl _⟩

/-- The joystick is built, a drift correction begins, the console sets an
offset, and only then the loop pushes the copy it nudged. -/
def pushAfterEdit : List (TaskStep LinkId ℚ) :=
  [.run .loop, .run .loop, .run .loop, .loop (.drift .default 1 1 false readInOrder),
    .request .vendor (.edit (.setManualOffset 3 4) readInOrder), .run (.link .vendor), .run .loop]

/-- The offset set in between survives the push. -/
theorem no_lost_update_pushAfterEdit :
    ∃ s, runOption Tasks.next bootedTasks pushAfterEdit = some s ∧
      s.shared.store.center.manualOffset = (3, 4) := by
  obtain ⟨s, hs⟩ : ∃ s, runOption Tasks.next bootedTasks pushAfterEdit = some s := ⟨_, rfl⟩
  obtain ⟨steps, hpath⟩ := path_of_runOption Tasks.Booted hs
  have hreachable : tasks.Reachable s := hpath.reachable (.init bootedTasks_booted)
  have hoffset : lastOffset s.shared.boot s.shared.log = (3, 4) := by
    obtain rfl := Option.some.inj hs
    rfl
  exact ⟨s, hs, (no_lost_update hreachable).1.trans hoffset⟩

end OmegaStick
