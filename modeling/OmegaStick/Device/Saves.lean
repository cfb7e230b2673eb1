import OmegaStick.Device.StoreOrder

/-!
# Concurrent saves

`save_to_flash` copies the store under its lock and writes the two files
outside it.  What a SAVE_TO_FLASH promises is lost exactly when a snapshot
older than its own is written after it, over the same file.

`Kept` is the promise, extended to the saves under way: a file holds at least
what every SAVE_TO_FLASH that has written it copied.  One step keeps it exactly
when it is not such a write (`kept_step_iff`), so a run does exactly when none
of its steps is.
-/

namespace OmegaStick

open Interleaving TransitionSystem

variable {ι F : Type*}

/-! ## Saves under way -/

namespace Instr

def isSnapshot : Instr F → Bool
  | .snapshot => true
  | _ => false

def isWrite (file : StoreFile) : Instr F → Bool
  | .write other => file = other
  | _ => false

def isAnswer : Instr F → Bool
  | .answer => true
  | _ => false

/-- Neither an edit nor part of a save. -/
def plain : Instr F → Bool
  | .edit .. | .snapshot | .write _ | .answer => false
  | _ => true

end Instr

/-- A save is past its snapshot. -/
def Saving (code : List (Instr F)) : Prop :=
  code.any Instr.ofSave = true ∧ code.any Instr.isSnapshot = false

/-- A SAVE_TO_FLASH wrote this file and is not answered yet. -/
def SavedTo (file : StoreFile) (task : Task (Instr F) (Regs F)) : Prop :=
  task.code.any Instr.isAnswer = true ∧ task.code.any Instr.isSnapshot = false ∧
    task.code.any (Instr.isWrite file) = false

theorem SavedTo.saving {file : StoreFile} {task : Task (Instr F) (Regs F)}
    (h : SavedTo file task) : Saving task.code := by
  refine ⟨?_, h.2.1⟩
  obtain ⟨instr, hmem, hanswer⟩ := List.any_eq_true.mp h.1
  refine List.any_eq_true.mpr ⟨instr, hmem, ?_⟩
  revert hanswer
  cases instr <;> simp [Instr.isAnswer, Instr.ofSave]

theorem not_saving_of_plain {code : List (Instr F)} (h : code.all Instr.plain = true) :
    ¬ Saving code := by
  rintro ⟨hsave, -⟩
  obtain ⟨instr, hmem, hof⟩ := List.any_eq_true.mp hsave
  have hplain := List.all_eq_true.mp h instr hmem
  revert hof hplain
  cases instr <;> simp [Instr.plain, Instr.ofSave]

theorem not_saving_of_snapshot {code : List (Instr F)} (h : .snapshot ∈ code) : ¬ Saving code := by
  rintro ⟨-, hnone⟩
  have hsome : code.any Instr.isSnapshot = true := List.any_eq_true.mpr ⟨_, h, rfl⟩
  simp [hnone] at hsome

/-- What can be left of a call. -/
inductive SaveShape : List (Instr F) → Prop where
  | edit (change : ConsoleEdit F) (order : ReadOrder) : SaveShape [.edit change order]
  | plain (pre : List (Instr F)) (h : pre.all Instr.plain = true) : SaveShape pre
  | plainSave (pre : List (Instr F)) (h : pre.all Instr.plain = true) :
      SaveShape (pre ++ saveToFlash)
  | request : SaveShape (saveToFlash ++ [.answer])
  | calibration (last : List (Instr F)) (h : last = [] ∨ last = [.answer]) :
      SaveShape (.write .calibration :: .write .settings :: last)
  | settings (last : List (Instr F)) (h : last = [] ∨ last = [.answer]) :
      SaveShape (.write .settings :: last)
  | answer : SaveShape [.answer]

theorem saveShape_callback (change : ConsoleEdit F) (order : ReadOrder) (store : OmegaStore F) :
    SaveShape (callback change order store) ∧ ¬ Saving (callback change order store) := by
  have hplain : ∀ code : List (Instr F), code.all Instr.plain = true →
      SaveShape code ∧ ¬ Saving code :=
    fun code h => ⟨.plain code h, not_saving_of_plain h⟩
  cases change with
  | setManualOffset | setDeadzoneOverride => exact hplain _ rfl
  | setNudgeSettings | setNudgeEnabled => exact hplain _ rfl
  | setInputMode mode =>
      simp only [callback]
      split
      · exact ⟨.plainSave [] rfl, not_saving_of_snapshot (List.mem_cons_self ..)⟩
      · exact hplain _ rfl

section Steps

variable [MachineFloat F]

omit [MachineFloat F] in
theorem saveShape_request (call : ConsoleCall F) : SaveShape call.code ∧ ¬ Saving call.code := by
  cases call with
  | edit change order =>
      exact ⟨.edit change order, by simp [Saving, ConsoleCall.code, Instr.ofSave]⟩
  | saveToFlash => exact ⟨.request, not_saving_of_snapshot (List.mem_cons_self ..)⟩

theorem saveShape_loop (call : LoopCall F) (b : Board F) :
    SaveShape (call.begin b).2 ∧ ¬ Saving (call.begin b).2 := by
  cases call with
  | drift compensator rawX rawY save order =>
      cases save with
      | false => exact ⟨.plain _ rfl, not_saving_of_plain rfl⟩
      | true =>
          refine ⟨.plainSave _ rfl, not_saving_of_snapshot ?_⟩
          simp [LoopCall.begin, saveToFlash]
  | sweep center range order =>
      refine ⟨.plainSave _ rfl, not_saving_of_snapshot ?_⟩
      simp [LoopCall.begin, saveToFlash]

/-- A plain instruction touches neither the files nor the answers. -/
theorem Instr.exec_plain {instr : Instr F} (h : instr.plain = true) (b : Board F) (regs : Regs F) :
    (instr.exec b regs).1.files = b.files ∧ (instr.exec b regs).1.answered = b.answered ∧
      (instr.exec b regs).2.2.all Instr.plain = true := by
  cases instr with
  | onCalibrationChanged order =>
      refine ⟨rfl, rfl, ?_⟩
      simp only [Instr.exec]
      split
      · simp [Instr.plain]
      · rfl
  | edit | snapshot | write | answer => simp [Instr.plain] at h
  | setMeasuredCalibration | read | apply | readBack | applyLocal | build | publish =>
      exact ⟨rfl, rfl, rfl⟩

variable [DecidableEq ι] {s t : Tasks ι F}

theorem log_prefix_of_next {step : TaskStep ι F} (h : s.next step = some t) :
    s.shared.log <+: t.shared.log := by
  cases (changed_of_next h).2 with
  | none _ hlog => rw [hlog]
  | edit _ _ _ _ _ _ hlog => rw [hlog]; exact List.prefix_append ..
  | push _ _ _ _ _ _ _ hlog => rw [hlog]; exact List.prefix_append ..

/-- A step as the saves see it. -/
inductive SaveMove (s t : Tasks ι F) : TaskStep ι F → Prop where
  | quiet {step} (id : TaskId ι) (b : Board F) (task : Task (Instr F) (Regs F))
      (ht : t = s.step id b task) (hfiles : b.files = s.shared.files)
      (hanswered : b.answered = s.shared.answered) (hsaving : ¬ Saving task.code)
      (hwrite : ∀ id, step = .run id → ∀ file rest, (s.tasks id).code ≠ .write file :: rest) :
      SaveMove s t step
  | snapshot (id : TaskId ι) (last : List (Instr F))
      (hcode : (s.tasks id).code = saveToFlash ++ last)
      (ht : t = s.step id s.shared ⟨.write .calibration :: .write .settings :: last,
        ⟨s.shared.store, s.shared.log.length⟩⟩) : SaveMove s t (.run id)
  | write (id : TaskId ι) (file : StoreFile) (rest : List (Instr F))
      (hcode : (s.tasks id).code = .write file :: rest)
      (hrest : rest.any Instr.isSnapshot = false ∧ rest.any (Instr.isWrite file) = false)
      (ht : t = s.step id
        { s.shared with
          files := Function.update s.shared.files file
            (some ((s.tasks id).regs.version, (s.tasks id).regs.read)) }
        ⟨rest, (s.tasks id).regs⟩) : SaveMove s t (.run id)
  | answer (id : TaskId ι) (hcode : (s.tasks id).code = [.answer])
      (ht : t = s.step id
        { s.shared with answered := s.shared.answered ++ [(s.tasks id).regs.version] }
        ⟨[], (s.tasks id).regs⟩) : SaveMove s t (.run id)

/-- Every task's code has a shape of `SaveShape`. -/
def Tasks.Shaped (s : Tasks ι F) : Prop := ∀ id, SaveShape (s.tasks id).code

omit [MachineFloat F] in
theorem Tasks.Shaped.step (hs : Tasks.Shaped s) (id : TaskId ι) (b : Board F)
    {task : Task (Instr F) (Regs F)} (h : SaveShape task.code) :
    Tasks.Shaped (s.step id b task) := by
  intro other
  by_cases hid : other = id
  · subst hid
    rw [State.step_self]
    exact h
  · rw [State.step_of_ne s hid]
    exact hs other

omit [MachineFloat F] [DecidableEq ι] in
/-- A write that fails gives up the rest of its save. -/
theorem SaveShape.dropWhile_ofSave {file : StoreFile} {rest : List (Instr F)}
    (h : SaveShape (.write file :: rest)) : rest.dropWhile Instr.ofSave = [] := by
  generalize hall : Instr.write file :: rest = code at h
  cases h with
  | plain pre hplain => simp [← hall, Instr.plain] at hplain
  | plainSave pre hplain =>
      cases pre with
      | nil => simp [saveToFlash] at hall
      | cons p pre =>
          obtain ⟨rfl, -⟩ := List.cons.inj hall
          simp [Instr.plain] at hplain
  | calibration last hlast =>
      obtain ⟨-, rfl⟩ := List.cons.inj hall
      rcases hlast with rfl | rfl <;> rfl
  | settings last hlast =>
      obtain ⟨-, rfl⟩ := List.cons.inj hall
      rcases hlast with rfl | rfl <;> rfl
  | edit | request | answer => simp [saveToFlash] at hall

/-- A plain instruction is none of the save's business. -/
theorem saveMove_of_plain (hs : Tasks.Shaped s) {id : TaskId ι} {instr : Instr F}
    {rest : List (Instr F)} (hcode : (s.tasks id).code = instr :: rest)
    (hplain : instr.plain = true)
    (hnext : SaveShape ((instr.exec s.shared (s.tasks id).regs).2.2 ++ rest))
    (hnot : ¬ Saving ((instr.exec s.shared (s.tasks id).regs).2.2 ++ rest))
    (ht : t = s.step id (instr.exec s.shared (s.tasks id).regs).1
      ⟨(instr.exec s.shared (s.tasks id).regs).2.2 ++ rest,
        (instr.exec s.shared (s.tasks id).regs).2.1⟩) :
    Tasks.Shaped t ∧ SaveMove s t (.run id) := by
  obtain ⟨hfiles, hanswered, -⟩ := instr.exec_plain hplain s.shared (s.tasks id).regs
  subst ht
  refine ⟨hs.step _ _ hnext, .quiet _ _ _ rfl hfiles hanswered hnot ?_⟩
  rintro _ ⟨⟩ file rest' hwrite
  rw [hcode] at hwrite
  obtain ⟨rfl, -⟩ := List.cons.inj hwrite
  simp [Instr.plain] at hplain

/-- One instruction, by the shape of the code it is the head of. -/
theorem saveMove_of_run (hs : Tasks.Shaped s) {id : TaskId ι} {instr : Instr F}
    {rest : List (Instr F)} (hcode : (s.tasks id).code = instr :: rest)
    (ht : t = s.step id (instr.exec s.shared (s.tasks id).regs).1
      ⟨(instr.exec s.shared (s.tasks id).regs).2.2 ++ rest,
        (instr.exec s.shared (s.tasks id).regs).2.1⟩) :
    Tasks.Shaped t ∧ SaveMove s t (.run id) := by
  have hshape := hs id
  rw [hcode] at hshape
  generalize hall : instr :: rest = code at hshape
  cases hshape with
  -- a callback, which unfolds into plain instructions and perhaps a save
  | edit change order =>
      obtain ⟨rfl, rfl⟩ := List.cons.inj hall
      obtain ⟨hnext, hnot⟩ := saveShape_callback change order s.shared.store
      simp only [Instr.exec, List.append_nil] at ht
      subst ht
      refine ⟨hs.step _ _ hnext, .quiet _ _ _ rfl rfl rfl hnot ?_⟩
      rintro _ ⟨⟩ file rest' hwrite
      simp [hcode] at hwrite
  | plain pre hplain =>
      subst hall
      rw [List.all_cons, Bool.and_eq_true] at hplain
      have hnext : ((instr.exec s.shared (s.tasks id).regs).2.2 ++ rest).all Instr.plain =
          true := by
        rw [List.all_append, hplain.2, Bool.and_true]
        exact (instr.exec_plain hplain.1 _ _).2.2
      exact saveMove_of_plain hs hcode hplain.1 (.plain _ hnext) (not_saving_of_plain hnext) ht
  -- the instructions in front of the loop's own save
  | plainSave pre hplain =>
      cases pre with
      -- none is left: the save takes its snapshot
      | nil =>
          obtain ⟨rfl, rfl⟩ := List.cons.inj hall
          refine ⟨?_, .snapshot id [] hcode ht⟩
          subst ht
          exact hs.step _ _ (.calibration [] (.inl rfl))
      | cons p pre =>
          obtain ⟨rfl, rfl⟩ := List.cons.inj hall
          rw [List.all_cons, Bool.and_eq_true] at hplain
          refine saveMove_of_plain hs hcode hplain.1 ?_ (not_saving_of_snapshot ?_) ht
          · change SaveShape (_ ++ (pre ++ saveToFlash))
            rw [← List.append_assoc]
            refine .plainSave _ ?_
            rw [List.all_append, hplain.2, Bool.and_true]
            exact (instr.exec_plain hplain.1 _ _).2.2
          · simp [saveToFlash]
  -- SAVE_TO_FLASH
  | request =>
      obtain ⟨rfl, rfl⟩ := List.cons.inj hall
      refine ⟨?_, .snapshot id [.answer] hcode ht⟩
      subst ht
      exact hs.step _ _ (.calibration [.answer] (.inr rfl))
  | calibration last hlast =>
      obtain ⟨rfl, rfl⟩ := List.cons.inj hall
      refine ⟨?_, .write id .calibration _ hcode ?_ ht⟩
      · subst ht
        exact hs.step _ _ (.settings last hlast)
      · rcases hlast with rfl | rfl <;> exact ⟨rfl, rfl⟩
  | settings last hlast =>
      obtain ⟨rfl, rfl⟩ := List.cons.inj hall
      refine ⟨?_, .write id .settings _ hcode ?_ ht⟩
      · subst ht
        refine hs.step _ _ ?_
        rcases hlast with rfl | rfl
        · exact .plain [] rfl
        · exact .answer
      · rcases hlast with rfl | rfl <;> exact ⟨rfl, rfl⟩
  | answer =>
      obtain ⟨rfl, rfl⟩ := List.cons.inj hall
      refine ⟨?_, .answer id hcode ht⟩
      subst ht
      exact hs.step _ _ (.plain [] rfl)

theorem saveMove_of_next (hs : Tasks.Shaped s) {step : TaskStep ι F} (h : s.next step = some t) :
    Tasks.Shaped t ∧ SaveMove s t step := by
  cases taken_of_next h with
  | request i call hidle ht =>
      obtain ⟨hshape, hnot⟩ := saveShape_request call
      subst ht
      exact ⟨hs.step _ _ hshape, .quiet _ _ _ rfl rfl rfl hnot (by simp)⟩
  | loop call hidle ht =>
      obtain ⟨hshape, hnot⟩ := saveShape_loop call s.shared
      subst ht
      refine ⟨hs.step _ _ hshape, .quiet _ _ _ rfl ?_ ?_ hnot (by simp)⟩
      · cases call <;> rfl
      · cases call <;> rfl
  | fail id file rest hcode ht =>
      have hshape := hs id
      rw [hcode] at hshape
      rw [hshape.dropWhile_ofSave] at ht
      subst ht
      exact ⟨hs.step _ _ (.plain [] rfl),
        .quiet _ _ _ rfl rfl rfl (not_saving_of_plain rfl) (by simp)⟩
  | run id instr rest hcode ht => exact saveMove_of_run hs hcode ht

end Steps

/-! ## What is owed, and what is on flash -/

namespace Tasks

/-- The state after `v` changes was saved to this file by a SAVE_TO_FLASH that
is answered, or about to be. -/
def Owes (s : Tasks ι F) (file : StoreFile) (v : ℕ) : Prop :=
  v ∈ s.shared.answered ∨ ∃ id, SavedTo file (s.tasks id) ∧ (s.tasks id).regs.version = v

/-- The file holds a state at least as new. -/
def Holds (s : Tasks ι F) (file : StoreFile) (v : ℕ) : Prop :=
  ∃ w snapshot, s.shared.files file = some (w, snapshot) ∧ v ≤ w

def Kept (s : Tasks ι F) : Prop := ∀ file v, s.Owes file v → s.Holds file v

/-- The step writes no snapshot older than what a SAVE_TO_FLASH saved to the
same file. -/
def WritesNoOlder (s : Tasks ι F) : TaskStep ι F → Prop
  | .run id => ∀ file rest, (s.tasks id).code = .write file :: rest →
      ∀ v, s.Owes file v → v ≤ (s.tasks id).regs.version
  | .request .. | .loop _ | .fail _ => True

section Step

variable [DecidableEq ι] {s : Tasks ι F}

/-- What is owed after a step, when the task that took it is not about to be
answered. -/
theorem owes_step_of_not_saving {id : TaskId ι} {b : Board F} {task : Task (Instr F) (Regs F)}
    (hanswered : b.answered = s.shared.answered) (hnot : ¬ Saving task.code) {file : StoreFile}
    {v : ℕ} (h : Owes (s.step id b task) file v) : s.Owes file v := by
  rcases h with h | ⟨other, hsaved, hversion⟩
  · exact .inl (hanswered ▸ h)
  · by_cases hid : other = id
    · subst hid
      rw [State.step_self] at hsaved
      exact absurd hsaved.saving hnot
    · rw [State.step_of_ne s hid] at hsaved hversion
      exact .inr ⟨other, hsaved, hversion⟩

/-- After a write, its file owes what it owed and, in a SAVE_TO_FLASH, the
snapshot written; the other one what it owed. -/
theorem owes_step_write {id : TaskId ι} {file : StoreFile} {rest : List (Instr F)} {b : Board F}
    (hcode : (s.tasks id).code = .write file :: rest)
    (hanswered : b.answered = s.shared.answered) (other : StoreFile) (v : ℕ)
    (h : Owes (s.step id b ⟨rest, (s.tasks id).regs⟩) other v) :
    s.Owes other v ∨ other = file ∧ v = (s.tasks id).regs.version := by
  rcases h with h | ⟨i, hsaved, hversion⟩
  · exact .inl (.inl (hanswered ▸ h))
  · by_cases hid : i = id
    · subst hid
      rw [State.step_self] at hsaved hversion
      by_cases hfile : other = file
      · exact .inr ⟨hfile, hversion.symm⟩
      · refine .inl (.inr ⟨i, ?_, hversion⟩)
        have hhead : ∀ p : Instr F → Bool, p (.write file) = false →
            (s.tasks i).code.any p = rest.any p := by
          intro p hp
          rw [hcode, List.any_cons, hp, Bool.false_or]
        unfold SavedTo
        rw [hhead _ rfl, hhead _ rfl, hhead _ (decide_eq_false hfile)]
        exact hsaved
    · rw [State.step_of_ne s hid] at hsaved hversion
      exact .inl (.inr ⟨i, hsaved, hversion⟩)

/-- What a file owed before a write of it is still owed. -/
theorem Owes.step_write {id : TaskId ι} {file : StoreFile} {rest : List (Instr F)} {b : Board F}
    (hcode : (s.tasks id).code = .write file :: rest)
    (hanswered : b.answered = s.shared.answered) {v : ℕ} (h : s.Owes file v) :
    Owes (s.step id b ⟨rest, (s.tasks id).regs⟩) file v := by
  rcases h with h | ⟨i, hsaved, hversion⟩
  · exact .inl (hanswered.symm ▸ h)
  · by_cases hid : i = id
    · subst hid
      have hnone := hsaved.2.2
      simp [hcode, Instr.isWrite] at hnone
    · refine .inr ⟨i, ?_, ?_⟩
      · rw [State.step_of_ne s hid]; exact hsaved
      · rw [State.step_of_ne s hid]; exact hversion

variable [MachineFloat F] {t : Tasks ι F}

/-- **One step** keeps the promise exactly when it writes nothing older. -/
theorem kept_step_iff (hs : s.Shaped) (hkept : s.Kept) {step : TaskStep ι F}
    (h : s.next step = some t) : t.Kept ↔ s.WritesNoOlder step := by
  cases (saveMove_of_next hs h).2 with
  | quiet id b task ht hfiles hanswered hsaving hwrite =>
      subst ht
      -- nothing is written, and what is owed was owed before
      refine iff_of_true ?_ ?_
      · intro file v howes
        obtain ⟨w, snapshot, hfile, hle⟩ :=
          hkept file v (owes_step_of_not_saving hanswered hsaving howes)
        exact ⟨w, snapshot, by rw [State.step_shared, hfiles, hfile], hle⟩
      · cases step with
        | run i => exact fun file rest hcode => absurd hcode (hwrite i rfl file rest)
        | request | loop | fail => trivial
  | snapshot id last hcode ht =>
      subst ht
      -- the new snapshot is owed to no file yet: its writes are still to come
      refine iff_of_true ?_ (by simp [WritesNoOlder, hcode, saveToFlash])
      intro file v howes
      rcases howes with howes | ⟨i, hsaved, hversion⟩
      · exact hkept file v (.inl howes)
      · by_cases hid : i = id
        · subst hid
          have hnone := hsaved.2.2
          rw [State.step_self] at hnone
          cases file <;> simp [Instr.isWrite] at hnone
        · rw [State.step_of_ne s hid] at hsaved hversion
          exact hkept file v (.inr ⟨i, hsaved, hversion⟩)
  | answer id hcode ht =>
      subst ht
      refine iff_of_true ?_ (by simp [WritesNoOlder, hcode])
      intro file v howes
      -- the answer makes owed what both files were just given
      have hself : s.Owes file (s.tasks id).regs.version :=
        .inr ⟨id, by simp [SavedTo, hcode, Instr.isAnswer, Instr.isSnapshot, Instr.isWrite], rfl⟩
      rcases howes with howes | ⟨i, hsaved, hversion⟩
      · rcases List.mem_append.mp howes with hold | hnew
        · exact hkept file v (.inl hold)
        · obtain rfl := List.mem_singleton.mp hnew
          exact hkept file _ hself
      · by_cases hid : i = id
        · subst hid
          rw [State.step_self] at hsaved
          simp [SavedTo] at hsaved
        · rw [State.step_of_ne s hid] at hsaved hversion
          exact hkept file v (.inr ⟨i, hsaved, hversion⟩)
  | write id file rest hcode hrest ht =>
      subst ht
      -- the one step that replaces a file
      constructor
      · intro ht file' rest' hcode' v howes
        obtain ⟨hsame, -⟩ := List.cons.inj (hcode.symm.trans hcode')
        obtain rfl := Instr.write.inj hsame
        -- what was owed is still owed, and is held by the file as it was just written
        obtain ⟨w, snapshot, hfile, hle⟩ := ht file v (howes.step_write hcode rfl)
        rw [State.step_shared] at hfile
        simp only [Function.update_self, Option.some.injEq, Prod.mk.injEq] at hfile
        rw [hfile.1]
        exact hle
      · intro hguard other v howes
        unfold Holds
        rw [State.step_shared]
        by_cases hfile : other = file
        · subst hfile
          refine ⟨_, _, Function.update_self .., ?_⟩
          rcases owes_step_write hcode rfl other v howes with howed | ⟨-, rfl⟩
          · exact hguard other rest hcode v howed
          · exact le_rfl
        · rcases owes_step_write hcode rfl other v howes with howed | ⟨hsame, -⟩
          · dsimp only
            rw [Function.update_of_ne hfile]
            exact hkept other v howed
          · exact absurd hsame hfile

end Step

/-! ## What a stamp stands for -/

/-- A stamped snapshot is the store after that many changes. -/
structure Stamped (s : Tasks ι F) : Prop where
  files : ∀ file w snapshot, s.shared.files file = some (w, snapshot) →
    w ≤ s.shared.log.length ∧ snapshot = storeAfter s.shared.boot (s.shared.log.take w)
  saving : ∀ id, Saving (s.tasks id).code → (s.tasks id).regs.version ≤ s.shared.log.length ∧
    (s.tasks id).regs.read =
      storeAfter s.shared.boot (s.shared.log.take (s.tasks id).regs.version)
  answered : ∀ v ∈ s.shared.answered, v ≤ s.shared.log.length

/-- What is owed is never newer than the store. -/
theorem Stamped.owes_le {s : Tasks ι F} (hs : s.Stamped) {file : StoreFile} {v : ℕ}
    (h : s.Owes file v) : v ≤ s.shared.log.length := by
  rcases h with h | ⟨id, hsaved, rfl⟩
  · exact hs.answered v h
  · exact (hs.saving id hsaved.saving).1

section Runs

variable [DecidableEq ι] [MachineFloat F] {s t : Tasks ι F}

theorem Stamped.next (hstamped : s.Stamped) (hstore : s.shared.store =
    storeAfter s.shared.boot s.shared.log) (hs : s.Shaped) {step : TaskStep ι F}
    (h : s.next step = some t) : t.Stamped := by
  have hboot := (changed_of_next h).1
  obtain ⟨events, hlog⟩ := log_prefix_of_next h
  have htake : ∀ w, w ≤ s.shared.log.length →
      w ≤ t.shared.log.length ∧ t.shared.log.take w = s.shared.log.take w := by
    intro w hw
    rw [← hlog, List.take_append_of_le_length hw, List.length_append]
    exact ⟨Nat.le_add_right_of_le hw, rfl⟩
  have hkeep : ∀ w snapshot, w ≤ s.shared.log.length ∧
      snapshot = storeAfter s.shared.boot (s.shared.log.take w) →
      w ≤ t.shared.log.length ∧ snapshot = storeAfter t.shared.boot (t.shared.log.take w) := by
    rintro w snapshot ⟨hw, hsnapshot⟩
    obtain ⟨hle, heq⟩ := htake w hw
    exact ⟨hle, by rw [hboot, heq]; exact hsnapshot⟩
  -- the tasks: the one that ran, and those that only see the log grow
  have hothers : ∀ (id : TaskId ι) b task, t = s.step id b task →
      (Saving task.code → task.regs.version ≤ s.shared.log.length ∧
        task.regs.read = storeAfter s.shared.boot (s.shared.log.take task.regs.version)) →
      ∀ i, Saving (t.tasks i).code → (t.tasks i).regs.version ≤ t.shared.log.length ∧
        (t.tasks i).regs.read =
          storeAfter t.shared.boot (t.shared.log.take (t.tasks i).regs.version) := by
    intro id b task heq hself i hsaving
    refine hkeep _ _ ?_
    by_cases hid : i = id
    · subst hid
      rw [heq, State.step_self] at hsaving ⊢
      exact hself hsaving
    · rw [heq, State.step_of_ne s hid] at hsaving ⊢
      exact hstamped.saving i hsaving
  have hanswered : ∀ v ∈ s.shared.answered, v ≤ t.shared.log.length :=
    fun v hv => (htake v (hstamped.answered v hv)).1
  cases (saveMove_of_next hs h).2 with
  | quiet id b task heq hfiles hsame hsaving hwrite =>
      refine ⟨?_, hothers id b task heq fun h => absurd h hsaving, ?_⟩
      · intro file w snapshot hfile
        rw [heq, State.step_shared, hfiles] at hfile
        exact hkeep w snapshot (hstamped.files file w snapshot hfile)
      · intro v hv
        refine hanswered v ?_
        rwa [heq, State.step_shared, hsame] at hv
  | snapshot id last hcode heq =>
      -- a new stamp, of all changes so far
      refine ⟨?_, hothers id _ _ heq fun _ => ⟨le_rfl, ?_⟩, ?_⟩
      · intro file w snapshot hfile
        rw [heq] at hfile
        exact hkeep w snapshot (hstamped.files file w snapshot hfile)
      · rw [List.take_length]
        exact hstore
      · intro v hv
        rw [heq] at hv
        exact hanswered v hv
  | answer id hcode heq =>
      refine ⟨?_, hothers id _ _ heq fun h => absurd h (not_saving_of_plain rfl), ?_⟩
      · intro file w snapshot hfile
        rw [heq] at hfile
        exact hkeep w snapshot (hstamped.files file w snapshot hfile)
      · intro v hv
        rw [heq] at hv
        rcases List.mem_append.mp hv with hold | hnew
        · exact hanswered v hold
        · obtain rfl := List.mem_singleton.mp hnew
          -- the answer comes last, so that its snapshot is still stamped
          have hsaving : Saving (s.tasks id).code := by
            rw [hcode]
            exact ⟨rfl, rfl⟩
          exact (htake _ (hstamped.saving id hsaving).1).1
  | write id file rest hcode hrest heq =>
      have hsaving : Saving (s.tasks id).code := by
        rw [hcode]
        exact ⟨rfl, by simpa [Instr.isSnapshot] using hrest.1⟩
      -- the file takes over the stamp of its task
      refine ⟨?_, hothers id _ _ heq fun _ => hstamped.saving id hsaving, ?_⟩
      · intro other w snapshot hfile
        rw [heq, State.step_shared] at hfile
        by_cases hsame : other = file
        · subst hsame
          simp only [Function.update_self, Option.some.injEq, Prod.mk.injEq] at hfile
          obtain ⟨rfl, rfl⟩ := hfile
          exact hkeep _ _ (hstamped.saving id hsaving)
        · simp only [Function.update_of_ne hsame] at hfile
          exact hkeep w snapshot (hstamped.files other w snapshot hfile)
      · intro v hv
        rw [heq] at hv
        exact hanswered v hv

/-! ## Every run -/

omit [DecidableEq ι] [MachineFloat F] in
theorem Booted.shaped (h : s.Booted) : s.Shaped := by
  intro id
  cases id with
  | loop => rw [h.loop]; exact .plain _ rfl
  | link i => rw [h.link i]; exact .plain [] rfl

omit [DecidableEq ι] [MachineFloat F] in
theorem Booted.not_saving (h : s.Booted) (id : TaskId ι) : ¬ Saving (s.tasks id).code := by
  cases id with
  | loop => rw [h.loop]; exact not_saving_of_plain rfl
  | link i => rw [h.link i]; exact not_saving_of_plain rfl

omit [DecidableEq ι] [MachineFloat F] in
theorem Booted.kept (h : s.Booted) : s.Kept := by
  rintro file v (hanswered | ⟨id, hsaved, -⟩)
  · simp [h.answered] at hanswered
  · exact absurd hsaved.saving (h.not_saving id)

theorem shaped_of_reachable (hs : tasks.Reachable s) : s.Shaped :=
  Reachable.invariant (I := Shaped) (fun _ h => Booted.shaped h)
    (fun _ _ _ hs ht => (saveMove_of_next hs ht).1) hs

theorem stamped_of_reachable (hs : tasks.Reachable s) : s.Stamped := by
  induction hs with
  | init h =>
      refine ⟨?_, fun id hsaving => absurd hsaving (h.not_saving id), by simp [h.answered]⟩
      intro file w snapshot hfile
      simp [h.files file] at hfile
  | step hs ht ih => exact ih.next (store_eq_storeAfter hs) (shaped_of_reachable hs) ht

/-- A run without a change of the store writes nothing older. -/
theorem reachable_of_unchanged {steps} (hs : s.Booted) (h : Path tasks s steps t)
    (hlog : t.shared.log = []) : (tasks.restrict WritesNoOlder).Reachable t := by
  have hgrows := h.grows (f := fun s => s.shared.log.length)
    fun _ _ _ ht => (log_prefix_of_next ht).length_le
  refine (h.restrict fun x hx => ?_).reachable (.init hs)
  obtain ⟨before, step, after⟩ := x
  have hstamped := stamped_of_reachable (h.reachable_of_mem (.init hs) hx).1
  have hnone : before.shared.log.length ≤ t.shared.log.length := hgrows.2 _ hx
  rw [hlog, List.length_nil] at hnone
  cases step with
  | run id =>
      exact fun _ _ _ v howes => (hstamped.owes_le howes).trans (hnone.trans (Nat.zero_le _))
  | request | loop | fail => trivial

/-- What SAVE_TO_FLASH promises of a later state: both files hold a state at
least as new as the one each answered request saved. -/
def AnsweredKept (s t : Tasks ι F) : Prop := ∀ v ∈ s.shared.answered, ∀ file, t.Holds file v

/-- **A saved state is kept** by every run none of whose writes puts an older
snapshot over a newer one: whatever was answered, each file holds the store as
it was then or later. And a run keeps it, saves under way included, exactly
when it has no such write. -/
theorem saved_state_kept_iff :
    (∀ {s : Tasks ι F}, (tasks.restrict WritesNoOlder).Reachable s →
      ∀ v ∈ s.shared.answered, ∀ file, ∃ w,
        s.shared.files file = some (w, storeAfter s.shared.boot (s.shared.log.take w)) ∧
          v ≤ w ∧ w ≤ s.shared.log.length) ∧
    ∀ {s u : Tasks ι F} {steps}, s.Booted → Path tasks s steps u →
      ((∀ x ∈ steps, x.2.2.Kept) ↔ ∀ x ∈ steps, x.1.WritesNoOlder x.2.1) := by
  constructor
  · intro s hs v hv file
    have hkept : s.Kept ∧ s.Shaped := by
      refine Reachable.invariant (I := fun s => Kept s ∧ Shaped s) ?_ ?_ hs
      · exact fun s h => ⟨Booted.kept h, Booted.shaped h⟩
      · rintro s step t ⟨hkept, hshaped⟩ ⟨ht, hguard⟩
        exact ⟨(kept_step_iff hshaped hkept ht).mpr hguard, (saveMove_of_next hshaped ht).1⟩
    obtain ⟨w, snapshot, hfile, hle⟩ := hkept.1 file v (.inl hv)
    obtain ⟨hlength, rfl⟩ :=
      (stamped_of_reachable (Reachable.of_restrict hs)).files file w snapshot hfile
    exact ⟨w, hfile, hle, hlength⟩
  · intro s u steps hbooted hpath
    refine hpath.forall_iff (I := Shaped) (Q := Kept) (C := WritesNoOlder) ?_ ?_
      hbooted.shaped hbooted.kept
    · exact fun s step t hs ht => (saveMove_of_next hs ht).1
    · exact fun s step t hs hkept ht => kept_step_iff hs hkept ht

end Runs

end Tasks

/-- A save on its own, right after boot. -/
def firstSave : List (TaskStep LinkId ℚ) :=
  .request .vendor .saveToFlash :: List.replicate 4 (.run (.link .vendor))

/-- It is on flash once it is answered. -/
theorem saved_state_kept_firstSave :
    ∃ s, runOption Tasks.next bootedTasks firstSave = some s ∧ s.shared.answered = [0] ∧
      ∀ file, ∃ w, s.shared.files file =
        some (w, storeAfter s.shared.boot (s.shared.log.take w)) ∧ 0 ≤ w ∧
          w ≤ s.shared.log.length := by
  obtain ⟨s, hs⟩ : ∃ s, runOption Tasks.next bootedTasks firstSave = some s := ⟨_, rfl⟩
  obtain ⟨steps, hpath⟩ := path_of_runOption Tasks.Booted hs
  have hunchanged : s.shared.log = [] := by
    obtain rfl := Option.some.inj hs
    rfl
  have hreachable := Tasks.reachable_of_unchanged bootedTasks_booted hpath hunchanged
  refine ⟨s, hs, ?_, fun file => Tasks.saved_state_kept_iff.1 hreachable 0 ?_ file⟩
  · obtain rfl := Option.some.inj hs
    rfl
  · obtain rfl := Option.some.inj hs
    decide

/-! ## An older snapshot, written last -/

/-- The vendor link begins a save; an edit and a save on the other link follow. -/
def saveDuringSave : List (TaskStep LinkId ℚ) :=
  [.run .loop, .run .loop, .run .loop, .request .vendor .saveToFlash, .run (.link .vendor),
    .request .cdc (.edit (.setManualOffset 3 4) readInOrder)] ++
  List.replicate 6 (.run (.link .cdc)) ++ [.request .cdc .saveToFlash] ++
  List.replicate 4 (.run (.link .cdc))

/-- The vendor link finishes the save it began. -/
def finishOlderSave : List (TaskStep LinkId ℚ) := List.replicate 3 (.run (.link .vendor))

theorem not_answeredKept :
    ¬ ∀ (s t : Tasks LinkId ℚ) (steps), tasks.Reachable s → Path tasks s steps t →
      t.shared.log = s.shared.log → t.Quiescent → s.AnsweredKept t := by
  obtain ⟨s, hs⟩ : ∃ s, runOption Tasks.next bootedTasks saveDuringSave = some s := ⟨_, rfl⟩
  obtain ⟨t, ht⟩ : ∃ t, runOption Tasks.next s finishOlderSave = some t := by
    obtain rfl := Option.some.inj hs
    exact ⟨_, rfl⟩
  obtain ⟨_, hpath⟩ := path_of_runOption Tasks.Booted hs
  obtain ⟨steps, hlater⟩ := path_of_runOption Tasks.Booted ht
  intro hclaim
  have hkept := hclaim s t steps (hpath.reachable (.init bootedTasks_booted)) hlater
  obtain rfl := Option.some.inj hs
  obtain rfl := Option.some.inj ht
  obtain ⟨w, snapshot, hfile, hle⟩ :=
    hkept rfl (fun id => by rcases id with _ | _ | _ <;> rfl) 1 (by decide) .calibration
  obtain ⟨rfl, -⟩ := Prod.mk.inj (Option.some.inj hfile)
  exact absurd hle (by decide)

end OmegaStick
