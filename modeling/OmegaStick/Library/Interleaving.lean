import Mathlib.Data.Nat.Notation
import Mathlib.Logic.Function.Basic

/-!
# Tasks over a shared state

Any number of tasks, each with the rest of its straight-line code and registers
of its own, over one shared state.  One instruction is one step; it may put
further instructions in front of the rest, so a call and a conditional are
instructions too.

`ToCome` is what an invariant of the form "the state is right, or someone is
still about to make it right" is stated with: some task still has an
instruction of a kind in its code.
-/

namespace Interleaving

/-- The rest of a task's code, and its registers. -/
structure Task (κ ρ : Type*) where
  code : List κ
  regs : ρ

structure State (ι σ κ ρ : Type*) where
  shared : σ
  tasks : ι → Task κ ρ

variable {ι σ κ ρ : Type*} {p : κ → Bool}

namespace State

/-- Nobody is in the middle of a call. -/
def Quiescent (s : State ι σ κ ρ) : Prop := ∀ id, (s.tasks id).code = []

/-- An instruction of this kind is still to come. -/
def ToCome (p : κ → Bool) (s : State ι σ κ ρ) : Prop := ∃ id, (s.tasks id).code.any p = true

/-- One of another task. -/
def ToComeElsewhere (p : κ → Bool) (s : State ι σ κ ρ) (id : ι) : Prop :=
  ∃ other, other ≠ id ∧ (s.tasks other).code.any p = true

theorem Quiescent.not_toCome {s : State ι σ κ ρ} (hs : s.Quiescent) : ¬ s.ToCome p := by
  rintro ⟨id, h⟩
  simp [hs id] at h

theorem toCome_iff (s : State ι σ κ ρ) (id : ι) :
    s.ToCome p ↔ (s.tasks id).code.any p = true ∨ s.ToComeElsewhere p id := by
  constructor
  · rintro ⟨other, h⟩
    by_cases hid : other = id
    · exact .inl (hid ▸ h)
    · exact .inr ⟨other, hid, h⟩
  · rintro (h | ⟨other, -, h⟩)
    · exact ⟨id, h⟩
    · exact ⟨other, h⟩

variable [DecidableEq ι]

def setTask (s : State ι σ κ ρ) (id : ι) (task : Task κ ρ) : State ι σ κ ρ :=
  { s with tasks := Function.update s.tasks id task }

@[simp] theorem setTask_shared (s : State ι σ κ ρ) (id : ι) (task : Task κ ρ) :
    (s.setTask id task).shared = s.shared := rfl

@[simp] theorem setTask_self (s : State ι σ κ ρ) (id : ι) (task : Task κ ρ) :
    (s.setTask id task).tasks id = task := Function.update_self ..

/-- A step of one task: what it leaves of the shared state, its code and its
registers. -/
def step (s : State ι σ κ ρ) (id : ι) (shared : σ) (task : Task κ ρ) : State ι σ κ ρ :=
  { s.setTask id task with shared := shared }

@[simp] theorem step_shared (s : State ι σ κ ρ) (id : ι) (shared : σ) (task : Task κ ρ) :
    (s.step id shared task).shared = shared := rfl

@[simp] theorem step_self (s : State ι σ κ ρ) (id : ι) (shared : σ) (task : Task κ ρ) :
    (s.step id shared task).tasks id = task := Function.update_self ..

theorem step_of_ne (s : State ι σ κ ρ) {id other : ι} (h : other ≠ id) (shared : σ)
    (task : Task κ ρ) : (s.step id shared task).tasks other = s.tasks other :=
  Function.update_of_ne h ..

/-- After a step of a task, an instruction of a kind is to come in its own new
code, or where it was. -/
theorem toCome_step (s : State ι σ κ ρ) (id : ι) (shared : σ) (task : Task κ ρ) :
    (s.step id shared task).ToCome p ↔ task.code.any p = true ∨ s.ToComeElsewhere p id := by
  rw [toCome_iff _ id, step_self]
  refine or_congr_right ⟨?_, ?_⟩
  · rintro ⟨other, hne, h⟩
    exact ⟨other, hne, by rwa [step_of_ne s hne] at h⟩
  · rintro ⟨other, hne, h⟩
    exact ⟨other, hne, by rwa [step_of_ne s hne]⟩

/-- A task that does nothing begins a call. -/
def start (s : State ι σ κ ρ) (id : ι) (shared : σ) (code : List κ) : Option (State ι σ κ ρ) :=
  if (s.tasks id).code = [] then some (s.step id shared ⟨code, (s.tasks id).regs⟩) else none

/-- The next instruction of a task. `exec` gives what it leaves of the shared
state and the registers, and the instructions it puts before the rest. -/
def run (exec : κ → σ → ρ → σ × ρ × List κ) (s : State ι σ κ ρ) (id : ι) :
    Option (State ι σ κ ρ) :=
  match (s.tasks id).code with
  | [] => none
  | instr :: rest =>
      let (shared, regs, more) := exec instr s.shared (s.tasks id).regs
      some (s.step id shared ⟨more ++ rest, regs⟩)

variable {exec : κ → σ → ρ → σ × ρ × List κ} {s t : State ι σ κ ρ} {id : ι}

theorem start_eq_some {shared : σ} {code : List κ} (h : s.start id shared code = some t) :
    (s.tasks id).code = [] ∧ t = s.step id shared ⟨code, (s.tasks id).regs⟩ := by
  unfold start at h
  split at h
  · rename_i hidle
    exact ⟨hidle, (Option.some.inj h).symm⟩
  · simp at h

theorem run_eq_some (h : s.run exec id = some t) :
    ∃ instr rest, (s.tasks id).code = instr :: rest ∧
      t = s.step id (exec instr s.shared (s.tasks id).regs).1
        ⟨(exec instr s.shared (s.tasks id).regs).2.2 ++ rest,
          (exec instr s.shared (s.tasks id).regs).2.1⟩ := by
  unfold run at h
  split at h
  · simp at h
  · rename_i instr rest hcode
    exact ⟨instr, rest, hcode, (Option.some.inj h).symm⟩

/-- So many instructions of a task, with nobody in between. -/
def runAlone (exec : κ → σ → ρ → σ × ρ × List κ) (id : ι) :
    ℕ → State ι σ κ ρ → Option (State ι σ κ ρ)
  | 0, s => some s
  | n + 1, s => (s.run exec id).bind (runAlone exec id n)

end State

/-- The same on a task by itself. -/
def execAll (exec : κ → σ → ρ → σ × ρ × List κ) : ℕ → σ → Task κ ρ → Option (σ × Task κ ρ)
  | 0, shared, task => some (shared, task)
  | _ + 1, _, ⟨[], _⟩ => none
  | n + 1, shared, ⟨instr :: rest, regs⟩ =>
      let (shared, regs, more) := exec instr shared regs
      execAll exec n shared ⟨more ++ rest, regs⟩

namespace State

variable [DecidableEq ι] {exec : κ → σ → ρ → σ × ρ × List κ}

theorem step_step (s : State ι σ κ ρ) (id : ι) (shared shared' : σ) (task task' : Task κ ρ) :
    (s.step id shared task).step id shared' task' = s.step id shared' task' := by
  simp [step, setTask]

theorem step_eq_self (s : State ι σ κ ρ) (id : ι) : s.step id s.shared (s.tasks id) = s := by
  simp [step, setTask]

/-- Running alone touches the shared state and the task's own part. -/
theorem runAlone_eq (id : ι) (n : ℕ) : ∀ s : State ι σ κ ρ,
    s.runAlone exec id n =
      (execAll exec n s.shared (s.tasks id)).map fun done => s.step id done.1 done.2 := by
  induction n with
  | zero => exact fun s => by simp [runAlone, execAll, step_eq_self]
  | succ n ih =>
      intro s
      rcases htask : s.tasks id with ⟨_ | ⟨instr, rest⟩, regs⟩
      · simp [runAlone, run, execAll, htask]
      · simp [runAlone, run, execAll, htask, ih, step_step]

end State

end Interleaving
