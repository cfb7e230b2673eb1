import OmegaStick.Library.Transition
import OmegaStick.Library.Interleaving
import OmegaStick.Calibration.Monitor
import OmegaStick.Store.Basic

/-!
# The tasks around the store

The console's tasks, one per link, and the polling loop, from the moment the
services start answering.  One locked access to the store is one step, and so
is one application of a calibration to the joystick, one file written, and the
test of the joystick's pointer; between any two steps of a task all others may
run.

`Instr.exec` says what each step does.  The calls are lists of instructions: a
request of the console, a drift correction, the save and the store part of a
sweep, and the construction of the joystick, which the loop does first.
-/

namespace OmegaStick

open Interleaving TransitionSystem

/-! ## State -/

/-- The polling loop, and one task for each link. -/
inductive TaskId (ι : Type*) where
  | loop
  | link (i : ι)
  deriving DecidableEq, Repr

/-- A change of the store, made under its lock. -/
inductive StoreWrite (F : Type*) where
  | edit (change : ConsoleEdit F)
  | setMeasuredCalibration (center : CenterResult F) (range : RangeResult F)
  deriving DecidableEq, Repr

def StoreWrite.apply {F : Type*} (write : StoreWrite F) (store : OmegaStore F) : OmegaStore F :=
  match write with
  | .edit change => change.apply store
  | .setMeasuredCalibration center range => store.setMeasuredCalibration center range

/-- The store after some of its changes. -/
def storeAfter {F : Type*} (boot : OmegaStore F) (log : List (StoreWrite F)) : OmegaStore F :=
  log.foldl (fun store write => write.apply store) boot

/-- What the tasks share. -/
structure Board (F : Type*) where
  /-- The store as it was when the services began to answer. -/
  boot : OmegaStore F
  store : OmegaStore F
  /-- Every change of the store so far, oldest first. -/
  log : List (StoreWrite F)
  /-- What was last applied to the joystick; `none` before it is built. -/
  joystick : Option (JoystickCalibration F)
  /-- `live_joystick` is set. -/
  published : Bool
  /-- What was last saved to each file, and after how many changes of the store
  it was copied; `none` before the first save. -/
  files : StoreFile → Option (ℕ × OmegaStore F)
  /-- The SAVE_TO_FLASH requests answered OK, by the number of changes before
  their snapshot. -/
  answered : List ℕ
  /-- The loop's own copies. -/
  center : CenterResult F
  range : RangeResult F

/-- What a task has read of the store. `version` counts the changes before its
last snapshot. -/
structure Regs (F : Type*) where
  read : OmegaStore F
  version : ℕ

/-! ## Instructions -/

inductive StoreField where
  | center
  | range
  | settings
  deriving DecidableEq, Repr

/-- The order in which the arguments of `apply_calibration` are evaluated,
which the language leaves open. -/
structure ReadOrder where
  fields : List StoreField
  perm : fields.Perm [.center, .range, .settings]

inductive Instr (F : Type*) where
  /-- A console setter's locked section. -/
  | edit (change : ConsoleEdit F) (order : ReadOrder)
  /-- The locked section of `set_measured_calibration`. -/
  | setMeasuredCalibration (center : CenterResult F) (range : RangeResult F) (order : ReadOrder)
  /-- `on_calibration_changed`: tests the pointer. -/
  | onCalibrationChanged (order : ReadOrder)
  | read (field : StoreField)
  /-- The callback's `apply_calibration`, of what was read. -/
  | apply
  /-- `center = store.center()` -/
  | readBack
  /-- The loop's `apply_calibration`: its own center and range, and the settings read. -/
  | applyLocal
  /-- The joystick is built, from the loop's copies and the settings read. -/
  | build
  /-- `live_joystick = &js` -/
  | publish
  | snapshot
  | write (file : StoreFile)
  /-- SAVE_TO_FLASH is answered OK. -/
  | answer

/-- `save_to_flash` -/
def saveToFlash {F : Type*} : List (Instr F) := [.snapshot, .write .calibration, .write .settings]

/-- The callback a setter fires after its locked section. Setting the active
mode does nothing; another one is saved, and the restart that follows ends the
run. -/
def callback {F : Type*} (change : ConsoleEdit F) (order : ReadOrder) (store : OmegaStore F) :
    List (Instr F) :=
  match change with
  | .setManualOffset .. | .setDeadzoneOverride .. => [.onCalibrationChanged order]
  | .setInputMode mode => if (store.setInputMode mode).1 then saveToFlash else []
  | .setNudgeSettings .. | .setNudgeEnabled _ => []

namespace Board

variable {F : Type*}

def write (b : Board F) (write : StoreWrite F) : Board F :=
  { b with store := write.apply b.store, log := b.log ++ [write] }

variable [MachineFloat F]

/-- What the store holds, as a calibration of the joystick. -/
def current (b : Board F) : JoystickCalibration F :=
  applyCalibration b.store.center b.store.range b.store.settings

/-- What the loop applies, with the settings it read. -/
def loopCalibration (b : Board F) (regs : Regs F) : JoystickCalibration F :=
  applyCalibration b.center b.range regs.read.settings

end Board

/-- What the callback applies. -/
def Regs.calibration {F : Type*} [MachineFloat F] (regs : Regs F) : JoystickCalibration F :=
  applyCalibration regs.read.center regs.read.range regs.read.settings

/-- Reads one member of the store. -/
def Regs.readField {F : Type*} (regs : Regs F) (field : StoreField) (store : OmegaStore F) :
    Regs F :=
  match field with
  | .center => { regs with read := { regs.read with center := store.center } }
  | .range => { regs with read := { regs.read with range := store.range } }
  | .settings => { regs with read := { regs.read with settings := store.settings } }

section Exec

variable {F : Type*} [MachineFloat F]

/-- One step of a task: the board, its registers, and what it does next. -/
def Instr.exec (instr : Instr F) (b : Board F) (regs : Regs F) :
    Board F × Regs F × List (Instr F) :=
  match instr with
  | .edit change order => (b.write (.edit change), regs, callback change order b.store)
  | .setMeasuredCalibration center range order =>
      (b.write (.setMeasuredCalibration center range), regs, [.onCalibrationChanged order])
  | .onCalibrationChanged order =>
      (b, regs, if b.published then order.fields.map .read ++ [.apply] else [])
  | .read field => (b, regs.readField field b.store, [])
  | .apply => ({ b with joystick := some regs.calibration }, regs, [])
  | .readBack => ({ b with center := b.store.center }, regs, [])
  | .applyLocal | .build => ({ b with joystick := some (b.loopCalibration regs) }, regs, [])
  | .publish => ({ b with published := true }, regs, [])
  | .snapshot => (b, ⟨b.store, b.log.length⟩, [])
  | .write file =>
      ({ b with files := Function.update b.files file (some (regs.version, regs.read)) }, regs, [])
  | .answer => ({ b with answered := b.answered ++ [regs.version] }, regs, [])

/-! ## Calls -/

/-- A request of the console that touches the store. -/
inductive ConsoleCall (F : Type*) where
  | edit (change : ConsoleEdit F) (order : ReadOrder)
  | saveToFlash

def ConsoleCall.code : ConsoleCall F → List (Instr F)
  | .edit change order => [.edit change order]
  | .saveToFlash => OmegaStick.saveToFlash ++ [.answer]

/-- What the loop does with the store in a tick. -/
inductive LoopCall (F : Type*) where
  /-- A drift correction, which is saved every so often. -/
  | drift (compensator : DriftCompensator F) (rawX rawY : F) (save : Bool) (order : ReadOrder)
  /-- A successful sweep's result. -/
  | sweep (center : CenterResult F) (range : RangeResult F) (order : ReadOrder)

/-- The loop's copies as the call begins, and the rest of the call. -/
def LoopCall.begin (b : Board F) : LoopCall F → Board F × List (Instr F)
  | .drift compensator rawX rawY save order =>
      let center := compensator.nudge rawX rawY b.center
      ({ b with center := center },
        [.setMeasuredCalibration center b.range order, .readBack, .read .settings, .applyLocal] ++
          if save then OmegaStick.saveToFlash else [])
  | .sweep center range order =>
      ({ b with range := range },
        [.setMeasuredCalibration center range order, .readBack] ++ OmegaStick.saveToFlash)

/-- `make_joystick_config(center, range, store.settings(), ..)`, and the pointer. -/
def buildJoystick {F : Type*} : List (Instr F) := [.read .settings, .build, .publish]

/-! ## The interleaving -/

/-- The board and every task. -/
abbrev Tasks (ι F : Type*) := State (TaskId ι) (Board F) (Instr F) (Regs F)

inductive TaskStep (ι F : Type*) where
  | request (i : ι) (call : ConsoleCall F)
  | loop (call : LoopCall F)
  /-- The next instruction of a task. -/
  | run (id : TaskId ι)
  /-- The next instruction is a write, and the file cannot be opened. -/
  | fail (id : TaskId ι)

/-- What a failed write leaves undone: the rest of the save, and its answer. -/
def Instr.ofSave : Instr F → Bool
  | .snapshot | .write _ | .answer => true
  | _ => false

def Tasks.next {ι : Type*} [DecidableEq ι] (s : Tasks ι F) : TaskStep ι F → Option (Tasks ι F)
  | .request i call => s.start (.link i) s.shared call.code
  | .loop call =>
      let (b, code) := call.begin s.shared
      s.start .loop b code
  | .run id => s.run Instr.exec id
  | .fail id =>
      match (s.tasks id).code with
      | .write _ :: rest =>
          some (s.step id s.shared ⟨rest.dropWhile Instr.ofSave, (s.tasks id).regs⟩)
      | _ => none

/-- The services start answering: the loop's copies are those the store was set
to, and the joystick is still to be built. -/
structure Tasks.Booted {ι : Type*} (s : Tasks ι F) : Prop where
  store : s.shared.store = s.shared.boot
  log : s.shared.log = []
  joystick : s.shared.joystick = none
  published : s.shared.published = false
  files : ∀ file, s.shared.files file = none
  answered : s.shared.answered = []
  center : s.shared.center = s.shared.boot.center
  range : s.shared.range = s.shared.boot.range
  loop : (s.tasks .loop).code = buildJoystick
  link : ∀ i, (s.tasks (.link i)).code = []

/-- Every interleaving. -/
def tasks {ι F : Type*} [MachineFloat F] [DecidableEq ι] :
    TransitionSystem (Tasks ι F) (TaskStep ι F) :=
  .ofOption Tasks.Booted Tasks.next

end Exec

/-! ## What one step does -/

section Steps

variable {ι F : Type*} [MachineFloat F] [DecidableEq ι] {s t : Tasks ι F}

/-- A step, with the task that took it, what it leaves of the board, and the
task's new code. -/
inductive Taken (s t : Tasks ι F) : TaskStep ι F → Prop where
  | request (i : ι) (call : ConsoleCall F) (hidle : (s.tasks (.link i)).code = [])
      (ht : t = s.step (.link i) s.shared ⟨call.code, (s.tasks (.link i)).regs⟩) :
      Taken s t (.request i call)
  | loop (call : LoopCall F) (hidle : (s.tasks .loop).code = [])
      (ht : t = s.step .loop (call.begin s.shared).1
        ⟨(call.begin s.shared).2, (s.tasks .loop).regs⟩) : Taken s t (.loop call)
  | run (id : TaskId ι) (instr : Instr F) (rest : List (Instr F))
      (hcode : (s.tasks id).code = instr :: rest)
      (ht : t = s.step id (instr.exec s.shared (s.tasks id).regs).1
        ⟨(instr.exec s.shared (s.tasks id).regs).2.2 ++ rest,
          (instr.exec s.shared (s.tasks id).regs).2.1⟩) : Taken s t (.run id)
  | fail (id : TaskId ι) (file : StoreFile) (rest : List (Instr F))
      (hcode : (s.tasks id).code = .write file :: rest)
      (ht : t = s.step id s.shared ⟨rest.dropWhile Instr.ofSave, (s.tasks id).regs⟩) :
      Taken s t (.fail id)

theorem taken_of_next {step : TaskStep ι F} (h : s.next step = some t) : Taken s t step := by
  cases step with
  | request i call =>
      obtain ⟨hidle, ht⟩ := State.start_eq_some h
      exact .request i call hidle ht
  | loop call =>
      obtain ⟨hidle, ht⟩ := State.start_eq_some h
      exact .loop call hidle ht
  | run id =>
      have hrun : s.run Instr.exec id = some t := h
      obtain ⟨instr, rest, hcode, ht⟩ := State.run_eq_some hrun
      exact .run id instr rest hcode ht
  | fail id =>
      simp only [Tasks.next] at h
      split at h
      · rename_i file rest hcode
        exact .fail id file rest hcode (Option.some.inj h).symm
      · simp at h

end Steps

end OmegaStick
