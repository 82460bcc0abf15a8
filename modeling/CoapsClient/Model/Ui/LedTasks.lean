import Mathlib.Data.UInt
import Mathlib.Logic.Function.Basic

/-! # LED tasks

`ui_led_tasks` and `ui_led_task_fn`. The function runs in the thread that calls `ui_led_tasks` and, with the delayable work
`ui_led_task_work`, in the thread of the io queue. It takes its task while it holds `ui_mutex`, and shows it and schedules
the work after it has released it, so that the threads may change between these parts. What is shown is given to
`ui_led_op`; the pulse of the power manager is left out.
-/

namespace CoapsClient.Ui

/-- `led_t`. -/
inductive Led where
  | none | colorRed | colorBlue | colorGreen | colorAll | lte1 | lte2 | lte3
deriving DecidableEq, Repr

/-- `led_op_t`. -/
inductive LedOp where
  | clear | set | toggle | blink | blinking | internalTimer
deriving DecidableEq, Repr

/-- `led_task_t`. -/
structure LedTask where
  loop : UInt16 := 0
  timeMs : UInt16 := 0
  led : Led := .none
  op : LedOp := .clear
deriving DecidableEq, Repr

/-- `ui_led_task`, `ui_led_loop` and `ui_led_loop_counter`. The pointers are positions in the array of `ui_led_tasks`. -/
structure LedProgram where
  tasks : List LedTask := []
  task : Option ℕ := none
  loop : Option ℕ := none
  loopCounter : UInt16 := 0
deriving DecidableEq, Repr

namespace LedProgram

/-- The pointers after a task with a `loop`, and unchanged after another one. -/
def enter (program : LedProgram) (position : ℕ) (task : LedTask) : LedProgram :=
  if task.loop ≠ 0 then
    if program.loop ≠ some position then
      { program with loop := some position, loopCounter := task.loop - 1 }
    else { program with loopCounter := program.loopCounter - 1 }
  else program

/-- The task behind a position, or back at the loop. -/
def advance (program : LedProgram) (position : ℕ) (following : LedTask) : LedProgram :=
  if (following.loop ≠ 0 ∨ following.timeMs = 0) ∧ program.loopCounter ≠ 0 then
    { program with task := program.loop }
  else { program with task := some (position + 1) }

/-- The part of `ui_led_task_fn` with `ui_mutex` and the task it takes, none if it reads behind the array. -/
def take (program : LedProgram) : Option (LedTask × LedProgram) :=
  match program.task with
  | none => some ({}, program)
  | some position => do
      let task ← program.tasks[position]?
      let program := program.enter position task
      if task.timeMs ≠ 0 then
        let following ← program.tasks[position + 1]?
        some (task, program.advance position following)
      else some (task, program)

end LedProgram

/-- Where a thread is in `ui_led_task_fn`. -/
inductive Phase where
  | idle
  | entered
  | taken (task : LedTask)
deriving DecidableEq

/-- The variables of the tasks and the threads, `none` for the io queue and `some` for a caller of `ui_led_tasks`. -/
structure LedTasks (ι : Type*) where
  program : LedProgram := {}
  /-- The delay of `ui_led_task_work`. -/
  work : Option ℕ := none
  phase : Option ι → Phase := fun _ => .idle
  /-- The tasks taken since the pointers were set. -/
  taken : List LedTask := []
  /-- The tasks given to `ui_led_op` since then. -/
  shown : List LedTask := []

/-- What a thread does next. -/
inductive Event (ι : Type*) where
  /-- The first part of `ui_led_tasks`. -/
  | tasks (caller : ι) (tasks : List LedTask)
  /-- The io queue starts `ui_led_task_fn`. -/
  | expire
  /-- A thread takes its task. -/
  | take (thread : Option ι)
  /-- A thread shows its task and schedules the work. -/
  | op (thread : Option ι)

namespace LedTasks

variable {ι : Type*} [DecidableEq ι]

def setPhase (state : LedTasks ι) (thread : Option ι) (phase : Phase) : LedTasks ι :=
  { state with phase := Function.update state.phase thread phase }

/-- The part of `ui_led_task_fn` behind the mutex: a task without a LED ends it. -/
def perform (state : LedTasks ι) (task : LedTask) : LedTasks ι :=
  if task.led ≠ .none then
    { state with
      shown := state.shown ++ [task]
      work := if task.timeMs ≠ 0 then some task.timeMs.toNat else state.work }
  else state

/-- An event, none if the thread is elsewhere or a read leaves the array. -/
def next (state : LedTasks ι) : Event ι → Option (LedTasks ι)
  | .tasks caller tasks =>
      if state.phase (some caller) = .idle then
        some { state.setPhase (some caller) .entered with program := { tasks, task := some 0 }, taken := [], shown := [] }
      else none
  | .expire =>
      if state.work.isSome ∧ state.phase none = .idle then some { state.setPhase none .entered with work := none }
      else none
  | .take thread =>
      if state.phase thread = .entered then
        state.program.take.map fun (task, program) =>
          { state.setPhase thread (.taken task) with program, taken := state.taken ++ [task] }
      else none
  | .op thread =>
      match state.phase thread with
      | .taken task => some ((state.setPhase thread .idle).perform task)
      | _ => none

end LedTasks

/-- `led_reboot`. -/
def ledReboot : List LedTask :=
  [{ loop := 4, timeMs := 499, led := .colorRed, op := .set },
    { timeMs := 1, led := .colorRed, op := .clear },
    { timeMs := 499, led := .colorBlue, op := .set },
    { timeMs := 1, led := .colorBlue, op := .clear },
    { timeMs := 0, led := .colorAll, op := .clear }]

/-- `led_no_host`. -/
def ledNoHost : List LedTask :=
  [{ timeMs := 1000, led := .colorAll, op := .set },
    { timeMs := 1000, led := .colorAll, op := .clear },
    { timeMs := 1000, led := .colorBlue, op := .set },
    { timeMs := 1000, led := .colorBlue, op := .clear },
    { loop := 2, timeMs := 1000, led := .colorRed, op := .set },
    { timeMs := 1000, led := .colorRed, op := .clear },
    { timeMs := 0, led := .colorRed, op := .clear }]

/-- `led_all`. -/
def ledAll : List LedTask :=
  [{ loop := 3, timeMs := 1000, led := .colorAll, op := .set },
    { timeMs := 1000, led := .colorAll, op := .clear },
    { loop := 1, timeMs := 1000, led := .colorBlue, op := .set },
    { timeMs := 1000, led := .colorBlue, op := .clear },
    { loop := 4, timeMs := 1000, led := .colorRed, op := .set },
    { timeMs := 1000, led := .colorRed, op := .clear },
    { timeMs := 0, led := .colorRed, op := .clear }]

end CoapsClient.Ui
