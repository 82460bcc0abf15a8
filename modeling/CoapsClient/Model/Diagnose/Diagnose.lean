import Mathlib.Algebra.Group.Int.Defs
import Mathlib.Data.UInt
import Mathlib.Logic.Function.Basic
import CoapsClient.Machine.WorkQueue

/-! # The reboot thread and the check of the work queues

`appl_reboot` and `appl_reboot_fn`. Any number of threads may call `appl_reboot`; each access to an atomic variable and
each operation of the semaphore is a step, and the threads may change between them. A call without delay is to reboot at
once, one with a delay when the delay is over.

`diagnose_work_queue_check_init` and the three delayable works it starts. Each of the works runs in another queue and
schedules the next one, the last one feeds the watchdog. A queue may be busy with other works as long as it likes.
-/

namespace CoapsClient.ApplDiagnose

open Machine (Delayed)

/-- A call of `appl_reboot`, with the delay in milliseconds. -/
structure Call where
  error : ℤ
  delayMs : UInt32
deriving DecidableEq

/-- What a caller of `appl_reboot` does next. -/
inductive Caller where
  | idle
  | setCause (call : Call)
  | setDelay (call : Call)
  | give (call : Call)
deriving DecidableEq

/-- What `appl_reboot_fn` does next. -/
inductive Phase where
  /-- `k_sem_take` with `K_FOREVER`. -/
  | waits
  /-- The cause is read, and recorded. -/
  | records
  | testsFlag
  /-- `shutdown_delay` is read. -/
  | readsDelay
  /-- `k_sem_take` that times out. -/
  | sleeps (timeout : ℕ)
  /-- The flag is tested after `k_sem_take`. -/
  | woken
  /-- `sys_reboot`. -/
  | reboots
deriving DecidableEq

/-- The variables of the reboot, and the threads. -/
structure Reboot (ι : Type*) where
  /-- The time in milliseconds. -/
  now : ℕ := 0
  /-- `DIAGNOSE_REBOOTS` of `diagnose_flags`. -/
  reboots : Bool := false
  /-- `DIAGNOSE_SHUTDOWN_NOW` of `diagnose_flags`. -/
  shutdownNow : Bool := false
  rebootCause : ℤ := -1
  /-- `shutdown_delay`, as `appl_reboot_fn` reads it. -/
  shutdownDelay : UInt32 := -1
  /-- `appl_diagnose_shutdown`. -/
  shutdown : Bool := false
  phase : Phase := .waits
  caller : ι → Caller := fun _ => .idle
  /-- The codes given to `appl_settings_add_reboot_code`. -/
  recorded : List UInt16 := []
  /-- The calls that began. -/
  calls : List Call := []

namespace Reboot

variable {ι : Type*} [DecidableEq ι]

inductive Event (ι : Type*) where
  | tick
  /-- A thread calls `appl_reboot`. -/
  | call (thread : ι) (call : Call)
  /-- The caller goes on. -/
  | proceed (thread : ι)
  /-- `appl_reboot_fn` goes on. -/
  | run

/-- A thread is at another place in `appl_reboot`. -/
def goes (state : Reboot ι) (thread : ι) (caller : Caller) : Reboot ι :=
  { state with caller := Function.update state.caller thread caller }

/-- A caller goes on. -/
def applReboot (state : Reboot ι) (thread : ι) : Option (Reboot ι) :=
  match state.caller thread with
  | .idle => none
  | .setCause call => some ({ state with rebootCause := call.error }.goes thread (.setDelay call))
  | .setDelay call =>
      let state :=
        if 0 < call.delayMs then { state with shutdownDelay := call.delayMs } else { state with shutdownNow := true }
      some (state.goes thread (.give call))
  | .give _ => some ({ state with shutdown := true }.goes thread .idle)

/-- `appl_reboot_fn` goes on, none if it waits or has rebooted. -/
def applRebootFn (state : Reboot ι) : Option (Reboot ι) :=
  match state.phase with
  | .waits => if state.shutdown then some { state with shutdown := false, phase := .records } else none
  | .records =>
      let recorded :=
        if state.rebootCause ≥ 0 then state.recorded ++ [UInt16.ofNat state.rebootCause.toNat] else state.recorded
      some { state with recorded, phase := .testsFlag }
  | .testsFlag => some { state with phase := if state.shutdownNow then .reboots else .readsDelay }
  | .readsDelay =>
      let phase := if 0 < state.shutdownDelay then .sleeps (state.now + state.shutdownDelay.toNat) else .reboots
      some { state with phase }
  | .sleeps timeout =>
      if state.shutdown then some { state with shutdown := false, phase := .woken }
      else if timeout ≤ state.now then some { state with phase := .reboots }
      else none
  | .woken => some { state with phase := if state.shutdownNow then .reboots else .readsDelay }
  | .reboots => none

/-- A step, none if it can't be taken. After `sys_reboot` nothing runs. -/
def next (state : Reboot ι) (event : Event ι) : Option (Reboot ι) :=
  if state.phase = .reboots then none
  else match event with
  | .tick => some { state with now := state.now + 1 }
  | .call thread call =>
      if state.caller thread = .idle then
        some ({ state with reboots := true, calls := state.calls ++ [call] }.goes thread (.setCause call))
      else none
  | .proceed thread => state.applReboot thread
  | .run => state.applRebootFn

end Reboot

/-- `WATCHDOG_TIMEOUT_S`. -/
def watchdogTimeoutS : ℕ := 60 * 5

/-- `wdt_config.window.max`, in milliseconds. -/
def windowMax : ℕ := (watchdogTimeoutS + 10) * 1000

/-- The works of the check, each named by what it checks next. -/
inductive Check where
  /-- `diagnose_watchdog_io_queue_work`, in the queue of the commands. -/
  | ioQueue
  /-- `diagnose_watchdog_system_queue_work`, in the io queue. -/
  | systemQueue
  /-- `diagnose_watchdog_feed_work`, in the queue of the system. -/
  | feed
deriving DecidableEq

namespace Check

/-- The work a handler schedules. -/
def next : Check → Check
  | ioQueue => systemQueue
  | systemQueue => feed
  | feed => ioQueue

/-- The delay it schedules the work with. -/
def delay : Check → ℕ
  | ioQueue | systemQueue => 100
  | feed => watchdogTimeoutS / 2 * 1000

end Check

/-- The works, and the watchdog of the queues. -/
structure Watchdog where
  /-- The time in milliseconds. -/
  now : ℕ := 0
  /-- `wdt_queue_channel_id` is there. -/
  installed : Bool
  work : Check → Delayed := fun _ => {}
  /-- The handler that runs has done its work. -/
  done : Check → Bool := fun _ => false
  /-- The handlers in the order they did their work. -/
  runs : List Check := []
  /-- The times of `wdt_feed`. -/
  feeds : List ℕ := []
  /-- The time the last work was scheduled for. -/
  dueAt : ℕ := 0

namespace Watchdog

/-- A work is scheduled. -/
def schedule (state : Watchdog) (check : Check) (delay : ℕ) : Watchdog :=
  { state with
    work := Function.update state.work check ((state.work check).schedule (state.now + delay))
    dueAt := state.now + delay }

/-- `diagnose_work_queue_check_init`. -/
def checkInit (state : Watchdog) : Watchdog :=
  if state.installed then state.schedule .ioQueue Check.feed.delay else state

/-- `diagnose_watchdog_io_queue_fn`, `diagnose_watchdog_system_queue_fn` and `diagnose_watchdog_feed_fn`. -/
def handle (state : Watchdog) (check : Check) : Watchdog :=
  let state := { state with runs := state.runs ++ [check], done := Function.update state.done check true }
  match check with
  | .ioQueue | .systemQueue => state.schedule check.next check.delay
  | .feed => { state with feeds := state.feeds ++ [state.now] }.checkInit

inductive Event where
  | tick
  | expire (check : Check)
  | begin (check : Check)
  | handle (check : Check)
  | finish (check : Check)
deriving DecidableEq

/-- A step, none if it can't be taken. -/
def next (state : Watchdog) : Event → Option Watchdog
  | .tick => some { state with now := state.now + 1 }
  | .expire check =>
      ((state.work check).expire state.now).map fun work => { state with work := Function.update state.work check work }
  | .begin check =>
      (state.work check).begin.map fun work =>
        { state with
          work := Function.update state.work check work, done := Function.update state.done check false }
  | .handle check =>
      if (state.work check).running = true ∧ state.done check = false then some (state.handle check) else none
  | .finish check =>
      if (state.work check).running = true ∧ state.done check = true then
        some { state with work := Function.update state.work check (state.work check).finish }
      else none

end Watchdog

end CoapsClient.ApplDiagnose
