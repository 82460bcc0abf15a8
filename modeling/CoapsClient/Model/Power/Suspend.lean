import CoapsClient.Machine.WorkQueue
import Mathlib.Algebra.Group.Int.Defs
import Mathlib.Logic.Function.Basic

/-! # Suspending the board

`power_manager_suspend` and `power_manager_pulse` with the delayable work of the pulse, the table of devices, the UART with
the work that suspends it, and the 3.3V supply. The configuration is the one with `CONFIG_SUSPEND_UART` and
`CONFIG_SUSPEND_3V3`. What runs under `pm_mutex` is one step; `power_manager_pulse` reads the clock before it locks the
mutex. The measurement of the battery is left out.
-/

namespace CoapsClient.PowerManager

open Machine (Delayed)

/-- `CONFIG_SYS_CLOCK_TICKS_PER_SEC`. -/
structure Clock where
  ticksPerSec : ℕ
  positive : 0 < ticksPerSec

/-- `K_MSEC`, in ticks. -/
def Clock.msec (clock : Clock) (ms : ℕ) : ℕ := (ms * clock.ticksPerSec + 999) / 1000

def maxPmDevices : ℕ := 10

/-- `pm_device_action_run` fails in this step. -/
structure Refusals (δ : Type*) where
  devices : List δ := []
  uart : Bool := false
deriving DecidableEq

/-- The variables of `power_manager.c` and what they control. -/
structure Power (δ : Type*) where
  /-- `sys_clock_tick_get`. -/
  now : ℕ
  /-- `pm_pluse_end`. -/
  pulseEnd : ℤ := 0
  /-- `pm_suspend`. -/
  suspend : Bool := false
  /-- `pm_suspended`. -/
  suspended : Bool := false
  /-- `power_management_suspend_work`. -/
  work : Delayed := {}
  /-- `pm_dev_table`, as far as `pm_dev_counter`. -/
  table : List δ := []
  /-- The devices that are suspended. -/
  asleep : δ → Bool
  /-- The actions of devices that did not fail, `true` for `PM_DEVICE_ACTION_SUSPEND`. -/
  actions : List (δ × Bool) := []
  /-- `device_is_ready(uart_dev)`. -/
  uartReady : Bool := true
  uartSuspend : Bool := false
  uartCounter : ℕ := 0
  uartWork : Delayed := {}
  /-- The UART is suspended. -/
  uartOff : Bool := false
  /-- The 3.3V supply is enabled. -/
  supply : Bool := true

inductive Event (δ : Type*) where
  | tick
  | addDevice (dev : δ)
  /-- `power_manager_suspend`. -/
  | suspend (enable : Bool) (refusals : Refusals δ)
  /-- `power_manager_pulse`, with the ticks it has read. -/
  | pulse (time read : ℕ) (refusals : Refusals δ)
  | expire
  | begin
  /-- `power_management_suspend_fn`. -/
  | suspendFn (refusals : Refusals δ)
  | uartExpire
  | uartBegin
  /-- `suspend_uart_fn`, with `log_data_pending`. -/
  | uartFn (logDataPending : Bool) (refusals : Refusals δ)

namespace Power

variable {δ : Type*} [DecidableEq δ]

/-- `pm_device_action_run`: a device that is there already returns `-EALREADY`. -/
def actionRun (refusals : Refusals δ) (suspend : Bool) (state : Power δ) (dev : δ) : Power δ :=
  if state.asleep dev = suspend ∨ dev ∈ refusals.devices then state
  else { state with
    asleep := Function.update state.asleep dev suspend, actions := state.actions ++ [(dev, suspend)] }

/-- `suspend_devices`. -/
def suspendDevices (state : Power δ) (refusals : Refusals δ) (suspend : Bool) : Power δ :=
  (if suspend then state.table else state.table.reverse).foldl (actionRun refusals suspend) state

/-- `suspend_uart`. -/
def suspendUart (clock : Clock) (state : Power δ) (refusals : Refusals δ) (suspend : Bool) : Power δ :=
  if state.uartReady = true ∧ state.uartSuspend ≠ suspend then
    if suspend then
      { state with
        uartSuspend := true, uartCounter := 0, uartWork := state.uartWork.schedule (state.now + clock.msec 50) }
    else if state.uartOff && refusals.uart then state
    else { state with uartSuspend := false, uartOff := false }
  else state

/-- What `power_manager_apply` decides. -/
def suspends (state : Power δ) : Bool := state.suspend && decide (state.pulseEnd - state.now < 0)

/-- `power_manager_apply`. -/
def apply (clock : Clock) (state : Power δ) (refusals : Refusals δ) : Power δ :=
  let suspend := state.suspends
  if state.suspended ≠ suspend then
    let state := { state with suspended := suspend }.suspendDevices refusals suspend
    { state.suspendUart clock refusals suspend with supply := !suspend }
  else state

/-- `power_manager_pulse`. -/
def pulse (clock : Clock) (state : Power δ) (time read : ℕ) (refusals : Refusals δ) : Power δ :=
  let last : ℤ := time + read - clock.msec 50
  let state :=
    if last - state.pulseEnd > 0 then
      { state with pulseEnd := last, work := state.work.reschedule (state.now + time) }
    else state
  state.apply clock refusals

/-- `suspend_uart_fn`. -/
def suspendUartFn (clock : Clock) (state : Power δ) (logDataPending : Bool) (refusals : Refusals δ) : Power δ :=
  let state := { state with uartWork := state.uartWork.finish }
  if state.uartSuspend then
    let counter := state.uartCounter + 1
    if counter < 30 then
      { state with
        uartCounter := if logDataPending then counter else 30
        uartWork := state.uartWork.schedule (state.now + clock.msec 50) }
    else if !state.uartOff && refusals.uart then { state with uartCounter := counter, uartSuspend := false }
    else { state with uartCounter := counter, uartOff := true }
  else state

/-- `power_manager_add_device` of a device that has a power state. -/
def addDevice (state : Power δ) (dev : δ) : Power δ :=
  if state.table.length ≥ maxPmDevices then state else { state with table := state.table ++ [dev] }

/-- The queue runs one handler. -/
def busy (state : Power δ) : Bool := state.work.running || state.uartWork.running

/-- A step, none if it can't be taken. -/
def next (clock : Clock) (state : Power δ) : Event δ → Option (Power δ)
  | .tick => some { state with now := state.now + 1 }
  | .addDevice dev => some (state.addDevice dev)
  | .suspend enable refusals => some ({ state with suspend := enable }.apply clock refusals)
  | .pulse time read refusals => if read ≤ state.now then some (state.pulse clock time read refusals) else none
  | .expire => (state.work.expire state.now).map fun work => { state with work }
  | .begin => if state.busy then none else state.work.begin.map fun work => { state with work }
  | .suspendFn refusals =>
      if state.work.running then some ({ state with work := state.work.finish }.apply clock refusals) else none
  | .uartExpire => (state.uartWork.expire state.now).map fun uartWork => { state with uartWork }
  | .uartBegin => if state.busy then none else state.uartWork.begin.map fun uartWork => { state with uartWork }
  | .uartFn logDataPending refusals =>
      if state.uartWork.running then some (state.suspendUartFn clock logDataPending refusals) else none

end Power

end CoapsClient.PowerManager
