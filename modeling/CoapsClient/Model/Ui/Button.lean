import Mathlib.Algebra.Group.Int.Defs
import Mathlib.Tactic.Common

/-! # The call button

`ui_button_pressed`, which is called by the interrupt of the pin, and `ui_button_enable_interrupt_fn` and
`ui_button_handle_fn` with their work items, which the io queue runs one after the other. The interrupt is disabled as long
as the pin bounces and is enabled again for the other level. `ui_input` sets `ui_input_duration` back at any time; what it
waits for and what it returns is left out, as are the LEDs and `ui_enable`.
-/

namespace CoapsClient.Ui

def buttonLongMs : ℕ := 5000
def buttonDebounceMs : ℕ := 50
def buttonMinPauseMs : ℕ := 1000

/-- `ui_heap`, as the number of notifications it has room for, and `button_callback`. -/
structure ButtonSetup where
  room : ℕ
  positive : 0 < room
  callback : Bool

/-- `button_enable_interrupt_work`, `button_work` and `button_timer_work`. -/
inductive ButtonWork where
  | enableInterrupt | button | timer
deriving DecidableEq, Repr

/-- What a press of the button comes to. -/
inductive Outcome where
  | short
  | long
  /-- The pause was too short. -/
  | ignored
  /-- `ui_input` set `ui_input_duration` back. -/
  | dropped
deriving DecidableEq, Repr

/-- A press that is done. -/
structure Press where
  number : ℕ
  start : ℕ
  time : ℕ
  outcome : Outcome
  /-- `button_callback` was called. -/
  reported : Bool
deriving DecidableEq, Repr

/-- The press is an input of the user. -/
def Outcome.isInput (outcome : Outcome) : Bool := decide (outcome = .short) || decide (outcome = .long)

/-- The variables of the button, its pin, and its work items. -/
structure Button where
  /-- `k_uptime_get`. -/
  now : ℕ := 0
  /-- The pin. -/
  level : Bool
  /-- The level the interrupt is enabled for. -/
  armed : Option Bool := some true
  /-- `button_active`. -/
  active : Bool
  /-- `button_counter`. -/
  counter : ℕ := 0
  /-- The time `button_enable_interrupt_work` is set to. -/
  enableDue : Option ℕ := none
  /-- The time `button_timer_work` is set to. -/
  timerDue : Option ℕ := none
  /-- The items of the button in the io queue. -/
  queue : List ButtonWork := []
  /-- `ui_call_button_fifo`. -/
  fifo : List ℤ := []
  /-- `ui_input_duration`. -/
  duration : ℕ := 0
  last : ℕ := 0
  start : ℕ := 0
  prioMode : Bool := false
  /-- The notifications taken from the fifo. -/
  handled : List ℤ := []
  /-- The counter of the press that was handled last. -/
  press : ℕ := 0
  /-- The presses that are done. -/
  presses : List Press := []
deriving DecidableEq

namespace Button

/-- `ui_init_button`. -/
def init (level : Bool) : Button := { level, active := level }

/-- `work_submit_to_io_queue`. -/
def submit (queue : List ButtonWork) (work : ButtonWork) : List ButtonWork :=
  if work ∈ queue then queue else queue ++ [work]

/-- `ui_button_pressed`. -/
def pressed (state : Button) : Button :=
  { state with armed := none, enableDue := some (state.now + buttonDebounceMs) }

/-- `ui_button_enable_interrupt_fn`. -/
def enableInterrupt (setup : ButtonSetup) (state : Button) : Button :=
  let button := state.level
  let state :=
    if state.active ≠ button then
      let counter := state.counter + 1
      if state.fifo.length < setup.room then
        { state with
          counter
          fifo := state.fifo ++ [if button then (counter : ℤ) else -counter]
          queue := submit state.queue .button }
      else { state with counter }
    else state
  { state with active := button, armed := some (!button) }

/-- The last notification that was handled is a press. -/
def down (state : Button) : Bool := state.handled.getLast?.any (0 < ·)

/-- The press is done. -/
def done (setup : ButtonSetup) (state : Button) (outcome : Outcome) : Button :=
  let reported := outcome.isInput && !state.prioMode && setup.callback
  { state with
    presses := state.presses ++ [{ number := state.press, start := state.start, time := state.now, outcome, reported }] }

/-- `ui_button_handle_fn` with `button_work`. -/
def handleButton (setup : ButtonSetup) (state : Button) : Button :=
  match state.fifo with
  | [] => state
  | notif :: fifo =>
      let state := { state with fifo, handled := state.handled ++ [notif] }
      if 0 < notif then
        { state with
          duration := 1, start := state.now, timerDue := some (state.now + buttonLongMs), press := notif.natAbs }
      else
        let state := { state with timerDue := none, queue := state.queue.filter (· ≠ .timer) }
        if state.duration = 1 then
          if buttonMinPauseMs < state.now - state.last then
            { state.done setup .short with duration := 2, last := state.now }
          else state.done setup .ignored
        else state

/-- `ui_button_handle_fn` with `button_timer_work`. -/
def handleTimer (setup : ButtonSetup) (state : Button) : Button :=
  if state.duration = 1 then { state.done setup .long with duration := 3, last := state.now } else state

/-- `ui_input` sets the duration back, when it begins and when it returns an input. -/
def clearInput (setup : ButtonSetup) (state : Button) : Button :=
  { (if state.duration = 1 ∧ state.down then state.done setup .dropped else state) with duration := 0 }

inductive Event where
  | tick
  /-- The pin has this level. -/
  | pin (level : Bool)
  | interrupt
  | expireEnable
  | expireTimer
  /-- The io queue runs its first item. -/
  | run
  | input
  /-- `ui_prio`. -/
  | prio (enable : Bool)
deriving DecidableEq

/-- The io queue runs an item. -/
def handle (setup : ButtonSetup) (state : Button) : ButtonWork → Button
  | .enableInterrupt => state.enableInterrupt setup
  | .button => state.handleButton setup
  | .timer => state.handleTimer setup

/-- The time has come. -/
def come (due : Option ℕ) (now : ℕ) : Bool := due.any (· ≤ now)

/-- A step, none if it can't be taken. -/
def next (setup : ButtonSetup) (state : Button) : Event → Option Button
  | .tick => some { state with now := state.now + 1 }
  | .pin level => some { state with level }
  | .interrupt => if state.armed = some state.level then some state.pressed else none
  | .expireEnable =>
      if come state.enableDue state.now then
        some { state with enableDue := none, queue := submit state.queue .enableInterrupt }
      else none
  | .expireTimer =>
      if come state.timerDue state.now then
        some { state with timerDue := none, queue := submit state.queue .timer }
      else none
  | .run =>
      match state.queue with
      | [] => none
      | work :: queue => some ({ state with queue }.handle setup work)
  | .input => some (state.clearInput setup)
  | .prio enable => some { state with prioMode := enable }

end Button

end CoapsClient.Ui
