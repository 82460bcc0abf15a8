import CoapsClient.Model.Shell.Dispatch
import CoapsClient.Machine.Threads
import CoapsClient.Machine.Path

/-! # The shell-command module under concurrency

Callers, the command work queue and the modem's callbacks share `sh_cmd_state`, the command buffer
and the queue of remote commands. Every access to them is one instruction, and the instructions of
different threads interleave in any order. Program zero is the work queue's thread; it takes a pending
work item only when it has finished the one before. The delay of a scheduled command may expire at any
time.

What depends on the rest of the firmware is the choice of a turn: the clock, the password, the result
of a handler and whether it started an asynchronous AT command, the result of `modem_at_cmd_async`.
A handler that appends commands itself is covered by a caller whose turns fall inside the handler.

`placed`, `ran`, `accepted`, `dispatched` and `discarded` record what happened; no branch reads them.
-/

namespace CoapsClient.ShCmd

open Machine

/-- Through which function a command came. -/
inductive Origin where
  | shell
  | scheduled
  | queued
deriving DecidableEq, Repr

structure Command where
  text : Text
  origin : Origin
deriving DecidableEq, Repr

/-- Whether a command is run as insecure. -/
def Command.insecure (command : Command) : Bool := command.origin == .shell

/-- The remote command of a text. -/
def remote (text : Text) : Command := ⟨text, .queued⟩

/-- `lte_at_response_handler`: whose answer the modem owes. It is cleared only after the callback. -/
inductive Flight where
  | idle
  | shellAnswer
  | handlerAnswer
  | answering
deriving DecidableEq, Repr

structure Shared where
  executing : Bool := false
  atPending : Bool := false
  queued : Bool := false
  buffer : Text := []
  queue : List Text := []
  executeWork : Bool := false
  scheduleWork : Bool := false
  responseWork : Bool := false
  flight : Flight := .idle
  response : Text := []
  window : Window := {}
  placed : List Command := []
  ran : List (Text × Bool) := []
  accepted : List Command := []
  dispatched : List Text := []
  discarded : List Command := []
deriving DecidableEq, Repr

inductive Instr where
  /-- The test of `sh_cmd_execute` and `sh_cmd_schedule`. -/
  | place (command : Command)
  /-- `strncpy` into `sh_cmd_buf`. -/
  | load (command : Command)
  /-- Submit `sh_cmd_execute_work` or reschedule `sh_cmd_schedule_work`. -/
  | submit (insecure : Bool)
  | enqueue (head : Bool) (text : Text)
  | setQueued
  /-- The test of `sh_cmd_wait_fn`. -/
  | waitFn
  | queueGet
  | clearQueued
  | clearExecuting
  /-- `sh_cmd` up to the handler or the modem. -/
  | shCmd (insecure : Bool)
  /-- The test of `AT_PENDING` before a handler or the modem is called. -/
  | testAtPending (handler : Option (Entry × Text))
  | atHandler (entry : Entry) (parameter : Text)
  /-- `if (!modem_at_async_pending()) sh_cmd_at_finish()`. -/
  | asyncCheck
  | modemAtCmdAsync
  /-- `sh_cmd_result`, called for a command or for an AT response. -/
  | result (fromResponse : Bool) (res : Int)
  | atFinish
  | submitResponse (response : Text)
  | clearFlight
deriving DecidableEq, Repr

/-- What a turn takes from outside the module. -/
structure Choice where
  now : ℕ := 0
  password : Text := []
  handlerResult : Int := 0
  startsAsync : Bool := false
  asyncResult : Int := 0
deriving DecidableEq, Repr

/-- `RESULT(X)`. -/
def resultOf (res : Int) : Int := if res < 0 then res else 0

/-- `-EBUSY`. -/
def ebusy : Int := -16

/-- The result `at_cmd_response_fn` passes on. -/
def responseResult (response : Text) : Int :=
  if 0 < strend response "OK".toList false then 1
  else if 0 < strend response "ERROR".toList false then 1
  else -1

/-- The window after the handler of an entry ran. -/
def handlerWindow (entry : Entry) (window : Window) (choice : Choice) (parameter : Text) : Window :=
  match entry.handler with
  | some handler => handler.run window choice.now choice.password parameter
  | none => window

/-- What `sh_cmd` goes on with. -/
def shCmdRest (table : List Entry) (shared : Shared) (insecure : Bool) (choice : Choice) :
    Window × List Instr :=
  let (branch, window) := dispatch table shared.window choice.now shared.buffer insecure
  match branch with
  | .unsupported _ => (window, [.result false 1])
  | .refused _ => (window, [.result false 1])
  | .handled entry parameter true => (window, [.testAtPending (some (entry, parameter))])
  | .handled entry parameter false =>
      (handlerWindow entry window choice parameter, [.result false (resultOf choice.handlerResult)])
  | .modem text =>
      (window, if 0 < strstart text "AT".toList true then [.testAtPending none] else [.result false (-1)])

/-- Execute one instruction; the list is what it goes on with. -/
def exec (table : List Entry) (shared : Shared) (instr : Instr) (choice : Choice) :
    Shared × List Instr :=
  match instr with
  | .place command =>
      if shared.executing then (shared, [])
      else ({ shared with executing := true, accepted := shared.accepted ++ [command] }, [.load command])
  | .load command =>
      ({ shared with buffer := copied command.text, placed := shared.placed ++ [command] },
        [.submit command.insecure])
  | .submit true => ({ shared with executeWork := true }, [])
  | .submit false => ({ shared with scheduleWork := true }, [])
  | .enqueue head text =>
      ({ shared with
        queue := if head then text :: shared.queue else shared.queue ++ [text]
        accepted := shared.accepted ++ [remote text] }, [.setQueued])
  | .setQueued => ({ shared with queued := true }, [.waitFn])
  | .waitFn => if shared.executing then (shared, []) else ({ shared with executing := true }, [.queueGet])
  | .queueGet =>
      match shared.queue with
      | text :: rest =>
          ({ shared with queue := rest, dispatched := shared.dispatched ++ [text] },
            [.load (remote text)])
      | [] => (shared, [.clearQueued, .clearExecuting])
  | .clearQueued => ({ shared with queued := false }, [])
  | .clearExecuting => ({ shared with executing := false }, [])
  | .shCmd insecure =>
      let (window, rest) := shCmdRest table shared insecure choice
      ({ shared with window, ran := shared.ran ++ [(shared.buffer, insecure)] }, rest)
  | .testAtPending handler =>
      if shared.atPending then
        ({ shared with discarded := shared.discarded ++ shared.placed.getLast?.toList }, [.result false 1])
      else
        ({ shared with atPending := true },
          match handler with
          | some (entry, parameter) => [.atHandler entry parameter]
          | none => [.modemAtCmdAsync])
  | .atHandler entry parameter =>
      ({ shared with
        window := handlerWindow entry shared.window choice parameter
        flight := if choice.startsAsync ∧ shared.flight = .idle then .handlerAnswer else shared.flight },
        [.asyncCheck, .result false (resultOf choice.handlerResult)])
  | .asyncCheck => (shared, if shared.flight = .idle then [.atFinish] else [])
  | .modemAtCmdAsync =>
      let res := if shared.flight = .idle then choice.asyncResult else ebusy
      if res < 0 then (shared, [.atFinish, .result false res])
      else ({ shared with flight := .shellAnswer }, [.result false 1])
  | .result _ res =>
      ({ shared with executing := false }, if res ≤ 0 ∧ shared.executing then [.waitFn] else [])
  | .atFinish => ({ shared with atPending := false }, if shared.atPending then [.waitFn] else [])
  | .submitResponse response =>
      ({ shared with response := atResponse response, responseWork := true }, [])
  | .clearFlight => ({ shared with flight := .idle }, [])

/-- A call of the module from outside. -/
inductive Call where
  | execute (text : Text)
  | schedule (text : Text)
  | put (head : Bool) (text : Text)
deriving DecidableEq, Repr

/-- What a call goes through; too long texts are refused by `sh_cmd_execute` and `sh_cmd_schedule`. -/
def Call.program : Call → List Instr
  | .execute text => if maxLen ≤ text.length then [] else [.place ⟨text, .shell⟩]
  | .schedule text => if maxLen ≤ text.length then [] else [.place ⟨text, .scheduled⟩]
  | .put head text => [.enqueue head text]

/-- The work items of `sh_cmd_work_q`. -/
inductive Work where
  | execute
  | schedule
  | response
deriving DecidableEq, Repr

inductive Label where
  | call (call : Call)
  | start (work : Work)
  | deliver (response : Text)
  | turn (index : ℕ) (choice : Choice)
deriving DecidableEq, Repr

abbrev Shell := Pool Shared Instr

/-- The shell after boot. -/
def initial : Shell := { shared := {}, programs := [[]] }

/-- Give the idle work queue's thread a program. -/
def withWorker (shell : Shell) (shared : Shared) (program : List Instr) : Option Shell :=
  match shell.programs with
  | [] :: others => some { shared, programs := program :: others }
  | _ => none

/-- One step of the module. -/
def step (table : List Entry) (shell : Shell) : Label → Option Shell
  | .call call => some (shell.spawn call.program)
  | .start .execute =>
      if shell.shared.executeWork then
        withWorker shell { shell.shared with executeWork := false } [.shCmd true] else none
  | .start .schedule =>
      if shell.shared.scheduleWork then
        withWorker shell { shell.shared with scheduleWork := false } [.shCmd false] else none
  | .start .response =>
      if shell.shared.responseWork then
        withWorker shell { shell.shared with responseWork := false }
          [.result true (responseResult shell.shared.response), .atFinish] else none
  | .deliver response =>
      match shell.shared.flight with
      | .shellAnswer => some (Pool.spawn { shell with shared := { shell.shared with flight := .answering } }
          [.submitResponse response, .clearFlight])
      | .handlerAnswer => some (Pool.spawn { shell with shared := { shell.shared with flight := .answering } }
          [.atFinish, .clearFlight])
      | _ => none
  | .turn index choice => shell.turn (exec table) index choice

/-- The steps as a relation. -/
def Step (table : List Entry) (shell : Shell) (label : Label) (next : Shell) : Prop :=
  step table shell label = some next

/-- Some turns of one thread one second after boot, with nothing special from outside. -/
def turns (index count : ℕ) : List Label := List.replicate count (.turn index { now := 1000 })

/-- The instruction that a label executes. -/
def executes (shell : Shell) : Label → Option Instr
  | .turn index _ => shell.next? index
  | _ => none

end CoapsClient.ShCmd
