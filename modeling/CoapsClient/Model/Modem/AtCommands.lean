import CoapsClient.Machine.Mutex
import CoapsClient.Model.Shell.Text
import Mathlib.Logic.Function.Basic

/-! # AT commands of several threads

`modem_at_cmd`, `modem_at_cmd_async` and the handler of its response, as steps of threads that share `lte_at_mutex`,
`lte_at_response_handler`, `lte_at_response_skip` and `lte_at_buf`. A thread may change between any two steps. The modem
takes every command, answers it at any time, and calls the response handler in a thread of its own. The codes of errors
and the counter for the warnings are left out.
-/

namespace CoapsClient.ModemAtCmd

open Machine (Mutex)
open ShCmd (Text strstart)

/-- A call of `modem_at_cmd_async`. -/
structure Request (η : Type*) where
  handler : η
  skip : Option Text
  cmd : Text
deriving DecidableEq

/-- How far `modem_at_cmd_async` is with the handler that it has set. -/
inductive Stage where
  /-- `lte_at_response_skip` is to be set. -/
  | skip
  /-- `nrf_modem_at_cmd_async` is to be called. -/
  | send
  /-- The modem did not take the command, `lte_at_response_skip` is to be reset. -/
  | reset
  /-- `lte_at_response_handler` is to be cleared. -/
  | clear
deriving DecidableEq

/-- Where a thread is. -/
inductive Pc (η : Type*) where
  | idle
  /-- It has the mutex in `modem_at_lock`, called by `modem_at_cmd` for a command. -/
  | locked (cmd : Option Text)
  | checked (cmd : Text)
  /-- It waits for `nrf_modem_at_cmd`. -/
  | sent (cmd : Text)
  | replied (cmd reply : Text)
  /-- It has the mutex in `modem_at_cmd_async`. -/
  | asyncLocked (request : Request η)
  | owns (request : Request η) (stage : Stage)
  /-- It is to unlock the mutex. -/
  | leaving
deriving DecidableEq

/-- A command the modem has not answered. -/
inductive Command (ι η : Type*) where
  | sync (thread : ι) (cmd : Text)
  | async (request : Request η)
deriving DecidableEq

/-- How far `modem_at_cmd_async_response_handler` is. -/
inductive Handling (η : Type*) where
  | called
  /-- It has read the handler. -/
  | read (handler : η)
  /-- The handler has returned. -/
  | handled
  /-- `lte_at_response_skip` is reset. -/
  | reset
deriving DecidableEq

/-- A response in its handler, with the request that it answers. -/
structure Response (η : Type*) where
  request : Request η
  response : Text
  handling : Handling η
deriving DecidableEq

/-- What a handler got. -/
structure Delivery (η : Type*) where
  request : Request η
  response : Text
  handler : η
  text : Text
deriving DecidableEq

/-- What a call of `modem_at_cmd` returned, and what the modem had replied. -/
structure Result (ι : Type*) where
  thread : ι
  reply : Text
  buf : Text
deriving DecidableEq

/-- The variables of `modem_at.c`, the threads and the modem. -/
structure At (ι η : Type*) where
  mutex : Mutex ι := none
  handler : Option η := none
  skip : Option Text := none
  buf : Text := []
  pc : ι → Pc η := fun _ => .idle
  /-- The commands the modem has not answered. -/
  outstanding : List (Command ι η) := []
  response : Option (Response η) := none
  /-- The requests the modem took. -/
  accepted : List (Request η) := []
  delivered : List (Delivery η) := []
  results : List (Result ι) := []

/-- What a handler gets of a response: the text behind `skip`. -/
def strip (skip : Option Text) (response : Text) : Text :=
  skip.elim response fun skip => response.drop (strstart response skip true)

inductive Event (ι η : Type*) where
  /-- `k_mutex_lock` of `modem_at_lock`. -/
  | lock (thread : ι) (cmd : Option Text)
  /-- It reads `lte_at_response_handler`. -/
  | check (thread : ι)
  /-- `k_mutex_unlock`, at the end of a function. -/
  | leave (thread : ι)
  /-- `modem_at_unlock`. -/
  | unlock (thread : ι)
  /-- A command is printed into `lte_at_buf`. -/
  | print (thread : ι) (text : Text)
  /-- `nrf_modem_at_cmd`. -/
  | send (thread : ι)
  | reply (thread : ι) (text : Text)
  | fail (thread : ι)
  /-- The reply is copied out of `lte_at_buf`. -/
  | copy (thread : ι)
  /-- `k_mutex_lock` of `modem_at_cmd_async`. -/
  | lockAsync (thread : ι) (request : Request η)
  /-- `atomic_ptr_cas`. -/
  | cas (thread : ι)
  /-- It goes on with the handler set. -/
  | async (thread : ι) (accepts : Bool)
  /-- The modem calls `modem_at_cmd_async_response_handler`. -/
  | answer (request : Request η) (response : Text)
  /-- The response handler goes on. -/
  | handle
deriving DecidableEq

namespace At

variable {ι η : Type*} [DecidableEq ι] [DecidableEq η]

def setPc (state : At ι η) (thread : ι) (pc : Pc η) : At ι η :=
  { state with pc := Function.update state.pc thread pc }

/-- The steps of `modem_at_cmd_async` behind `atomic_ptr_cas`. -/
def nextAsync (state : At ι η) (thread : ι) (request : Request η) (accepts : Bool) : Stage → At ι η
  | .skip => { state.setPc thread (.owns request .send) with skip := request.skip }
  | .send =>
      if accepts then
        { state.setPc thread .leaving with
          outstanding := state.outstanding ++ [.async request], accepted := state.accepted ++ [request] }
      else state.setPc thread (.owns request .reset)
  | .reset => { state.setPc thread (.owns request .clear) with skip := none }
  | .clear => { state.setPc thread .leaving with handler := none }

/-- The steps of `modem_at_cmd_async_response_handler`. -/
def nextHandle (state : At ι η) (request : Request η) (response : Text) : Handling η → At ι η
  | .called => { state with response := state.handler.map fun handler => ⟨request, response, .read handler⟩ }
  | .read handler =>
      { state with
        response := some ⟨request, response, .handled⟩
        delivered := state.delivered ++ [⟨request, response, handler, strip state.skip response⟩] }
  | .handled => { state with response := some ⟨request, response, .reset⟩, skip := none }
  | .reset => { state with response := none, handler := none }

/-- A step, none if the thread is elsewhere or has to wait. -/
def next (state : At ι η) : Event ι η → Option (At ι η)
  | .lock thread cmd =>
      if state.pc thread = .idle then
        (state.mutex.lock thread).map fun mutex => { state.setPc thread (.locked cmd) with mutex }
      else none
  | .check thread =>
      match state.pc thread with
      | .locked cmd => some (state.setPc thread (if state.handler.isSome then .leaving else cmd.elim .idle .checked))
      | _ => none
  | .leave thread =>
      if state.pc thread = .leaving then
        (state.mutex.unlock thread).map fun mutex => { state.setPc thread .idle with mutex }
      else none
  | .unlock thread =>
      if state.pc thread = .idle then (state.mutex.unlock thread).map fun mutex => { state with mutex } else none
  | .print thread text =>
      match state.pc thread with
      | .idle | .owns _ .send => if 0 < state.mutex.level thread then some { state with buf := text } else none
      | _ => none
  | .send thread =>
      match state.pc thread with
      | .checked cmd => some { state.setPc thread (.sent cmd) with outstanding := state.outstanding ++ [.sync thread cmd] }
      | _ => none
  | .reply thread text =>
      match state.pc thread with
      | .sent cmd =>
          some { state.setPc thread (.replied cmd text) with
            buf := text, outstanding := state.outstanding.erase (.sync thread cmd) }
      | _ => none
  | .fail thread =>
      match state.pc thread with
      | .sent cmd =>
          some { state.setPc thread .leaving with outstanding := state.outstanding.erase (.sync thread cmd) }
      | _ => none
  | .copy thread =>
      match state.pc thread with
      | .replied _ reply =>
          some { state.setPc thread .leaving with results := state.results ++ [⟨thread, reply, state.buf⟩] }
      | _ => none
  | .lockAsync thread request =>
      if state.pc thread = .idle then
        (state.mutex.lock thread).map fun mutex => { state.setPc thread (.asyncLocked request) with mutex }
      else none
  | .cas thread =>
      match state.pc thread with
      | .asyncLocked request =>
          if state.handler.isNone then some { state.setPc thread (.owns request .skip) with handler := some request.handler }
          else some (state.setPc thread .leaving)
      | _ => none
  | .async thread accepts =>
      match state.pc thread with
      | .owns request stage => some (state.nextAsync thread request accepts stage)
      | _ => none
  | .answer request response =>
      if .async request ∈ state.outstanding ∧ state.response = none then
        some { state with
          outstanding := state.outstanding.erase (.async request), response := some ⟨request, response, .called⟩ }
      else none
  | .handle => state.response.map fun response => state.nextHandle response.request response.response response.handling

end At

end CoapsClient.ModemAtCmd
