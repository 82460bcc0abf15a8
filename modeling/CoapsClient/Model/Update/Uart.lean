import CoapsClient.Model.Update.Xmodem
import CoapsClient.Machine.Path

/-! # An update over the UART

The XMODEM transfer of `uart_manager.c`. The four delayed works, the write and the ready work run on
the queue of the commands, each as one step, and received bytes come in between. A delayed work that
is scheduled may run at any later step. `UART_TX_ENABLED`, the LEDs and the log are left out.

`sent`, `writes`, `ended` and `reboot` record what was sent to the peer, the frames given to
`appl_update_write` in the transfer that was started last, with the results, how it ended if it was
complete, and whether it called for a reboot; no branch reads them.
-/

namespace CoapsClient.XmodemUpdate

open ApplUpdate (Answer Dfu Header)

/-- `sizeof(uart_cmd_buf)`. -/
def cmdMaxLen : ℕ := 2048

structure Uart where
  /-- `UART_UPDATE`. -/
  update : Bool := false
  /-- `UART_UPDATE_START`. -/
  updateStart : Bool := false
  /-- `UART_UPDATE_APPLY`. -/
  updateApply : Bool := false
  /-- `xmodem_retries`. -/
  retries : ℕ := 0
  startWork : Bool := false
  nakWork : Bool := false
  ackWork : Bool := false
  timeoutWork : Bool := false
  writeWork : Bool := false
  readyWork : Bool := false
  xmodem : Xmodem := {}
  dfu : Dfu := {}
  sent : List UInt8 := []
  writes : List (Frame × Int) := []
  ended : Option Int := none
  reboot : Bool := false
deriving DecidableEq, Repr

/-- The UART before anything happened. -/
def initial : Uart := {}

/-- What the rest of the system answers in a step, and what the shell left in `uart_cmd_buf`. -/
structure Env where
  reboots : Bool := false
  init : Answer := {}
  erase : Answer := {}
  write : Answer := {}
  finish : Answer := {}
  pending : Answer := {}
  header : Header := {}
  upgrade : Answer := {}
  cancel : Answer := {}
  /-- `SH_CMD_EXECUTING`: received bytes are dropped. -/
  executing : Bool := false
  cmdBuf : List UInt8 := []
deriving Repr

/-- `uart_poll_out`. -/
def Uart.out (uart : Uart) (byte : UInt8) : Uart := { uart with sent := uart.sent ++ [byte] }

/-- `atomic_and(&uart_state, ~UART_UPDATE_FLAGS)`. -/
def Uart.clearFlags (uart : Uart) : Uart :=
  { uart with update := false, updateStart := false, updateApply := false }

/-- `appl_update_cancel` and the end of the transfer. -/
def cancelTransfer (env : Env) (uart : Uart) : Uart :=
  { uart with dfu := (ApplUpdate.cancel uart.dfu env.cancel).1 }.clearFlags

/-- `sh_cmd_update` for the texts that start a transfer; with the empty text it is applied. -/
def shCmdUpdate (env : Env) (uart : Uart) (apply : Bool) : Uart :=
  if env.reboots then uart
  else
    let (dfu, res) := ApplUpdate.start uart.dfu env.init
    if res = 0 then
      { uart with
        dfu
        update := true
        updateApply := uart.updateApply || apply
        retries := 0
        startWork := true
        writes := []
        ended := none }
    else { uart with dfu }

/-- A start attempt: the receiver is started and the peer asked to begin. -/
def attempt (env : Env) (uart : Uart) (crc : Bool) : Uart :=
  { uart with xmodem := xmodemStart env.cmdBuf cmdMaxLen crc, startWork := true }.out
    (if crc then crcRequest else nak)

/-- `uart_xmodem_start_fn`. -/
def startFn (env : Env) (uart : Uart) : Uart :=
  let attempts := uart.retries
  let uart := { uart with startWork := false, retries := uart.retries + 1 }
  if attempts = 0 then
    let uart := { uart with updateStart := true }
    if ApplUpdate.erase uart.dfu env.erase ≠ 0 then cancelTransfer env uart else attempt env uart true
  else if attempts < 3 then attempt env uart true
  else if attempts < 6 then attempt env uart false
  else cancelTransfer env uart

/-- The end of `uart_xmodem_process_fn` for a retry. -/
def retryTransfer (env : Env) (uart : Uart) : Uart :=
  if uart.updateStart then uart
  else if uart.retries < 10 then { uart with retries := uart.retries + 1 }.out nak
  else (cancelTransfer env { uart with retries := uart.retries + 1 }).out nak

/-- `uart_xmodem_process_fn` of the write work. -/
def writeFn (crc16 : List UInt8 → UInt16) (env : Env) (uart : Uart) : Uart :=
  let result := xmodemWriteBlock crc16 env.write uart.xmodem
  let uart := { uart with
    writeWork := false
    nakWork := false
    xmodem := result.xmodem
    writes := uart.writes ++ (result.written.map fun frame => (frame, result.rc)).toList }
  if result.rc < 0 then retryTransfer env uart
  else if result.rc = duplicate then (if uart.updateStart then uart else { uart with ackWork := true })
  else
    { uart with
      updateStart := false
      startWork := uart.startWork && !uart.updateStart
      retries := 0
      ackWork := false
      timeoutWork := true }.out ack

/-- `uart_xmodem_process_fn` of the NAK work. -/
def nakFn (env : Env) (uart : Uart) : Uart :=
  retryTransfer env { uart with nakWork := false, xmodem := xmodemRetry uart.xmodem }

/-- `uart_xmodem_process_fn` of the ACK work. -/
def ackFn (uart : Uart) : Uart := { uart with ackWork := false }.out ack

/-- `uart_xmodem_process_fn` of the timeout work. -/
def timeoutFn (env : Env) (uart : Uart) : Uart :=
  let uart := { uart with timeoutWork := false }
  if uart.updateStart then uart else (cancelTransfer env uart).out nak

/-- `uart_xmodem_process_fn` of the ready work. -/
def readyFn (env : Env) (uart : Uart) : Uart :=
  let (dfu, rc) := ApplUpdate.finish uart.dfu env.finish
  let rc := if rc = 0 then (ApplUpdate.getPendingVersion dfu env.pending env.header).1 else rc
  let rc := if rc = 0 then ApplUpdate.requestUpgrade env.upgrade else rc
  { uart with
    readyWork := false
    nakWork := false
    ackWork := false
    timeoutWork := false
    dfu
    ended := some rc
    reboot := uart.reboot || (uart.updateApply && rc == 0) }.clearFlags.out ack

/-- `uart_xmodem_handler`. -/
def xmodemHandler (uart : Uart) (data : List UInt8) : Uart :=
  let (xmodem, state) := xmodemAppend uart.xmodem data
  let uart := { uart with xmodem }
  match state with
  | .notOk => { uart with nakWork := true }
  | .blockReady => { uart with writeWork := true }
  | .ready => { uart with readyWork := true }
  | _ => uart

/-- `uart_receiver_loop`, as far as it belongs to an update. -/
def receiverLoop (env : Env) (uart : Uart) (data : List UInt8) : Uart :=
  if env.executing then uart else if uart.update then xmodemHandler uart data else uart

inductive Event where
  | update (apply : Bool)
  | data (chunk : List UInt8)
  | start
  | nak
  | ack
  | timeout
  | write
  | ready
  /-- An update over another way changes the DFU context. -/
  | otherUpdate (dfu : Dfu)
deriving DecidableEq, Repr

structure Label where
  event : Event
  env : Env := {}

/-- One step of the UART. A work runs only if it is scheduled. -/
def step (crc16 : List UInt8 → UInt16) (uart : Uart) (label : Label) : Option Uart :=
  match label.event with
  | .update apply => some (shCmdUpdate label.env uart apply)
  | .data chunk => some (receiverLoop label.env uart chunk)
  | .start => if uart.startWork then some (startFn label.env uart) else none
  | .nak => if uart.nakWork then some (nakFn label.env uart) else none
  | .ack => if uart.ackWork then some (ackFn uart) else none
  | .timeout => if uart.timeoutWork then some (timeoutFn label.env uart) else none
  | .write => if uart.writeWork then some (writeFn crc16 label.env uart) else none
  | .ready => if uart.readyWork then some (readyFn label.env uart) else none
  | .otherUpdate dfu => some { uart with dfu }

/-- The steps as a relation. -/
def Step (crc16 : List UInt8 → UInt16) (uart : Uart) (label : Label) (next : Uart) : Prop :=
  step crc16 uart label = some next

/-- A short frame of zeros, whose CRC is zero. -/
def zeroFrame (number : UInt8) : List UInt8 :=
  [soh, number, ~~~number] ++ List.replicate 128 0 ++ [0, 0]

/-- A transfer begins, and the first attempt is made. -/
def begun : List Label := [⟨.update true, { init := { area := some 1 } }⟩, ⟨.start, {}⟩]

/-- A frame arrives in one chunk and is written with the given result. -/
def received (number : UInt8) (rc : Int) : List Label :=
  [⟨.data (zeroFrame number), {}⟩, ⟨.write, { write := { rc } }⟩]

/-- The peer ends the transfer. -/
def complete : List Label := [⟨.data [eot], {}⟩, ⟨.ready, {}⟩]

end CoapsClient.XmodemUpdate
