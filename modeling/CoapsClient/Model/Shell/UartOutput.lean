import CoapsClient.Machine.Chunks
import CoapsClient.Machine.WorkQueue

/-! # The output of the log

The log thread writes its texts into `uart_tx_buf` and hands what is in there to `uart_tx_out`. Line ends are counted and
written in front of the next character or with a flush. The panic mode and `CONFIG_LOG_MODE_IMMEDIATE` are left out.

`uart_tx_out` and `uart_enable_rx_fn` are steps of the log thread and of the UART queue; they use the UART device and
`uart_state` alternately. The pause of the output is a third part, with the works of the io queue.
-/

namespace CoapsClient.UartManager

open Machine (Chunks Works)

/-- `uart_tx_buf` with its offset, and `uart_tx_buf_lines`. -/
structure Output where
  buffer : Chunks UInt8
  lines : ℕ := 0
deriving DecidableEq

/-- `'\r'`. -/
def cr : UInt8 := 13
/-- `'\n'`. -/
def lf : UInt8 := 10

/-- `uart_tx_out_nl`. -/
def uartTxOutNl (output : Output) : Option Output :=
  ((List.replicate output.lines [cr, lf]).flatten.foldlM Chunks.push output.buffer).map fun buffer => { buffer, lines := 0 }

/-- `uart_tx_out_func`. -/
def uartTxOutFunc (output : Output) (c : UInt8) : Option Output :=
  if c = cr then some output
  else if c = lf then some { output with lines := output.lines + 1 }
  else (uartTxOutNl output).bind fun output => (output.buffer.push c).map fun buffer => { output with buffer }

/-- `uart_tx_out_flush`. -/
def uartTxOutFlush (output : Output) : Option Output :=
  (uartTxOutNl (if output.lines = 0 then { output with lines := 1 } else output)).map fun output =>
    { output with buffer := output.buffer.flush }

/-- A text that is printed and flushed, as `uart_log_process` and `uart_log_dropped` do it. -/
def uartLogText (output : Output) (text : List UInt8) : Option Output :=
  (text.foldlM uartTxOutFunc output).bind uartTxOutFlush

/-- The works that pause the output. -/
inductive PauseWork where
  | start | stop | finish
deriving DecidableEq

/-- Where the log thread is. -/
inductive Log where
  | idle
  /-- It waits in `uart_log_process` for the end of the pause. -/
  | waiting
  /-- It writes a text. -/
  | writing
  /-- It has found the UART not suspended in `uart_tx_out`. -/
  | checked (data : List UInt8)
  /-- It has set `UART_PENDING`. -/
  | locked (data : List UInt8)
  /-- `uart_tx_sem` is reset. -/
  | reset (data : List UInt8)
  /-- It waits for `uart_tx_sem`. -/
  | awaiting
  /-- It is to clear `UART_PENDING`. -/
  | ending
deriving DecidableEq

/-- Where the UART queue is in `uart_enable_rx_fn`. -/
inductive Rx where
  | idle
  /-- The line is high, the device is to be resumed. -/
  | high
  /-- The device is resumed. -/
  | resumed
  | low
  /-- `UART_SUSPENDED` is set, the device is to be suspended. -/
  | suspending
deriving DecidableEq

/-- `uart_state`, the UART device and the threads. -/
structure Uart where
  /-- `UART_SUSPENDED`. -/
  suspended : Bool := false
  /-- `UART_PENDING`. -/
  pending : Bool := false
  /-- The device is not suspended. -/
  active : Bool := true
  transmitting : Option (List UInt8) := none
  /-- `uart_tx_sem`. -/
  sem : Bool := false
  log : Log := .idle
  rx : Rx := .idle
  /-- The chunks that passed the spinlock. -/
  accepted : List (List UInt8) := []
  /-- The chunks sent by `uart_tx`. -/
  sent : List (List UInt8) := []
  /-- `uart_tx_in_pause`. -/
  inPause : Bool := false
  works : Works PauseWork := {}

inductive Event where
  /-- `uart_log_process` begins or ends. -/
  | process | processed
  /-- `uart_tx_out`. -/
  | out (data : List UInt8)
  /-- The section with `uart_lock` in `uart_tx_out`. -/
  | lock
  | reset
  /-- `uart_tx`. -/
  | tx
  | take
  | timeout
  | clear
  /-- `UART_TX_DONE`. -/
  | done
  /-- `uart_enable_rx_fn` reads the line. -/
  | line (high : Bool)
  | rx
  /-- A character is received, or a line end. -/
  | received (lineEnd : Bool)
  /-- The io queue takes a work. -/
  | begin (work : PauseWork)
  /-- `uart_pause_tx_fn`. -/
  | pauseFn
deriving DecidableEq

namespace Uart

/-- `uart_tx_pause`. -/
def txPause (uart : Uart) (pause : Bool) : Uart :=
  if uart.inPause ≠ pause then
    if pause then { uart with inPause := true, works := uart.works.schedule .finish 30000 }
    else
      { uart with
        inPause := false
        works := uart.works.cancel .finish
        log := if uart.log = .waiting then .writing else uart.log }
  else uart

/-- The next step of `uart_enable_rx_fn`. -/
def nextRx (uart : Uart) : Rx → Option Uart
  | .idle => none
  | .high => some { uart with rx := .resumed, active := true }
  | .resumed => some { uart with rx := .idle, suspended := false }
  | .low => some (if uart.pending then { uart with rx := .idle } else { uart with rx := .suspending, suspended := true })
  | .suspending => some { uart with rx := .idle, active := false }

/-- A step, none if it can't be taken. -/
def next (uart : Uart) : Event → Option Uart
  | .process =>
      if uart.log = .idle then some { uart with log := if uart.inPause then .waiting else .writing } else none
  | .processed => if uart.log = .writing then some { uart with log := .idle } else none
  | .out data =>
      if uart.log = .writing ∧ data.length ≠ 1 then
        some (if uart.suspended then uart else { uart with log := .checked data })
      else none
  | .lock =>
      match uart.log with
      | .checked data =>
          some (if uart.suspended then { uart with log := .writing }
            else { uart with log := .locked data, pending := true, accepted := uart.accepted ++ [data] })
      | _ => none
  | .reset =>
      match uart.log with
      | .locked data => some { uart with log := .reset data, sem := false }
      | _ => none
  | .tx =>
      match uart.log with
      | .reset data =>
          some { uart with
            log := .awaiting
            transmitting := if uart.active = true ∧ uart.transmitting = none then some data else uart.transmitting }
      | _ => none
  | .take => if uart.log = .awaiting ∧ uart.sem = true then some { uart with log := .ending, sem := false } else none
  | .timeout => if uart.log = .awaiting then some { uart with log := .ending } else none
  | .clear => if uart.log = .ending then some { uart with log := .writing, pending := false } else none
  | .done =>
      uart.transmitting.map fun data => { uart with transmitting := none, sem := true, sent := uart.sent ++ [data] }
  | .line high => if uart.rx = .idle then some { uart with rx := if high then .high else .low } else none
  | .rx => uart.nextRx uart.rx
  | .received lineEnd =>
      let works := uart.works.submit .start
      some { uart with works := if lineEnd then works.submit .stop else works }
  | .begin work =>
      if uart.works.running = none ∧ uart.works.isPending work = true then
        some { uart with works := uart.works.begin work }
      else none
  | .pauseFn =>
      uart.works.running.map fun work =>
        let uart := uart.txPause (work = .start)
        { uart with works := uart.works.finish }

end Uart

end CoapsClient.UartManager
