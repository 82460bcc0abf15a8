import CoapsClient.Machine.Buffer
import CoapsClient.Machine.CString
import Mathlib.Data.Int.Order.Basic

/-! # The line editor of the console

`uart_receiver_handler` and `uart_receiver_loop` of `uart_manager.c`. A character is a byte, and a `char` has no sign.
The update over XMODEM, the messages of the log and the works that pause the output are left out.
-/

namespace CoapsClient.LineEditor

open Machine (put cstring)

/-- `CONFIG_UART_CMD_MAX_LEN`. -/
def uartCmdMaxLen : ℕ := 2048

/-- `CONFIG_UART_RX_INPUT_TIMEOUT_S`. -/
def uartRxInputTimeoutS : ℤ := 30

/-- The variables of `uart_receiver_handler`, and `uart_cmd_buf`. -/
structure Editor where
  insideQuotes : Bool := false
  atCmdLen : ℕ := 0
  last : ℤ := 0
  uartCmdBuf : List UInt8
deriving DecidableEq

/-- A character, and the uptime at which it is handled. -/
structure Key where
  now : ℤ
  character : UInt8
deriving DecidableEq

def quote : UInt8 := 0x22

def isBackspace (character : UInt8) : Bool := character == 0x08 || character == 0x7f

def isLineEnd (character : UInt8) : Bool := character == 0x0d || character == 0x0a

/-- More than a blank. -/
def visible (character : UInt8) : Bool := 0x20 < character

/-- The time since the last character is too long. -/
def timedOut (now last : ℤ) : Bool := now - last > 1000 * uartRxInputTimeoutS

/-- The part that drops the line after a timeout. -/
def Editor.timeout (editor : Editor) : Option Editor :=
  if editor.atCmdLen ≠ 0 then
    (put editor.uartCmdBuf editor.atCmdLen 0).map fun uartCmdBuf =>
      { editor with uartCmdBuf, atCmdLen := 0, insideQuotes := false }
  else some { editor with insideQuotes := false }

/-- The part for backspace and delete. It reads the character behind the last one. -/
def Editor.backspace (editor : Editor) : Option Editor :=
  if 0 < editor.atCmdLen then
    editor.uartCmdBuf[editor.atCmdLen]?.map fun character =>
      { editor with
        atCmdLen := editor.atCmdLen - 1
        insideQuotes := if character = quote then !editor.insideQuotes else editor.insideQuotes }
  else some editor

/-- The part for a line end outside of quotes, and the text that is handed to `sh_cmd_execute`. -/
def Editor.endLine (editor : Editor) : Option (Editor × Option (List UInt8)) :=
  (put editor.uartCmdBuf editor.atCmdLen 0).map fun uartCmdBuf =>
    let text := cstring uartCmdBuf
    ({ editor with uartCmdBuf, atCmdLen := 0 }, if text.any visible then some text else none)

/-- The part that appends a character. -/
def Editor.append (editor : Editor) (character : UInt8) : Option Editor :=
  if editor.atCmdLen > uartCmdMaxLen - 2 then some editor
  else
    (put editor.uartCmdBuf editor.atCmdLen character).map fun uartCmdBuf =>
      { editor with
        uartCmdBuf
        atCmdLen := editor.atCmdLen + 1
        insideQuotes := if character = quote then !editor.insideQuotes else editor.insideQuotes }

/-- The part of `uart_receiver_handler` behind the timeout. -/
def Editor.handle (editor : Editor) (character : UInt8) : Option (Editor × Option (List UInt8)) :=
  if isBackspace character then editor.backspace.map fun editor => (editor, none)
  else if isLineEnd character ∧ editor.insideQuotes = false then editor.endLine
  else (editor.append character).map fun editor => (editor, none)

/-- `uart_receiver_handler`; it returns true when a text is handed to `sh_cmd_execute`. -/
def uartReceiverHandler (key : Key) (editor : Editor) : Option (Editor × Option (List UInt8)) :=
  (if timedOut key.now editor.last then editor.timeout else some editor).bind fun editor =>
    { editor with last := key.now }.handle key.character

/-- The loop of `uart_receiver_loop`: a text that is handed over is the last of a buffer. -/
def receiveAll : List Key → Editor → Option (Editor × Option (List UInt8))
  | [], editor => some (editor, none)
  | key :: keys, editor =>
      (uartReceiverHandler key editor).bind fun (editor, handed) =>
        if handed.isSome then some (editor, handed) else receiveAll keys editor

/-- `uart_receiver_loop`, while `sh_busy` tells that a command is executed or not. -/
def uartReceiverLoop (executing : Bool) (keys : List Key) (editor : Editor) :
    Option (Editor × Option (List UInt8)) :=
  if executing then some (editor, none) else receiveAll keys editor

end CoapsClient.LineEditor
