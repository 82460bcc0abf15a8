import CoapsClient.Model.Update.ApplUpdate

/-! # The XMODEM receiver

`appl_update_xmodem.c`. A frame is collected from chunks in the buffer of the shell and then checked
and written. Bytes of the buffer behind its known contents read as zero. `crc16_itu_t` belongs to the
operating system and is the parameter `crc16`; `crc16ItuT` is its algorithm with the seed zero.
-/

namespace CoapsClient.XmodemUpdate

open ApplUpdate (Answer einval)

/-- `-EBADMSG`. -/
def ebadmsg : Int := -77

/-- `XMODEM_SOH`. -/
def soh : UInt8 := 0x01
/-- `XMODEM_STX`. -/
def stx : UInt8 := 0x02
/-- `XMODEM_EOT`. -/
def eot : UInt8 := 0x04
/-- `XMODEM_ACK`. -/
def ack : UInt8 := 0x06
/-- `XMODEM_NAK`. -/
def nak : UInt8 := 0x15
/-- `XMODEM_CRC`. -/
def crcRequest : UInt8 := 0x43

/-- `XMODEM_HEADER_LEN`. -/
def headerLen : ℕ := 3

/-- `enum xmodem_state`. -/
inductive XmodemState where
  | none
  | notOk
  | blockReady
  | ready
  | duplicate
deriving DecidableEq, Repr

/-- `XMODEM_DUPLICATE` as a result of `appl_update_xmodem_write_block`. -/
def duplicate : Int := 4

/-- The static variables of the receiver. -/
structure Xmodem where
  crc : Bool := false
  len : ℕ := 0
  block : UInt8 := 0
  bufferSize : ℕ := 0
  buffer : List UInt8 := []
deriving DecidableEq, Repr

/-- `appl_update_xmodem_start`. -/
def xmodemStart (buffer : List UInt8) (size : ℕ) (crc : Bool) : Xmodem :=
  { crc, len := 0, block := 1, bufferSize := size, buffer }

/-- `appl_update_xmodem_retry`. -/
def xmodemRetry (xmodem : Xmodem) : Xmodem := { xmodem with len := 0 }

/-- `memmove` to a position of the buffer. -/
def place (buffer : List UInt8) (pos : ℕ) (data : List UInt8) : List UInt8 :=
  buffer.take pos ++ data ++ buffer.drop (pos + data.length)

def Xmodem.byteAt (xmodem : Xmodem) (pos : ℕ) : UInt8 := xmodem.buffer.getD pos 0

/-- The type of the frame in the buffer is one with data. -/
def Xmodem.isBlock (xmodem : Xmodem) : Bool := xmodem.byteAt 0 == soh || xmodem.byteAt 0 == stx

/-- `block_len`. -/
def Xmodem.blockLen (xmodem : Xmodem) : ℕ := if xmodem.byteAt 0 = soh then 128 else 1024

/-- `crc_len`. -/
def Xmodem.crcLen (xmodem : Xmodem) : ℕ := if xmodem.crc then 2 else 1

/-- The length of the whole frame. -/
def Xmodem.frameLen (xmodem : Xmodem) : ℕ := headerLen + xmodem.blockLen + xmodem.crcLen

/-- `appl_update_xmodem_append`. -/
def xmodemAppend (xmodem : Xmodem) (data : List UInt8) : Xmodem × XmodemState :=
  if xmodem.len + data.length < xmodem.bufferSize then
    let xmodem := { xmodem with
      buffer := place xmodem.buffer xmodem.len data, len := xmodem.len + data.length }
    if xmodem.isBlock then
      if xmodem.len < headerLen then (xmodem, .none)
      else if xmodem.byteAt 2 ^^^ ~~~(xmodem.byteAt 1) = 0 then
        if xmodem.len < xmodem.frameLen then (xmodem, .none) else (xmodem, .blockReady)
      else (xmodem, .notOk)
    else if xmodem.byteAt 0 = eot ∧ xmodem.len = 1 then (xmodem, .ready)
    else (xmodem, .notOk)
  else (xmodem, .notOk)

/-- A frame with data, and the mode it was received in. -/
structure Frame where
  number : UInt8
  complement : UInt8
  payload : List UInt8
  check : List UInt8
  crc : Bool
deriving DecidableEq, Repr

/-- The frame in the buffer. -/
def Xmodem.frame (xmodem : Xmodem) : Frame where
  number := xmodem.byteAt 1
  complement := xmodem.byteAt 2
  payload := (xmodem.buffer.drop headerLen).take xmodem.blockLen
  check := (xmodem.buffer.drop (headerLen + xmodem.blockLen)).take xmodem.crcLen
  crc := xmodem.crc

/-- `sys_get_be16`. -/
def be16 (bytes : List UInt8) : UInt16 := (bytes.getD 0 0).toUInt16 <<< 8 ||| (bytes.getD 1 0).toUInt16

/-- `appl_update_xmodem_crc`, or the comparison of the checksum. -/
def Frame.checks (crc16 : List UInt8 → UInt16) (frame : Frame) : Bool :=
  if frame.crc then crc16 frame.payload == be16 frame.check
  else frame.check.getD 0 0 == frame.payload.foldl (· + ·) 0

/-- What `appl_update_xmodem_write_block` leaves: the receiver, its result, and the frame whose payload
it gave to `appl_update_write`. -/
structure BlockResult where
  xmodem : Xmodem
  rc : Int
  written : Option Frame := none
deriving DecidableEq, Repr

/-- `appl_update_xmodem_write_block`. -/
def xmodemWriteBlock (crc16 : List UInt8 → UInt16) (write : Answer) (xmodem : Xmodem) : BlockResult :=
  if !xmodem.isBlock then { xmodem, rc := einval }
  else if xmodem.len < xmodem.frameLen then { xmodem, rc := einval }
  else if !xmodem.frame.checks crc16 then { xmodem, rc := ebadmsg }
  else if xmodem.block = xmodem.frame.number then
    { xmodem := { xmodem with block := xmodem.block + 1, len := 0 }
      rc := ApplUpdate.write write
      written := some xmodem.frame }
  else if xmodem.block = xmodem.frame.number + 1 then { xmodem := { xmodem with len := 0 }, rc := duplicate }
  else { xmodem, rc := ebadmsg }

/-- `crc16_itu_t` for one byte. -/
def crcByte (seed : UInt16) (byte : UInt8) : UInt16 :=
  let seed := (seed >>> 8 ||| seed <<< 8) ^^^ byte.toUInt16
  let seed := seed ^^^ (seed &&& 0xff) >>> 4
  let seed := seed ^^^ seed <<< 12
  seed ^^^ (seed &&& 0xff) <<< 5

/-- `crc16_itu_t` with the seed zero. -/
def crc16ItuT (data : List UInt8) : UInt16 := data.foldl crcByte 0

-- The check value of CRC-16/XMODEM, for the digits 1 to 9.
example : crc16ItuT [0x31, 0x32, 0x33, 0x34, 0x35, 0x36, 0x37, 0x38, 0x39] = 0x31c3 := by decide

end CoapsClient.XmodemUpdate
