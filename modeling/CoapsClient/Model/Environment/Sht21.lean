import Mathlib.Logic.Function.Iterate
import CoapsClient.Machine.Crc

/-! # The SHT21 sensor

`environment_sht21.c`. The sensor answers a command with two bytes and their check. It may be asked to hold the bus until the
temperature is measured, or be read until it answers. What the bus gives is a parameter, and so is the time between the reads;
the calculation in floating point is left out.
-/

namespace CoapsClient.Environment.Sht21

/-- `-ENODATA`. -/
def enodata : Int := -61

/-- `CRC8_POLYNOMIAL`. -/
def crc8Polynomial : UInt16 := 0x131

/-- One bit of `calc_crc`. The highest bit of the polynomial is lost with the assignment. -/
def crcBit (crc : UInt8) : UInt8 :=
  if crc &&& 0x80 ≠ 0 then ((crc <<< 1).toUInt16 ^^^ crc8Polynomial).toUInt8 else crc <<< 1

/-- `calc_crc`. -/
def calcCrc (data : List UInt8) : UInt8 :=
  data.foldl (fun crc byte => crcBit^[8] (crc ^^^ byte)) 0

/-- `temperature`, the three bytes of an answer. -/
structure Answer where
  high : UInt8
  low : UInt8
  check : UInt8
deriving DecidableEq, Repr

def Answer.bytes (answer : Answer) : List UInt8 := [answer.high, answer.low] ++ [answer.check]

/-- What the bus gives in one attempt. -/
structure Attempt where
  /-- `read_reg` with `SHT21_CMD_READ_TEMPERATURE_HOLD`. -/
  hold : Except Int Answer := .error enodata
  /-- `write_cmd` with `SHT21_CMD_READ_TEMPERATURE_NO_HOLD`. -/
  command : Int := 0
  /-- Each `i2c_read`; without an answer it is not acknowledged. -/
  reads : ℕ → Option Answer := fun _ => none

/-- The loop that waits for an answer, with so many reads left. -/
def waitLoop (reads : ℕ → Option Answer) (waits : ℕ) : ℕ → Except Int Answer
  | 0 => .error enodata
  | left + 1 =>
    match reads waits with
    | some answer => .ok answer
    | none => waitLoop reads (waits + 1) left

/-- The transfers of one attempt. The wait ends with the fifth read that fails. -/
def transfer (hold : Bool) (attempt : Attempt) : Except Int Answer :=
  if hold then attempt.hold
  else if attempt.command ≠ 0 then .error attempt.command
  else waitLoop attempt.reads 0 5

/-- The checks of an answer: the status bit tells a temperature. -/
def accept (answer : Answer) : Except Int Answer :=
  if answer.low &&& 0x2 ≠ 0 then .error enodata
  else if calcCrc [answer.high, answer.low] = answer.check then .ok answer
  else .error enodata

/-- The loop over the attempts, with so many left; the last error stays. -/
def attemptLoop (hold : Bool) (attempts : ℕ → Attempt) (count : ℕ) (err : Int) : ℕ → Except Int Answer
  | 0 => .error err
  | left + 1 =>
    match transfer hold (attempts count) >>= accept with
    | .ok answer => .ok answer
    | .error err => attemptLoop hold attempts (count + 1) err left

/-- `read_temperature` up to `calc_temperature`. -/
def readTemperature (hold : Bool) (attempts : ℕ → Attempt) : Except Int Answer :=
  attemptLoop hold attempts 0 enodata 3

/-- `value` of `calc_temperature`, without the status bits. -/
def Answer.value (answer : Answer) : UInt16 := answer.high.toUInt16 <<< 8 ||| (answer.low &&& ~~~0x3).toUInt16

/-- `environment_get_temperature`. -/
def environmentGetTemperature (attempts : ℕ → Attempt) : Except Int UInt16 :=
  (readTemperature false attempts).map Answer.value

end CoapsClient.Environment.Sht21
