import CoapsClient.Machine.Hexadecimal
import CoapsClient.Model.Coap.Report

/-! # The network of the modem

`modem_read_network_info` for the answer to `AT%XMONITOR`, without callbacks. The answers to the other commands, the time
of the PSM and the count of the cells are left out. `parse_next_qtext` is called in place for the last parameters: it
stores in the text that it reads. `kept` records whether the text behind the parameter stayed as it was; nothing reads it.
-/

namespace CoapsClient.ModemMonitor

open Machine (isXdigit ofXdigits textEnd)
open ShCmd (Text)
open DtlsClient (isSpace sign clampLong parseNextLong)
open CoapAppl (NetworkInfo RegStatus LteMode)
open Modem (LteCeInfo parseNextChars parseNextQtext invalidSignalValue int16 uint8 enodata)

/-- What `strtol` skips in front of the digits of base 16. -/
def skipBase : Text → Text
  | '0' :: mark :: digit :: text =>
      if (mark = 'x' ∨ mark = 'X') ∧ isXdigit digit then digit :: text else '0' :: mark :: digit :: text
  | text => text

/-- `strtol` in base 16: the number and the text behind it, or no number if there is none. -/
def strtol16 (value : Text) : Option (Int × Text) :=
  let (factor, text) := sign (value.dropWhile isSpace)
  let text := skipBase text
  let digits := text.takeWhile isXdigit
  if digits.isEmpty then none else some (clampLong (factor * ofXdigits digits), text.dropWhile isXdigit)

/-- A separator is skipped. -/
def skipSep (value : Text) (sep : Char) : Text := if value.head? = some sep then value.tail else value

/-- `parse_next_long_text` in base 16. -/
def parseNextLongText16 (value : Text) (sep : Char) (result : Int) : Int × Text :=
  match strtol16 (skipSep value sep) with
  | some (number, behind) => (number, skipSep behind sep)
  | none => (result, value)

/-- `parse_next_long_qtext` in base 16. -/
def parseNextLongQtext16 (value : Text) (sep : Char) (result : Int) : Int × Text :=
  if value.head? = some sep then parseNextLongText16 value sep result else (0, value)

/-- The loop of `parse_next_text`, with indices in the array that is read and written. -/
def copyLoop (sep : Char) : ℕ → Text → ℕ → ℕ → ℕ → Text × ℕ × ℕ
  | 0, cells, value, result, _ => (cells, value, result)
  | fuel + 1, cells, value, result, len =>
      let char := cells.getD value textEnd
      if char = textEnd ∨ char = sep then (cells, value, result)
      else if 0 < len then copyLoop sep fuel (cells.set result char) (value + 1) (result + 1) (len - 1)
      else copyLoop sep fuel cells (value + 1) result len

/-- `parse_next_qtext` at the start of an array that is also the buffer for the result: the array, and the index behind
the text. -/
def parseNextQtextInPlace (cells : Text) (sep : Char) (len : ℕ) : Text × ℕ :=
  if cells.getD 0 textEnd ≠ sep then (cells.set 0 textEnd, 0)
  else
    let (cells, value, result) := copyLoop sep cells.length cells 1 0 (len - 1)
    let value := if cells.getD value textEnd ≠ textEnd ∧ cells.getD value textEnd = sep then value + 1 else value
    (cells.set result textEnd, value)

/-- `NONE_SIGNAL_VALUE`. -/
def noneSignalValue : Int := 0x7ffe

/-- The local variables of `modem_read_network_info`: `n` is the text from there on. -/
structure Scan where
  n : Text
  value : Int := 0
  temp : NetworkInfo := {}
  rsrp : Int := noneSignalValue
  rsrq : Int := noneSignalValue
  snr : Int := noneSignalValue
  kept : Bool := true

/-- The status of an answer. -/
def regStatus (value : Int) : RegStatus :=
  if value = 0 then .notRegistered
  else if value = 1 then .registeredHome
  else if value = 2 then .searching
  else if value = 3 then .registrationDenied
  else if value = 5 then .registeredRoaming
  else if value = 90 then .uiccFail
  else .unknown

/-- The status is that of a registered modem. -/
def isRegistered (status : RegStatus) : Bool := status = .registeredHome ∨ status = .registeredRoaming

def setStatus (value : Int) (temp : NetworkInfo) : NetworkInfo :=
  { temp with status := regStatus value, registered := if isRegistered (regStatus value) then .on else .off }

namespace Scan

variable (scan : Scan)

/-- The parameter behind a comma. -/
def next (read : Text → Scan → Scan) : Scan :=
  match scan.n with
  | ',' :: cur => read cur scan
  | _ => scan

/-- A number, if there is one. -/
def long (set : Int → Scan → Scan) (cur : Text) (scan : Scan) : Scan :=
  let (value, n) := parseNextLong cur scan.value
  if cur = n then { scan with n, value } else set value { scan with n, value }

/-- A number of base 16 in quotes, if there is one. -/
def longQtext (set : Int → Scan → Scan) (cur : Text) (scan : Scan) : Scan :=
  let (value, n) := parseNextLongQtext16 cur '"' scan.value
  if cur = n then { scan with n, value } else set value { scan with n, value }

/-- A text in quotes, in place. -/
def qtextInPlace (len : ℕ) (cur : Text) (scan : Scan) : Scan :=
  let cells := cur ++ [textEnd]
  let (after, index) := parseNextQtextInPlace cells '"' len
  { scan with
    n := (after.drop index).takeWhile (· ≠ textEnd)
    kept := scan.kept && after.drop index == cells.drop index }

def setTac (value : Int) : Scan :=
  if 0 ≤ value ∧ value < 0x10000 then { scan with temp := { scan.temp with tac := value.toNat } } else scan

def setMode (value : Int) : Scan :=
  if value = 0 then { scan with temp := { scan.temp with mode := .none } }
  else if value = 7 then { scan with temp := { scan.temp with mode := .ltem } }
  else if value = 9 then { scan with temp := { scan.temp with mode := .nbiot } }
  else scan

def setBand (value : Int) : Scan :=
  if 0 ≤ value ∧ value < 90 then { scan with temp := { scan.temp with band := (uint8 value) } } else scan

/-- `(uint32_t) value`. -/
def uint32 (value : Int) : ℕ := (value % 4294967296).toNat

def setCell (value : Int) : Scan := { scan with temp := { scan.temp with cell := uint32 value } }

def setEarfcn (value : Int) : Scan := { scan with temp := { scan.temp with earfcn := uint32 value } }

def setRsrp (value : Int) : Scan := { scan with rsrp := if value = 255 then invalidSignalValue else int16 (value - 141) }

def setSnr (value : Int) : Scan := { scan with snr := if value = 127 then invalidSignalValue else int16 (value - 25) }

def setRsrq (value : Int) : Scan := { scan with rsrq := if value = 127 then invalidSignalValue else int16 (value - 40) }

/-- The PLMN, behind two parameters that are skipped. -/
def plmn (cur : Text) : Scan :=
  let n := parseNextChars cur ',' 2
  if n.head? = some '"' then
    let (provider, n) := parseNextQtext n '"' 7
    { scan with n, temp := { scan.temp with provider } }
  else { scan with n }

/-- The parameters from the TAC to the RSRP. -/
def cell : Scan :=
  let scan := scan.next (longQtext fun value scan => scan.setTac value)
  let scan := scan.next (long fun value scan => scan.setMode value)
  let scan := scan.next (long fun value scan => scan.setBand value)
  let scan := scan.next (longQtext fun value scan => scan.setCell value)
  let scan := scan.next (long fun _ scan => scan)
  let scan := scan.next (long fun value scan => scan.setEarfcn value)
  scan.next (long fun value scan => scan.setRsrp value)

/-- The parameters of eDRX and PSM. -/
def timers : Scan :=
  let scan := scan.next (qtextInPlace 5)
  let scan := scan.next (qtextInPlace 9)
  let scan := scan.next (qtextInPlace 9)
  scan.next (qtextInPlace 9)

/-- The parameters behind the names. -/
def network : Scan :=
  let scan := scan.cell.next (long fun value scan => scan.setSnr value)
  scan.timers.next (long fun value scan => scan.setRsrq value)

end Scan

/-- What `modem_read_network_info` reads in its buffer. -/
def readMonitor (buf : Text) : Scan :=
  let scan := Scan.long (fun value scan => { scan with temp := setStatus value scan.temp }) buf { n := buf }
  match scan.n with
  | ',' :: cur => if scan.temp.registered = .on then (scan.plmn cur).network else scan
  | _ => scan

/-- `buf[160]`. -/
def bufSize : ℕ := 160

/-- A signal value is kept if there is one. -/
def known (value last : Int) : Int := if value = noneSignalValue then last else value

/-- `modem_read_network_info` for an answer or an error of `modem_at_cmd`, which cuts the answer to the buffer: the result,
and what `modem.c` keeps of the network. -/
def modemReadNetworkInfo (network : NetworkInfo) (ceInfo : LteCeInfo) :
    Except Int Text → Int × NetworkInfo × LteCeInfo
  | .error err => (err, network, ceInfo)
  | .ok [] => (enodata, network, ceInfo)
  | .ok answer =>
      let scan := readMonitor (answer.take (bufSize - 1))
      (0, { scan.temp with plmnLock := network.plmnLock },
        { ceInfo with
          rsrp := known scan.rsrp ceInfo.rsrp
          snr := known scan.snr ceInfo.snr
          rsrq := known scan.rsrq ceInfo.rsrq })

end CoapsClient.ModemMonitor
