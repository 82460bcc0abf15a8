import CoapsClient.Machine.Placing
import CoapsClient.Model.Coap.EnvInfo
import CoapsClient.Model.Modem.Coverage
import CoapsClient.Model.Update.Client

/-! # Descriptions of other modules

What the modules of the battery, the update, the restarts, the modem and the scale write in the buffer of a report.
What a function reads of its module is its argument. `date` is the text that `strftime` makes of a time, `format` the
text that `%.*f` makes of a value. Logs are left out, and so are the locks.
-/

namespace CoapsClient.CoapAppl

open Machine (Writer textEnd)
open ShCmd (Text strstart strend)
open ApplUpdate (CancelReason)

variable {α : Type}

/-- The digits of a number, with zeros in front up to a width. -/
def digits (base width value : ℕ) : Text :=
  let digits := Nat.toDigits base value
  List.replicate (width - digits.length) '0' ++ digits

/-- `%u`. -/
def unsigned (value : ℕ) : Text := Nat.toDigits 10 value

/-- The value of an `int`. -/
def int32 (value : ℤ) : ℤ := value.bmod 4294967296

/-- `buf[index++] = '\n'; start = index;`. -/
def endLine (writer : Writer) : Option Writer := (writer.append '\n').map Writer.mark

/-- A text under a condition. -/
def printIf (test : Prop) [Decidable test] (text : Text) (writer : Writer) : Option Writer :=
  if test then writer.print text else some writer

/-- The reason of a cancel, if it is shown. -/
def cancelReasonText : CancelReason → Option Text
  | .notAvailable => none
  | .cmd => some "cmd".toList
  | .changed => some "content changed".toList
  | .blockOption => some "block option error".toList
  | .blockNo => some "block option no".toList
  | .noContent => some "no content".toList

/-- The state of `appl_update_coap.c`, with `coap_current_block` and the result of `appl_update_time`. -/
structure Update where
  client : ApplUpdate.Client := {}
  currentBlock : ℕ := 0
  time : ℤ := -1

/-- What is downloaded, or was. -/
def printDownload (update : Update) (writer : Writer) : Option Writer :=
  if update.client.download then do
    let writer ← writer.print ("Downloading ".toList ++ update.client.resourcePath)
    if 0 < update.client.blockContext.totalSize then
      let percent := update.client.blockContext.current * 100 % 4294967296 / update.client.blockContext.totalSize
      writer.print (", ".toList ++ decimal (int32 percent) ++ ['%'])
    else some writer
  else if update.client.downloadReady then do
    let writer ← writer.print ("Downloaded ".toList ++ update.client.resourcePath)
    if update.client.applyUpdate then writer.print " reboot".toList else some writer
  else if update.client.downloadCanceled then do
    let writer ← writer.print ("Update Canceled ".toList ++ update.client.resourcePath)
    match cancelReasonText update.client.cancelReason with
    | none => some writer
    | some reason => writer.print (", block ".toList ++ unsigned update.currentBlock ++ ", ".toList ++ reason)
  else some writer

/-- `appl_update_coap_status`. -/
def applUpdateCoapStatus (update : Update) (writer : Writer) : Option (Writer × ℤ) := do
  let writer ← printDownload update writer
  let writer ← printIf (writer.index ≠ 0 ∧ -1 < update.time)
    (", ".toList ++ decimal (int32 (update.time.tdiv 1000)) ++ " s".toList) writer
  some (writer, writer.index)

/-- `power_manager_status_t`. -/
inductive PowerManagerStatus where
  | powerUnknown
  | fromBattery
  | chargingTrickle
  | chargingI
  | chargingV
  | chargingS
  | chargingCompleted
  | fromExternal
deriving DecidableEq, Repr

def PowerManagerStatus.text : PowerManagerStatus → Text
  | .powerUnknown => []
  | .fromBattery => "battery".toList
  | .chargingTrickle => "charging (trickle)".toList
  | .chargingI => "charging (I)".toList
  | .chargingV => "charging (V)".toList
  | .chargingS => "charging".toList
  | .chargingCompleted => "full".toList
  | .fromExternal => "external".toList

/-- The register of the charger, and that of its USB input, 0 where it is not read. -/
structure Charger where
  status : ℕ
  usb : ℕ := 0

/-- `PM_INVALID_VOLTAGE`. -/
def pmInvalidVoltage : ℕ := 0xffff
/-- `PM_INVALID_LEVEL`. -/
def pmInvalidLevel : ℕ := 0xff
/-- `PM_INVALID_CURRENT`. -/
def pmInvalidCurrent : ℤ := 0x7fff
/-- `PM_INVALID_POWER`. -/
def pmInvalidPower : ℕ := 0xffff

/-- The results of `power_manager_status`, the name of the battery's profile, and a charger that can be read. -/
structure Battery where
  level : ℕ := pmInvalidLevel
  voltage : ℕ := pmInvalidVoltage
  status : PowerManagerStatus := .powerUnknown
  forecast : ℤ := -1
  profile : Option Text := none
  charger : Option Charger := none

/-- `npm1300_power_manager_read_status`, for a charger that can be read. -/
def npm1300PowerManagerReadStatus (charger : Charger) (writer : Writer) : Option (Writer × ℤ) := do
  let writer ← printIf (writer.size ≠ 0 ∧ charger.status ≠ 0) (" 0x".toList ++ digits 16 2 charger.status) writer
  -- bit 0 is `NPM1300_CHG_STATUS_BATTERY_DETECTED`
  let writer ← printIf (charger.status % 2 = 0 ∧ charger.usb ≠ 0 ∧ writer.size ≠ 0)
    (" usb 0x".toList ++ digits 16 2 charger.usb) writer
  some (writer, writer.index)

/-- The name of the profile. -/
def printName (battery : Battery) (writer : Writer) : Option Writer :=
  match battery.profile with
  | none => some writer
  | some name => do
    let writer ← writer.print name
    printIf (0 ≤ battery.forecast) ", ".toList writer

/-- The days that are left. -/
def printForecast (battery : Battery) (writer : Writer) : Option Writer :=
  if 1 < battery.forecast ∨ battery.forecast = 0 then writer.print (decimal battery.forecast ++ " days left".toList)
  else printIf (battery.forecast = 1) "1 day left".toList writer

def printProfile (battery : Battery) (writer : Writer) : Option Writer :=
  if battery.profile.isSome ∨ 0 ≤ battery.forecast then do
    let writer ← writer.print " (".toList
    let writer ← printName battery writer
    let writer ← printForecast battery writer
    writer.print ")".toList
  else some writer

/-- The index moves by what the charger returns, which is a length if the charger can be read. -/
def printCharger (charger : Option Charger) (writer : Writer) : Option Writer :=
  match charger with
  | none => some writer
  | some charger => writer.advance (npm1300PowerManagerReadStatus charger)

def printLevel (battery : Battery) (writer : Writer) : Option Writer := do
  let writer ← writer.print (unsigned battery.voltage ++ " mV".toList)
  let writer ← printIf (battery.level < pmInvalidLevel) ([' '] ++ unsigned battery.level ++ ['%']) writer
  let writer ← printProfile battery writer
  printIf (battery.status.text ≠ []) ([' '] ++ battery.status.text) writer

def printBatteryStatus (battery : Battery) (writer : Writer) : Option Writer :=
  if battery.voltage < pmInvalidVoltage then do
    let writer ← printLevel battery writer
    printCharger battery.charger writer
  else some writer

/-- `power_manager_status_desc`. -/
def powerManagerStatusDesc (battery : Battery) (writer : Writer) : Option (Writer × ℤ) := do
  let writer ← printBatteryStatus battery writer
  some (writer, writer.index)

/-- `index += appl_format_time(..)`: without room for the text and its end, `strftime` returns 0. -/
def applFormatTime (date : ℤ → Text) (timeMillis : ℤ) (writer : Writer) : Option Writer :=
  let time := timeMillis.tdiv 1000
  printIf (0 < time ∧ (date time).length < writer.room) (date time) writer

/-- `ERROR_DETAIL`. -/
def errorDetail (code : ℕ) : ℕ := code &&& 0xfff

/-- `appl_get_reboot_desciption`, for `ERROR_CLASS`. -/
def applGetRebootDesciption (code : ℕ) : Text :=
  match code &&& 0xf000 with
  | 0x0000 => "no initial network".toList
  | 0x1000 => "no dtls".toList
  | 0x2000 => "no initial success".toList
  | 0x3000 => "open socket".toList
  | 0x4000 => "too many failures".toList
  | 0x5000 => "modem fault".toList
  | 0x6000 => "cmd reboot".toList
  | 0x7000 => "manual reboot".toList
  | 0x8000 => "update".toList
  | 0x9000 => "low voltage".toList
  | 0xA000 => "cmd reinit".toList
  | _ => "???".toList

/-- The newest reboot: its time and its code. -/
structure Reboot where
  time : ℤ
  code : ℕ

/-- The time of a reboot, if it is known. -/
def printRebootTime (date : ℤ → Text) (reboot : Reboot) (writer : Writer) : Option Writer :=
  if reboot.time ≠ 0 then do
    let writer ← applFormatTime date reboot.time writer
    writer.print " ".toList
  else some writer

/-- What is written of a reboot with the index 0, without flags. -/
def printReboot (date : ℤ → Text) (reboot : Option Reboot) (writer : Writer) : Option Writer :=
  match reboot with
  | none => some writer
  | some reboot => do
    let writer ← writer.print "Last code: ".toList
    let writer ← printRebootTime date reboot writer
    let writer ← writer.print (applGetRebootDesciption reboot.code)
    printIf (errorDetail reboot.code ≠ 0) ([' '] ++ unsigned (errorDetail reboot.code)) writer

/-- `appl_reboot_cause_description` for the index 0, without flags. -/
def applRebootCauseDescription (date : ℤ → Text) (reboot : Option Reboot) (writer : Writer) : Option (Writer × ℤ) := do
  let writer ← printReboot date reboot writer
  some (writer, writer.index)

/-- The restart of the device: whether the cause was read, the error of reading it with its text, and the cause. -/
structure Restart where
  read : Bool := false
  error : ℤ := 0
  strerror : Text := []
  cause : BitVec 32 := 0

/-- The bits of a cause, as Zephyr numbers them, and what they are called. -/
def causes : List (ℕ × Text) :=
  [(0, "Reset".toList), (1, "Reboot".toList), (2, "Brownout".toList), (3, "Power-On".toList), (4, "Watchdog".toList),
    (5, "Debug".toList), (6, "Security".toList), (7, "Low-Power".toList), (8, "CPU".toList), (9, "Parity".toList),
    (12, "HW".toList), (13, "User".toList), (14, "Temperature".toList)]

/-- `appl_cause_description_append`. -/
def applCauseDescriptionAppend (state : BitVec 32 × Writer) (entry : ℕ × Text) : Option (BitVec 32 × Writer) :=
  let (cause, writer) := state
  if cause.getLsbD entry.1 then
    (writer.print (entry.2 ++ ", ".toList)).map fun writer => (cause &&& ~~~BitVec.twoPow 32 entry.1, writer)
  else some (cause, writer)

/-- The value of a `size_t`. -/
def sizeT (value : ℤ) : ℕ := (value % 4294967296).toNat

/-- The names did not fit, or what is left of the cause does not. An index in front of the buffer is a large number. -/
def causesOverflow (size : ℕ) (index : ℤ) (cause : BitVec 32) : Prop :=
  size < sizeT (index - 2) ∨ cause ≠ 0 ∧ size < sizeT (index + 8)

instance (size : ℕ) (index : ℤ) (cause : BitVec 32) : Decidable (causesOverflow size index cause) :=
  inferInstanceAs (Decidable (_ ∨ _))

/-- The cause as a number. -/
def causeNumber (restart : Restart) : Text := " 0x".toList ++ digits 16 4 restart.cause.toNat

/-- The end of a description of causes, for what is left of the cause. -/
def printCausesEnd (restart : Restart) (cause : BitVec 32) (writer : Writer) : Option Writer :=
  if causesOverflow writer.size writer.index cause then (writer.move 0).print (causeNumber restart)
  else if cause ≠ 0 then writer.print (causeNumber restart)
  else if 2 < writer.index then (writer.move (writer.index - 2)).store textEnd
  else some writer

/-- `appl_cause_description`. -/
def applCauseDescription (restart : Restart) (writer : Writer) : Option Writer :=
  if restart.cause ≠ 0 then do
    let (cause, writer) ← causes.foldlM applCauseDescriptionAppend (restart.cause, writer)
    -- an overflow starts again with the whole cause, which is not 0
    printCausesEnd restart cause writer
  else writer.print "none".toList

def printRestartCause (restart : Restart) (writer : Writer) : Option Writer :=
  if restart.read ∧ 8 < writer.size then
    if restart.error ≠ 0 then writer.print (decimal restart.error ++ " (".toList ++ restart.strerror ++ [')'])
    else applCauseDescription restart writer
  else some writer

/-- `appl_reset_cause_description`. -/
def applResetCauseDescription (restart : Restart) (writer : Writer) : Option (Writer × ℤ) := do
  let writer ← printRestartCause restart writer
  some (writer, writer.index)

/-- `enum lte_lc_lte_mode`, with its other values. -/
inductive LteMode where
  | none
  | ltem
  | nbiot
  | other
deriving DecidableEq, Repr

/-- `modem_get_network_mode_description`. -/
def modemGetNetworkModeDescription : LteMode → Text
  | .none => "none".toList
  | .ltem => "CAT-M1".toList
  | .nbiot => "NB-IoT".toList
  | .other => "Unknown".toList

/-- `struct lte_lc_edrx_cfg`, with the comparisons `edrx < 1.0F` and `ptw < 1.0F`. -/
structure Edrx (α : Type) where
  mode : LteMode
  edrx : α
  ptw : α
  edrxBelowOne : Bool
  ptwBelowOne : Bool

/-- The text of `modem_print_edrx`. -/
def edrxText (format : ℕ → α → Text) (desc : Text) (edrx : Edrx α) : Text :=
  let sep := if desc = [] ∨ strend desc " ".toList false ≠ 0 then [] else " ".toList
  match edrx.mode with
  | .none => "eDRX ".toList ++ desc ++ sep ++ "disabled.".toList
  | .other => "eDRX ".toList ++ desc ++ sep ++ "unknown.".toList
  | mode =>
    "eDRX ".toList ++ desc ++ sep ++ modemGetNetworkModeDescription mode ++
      if edrx.edrxBelowOne then " disabled.".toList
      else if edrx.ptwBelowOne then [' '] ++ format 2 edrx.edrx ++ ['s']
      else [' '] ++ format 2 edrx.edrx ++ "s, ptw ".toList ++ format 2 edrx.ptw ++ ['s']

/-- `modem_print_edrx`. -/
def modemPrintEdrx (format : ℕ → α → Text) (desc : Text) (edrx : Edrx α) (writer : Writer) : Option (Writer × ℤ) := do
  let writer ← writer.print (edrxText format desc edrx)
  some (writer, writer.index)

/-- Some characters are copied to the start of a buffer, with a zero behind them. -/
def copy (chars : Text) (writer : Writer) : Option (Writer × ℤ) :=
  (Machine.putAll writer.cells 0 (chars ++ [textEnd])).map fun cells => ({ writer with cells }, (chars.length : ℤ))

/-- `modem_at_cmd` for the answer of the modem, without the line end that `terminate_at_buffer` removes, or for the number
of an error. -/
def modemAtCmd (answer : Except ℕ Text) (skip : Text) (writer : Writer) : Option (Writer × ℤ) :=
  match answer with
  | .error err => some (writer, -err)
  | .ok answer =>
    if writer.size = 0 then some (writer, answer.length)
    else copy ((answer.drop (strstart answer skip true)).take (writer.size - 1)) writer

/-- `modem_get_last_neighbor_cell_meas`, for what was measured. -/
def modemGetLastNeighborCellMeas (meas : Text) (writer : Writer) : Option (Writer × ℤ) :=
  copy (meas.take (sizeT (writer.size - 1))) writer

/-- A channel of the scale: the time of its calibration, if there is one, its divider and offset, the weight, the
temperature, and what a dummy calibration shows. -/
structure ScaleChannel (α : Type) where
  calibration : Option ℤ := none
  divider : ℤ := 0
  offset : ℤ := 0
  weight : α
  temperature : α
  raw : Option ℤ := none
  internalOffset : ℤ := 0

/-- The result of `scale_sample` and the channels, in a build with or without `CONFIG_NAU7802_DUMMY_CALIBRATION`. -/
structure Scale (α : Type) where
  res : ℤ
  a : ScaleChannel α
  b : ScaleChannel α
  dummy : Bool := false

/-- The degree sign and the unit, as bytes. -/
def celsius : Text := [Char.ofNat 0xc2, Char.ofNat 0xb0, 'C']

/-- What is said about a calibration. -/
def printCalibrationKind (channel : ScaleChannel α) (writer : Writer) : Option Writer :=
  if channel.divider = 0 then writer.print " (disabled)".toList
  else printIf (channel.divider = 100 ∧ channel.offset = 0) " (dummy)".toList writer

/-- The calibration of a channel, if there is one. -/
def printCalibration (date : ℤ → Text) (front : Text) (channel : ScaleChannel α) (writer : Writer) : Option Writer :=
  match channel.calibration with
  | none => some writer
  | some time => do
    let writer ← writer.print front
    let writer ← applFormatTime date time writer
    printCalibrationKind channel writer

/-- The calibrations of the channels, on a line of their own if there are any. -/
def printCalibrations (date : ℤ → Text) (scale : Scale α) (writer : Writer) : Option Writer := do
  let writer ← writer.print "Last calibration: ".toList
  let writer ← printCalibration date "A ".toList scale.a writer
  let writer ← printIf (scale.a.calibration.isSome ∧ scale.b.calibration.isSome) ", ".toList writer
  let writer ← printCalibration date "B ".toList scale.b writer
  if scale.a.calibration.isSome ∨ scale.b.calibration.isSome then endLine writer else some (writer.move 0)

/-- `if (index > start) index += snprintf(buf + index, len - index, ", ")`. -/
def printComma (writer : Writer) : Option Writer := printIf (writer.start < writer.index) ", ".toList writer

/-- The mark of a series. -/
def printMark (series : Bool) (writer : Writer) : Option Writer :=
  if series then (writer.print ['!']).map Writer.mark else some writer

/-- The values of a channel, if they are shown. -/
def printChannel (front : Text) (text : Option Text) (writer : Writer) : Option Writer :=
  match text with
  | none => some writer
  | some text => writer.print (front ++ text)

/-- A line with the values of the channels. -/
def printChannels (series : Bool) (a b : Option Text) (writer : Writer) : Option Writer := do
  let writer ← printMark series writer
  let writer ← printChannel "CHA ".toList a writer
  let writer ← printComma writer
  printChannel "CHB ".toList b writer

/-- The weight and the temperature of a channel. -/
def ScaleChannel.text (format : ℕ → α → Text) (channel : ScaleChannel α) : Text :=
  format 2 channel.weight ++ " kg, ".toList ++ format 1 channel.temperature ++ celsius

/-- What a dummy calibration shows of a channel. -/
def ScaleChannel.dummyText (format : ℕ → α → Text) (channel : ScaleChannel α) (raw : ℤ) : Text :=
  decimal raw ++ ['/'] ++ decimal channel.internalOffset ++ ['/'] ++ decimal channel.divider ++ " raw, ".toList ++
    format 1 channel.temperature ++ celsius

/-- The dummy calibration, on a line of its own. -/
def printDummy (format : ℕ → α → Text) (scale : Scale α) (series : Bool) (writer : Writer) : Option Writer :=
  if scale.dummy ∧ (scale.a.raw.isSome ∨ scale.b.raw.isSome) then do
    let writer ← endLine writer
    printChannels series (scale.a.raw.map (scale.a.dummyText format)) (scale.b.raw.map (scale.b.dummyText format)) writer
  else some writer

def printScale (format : ℕ → α → Text) (date : ℤ → Text) (scale : Scale α) (series : Bool) (writer : Writer) :
    Option Writer :=
  if 0 < scale.res then do
    let writer ← printCalibrations date scale writer
    let writer ← printChannels series (if scale.res % 2 = 1 then some (scale.a.text format) else none)
      (if scale.res / 2 % 2 = 1 then some (scale.b.text format) else none) writer
    printDummy format scale series writer
  else some writer

/-- `scale_sample_desc`. -/
def scaleSampleDesc (format : ℕ → α → Text) (date : ℤ → Text) (scale : Scale α) (series : Bool) (writer : Writer) :
    Option (Writer × ℤ) := do
  let writer ← printScale format date scale series writer
  some (writer, writer.index)

end CoapsClient.CoapAppl
