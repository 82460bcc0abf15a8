import CoapsClient.Soundness.ReportDescriptions
import CoapsClient.Soundness.RestartCause

/-! # The length of the modem section

The section is lines, and fits if the buffer has room for all of them with their line ends. The restart also needs room
for the front of its line while its cause is described, and for the names before they are given up.
-/

namespace CoapsClient.CoapAppl

open Machine
open ShCmd (Text)

def triggerLine (trigger : Option Text) : Text :=
  match trigger with
  | none => []
  | some trigger => lineOf '\n' trigger

def modemText (device : DeviceInfo) : Text :=
  "NCS: ".toList ++ device.ncsVersion ++ ", HW: ".toList ++ device.modem.version ++ ", MFW: ".toList ++
    device.modem.firmware ++ ", IMEI: ".toList ++ device.modem.imei

def updateLine (update : Option Update) : Text :=
  match update with
  | none => []
  | some update => lineOf '\n' (updateText update)

/-- The values of an external battery, with the blank that is taken back. -/
def extText (ext : ExtBattery) : Text :=
  "Ext.Bat.: ".toList ++ ((if ext.voltage ≠ pmInvalidVoltage then unsigned ext.voltage ++ " mV ".toList else []) ++
    ((if ext.current ≠ pmInvalidCurrent ∧ ext.hasPower then decimal ext.current ++ " mA ".toList else []) ++
      if ext.hasPower ∧ ext.power ≠ pmInvalidPower then unsigned ext.power ++ " mW ".toList else []))

def extLine (ext : Option ExtBattery) : Text :=
  match ext with
  | none => []
  | some ext => (extText ext).dropLast ++ ['\n']

def timesText (device : DeviceInfo) (flags : Flags) : Text :=
  if 0 < device.coapRttMs then
    "RETRANS: ".toList ++ unsigned device.retransmissions ++ (", RTT: ".toList ++ unsigned device.coapRttMs ++ " ms".toList ++
      if 0 < device.connectTimeMs then ", CT: ".toList ++ unsigned device.connectTimeMs ++ " ms".toList else [])
  else if flags.noResponse then "NORESP CT: ".toList ++ unsigned device.connectTimeMs ++ " ms".toList
  else []

/-- The lines in front of the battery. -/
def versionLines (device : DeviceInfo) (flags : Flags) (trigger : Option Text) : Text :=
  [] ++ (uptimeText device.uptime ++ versionText device ++ ['\n']) ++ triggerLine trigger ++
    (if flags.complete then modemText device ++ ['\n'] else []) ++ updateLine device.update

/-- The lines up to the battery, in a buffer of a size. -/
def batteryLines (device : DeviceInfo) (flags : Flags) (trigger : Option Text) (size : ℕ) : Text :=
  versionLines device flags trigger ++
    lineOf '\n' (batteryText device.battery (size - (versionLines device flags trigger).length)) ++ extLine device.ext

/-- The lines in front of the restart. -/
def deviceLines (date : ℤ → Text) (device : DeviceInfo) (flags : Flags) (trigger : Option Text) (size : ℕ) : Text :=
  batteryLines device flags trigger size ++
    if flags.complete then
      lineOf '\n' (rebootText date device.reboot (size - (batteryLines device flags trigger size).length))
    else []

/-- The lines of the section. -/
def modemLines (date : ℤ → Text) (device : DeviceInfo) (flags : Flags) (trigger : Option Text) (size : ℕ) : Text :=
  deviceLines date device flags trigger size ++
    (if flags.complete then restartLine device.restart (size - (deviceLines date device flags trigger size).length) else []) ++
    lineOf '\n' (timesText device flags)

/-- The section fits. -/
def ModemFits (date : ℤ → Text) (device : DeviceInfo) (flags : Flags) (trigger : Option Text) (size : ℕ) : Prop :=
  (deviceLines date device flags trigger size).length ≤ size ∧
    (flags.complete → RestartLineFits device.restart (size - (deviceLines date device flags trigger size).length)) ∧
    (modemLines date device flags trigger size).length ≤ size

section Sections

variable {size : ℕ} {front : Text} (date : ℤ → Text) (device : DeviceInfo) (flags : Flags) (trigger : Option Text)

private theorem printVersion_writes :
    Writes size (printVersion device) front (front ++ (uptimeText device.uptime ++ versionText device ++ ['\n'])) := by
  have lines := @Lines.print size _ front _ '\n' (Prints.bind (@Prints.print (uptimeText device.uptime))
    (@Prints.print (versionText device)))
  have eq : printVersion device = fun writer => ((writer.print (uptimeText device.uptime)).bind fun writer =>
      writer.print (versionText device)).bind fun writer => (writer.append '\n').map Writer.mark :=
    funext fun _ => (Option.bind_assoc _ _ _).symm
  rw [eq]
  exact lines.writes

private theorem printTrigger_writes : Writes size (printTrigger trigger) front (front ++ triggerLine trigger) := by
  match trigger with
  | none => exact .skip
  | some [] => exact .skip
  | some (char :: trigger) => exact (Lines.print .print).writes

private theorem printModem_writes :
    Writes size (printModem device flags) front (front ++ if flags.complete then modemText device ++ ['\n'] else []) :=
  .when (Lines.print .print).writes

private theorem printUpdate_writes (update : Option Update) :
    Writes size (printUpdate update) front (front ++ updateLine update) := by
  cases update with
  | none => exact .skip
  | some update =>
    exact (@Lines.print_if size _ front _ '\n' (fun writer => writer.start < writer.index) _ (update_prints update)
      fun _ _ => Iff.rfl).writes

private theorem printBattery_writes (battery : Battery) :
    Writes size (printBattery battery) front (front ++ lineOf '\n' (batteryText battery (size - front.length))) := by
  refine Lines.writes (@Lines.call _ _ _ _ _ (fun result => result ≠ 0) _
    (fun room => (printBatteryStatus_grows battery room).builds fun _ => rfl) fun result positive => ?_)
  omega

private theorem printExtValues_prints (ext : ExtBattery) : Prints (printExtValues ext) (extText ext) :=
  .bind .print (.bind (printIf_prints _ _) (.bind (printIf_prints _ _) (printIf_prints _ _)))

private theorem printExt_writes (ext : Option ExtBattery) : Writes size (printExt ext) front (front ++ extLine ext) := by
  cases ext with
  | none => exact .skip
  | some ext =>
    have prints := printExtValues_prints ext
    have some' : extText ext ≠ [] := List.append_ne_nil_of_left_ne_nil (by decide) _
    rw [← List.dropLast_append_getLast some'] at prints
    exact (Lines.back prints).writes

private theorem printLastReboot_writes (reboot : Option Reboot) :
    Writes size (printLastReboot date reboot flags) front
      (front ++ if flags.complete then lineOf '\n' (rebootText date reboot (size - front.length)) else []) :=
  .when (@Lines.call _ _ _ _ _ (fun result => 0 < result) _
    (fun room => (printReboot_grows date reboot room).builds fun _ => rfl) fun _ _ => Iff.rfl).writes

private theorem printDevice_writes :
    Writes size (printDevice date device flags trigger) [] (deviceLines date device flags trigger size) :=
  .bind (printVersion_writes device) (.bind (printTrigger_writes trigger) (.bind (printModem_writes device flags)
    (.bind (printUpdate_writes device.update) (.bind (printBattery_writes device.battery) (.bind (printExt_writes device.ext)
      (printLastReboot_writes date flags device.reboot))))))

private theorem printTimes_prints : Prints (printTimes device flags) (timesText device flags) :=
  .ite (.bind .print (.bind .print (printIf_prints _ _))) (printIf_prints _ _)

private theorem printExchange_writes :
    Writes size (printExchange device flags) front (front ++ lineOf '\n' (timesText device flags)) := by
  refine Lines.writes (@Lines.print_if _ _ _ _ _ (fun writer => writer.index ≠ writer.start) _
    (printTimes_prints device flags) fun writer ordered => ?_)
  omega

private theorem printRestart_lines_if (restart : Restart) :
    Lines size (printRestart restart flags) front
      (front ++ if flags.complete then restartLine restart (size - front.length) else [])
      (flags.complete → RestartLineFits restart (size - front.length)) := by
  unfold printRestart
  by_cases complete : flags.complete
  · simp only [complete, ↓reduceIte, forall_const]
    exact printRestart_lines restart size front
  · simp only [complete, ↓reduceIte, List.append_nil, IsEmpty.forall_iff]
    exact .skip

/-- The lines of the section fit exactly if the buffer has room for them. -/
private theorem printModemInfo_lines (size : ℕ) :
    Lines size (printModemInfo date device flags trigger) [] (modemLines date device flags trigger size)
      (ModemFits date device flags trigger size) :=
  .bind (printDevice_writes date device flags trigger).lines
    (.bind (printRestart_lines_if flags device.restart) (printExchange_writes device flags).lines)

private theorem modemLines_ne_nil (size : ℕ) : modemLines date device flags trigger size ≠ [] := by
  unfold modemLines deviceLines batteryLines versionLines
  simp

/-- The modem section. -/
theorem modemInfo_builds (size : ℕ) :
    Builds size (coapApplClientPrepareModemInfo date device flags trigger)
      ((modemLines date device flags trigger size).length - 1) (ModemFits date device flags trigger size) :=
  (printModemInfo_lines date device flags trigger size).builds (modemLines_ne_nil date device flags trigger size)
    fun _ => rfl

end Sections

end CoapsClient.CoapAppl
