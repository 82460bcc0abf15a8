import CoapsClient.Machine.Lines
import CoapsClient.Model.Coap.Report

/-! # The length of the descriptions

What the modules of the update, the battery, the restarts and the scale append to a report, as a text. A time is left out
where it has no room, and so is the state of the charger, so that a text may depend on the room that is left.
-/

namespace CoapsClient.CoapAppl

open Machine
open ShCmd (Text)

variable {α : Type}

/-- What is downloaded, or was. -/
def downloadText (update : Update) : Text :=
  if update.client.download then
    "Downloading ".toList ++ update.client.resourcePath ++
      if 0 < update.client.blockContext.totalSize then
        let percent := update.client.blockContext.current * 100 % 4294967296 / update.client.blockContext.totalSize
        ", ".toList ++ decimal (int32 percent) ++ ['%']
      else []
  else if update.client.downloadReady then
    "Downloaded ".toList ++ update.client.resourcePath ++ if update.client.applyUpdate then " reboot".toList else []
  else if update.client.downloadCanceled then
    "Update Canceled ".toList ++ update.client.resourcePath ++
      match cancelReasonText update.client.cancelReason with
      | none => []
      | some reason => ", block ".toList ++ unsigned update.currentBlock ++ ", ".toList ++ reason
  else []

/-- The status of an update, with its seconds if there is one. -/
def updateText (update : Update) : Text :=
  downloadText update ++
    if downloadText update ≠ [] ∧ -1 < update.time then
      ", ".toList ++ decimal (int32 (update.time.tdiv 1000)) ++ " s".toList
    else []

theorem printIf_prints (test : Prop) [Decidable test] (text : Text) :
    Prints (printIf test text) (if test then text else []) := .when .print

section Updates

variable (update : Update)

private theorem printDownload_prints : Prints (printDownload update) (downloadText update) := by
  unfold printDownload downloadText
  refine .ite (.bind .print (.when .print)) (.ite (.bind .print (.when .print)) (.when (.bind .print ?_)))
  cases cancelReasonText update.client.cancelReason with
  | none => exact .skip
  | some reason => exact .print

private theorem update_grows (room : ℕ) :
    Grows room (fun writer => (printDownload update writer).bind fun writer =>
        printIf (writer.index ≠ 0 ∧ -1 < update.time)
          (", ".toList ++ decimal (int32 (update.time.tdiv 1000)) ++ " s".toList) writer) (.of 0 [])
      (.of 0 (updateText update)) := by
  refine .bind ((printDownload_prints update).grows room 0 []) ?_
  refine Grows.test .print fun writer at' _ => and_congr_left fun _ => ?_
  rw [at'.index]
  simp [Place.of]

theorem update_prints : Prints (fun writer => writer.advance (applUpdateCoapStatus update)) (updateText update) :=
  .advance (fun room => (update_grows update room).builds fun _ => (Option.bind_assoc _ _ _).symm)
    ((update_grows update 0).advances fun _ => (Option.bind_assoc _ _ _).symm)

end Updates

/-- What is shown of the charger in a room. -/
def chargerText (charger : Charger) (room : ℕ) : Text :=
  (if room ≠ 0 ∧ charger.status ≠ 0 then " 0x".toList ++ digits 16 2 charger.status else []) ++
    if charger.status % 2 = 0 ∧ charger.usb ≠ 0 ∧ room ≠ 0 then " usb 0x".toList ++ digits 16 2 charger.usb else []

def nameText (battery : Battery) : Text :=
  match battery.profile with
  | none => []
  | some name => name ++ if 0 ≤ battery.forecast then ", ".toList else []

def profileText (battery : Battery) : Text :=
  if battery.profile.isSome ∨ 0 ≤ battery.forecast then
    " (".toList ++ (nameText battery ++
      ((if 1 < battery.forecast ∨ battery.forecast = 0 then decimal battery.forecast ++ " days left".toList
        else if battery.forecast = 1 then "1 day left".toList
        else []) ++ ")".toList))
  else []

/-- The battery without its charger. -/
def levelText (battery : Battery) : Text :=
  unsigned battery.voltage ++ " mV".toList ++
    ((if battery.level < pmInvalidLevel then [' '] ++ unsigned battery.level ++ ['%'] else []) ++
      (profileText battery ++ if battery.status.text ≠ [] then [' '] ++ battery.status.text else []))

/-- The battery, if its voltage is known. -/
def batteryText (battery : Battery) (room : ℕ) : Text :=
  if battery.voltage < pmInvalidVoltage then
    levelText battery ++
      match battery.charger with
      | none => []
      | some charger => chargerText charger (room - (levelText battery).length)
  else []

section Batteries

variable {room : ℕ}

private theorem charger_grows (charger : Charger) (room : ℕ) :
    Grows room (fun writer => (printIf (writer.size ≠ 0 ∧ charger.status ≠ 0)
        (" 0x".toList ++ digits 16 2 charger.status) writer).bind fun writer =>
      printIf (charger.status % 2 = 0 ∧ charger.usb ≠ 0 ∧ writer.size ≠ 0)
        (" usb 0x".toList ++ digits 16 2 charger.usb) writer) (.of 0 [])
      (.of 0 (chargerText charger room)) := by
  refine .bind (Grows.test .print fun writer at' _ => ?_) (Grows.test .print fun writer at' _ => ?_)
  · rw [at'.size]
  · rw [at'.size]

private theorem printName_prints (battery : Battery) : Prints (printName battery) (nameText battery) := by
  unfold printName nameText
  cases battery.profile with
  | none => exact .skip
  | some name => exact .bind .print (printIf_prints _ _)

private theorem printProfile_prints (battery : Battery) : Prints (printProfile battery) (profileText battery) :=
  .when (.bind .print (.bind (printName_prints battery) (.bind (.ite .print (printIf_prints _ _)) .print)))

private theorem printLevel_prints (battery : Battery) : Prints (printLevel battery) (levelText battery) :=
  .bind .print (.bind (printIf_prints _ _) (.bind (printProfile_prints battery) (printIf_prints _ _)))

private theorem printCharger_grows (charger : Option Charger) {start : ℕ} {front : Text} :
    Grows room (printCharger charger) (.of start front)
      (.of start (front ++ match charger with
        | none => []
        | some charger => chargerText charger (room - front.length))) := by
  cases charger with
  | none => exact Prints.skip.grows room start front
  | some charger =>
    exact .advance (fun room => (charger_grows charger room).builds fun _ => (Option.bind_assoc _ _ _).symm)
      ((charger_grows charger 0).advances fun _ => (Option.bind_assoc _ _ _).symm)

theorem printBatteryStatus_grows (battery : Battery) (room : ℕ) :
    Grows room (printBatteryStatus battery) (.of 0 []) (.of 0 (batteryText battery room)) := by
  unfold printBatteryStatus batteryText
  by_cases known : battery.voltage < pmInvalidVoltage
  · simp only [known, ↓reduceIte]
    exact .bind ((printLevel_prints battery).grows room 0 []) (printCharger_grows battery.charger)
  · simp only [known, ↓reduceIte]
    exact .skip

end Batteries

/-- A time, if there is room for it and its end. -/
def stampText (date : ℤ → Text) (timeMillis : ℤ) (room : ℕ) : Text :=
  if 0 < timeMillis.tdiv 1000 ∧ (date (timeMillis.tdiv 1000)).length < room then date (timeMillis.tdiv 1000) else []

def rebootTimeText (date : ℤ → Text) (reboot : Reboot) (room : ℕ) : Text :=
  if reboot.time ≠ 0 then stampText date reboot.time room ++ " ".toList else []

/-- The newest reboot, if there is one. -/
def rebootText (date : ℤ → Text) (reboot : Option Reboot) (room : ℕ) : Text :=
  match reboot with
  | none => []
  | some reboot =>
    "Last code: ".toList ++ rebootTimeText date reboot (room - "Last code: ".toList.length) ++
      applGetRebootDesciption reboot.code ++
      if errorDetail reboot.code ≠ 0 then [' '] ++ unsigned (errorDetail reboot.code) else []

section Reboots

variable {room : ℕ} {start : ℕ} {front : Text} (date : ℤ → Text)

theorem stamp_grows (timeMillis : ℤ) :
    Grows room (applFormatTime date timeMillis) (.of start front)
      (.of start (front ++ stampText date timeMillis (room - front.length))) := by
  refine Grows.test .print fun writer at' inside => ?_
  rw [at'.room inside]

private theorem printRebootTime_grows (reboot : Reboot) :
    Grows room (printRebootTime date reboot) (.of start front)
      (.of start (front ++ rebootTimeText date reboot (room - front.length))) := by
  unfold printRebootTime rebootTimeText
  by_cases known : reboot.time ≠ 0
  · simp only [known, ne_eq, not_false_eq_true, ↓reduceIte]
    rw [← List.append_assoc]
    exact .bind (stamp_grows date reboot.time) .print
  · simp only [known, ↓reduceIte, List.append_nil]
    exact .skip

theorem printReboot_grows (reboot : Option Reboot) (room : ℕ) :
    Grows room (printReboot date reboot) (.of 0 []) (.of 0 (rebootText date reboot room)) := by
  cases reboot with
  | none => exact .skip
  | some reboot =>
    exact .bind .print (.bind (printRebootTime_grows date reboot) (.bind .print ((printIf_prints _ _).grows _ _ _)))

end Reboots

end CoapsClient.CoapAppl
