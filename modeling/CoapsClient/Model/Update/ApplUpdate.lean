import CoapsClient.Model.Shell.Text

/-! # The device firmware update and the image transfer

`appl_update.c` over the flash image writer and the bootloader. What these answer is outside of the
repository, and so is whether the device reboots by the time of a call; both come with an `Answer` for
each call. Of the DFU context only the open flash area is read. `dfu_time` goes into texts only and is
left out.

`appl_update.c` with the whole DFU context. The flash image writer is outside of the repository: a
`FlashImg` says what of its context is read, and what a buffered write does to the context and writes to the
flash, for what the flash device answers. The bootloader enters by its answers to one call.

`Transfer.dfu` is the part of the context that `Dfu` keeps, and the operations carry the results of `Dfu`.
Logs are left out, and with them the numbers that only go into a log.
-/

namespace CoapsClient.ApplUpdate

open ShCmd (Text stricmp parseNextText)

/-- `-ENOMEM`. -/
def enomem : Int := -12
/-- `-EBUSY`. -/
def ebusy : Int := -16
/-- `-EEXIST`. -/
def eexist : Int := -17
/-- `-EINVAL`. -/
def einval : Int := -22
/-- `-ESHUTDOWN`. -/
def eshutdown : Int := -110
/-- `-EINPROGRESS`. -/
def einprogress : Int := -119

/-- What a call finds: whether the device reboots, the result of the flash writer or the bootloader,
and the flash area this leaves in the context. -/
structure Answer where
  reboots : Bool := false
  rc : Int := 0
  area : Option ℕ := none
deriving DecidableEq, Repr

/-- `dfu_context.flash_area` and `dfu_flash_area_id`, which is below zero for `none`. -/
structure Dfu where
  area : Option ℕ := none
  areaId : Option ℕ := none
deriving DecidableEq, Repr

/-- `appl_update_init_context`. -/
def initContext (init : Answer) : Dfu :=
  { area := init.area, areaId := if init.rc = 0 then init.area else none }

/-- `appl_update_start`. -/
def start (dfu : Dfu) (init : Answer) : Dfu × Int :=
  if init.reboots then (dfu, eshutdown)
  else if dfu.area.isSome then (dfu, einprogress)
  else (initContext init, init.rc)

/-- `appl_update_erase`. -/
def erase (dfu : Dfu) (answer : Answer) : Int :=
  if answer.reboots then eshutdown else if dfu.areaId.isSome then answer.rc else einval

/-- `appl_update_write`. -/
def write (answer : Answer) : Int := if answer.reboots then eshutdown else answer.rc

/-- `appl_update_finish`. -/
def finish (dfu : Dfu) (flush : Answer) : Dfu × Int :=
  if flush.reboots then (dfu, eshutdown) else ({ dfu with area := flush.area }, flush.rc)

/-- `appl_update_cancel`. -/
def cancel (dfu : Dfu) (flush : Answer) : Dfu × Int :=
  if flush.reboots then (dfu, eshutdown)
  else ({ area := flush.area, areaId := if flush.rc = 0 then none else dfu.areaId }, flush.rc)

/-- The header of the image in the update area, as far as it is read. -/
structure Header where
  mcubootVersion : ℕ := 1
  major : ℕ := 0
  minor : ℕ := 0
  revision : ℕ := 0
  buildNum : ℕ := 0
deriving DecidableEq, Repr

/-- A `uint32_t` printed with `%d`. -/
def signed (value : ℕ) : Int := if value < 0x80000000 then value else value - 0x100000000

/-- `"%d.%d.%d+%d"`. -/
def Header.version (header : Header) : Text :=
  (toString header.major ++ "." ++ toString header.minor ++ "." ++ toString header.revision ++ "+" ++
    toString (signed header.buildNum)).toList

/-- `appl_update_get_pending_version`: the result and, if that is zero, the version. -/
def getPendingVersion (dfu : Dfu) (answer : Answer) (header : Header) : Int × Text :=
  if answer.reboots then (eshutdown, [])
  else if dfu.areaId.isNone then (einval, [])
  else if answer.rc < 0 then (answer.rc, [])
  else if header.mcubootVersion = 1 then (answer.rc, header.version)
  else (einval, [])

/-- `appl_update_request_upgrade`. -/
def requestUpgrade (answer : Answer) : Int := if answer.reboots then eshutdown else answer.rc

/-- What the `erase` and `reboot` commands of `appl_update_cmd` do to the context: one that is not open
is opened for the command and closed after it. `reboot` clears the context in any case. -/
def cmdContext (clears : Bool) (dfu : Dfu) (init : Answer) : Dfu :=
  if init.reboots then dfu
  else if dfu.area.isSome then (if clears then { dfu with area := none } else dfu)
  else if init.rc < 0 then initContext init
  else { area := none, areaId := none }

/-- `UPDATE_CMD_OK`. -/
def updateCmdOk : Int := 0
/-- `UPDATE_CMD_DOWNLOAD`. -/
def updateCmdDownload : Int := 1
/-- `UPDATE_CMD_UPDATE`. -/
def updateCmdUpdate : Int := 2

/-- The flash image writer: its context, and what the flash device answers to a write. -/
structure FlashImg (Context Fault : Type) where
  /-- The context that `memset` leaves. -/
  cleared : Context
  /-- The id of `flash_area`. -/
  area : Context → Option ℕ
  area_cleared : area cleared = none
  /-- `flash_img_buffered_write`: the result, the context, and what is written to the flash. -/
  bufferedWrite : Context → List UInt8 → Bool → Fault → Int × Context × List (ℕ × List UInt8)

/-- The swap types of the bootloader. -/
inductive SwapType where
  | none
  | test
  | perm
  | revert
  | fail
deriving DecidableEq, Repr

/-- What the flash image writer and the bootloader answer to one call. -/
structure Boot (Context : Type) where
  /-- `flash_img_init`, and the context it leaves. -/
  init : Int × Context
  /-- `boot_read_bank_header`. -/
  header : Except Int (ℕ × Header) := .error einval
  swapType : SwapType := .none
  erase : Int := 0
  upgrade : Int := 0
  confirmed : Bool := false
  writeConfirmed : Int := 0

/-- The variables of the module, and whether the device reboots. -/
structure Transfer (Context : Type) where
  /-- `dfu_context`. -/
  context : Context
  /-- `dfu_flash_area_id`, which is below zero for `none`. -/
  areaId : Option ℕ := none
  /-- `dfu_time`. -/
  time : Int := -1
  reboots : Bool := false

variable {Context Fault : Type} (img : FlashImg Context Fault) (boot : Boot Context)

/-- `appl_update_init_context`. -/
def applUpdateInitContext (transfer : Transfer Context) : Int × Transfer Context :=
  (boot.init.1,
    { transfer with
      context := boot.init.2
      areaId := if boot.init.1 = 0 then img.area boot.init.2 else none })

/-- `appl_update_dump_header` without a buffer. -/
def applUpdateDumpHeader : Int :=
  match boot.header with
  | .error rc => rc
  | .ok (rc, header) => if header.mcubootVersion = 1 then rc else einval

/-- `appl_update_reboot`; the result is not used. -/
def applUpdateReboot (transfer : Transfer Context) : Transfer Context :=
  match boot.swapType with
  | .test | .perm | .revert => { transfer with reboots := true }
  | .none | .fail => transfer

/-- `appl_update_image_verify`. -/
def applUpdateImageVerify (transfer : Transfer Context) : Int :=
  if transfer.reboots then eshutdown else if boot.confirmed then 1 else boot.writeConfirmed

/-- `sizeof(value)`. -/
def valueLen : ℕ := 10

/-- The first word of the text. -/
def updateWord (config : Text) : Text := (parseNextText config ' ' valueLen).1

/-- The commands of `appl_update_cmd` that work on the context; `rc` is the result so far. -/
def runUpdateCmd (rc : Int) (value : Text) (transfer : Transfer Context) : Int × Transfer Context :=
  if stricmp "info".toList value = 0 then (updateCmdOk, { transfer with context := img.cleared })
  else if stricmp "erase".toList value = 0 then (if transfer.areaId.isSome then boot.erase else rc, transfer)
  else if stricmp "revert".toList value = 0 then (boot.upgrade, transfer)
  else if stricmp "reboot".toList value = 0 then
    let transfer := { transfer with context := img.cleared }
    if applUpdateDumpHeader boot < 0 then (updateCmdOk, transfer)
    else (applUpdateDumpHeader boot, applUpdateReboot boot transfer)
  else if stricmp "verify".toList value = 0 then (applUpdateImageVerify boot transfer, transfer)
  else (rc, transfer)

/-- The words that `appl_update_cmd` works on. -/
def isUpdateWord (value : Text) : Bool :=
  stricmp "info".toList value = 0 ∨ stricmp "erase".toList value = 0 ∨ stricmp "revert".toList value = 0 ∨
    stricmp "reboot".toList value = 0 ∨ stricmp "verify".toList value = 0

/-- `appl_update_cmd`. A context that is not open is opened for the command and closed after it. -/
def applUpdateCmd (transfer : Transfer Context) (config : Text) : Int × Transfer Context :=
  if transfer.reboots then (eshutdown, transfer)
  else
    let value := updateWord config
    if value = [] then (updateCmdUpdate, transfer)
    else if stricmp "download".toList value = 0 then (updateCmdDownload, transfer)
    else if isUpdateWord value = false then (einval, transfer)
    else if (img.area transfer.context).isSome then runUpdateCmd img boot 0 value transfer
    else
      let opened := applUpdateInitContext img boot transfer
      if opened.1 < 0 then opened
      else
        let run := runUpdateCmd img boot opened.1 value opened.2
        (run.1, { run.2 with context := img.cleared, areaId := none })

/-- `appl_update_start`, at an uptime. -/
def applUpdateStart (now : Int) (transfer : Transfer Context) : Int × Transfer Context :=
  if transfer.reboots then (eshutdown, transfer)
  else if (img.area transfer.context).isSome then (einprogress, transfer)
  else
    let opened := applUpdateInitContext img boot transfer
    (opened.1, if opened.1 = 0 then { opened.2 with time := now } else opened.2)

/-- `appl_update_erase`. -/
def applUpdateErase (transfer : Transfer Context) : Int × Transfer Context :=
  if transfer.reboots then (eshutdown, transfer)
  else if transfer.areaId.isSome then (boot.erase, { transfer with time := -1 })
  else (einval, transfer)

/-- What a write or a finish returns and writes to the flash. -/
abbrev FlashResult := Int × List (ℕ × List UInt8)

/-- `appl_update_write`. -/
def applUpdateWrite (fault : Fault) (data : List UInt8) (transfer : Transfer Context) :
    FlashResult × Transfer Context :=
  if transfer.reboots then ((eshutdown, []), transfer)
  else
    let (rc, context, writes) := img.bufferedWrite transfer.context data false fault
    ((rc, writes), { transfer with context })

/-- The time a transfer took, when it was taken. -/
def elapsed (now time : Int) : Int := if -1 < time then now - time else time

/-- `appl_update_finish`. -/
def applUpdateFinish (fault : Fault) (now : Int) (transfer : Transfer Context) : FlashResult × Transfer Context :=
  if transfer.reboots then ((eshutdown, []), transfer)
  else
    let (rc, context, writes) := img.bufferedWrite transfer.context [] true fault
    ((rc, writes),
      { transfer with context, time := if rc = 0 then elapsed now transfer.time else transfer.time })

/-- `appl_update_cancel`. -/
def applUpdateCancel (fault : Fault) (now : Int) (transfer : Transfer Context) : FlashResult × Transfer Context :=
  if transfer.reboots then ((eshutdown, []), transfer)
  else
    let (rc, context, writes) := img.bufferedWrite transfer.context [] true fault
    ((rc, writes),
      { transfer with
        context
        time := if rc = 0 then elapsed now transfer.time else transfer.time
        areaId := if rc = 0 then none else transfer.areaId })

/-- The open flash area and the id of the last one. -/
def Transfer.dfu (transfer : Transfer Context) : Dfu := ⟨img.area transfer.context, transfer.areaId⟩

/-- What the flash image writer answers to an initialisation, for `Dfu`. -/
def initAnswer (transfer : Transfer Context) : Answer := ⟨transfer.reboots, boot.init.1, img.area boot.init.2⟩

/-- What it answers to a flush. -/
def flushAnswer (fault : Fault) (transfer : Transfer Context) : Answer :=
  let (rc, context, _) := img.bufferedWrite transfer.context [] true fault
  ⟨transfer.reboots, rc, img.area context⟩

section Abstraction

variable {img boot} {transfer : Transfer Context}

theorem applUpdateInitContext_dfu :
    (applUpdateInitContext img boot transfer).2.dfu img = initContext (initAnswer img boot transfer) := rfl

theorem applUpdateStart_dfu (now : Int) :
    ((applUpdateStart img boot now transfer).2.dfu img, (applUpdateStart img boot now transfer).1) =
      start (transfer.dfu img) (initAnswer img boot transfer) := by
  dsimp only [applUpdateStart, start, initAnswer, Transfer.dfu]
  split_ifs <;> rfl

theorem applUpdateErase_dfu :
    (applUpdateErase boot transfer).1 = erase (transfer.dfu img) ⟨transfer.reboots, boot.erase, none⟩ ∧
      (applUpdateErase boot transfer).2.dfu img = transfer.dfu img := by
  dsimp only [applUpdateErase, erase, Transfer.dfu]
  split_ifs <;> exact ⟨rfl, rfl⟩

theorem applUpdateFinish_dfu (fault : Fault) (now : Int) :
    ((applUpdateFinish img fault now transfer).2.dfu img, (applUpdateFinish img fault now transfer).1.1) =
      finish (transfer.dfu img) (flushAnswer img fault transfer) := by
  dsimp only [applUpdateFinish, finish, flushAnswer, Transfer.dfu]
  split_ifs <;> rfl

theorem applUpdateCancel_dfu (fault : Fault) (now : Int) :
    ((applUpdateCancel img fault now transfer).2.dfu img, (applUpdateCancel img fault now transfer).1.1) =
      cancel (transfer.dfu img) (flushAnswer img fault transfer) := by
  dsimp only [applUpdateCancel, cancel, flushAnswer, Transfer.dfu]
  split_ifs <;> rfl

/-- The `erase` and the `reboot` command do to the context what `cmdContext` says. -/
theorem applUpdateCmd_dfu {config : Text} {clears : Bool}
    (word : updateWord config = if clears then "reboot".toList else "erase".toList) :
    (applUpdateCmd img boot transfer config).2.dfu img =
      cmdContext clears (transfer.dfu img) (initAnswer img boot transfer) := by
  have rebooted (transfer : Transfer Context) :
      (applUpdateReboot boot transfer).dfu img = transfer.dfu img := by
    simp only [applUpdateReboot]
    split <;> rfl
  have runs (rc : Int) (transfer : Transfer Context) :
      (runUpdateCmd img boot rc (updateWord config) transfer).2.dfu img =
        if clears then { transfer.dfu img with area := none } else transfer.dfu img := by
    rw [word]
    cases clears with
    | false => rfl
    | true =>
      have other : stricmp "info".toList "reboot".toList ≠ 0 ∧ stricmp "erase".toList "reboot".toList ≠ 0 ∧
          stricmp "revert".toList "reboot".toList ≠ 0 ∧ stricmp "reboot".toList "reboot".toList = 0 := by decide
      simp only [runUpdateCmd, if_true, if_neg other.1, if_neg other.2.1, if_neg other.2.2.1,
        if_pos other.2.2.2]
      split
      · simp only [Transfer.dfu, img.area_cleared]
      · rw [rebooted]
        simp only [Transfer.dfu, img.area_cleared]
  have known : updateWord config ≠ [] ∧ stricmp "download".toList (updateWord config) ≠ 0 ∧
      isUpdateWord (updateWord config) = true := by
    rw [word]
    cases clears <;> decide
  have opened : (applUpdateInitContext img boot transfer).1 = boot.init.1 := rfl
  dsimp only [applUpdateCmd, cmdContext, initAnswer, Transfer.dfu]
  simp only [if_neg known.1, if_neg known.2.1, known.2.2, Bool.true_eq_false, if_false, opened]
  split_ifs with reboots isOpen clear failed
  · rfl
  · exact (runs 0 transfer).trans (if_pos clear)
  · exact (runs 0 transfer).trans (if_neg clear)
  · rfl
  · simp only [img.area_cleared]

end Abstraction

end CoapsClient.ApplUpdate
