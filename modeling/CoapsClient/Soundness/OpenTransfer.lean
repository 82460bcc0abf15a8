import CoapsClient.Model.Update.ApplUpdate

/-! # Update commands during a transfer

`appl_update_cmd` works on the one DFU context that a transfer has open. `verify` and `revert` leave it
alone, but `info` clears it whether it has opened it itself or not, and the transfer has lost its context.
-/

namespace CoapsClient.ApplUpdate

open ShCmd (Text stricmp stricmp_cons)

variable {Context Fault : Type}

/-- What a transfer calls. -/
inductive TransferCall (Fault : Type) where
  | write (fault : Fault) (data : List UInt8)
  | finish (fault : Fault) (now : Int)

section Calls

variable (img : FlashImg Context Fault)

/-- One call of a transfer. -/
def runCall (transfer : Transfer Context) : TransferCall Fault → FlashResult × Transfer Context
  | .write fault data => applUpdateWrite img fault data transfer
  | .finish fault now => applUpdateFinish img fault now transfer

/-- What a sequence of calls returns and writes to the flash. -/
def runCalls : Transfer Context → List (TransferCall Fault) → List FlashResult × Transfer Context
  | transfer, [] => ([], transfer)
  | transfer, call :: calls =>
    let first := runCall img transfer call
    let rest := runCalls first.2 calls
    (first.1 :: rest.1, rest.2)

/-- A command leaves the transfer as it is, and with it all that later writes and finishes do. -/
structure Undisturbed (boot : Boot Context) (transfer : Transfer Context) (config : Text) : Prop where
  context : (applUpdateCmd img boot transfer config).2.context = transfer.context
  areaId : (applUpdateCmd img boot transfer config).2.areaId = transfer.areaId
  later : ∀ calls : List (TransferCall Fault),
    runCalls img (applUpdateCmd img boot transfer config).2 calls = runCalls img transfer calls

end Calls

variable {img : FlashImg Context Fault} {boot : Boot Context} {transfer : Transfer Context} {config : Text}

/-- The words that end a transfer. -/
def endsTransfer (value : Text) : Bool :=
  stricmp "erase".toList value = 0 ∨ stricmp "reboot".toList value = 0

/-- With a transfer open, a word other than `info`, `erase` and `reboot` changes nothing. -/
private theorem applUpdateCmd_same (opened : (img.area transfer.context).isSome)
    (other : endsTransfer (updateWord config) = false)
    (noInfo : stricmp "info".toList (updateWord config) ≠ 0) :
    (applUpdateCmd img boot transfer config).2 = transfer := by
  simp only [endsTransfer, decide_eq_false_iff_not, not_or] at other
  have kept : (runUpdateCmd img boot 0 (updateWord config) transfer).2 = transfer := by
    simp only [runUpdateCmd, if_neg noInfo, if_neg other.1, if_neg other.2]
    split_ifs <;> rfl
  simp only [applUpdateCmd, opened, if_true]
  split_ifs
  · rfl
  · rfl
  · rfl
  · rfl
  · exact kept

/-- The `info` command clears the context of an open transfer. -/
private theorem applUpdateCmd_info (opened : (img.area transfer.context).isSome) (running : transfer.reboots = false)
    (info : stricmp "info".toList (updateWord config) = 0) :
    (applUpdateCmd img boot transfer config).2 = { transfer with context := img.cleared } := by
  have word : updateWord config ≠ [] := by
    intro empty
    rw [empty] at info
    contradiction
  have other : stricmp "download".toList (updateWord config) ≠ 0 := by
    intro download
    obtain ⟨first, rest, same⟩ := List.exists_cons_of_ne_nil word
    rw [same] at info download
    have letter := (stricmp_cons info).1.trans (stricmp_cons download).1.symm
    exact absurd letter (by decide)
  have known : isUpdateWord (updateWord config) = true := decide_eq_true (.inl info)
  simp only [applUpdateCmd, running, if_neg word, if_neg other, known, opened, if_true, Bool.false_eq_true,
    Bool.true_eq_false, if_false, runUpdateCmd, if_pos info]

/-- Each word but `erase` and `reboot` leaves an open transfer undisturbed exactly if it is not `info`, or
the device reboots. -/
theorem undisturbed_iff (img : FlashImg Context Fault) (boot : Boot Context) (transfer : Transfer Context)
    (config : Text) (opened : (img.area transfer.context).isSome)
    (other : endsTransfer (updateWord config) = false) :
    Undisturbed img boot transfer config ↔
      transfer.reboots = true ∨ stricmp "info".toList (updateWord config) ≠ 0 := by
  constructor
  · intro undisturbed
    by_contra disturbs
    obtain ⟨running, info⟩ := not_or.mp disturbs
    have cleared := @applUpdateCmd_info _ _ _ boot _ _ opened (Bool.not_eq_true _ ▸ running)
      (Decidable.not_not.mp info)
    have lost : transfer.context = img.cleared := by
      rw [← undisturbed.context, cleared]
    rw [lost, img.area_cleared] at opened
    contradiction
  · intro kept
    have same : (applUpdateCmd img boot transfer config).2 = transfer := by
      by_cases running : transfer.reboots = true
      · simp only [applUpdateCmd, running, if_true]
      · exact applUpdateCmd_same opened other (kept.resolve_left running)
    exact ⟨congrArg Transfer.context same, congrArg Transfer.areaId same, fun _ => by rw [same]⟩

/-- A writer without a buffer: the context is the area and the number of bytes that were written. -/
private def directImg : FlashImg (Option ℕ × ℕ) Int where
  cleared := (none, 0)
  area := Prod.fst
  area_cleared := rfl
  bufferedWrite := fun context data _ fault =>
    if context.1.isNone then (einval, context, [])
    else if fault = 0 then (0, (context.1, context.2 + data.length), [(context.2, data)])
    else (fault, context, [])

/-- The bootloader finds no image and an unconfirmed one that runs. -/
private def noImage : Boot (Option ℕ × ℕ) where
  init := (0, (some 1, 0))

/-- A transfer of which four bytes are written. -/
private def fourWritten : Transfer (Option ℕ × ℕ) where
  context := (some 1, 4)
  areaId := some 1
  time := 0

/-- `verify` in the middle of a transfer. -/
theorem verify_undisturbed : Undisturbed directImg noImage fourWritten "verify".toList :=
  (undisturbed_iff directImg noImage fourWritten "verify".toList (by decide) (by decide)).mpr
    (.inr (by decide))

/-- `info` in the middle of a transfer: the next write fails instead of going to the flash. -/
theorem info_closes_transfer :
    (applUpdateCmd directImg noImage fourWritten "info".toList).1 = updateCmdOk ∧
      directImg.area (applUpdateCmd directImg noImage fourWritten "info".toList).2.context = none ∧
      (runCalls directImg fourWritten [.write 0 [5]]).1 = [(0, [(4, [5])])] ∧
      (runCalls directImg (applUpdateCmd directImg noImage fourWritten "info".toList).2 [.write 0 [5]]).1 =
        [(einval, [])] ∧
      ¬ Undisturbed directImg noImage fourWritten "info".toList := by
  refine ⟨by decide, by decide, by decide, by decide, fun undisturbed => ?_⟩
  exact absurd undisturbed.context (by decide)

end CoapsClient.ApplUpdate
