import CoapsClient.Model.Settings.Commands
import CoapsClient.Model.Settings.Reset

/-! # The reboot codes

Four entries of eight bytes, the newest one first; an entry is a time of six bytes in seconds and a code. An entry
without a time is not there, and the time that is not known is written as one second. `size_t` has 32 bits, so that
the address of an entry wraps around; `below` is what lies in front of the buffer that the entries are copied to.
-/

namespace CoapsClient.ApplSettings

open Machine Math

variable {config : Config}

/-- `appl_settings_add_reboot_code`, at a time in milliseconds; the codes are saved as a whole. -/
def applSettingsAddRebootCode (backend : Backend) (time : ℕ) (code : UInt16) (stores : Stores config) :
    Int × Stores config :=
  let runtime := addRebootCode (time / 1000) code.toNat stores.runtime
  let (res, saved) := backend.save stores.saved (fullName .reboots) runtime.rebootCodes.bytes
  (res, { runtime, saved })

/-- What `appl_settings_get_reboot_code` delivers through its result and its pointers. -/
structure RebootCode where
  rc : Int
  time : Option ℕ := none
  code : Option ℕ := none
deriving DecidableEq, Repr

/-- The bytes behind `buf[index]`: the buffer, or for the index `-8` what lies in front of it. -/
def rebootEntry (settings : Settings config) (below : Cells 8) (index : UInt32) : List UInt8 :=
  ((below.bytes ++ settings.rebootCodes.bytes).drop (index + 8).toNat).take 8

/-- `appl_settings_get_reboot_code`; a pointer that is not there is `false`. -/
def applSettingsGetRebootCode (settings : Settings config) (below : Cells 8) (index : UInt32) (time code : Bool) :
    RebootCode :=
  let index := index * 8
  if index + 8 ≤ 32 then
    let entry := rebootEntry settings below index
    let seconds := ofBigEndian (entry.take 6)
    if seconds ≠ 0 then
      { rc := 1
        time := if time then some (if seconds = 1 then 0 else seconds * 1000) else none
        code := if code then some (ofBigEndian (entry.drop 6)) else none }
    else { rc := 0 }
  else { rc := 0 }

/-- The entry of a call. -/
def callEntry (call : ℕ × UInt16) : List UInt8 :=
  bigEndian 6 (if call.1 / 1000 % 2 ^ 48 = 0 then 1 else call.1 / 1000 % 2 ^ 48) ++ bigEndian 2 call.2.toNat

@[simp] theorem callEntry_length (call : ℕ × UInt16) : (callEntry call).length = 8 := by
  simp [callEntry]

/-- The codes are those of a history, newest first, as far as they have room. -/
def RecordsHistory (settings : Settings config) (history : List (ℕ × UInt16)) : Prop :=
  settings.rebootCodes.bytes = (history.flatMap callEntry ++ List.replicate 32 0).take 32

theorem boot_history : RecordsHistory (boot config) [] := rfl

/-- A call moves the entries back by one. -/
theorem RecordsHistory.add {settings : Settings config} {history : List (ℕ × UInt16)}
    (records : RecordsHistory settings history) (call : ℕ × UInt16) :
    RecordsHistory (addRebootCode (call.1 / 1000) call.2.toNat settings) (call :: history) := by
  have bytes : (addRebootCode (call.1 / 1000) call.2.toNat settings).rebootCodes.bytes =
      callEntry call ++ settings.rebootCodes.bytes.take 24 := by
    refine Cells.load_full ?_
    rw [← callEntry, List.length_append, callEntry_length, List.length_take, settings.rebootCodes.size_eq]
    rfl
  have shift (rest : List UInt8) : (callEntry call ++ rest).take 32 = callEntry call ++ rest.take 24 := by
    rw [show 32 = (callEntry call).length + 24 by rw [callEntry_length], List.take_length_add_append]
  rw [RecordsHistory, bytes, records, List.take_take, List.flatMap_cons, List.append_assoc, shift]
  rfl

/-- Entries of one width behind each other: leaving out a number of them leaves out so many items. -/
private theorem flatMap_drop {α : Type} {entry : α → List UInt8} {width : ℕ} (wide : ∀ item, (entry item).length = width)
    (rest : List UInt8) (index : ℕ) : ∀ items : List α, index ≤ items.length →
    (items.flatMap entry ++ rest).drop (width * index) = (items.drop index).flatMap entry ++ rest := by
  induction index with
  | zero =>
    intro items _
    rfl
  | succ index ih =>
    intro items inside
    cases items with
    | nil => contradiction
    | cons item items =>
      rw [List.flatMap_cons, List.append_assoc, Nat.mul_succ, Nat.add_comm, ← wide item, List.drop_length_add_append,
        wide item, ih items (Nat.le_of_succ_le_succ inside), List.drop_succ_cons]

/-- An entry in the buffer is that of its call, or zeros behind the last call. -/
theorem RecordsHistory.entry {settings : Settings config} {history : List (ℕ × UInt16)}
    (records : RecordsHistory settings history) {index : ℕ} (inside : index < 4) :
    (settings.rebootCodes.bytes.drop (8 * index)).take 8 =
      (history[index]?).elim (List.replicate 8 0) callEntry := by
  rw [records, List.drop_take, List.take_take, Nat.min_eq_left (by omega)]
  by_cases there : index < history.length
  · rw [flatMap_drop callEntry_length _ index history there.le, List.drop_eq_getElem_cons there,
      List.getElem?_eq_getElem there, List.flatMap_cons, List.append_assoc, ← callEntry_length history[index],
      List.take_left]
    rfl
  · have zeros : (List.replicate 32 (0 : UInt8)).drop (8 * index - 8 * history.length) =
        List.replicate (32 - (8 * index - 8 * history.length)) 0 := List.drop_replicate ..
    have split : 8 * index = 8 * history.length + (8 * index - 8 * history.length) := by omega
    have all : (history.flatMap callEntry ++ List.replicate 32 0).drop (8 * history.length) =
        List.replicate 32 0 := by
      rw [flatMap_drop callEntry_length _ history.length history (Nat.le_refl _), List.drop_length]
      rfl
    rw [split, ← List.drop_drop, all, zeros, List.take_replicate, List.getElem?_eq_none (by omega)]
    exact congrArg (List.replicate · 0) (Nat.min_eq_left (by omega))

end CoapsClient.ApplSettings
