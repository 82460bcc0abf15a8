import CoapsClient.Model.Settings.Reboots

/-! # The history of reboots

What is reported of the newest four calls is their code and their time in seconds, of which the six bytes keep the low
bits and one second stands for a time that is not known. An index is multiplied before its range is checked; indices
whose product wraps around into the buffer, or in front of it, are left out here.
-/

namespace CoapsClient.ApplSettings

open Machine Math

variable {config : Config}

/-- A number of calls, oldest first. -/
def addRebootCodes (backend : Backend) (calls : List (ℕ × UInt16)) (stores : Stores config) : Stores config :=
  calls.foldl (fun stores call => (applSettingsAddRebootCode backend call.1 call.2 stores).2) stores

/-- The calls of a run are recorded, newest first. -/
private theorem addRebootCodes_history (backend : Backend) (calls : List (ℕ × UInt16)) :
    ∀ (stores : Stores config) (history : List (ℕ × UInt16)), RecordsHistory stores.runtime history →
      RecordsHistory (addRebootCodes backend calls stores).runtime (calls.reverse ++ history) := by
  induction calls with
  | nil =>
    intro stores history records
    exact records
  | cons call calls ih =>
    intro stores history records
    rw [List.reverse_cons, List.append_assoc]
    exact ih _ (call :: history) (records.add call)

/-- The time that is reported of a call. -/
def reportedTime (time : ℕ) : ℕ :=
  if time / 1000 % 2 ^ 48 ≤ 1 then 0 else time / 1000 % 2 ^ 48 * 1000

/-- Within six bytes the seconds of a call are reported, one second excepted. -/
private theorem reportedTime_eq {time : ℕ} (small : time / 1000 < 2 ^ 48) (other : time / 1000 ≠ 1) :
    reportedTime time = time / 1000 * 1000 := by
  rw [reportedTime, Nat.mod_eq_of_lt small]
  split <;> omega

section Reading

variable {settings : Settings config} {below : Cells 8}

/-- The range check, on the index that is left of the product. -/
private theorem index_checked (index : UInt32) :
    index * 8 + 8 ≤ 32 ↔ index.toNat % 2 ^ 29 < 4 ∨ index.toNat % 2 ^ 29 = 2 ^ 29 - 1 := by
  rw [UInt32.le_iff_toNat_le, UInt32.toNat_add, UInt32.toNat_mul]
  simp only [UInt32.toNat_ofNat]
  omega

/-- The address of an entry in the buffer. -/
private theorem rebootEntry_inside {index : UInt32} (inside : index.toNat % 2 ^ 29 < 4) :
    rebootEntry settings below (index * 8) =
      (settings.rebootCodes.bytes.drop (8 * (index.toNat % 2 ^ 29))).take 8 := by
  have address : (index * 8 + 8).toNat = below.bytes.length + 8 * (index.toNat % 2 ^ 29) := by
    rw [below.size_eq, UInt32.toNat_add, UInt32.toNat_mul]
    simp only [UInt32.toNat_ofNat]
    omega
  rw [rebootEntry, address, List.drop_length_add_append]

/-- The fields of an entry. -/
private theorem callEntry_fields (call : ℕ × UInt16) :
    ofBigEndian ((callEntry call).take 6) =
        (if call.1 / 1000 % 2 ^ 48 = 0 then 1 else call.1 / 1000 % 2 ^ 48) ∧
      ofBigEndian ((callEntry call).drop 6) = call.2.toNat := by
  have small : call.2.toNat < 2 ^ 16 := call.2.toNat_lt
  rw [callEntry, List.take_left' (bigEndian_length 6 _), List.drop_left' (bigEndian_length 6 _),
    ofBigEndian_bigEndian, ofBigEndian_bigEndian]
  refine ⟨Nat.mod_eq_of_lt ?_, Nat.mod_eq_of_lt small⟩
  split <;> omega

variable {history : List (ℕ × UInt16)} {index : UInt32}

/-- An entry of the history is read. -/
theorem RecordsHistory.get_entry (records : RecordsHistory settings history) (inside : index.toNat < 4)
    {call : ℕ × UInt16} (entry : history[index.toNat]? = some call) :
    applSettingsGetRebootCode settings below index true true =
      ⟨1, some (reportedTime call.1), some call.2.toNat⟩ := by
  have low : index.toNat % 2 ^ 29 = index.toNat := Nat.mod_eq_of_lt (by omega)
  have found : rebootEntry settings below (index * 8) = callEntry call := by
    rw [rebootEntry_inside (by omega), low, records.entry inside, entry]
    rfl
  obtain ⟨seconds, code⟩ := callEntry_fields call
  have checked : index * 8 + 8 ≤ 32 := (index_checked index).mpr (.inl (by omega))
  simp only [applSettingsGetRebootCode, checked, if_true, found, seconds, code]
  have there : (if call.1 / 1000 % 2 ^ 48 = 0 then 1 else call.1 / 1000 % 2 ^ 48) ≠ 0 := by
    split <;> omega
  rw [if_pos there]
  congr 2
  rw [reportedTime]
  generalize call.1 / 1000 % 2 ^ 48 = stored
  rcases (show stored = 0 ∨ stored = 1 ∨ 1 < stored by omega) with rfl | rfl | later
  · rfl
  · rfl
  · have known : stored ≠ 0 := by omega
    rw [if_neg known, if_neg (by omega), if_neg (by omega)]

/-- Behind the history nothing is read. -/
theorem RecordsHistory.get_behind (records : RecordsHistory settings history)
    (behind : min history.length 4 ≤ index.toNat % 2 ^ 29) (notBelow : index.toNat % 2 ^ 29 ≠ 2 ^ 29 - 1) :
    applSettingsGetRebootCode settings below index true true = ⟨0, none, none⟩ := by
  by_cases inside : index.toNat % 2 ^ 29 < 4
  · have found : rebootEntry settings below (index * 8) = List.replicate 8 0 := by
      rw [rebootEntry_inside inside, records.entry inside, List.getElem?_eq_none (by omega)]
      rfl
    have zero : ofBigEndian ((List.replicate 8 (0 : UInt8)).take 6) = 0 := by decide
    simp only [applSettingsGetRebootCode, found, zero]
    simp
  · have unchecked : ¬ index * 8 + 8 ≤ 32 := by
      rw [index_checked]
      omega
    simp only [applSettingsGetRebootCode, if_neg unchecked]

end Reading

/-- After any number of calls on a device behind its first boot, the newest four are read with their code and with the
time that is reported of them: whole seconds, unless they do not fit six bytes or are one second, which stands for an
unknown time. Behind them nothing is read, for all indices whose product does not wrap around into the entries or in
front of them. -/
theorem reboot_history (backend : Backend) (calls : List (ℕ × UInt16)) (saved : Saved) (below : Cells 8)
    (index : UInt32) :
    let settings := (addRebootCodes backend calls ⟨boot config, saved⟩).runtime
    (index.toNat < min calls.length 4 → ∃ call, calls.reverse[index.toNat]? = some call ∧
      applSettingsGetRebootCode settings below index true true =
        ⟨1, some (reportedTime call.1), some call.2.toNat⟩ ∧
      (call.1 / 1000 < 2 ^ 48 → call.1 / 1000 ≠ 1 → reportedTime call.1 = call.1 / 1000 * 1000)) ∧
    (min calls.length 4 ≤ index.toNat % 2 ^ 29 → index.toNat % 2 ^ 29 ≠ 2 ^ 29 - 1 →
      applSettingsGetRebootCode settings below index true true = ⟨0, none, none⟩) := by
  intro settings
  have records : RecordsHistory settings calls.reverse := by
    have run := addRebootCodes_history backend calls ⟨boot config, saved⟩ [] boot_history
    rwa [List.append_nil] at run
  constructor
  · intro inside
    have there : index.toNat < calls.reverse.length := by
      rw [List.length_reverse]
      omega
    refine ⟨calls.reverse[index.toNat], List.getElem?_eq_getElem there, ?_, reportedTime_eq⟩
    exact records.get_entry (by omega) (List.getElem?_eq_getElem there)
  · intro behind notBelow
    rw [← List.length_reverse] at behind
    exact records.get_behind behind notBelow

/-- Two reboots. -/
def twoReboots : List (ℕ × UInt16) := [(5000, 0x0102), (9000, 0x0203)]

/-- The older one of two reboots is read. -/
theorem second_reboot_read :
    ∃ call, twoReboots.reverse[1]? = some call ∧
      applSettingsGetRebootCode (addRebootCodes savingBackend twoReboots freshStores).runtime (.zero 8) 1 true true =
        ⟨1, some (reportedTime call.1), some call.2.toNat⟩ ∧
      (call.1 / 1000 < 2 ^ 48 → call.1 / 1000 ≠ 1 → reportedTime call.1 = call.1 / 1000 * 1000) :=
  (reboot_history savingBackend twoReboots (fun _ => none) (.zero 8) 1).1 (by decide)

/-- A time between one second and two is reported as unknown, and an index far behind the history reads its newest
entry. -/
theorem one_second_unknown :
    let settings := (addRebootCodes savingBackend [(1500, 0x0102)] freshStores).runtime
    applSettingsGetRebootCode settings (.zero 8) 0 true true = ⟨1, some 0, some 0x0102⟩ ∧ 1500 / 1000 * 1000 ≠ 0 ∧
      (applSettingsGetRebootCode settings (.zero 8) 0x20000000 true true).rc = 1 := by
  decide +kernel

end CoapsClient.ApplSettings
