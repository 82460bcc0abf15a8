import CoapsClient.Model.Storage.Store

/-! # Writes on a device that fails

Every operation takes its result from the script of the device. `Device.result` numbers the results of the
coming operations, `Device.skip` leaves some of them out, and each operation is what its result says. Over
that, `readCurrent` and `prepareNext` come down to the results of the operations they run.
-/

namespace CoapsClient.ApplStorage

open Machine Math

/-- The result of a coming operation. -/
def Device.result (device : Device) (operation : ℕ) : Int := device.faults.getD operation 0

/-- The device behind a number of operations without effects. -/
def Device.skip (device : Device) (operations : ℕ) : Device :=
  { device with faults := device.faults.drop operations }

section Operations

variable {device : Device}

@[simp] theorem Device.skip_skip (first second : ℕ) :
    (device.skip first).skip second = device.skip (first + second) := by
  simp only [Device.skip, List.drop_drop]

@[simp] theorem Device.result_skip (operations operation : ℕ) :
    (device.skip operations).result operation = device.result (operations + operation) := by
  simp only [Device.result, Device.skip, List.getD_eq_getElem?_getD, List.getElem?_drop]

@[simp] theorem Device.result_after (effects : List Effect) (operation : ℕ) :
    (device.after effects).result operation = device.result operation := rfl

@[simp] theorem Device.skip_after (effects : List Effect) (operations : ℕ) :
    (device.after effects).skip operations = (device.skip operations).after effects := rfl

@[simp] theorem Device.skip_effects (operations : ℕ) : (device.skip operations).effects = device.effects := rfl

@[simp] theorem Device.skip_memory (operations : ℕ) : (device.skip operations).memory = device.memory := rfl

private theorem attempt_eq : attempt device = (device.result 0, device.skip 1) := by
  obtain ⟨memory, merge, pageSize, eraseValue, stack, faults, effects⟩ := device
  cases faults <;> rfl

theorem readMemory_eq (address : ℕ) (data : Buffer) (index count : ℕ) :
    readMemory address data index count device =
      ((device.result 0,
        if device.result 0 = 0 then data.load index count fun offset => device.memory (address + offset)
        else data), device.skip 1) := by
  simp only [readMemory, run_bind, attempt_eq]
  split <;> rfl

theorem writeMemory_eq (address : ℕ) (bytes : List UInt8) :
    writeMemory address bytes device =
      (device.result 0,
        if device.result 0 = 0 then (device.skip 1).after [.program address bytes] else device.skip 1) := by
  simp only [writeMemory, run_bind, attempt_eq]
  split <;> rfl

private theorem flashEraseMemory_eq (address count : ℕ) :
    flashEraseMemory address count device =
      (device.result 0,
        if device.result 0 = 0 then (device.skip 1).after [.fill address count device.eraseValue]
        else device.skip 1) := by
  simp only [flashEraseMemory, run_bind, attempt_eq]
  split <;> rfl

private theorem getPageInfoByOffs_flash_eq (address : ℕ) :
    getPageInfoByOffs true address device =
      ((device.result 0, ⟨address / device.pageSize * device.pageSize, device.pageSize⟩), device.skip 1) := by
  simp only [getPageInfoByOffs, run_bind, attempt_eq, if_true]
  rfl

/-- A single byte of an EEPROM is erased with one write. -/
private theorem eepromEraseByte_eq (address : ℕ) :
    eepromEraseMemory address 1 device = writeMemory address [0xff] device := by
  have block : min 1 eepromBlockSize = 1 := rfl
  simp only [eepromEraseMemory, eepromEraseBlocks, if_pos Nat.one_pos, block, run_bind, writeMemory_eq,
    List.replicate_one]
  split
  · next ok =>
    rw [ok]
    rfl
  · rfl

/-- A failure before an action, and a failure of the action, become one. -/
theorem orElseRun_eq (rc : Int) (action : StateM Device Int) :
    orElseRun rc action device =
      if rc = 0 then (if (action device).1 = 0 then 0 else 1, (action device).2) else (1, device) := by
  simp only [orElseRun]
  split <;> rfl

end Operations

variable {setup : StorageSetup} {device : Device}

/-- The slot is followed by another one in front of the end. -/
def StorageSetup.Inside (setup : StorageSetup) : Prop :=
  setup.currentOffset + (setup.itemSize + 1) ≤ setup.endOffset

instance (setup : StorageSetup) : Decidable setup.Inside := inferInstanceAs (Decidable (_ ≤ _))

/-- Where the write position goes. -/
def StorageSetup.nextOffset (setup : StorageSetup) : ℕ :=
  if setup.Inside then setup.currentOffset + setup.itemSize else setup.startOffset

/-- The operations that read the slot and the first byte behind it. -/
def readOperations (setup : StorageSetup) : ℕ := if setup.Inside then 1 else 2

/-- The next slot is in use. -/
def NextUsed (setup : StorageSetup) (device : Device) : Prop := device.memory setup.nextOffset ≠ setup.eraseValue

instance (setup : StorageSetup) (device : Device) : Decidable (NextUsed setup device) :=
  inferInstanceAs (Decidable (_ ≠ _))

/-- The first page is recycled, and its header is written again. -/
def RecyclesHeader (setup : StorageSetup) (device : Device) : Prop :=
  setup.nextOffset / device.pageSize * device.pageSize = setup.headersOffset

instance (setup : StorageSetup) (device : Device) : Decidable (RecyclesHeader setup device) :=
  inferInstanceAs (Decidable (_ = _))

/-- The operations that make room for the next slot and whose results count. -/
def roomOperations (setup : StorageSetup) (device : Device) : ℕ :=
  if NextUsed setup device then (if setup.config.isFlashDevice then 2 else 1) else 0

/-- The operations between the room and the item, whose results are not used. -/
def headerOperations (setup : StorageSetup) (device : Device) : ℕ :=
  if NextUsed setup device ∧ setup.config.isFlashDevice ∧ RecyclesHeader setup device then 1 else 0

/-- What was read of a slot: its bytes, and the first one behind it. -/
def slotBuffer (setup : StorageSetup) (device : Device) : Buffer :=
  if setup.Inside then
    Buffer.load (fun _ => 0) 0 (setup.itemSize + 1) fun offset => device.memory (setup.currentOffset + offset)
  else
    (Buffer.load (fun _ => 0) 0 setup.itemSize fun offset =>
      device.memory (setup.currentOffset + offset)).load setup.itemSize 1 fun offset =>
        device.memory (setup.startOffset + offset)

theorem slotBuffer_next : slotBuffer setup device setup.itemSize = device.memory setup.nextOffset := by
  simp only [slotBuffer, StorageSetup.nextOffset]
  split
  · rw [Buffer.load_inside (Nat.zero_le _) (by omega), Nat.sub_zero]
  · rw [Buffer.load_inside (Nat.le_refl _) (by omega), Nat.sub_self, Nat.add_zero]

/-- Reads that succeed. -/
theorem readCurrent_ok (ok : ∀ operation < readOperations setup, device.result operation = 0) :
    readCurrent setup device =
      ((0, slotBuffer setup device, setup.nextOffset), device.skip (readOperations setup)) := by
  simp only [readOperations] at ok
  simp only [readCurrent, slotBuffer, StorageSetup.nextOffset, readOperations]
  by_cases inside : setup.Inside
  · have first : device.result 0 = 0 := ok 0 (by simp [inside])
    simp only [if_pos inside]
    rw [if_pos (show _ ≤ _ from inside)]
    simp only [run_bind, readMemory_eq, first, if_true]
    rfl
  · have first : device.result 0 = 0 := ok 0 (by simp [inside])
    have second : device.result 1 = 0 := ok 1 (by simp [inside])
    simp only [if_neg inside]
    rw [if_neg (show ¬ (_ ≤ _) from inside)]
    simp only [run_bind, readMemory_eq, first, second, if_true, Device.result_skip, Device.skip_skip,
      Device.skip_memory]
    rfl

/-- Reads that fail: the result of a slot that is followed by another one comes back as it is, any other one
becomes one. -/
theorem readCurrent_failed (failed : ∃ operation < readOperations setup, device.result operation ≠ 0) :
    ∃ data operations, readCurrent setup device =
      ((if setup.Inside then device.result 0 else 1, data, setup.nextOffset), device.skip operations) := by
  simp only [readOperations] at failed
  simp only [readCurrent, StorageSetup.nextOffset]
  by_cases inside : setup.Inside
  · obtain ⟨operation, bound, failed⟩ := failed
    rw [if_pos inside] at bound
    obtain rfl : operation = 0 := by omega
    simp only [if_pos inside]
    rw [if_pos (show _ ≤ _ from inside)]
    simp only [run_bind, readMemory_eq, if_neg failed]
    exact ⟨_, _, rfl⟩
  · simp only [if_neg inside]
    rw [if_neg (show ¬ (_ ≤ _) from inside)]
    by_cases first : device.result 0 = 0
    · have second : device.result 1 ≠ 0 := by
        obtain ⟨operation, bound, failed⟩ := failed
        rw [if_neg inside] at bound
        intro ok
        rcases (show operation = 0 ∨ operation = 1 by omega) with rfl | rfl
        · exact failed first
        · exact failed ok
      simp only [run_bind, readMemory_eq, first, if_true, Device.result_skip, Device.skip_skip, second, if_false]
      exact ⟨_, _, rfl⟩
    · simp only [run_bind, readMemory_eq, if_neg first]
      exact ⟨_, _, rfl⟩

/-- What making room does: its result is that of its operations. -/
structure MakesRoom (setup : StorageSetup) (device : Device) (outcome : Int × Device) : Prop where
  ok_iff : outcome.1 = 0 ↔ ∀ operation < roomOperations setup device, device.result operation = 0
  effects : ∃ operations room, outcome.2 = (device.skip operations).after room ∧
    (outcome.1 = 0 → operations = roomOperations setup device + headerOperations setup device)

/-- The header of a recycled page is written, or not; its result is lost. -/
private theorem initHeaders_room : ∃ room, initHeaders setup device = ((), (device.skip 1).after room) := by
  simp only [initHeaders, run_bind, writeMemory_eq]
  split
  · exact ⟨[.program setup.headersOffset setup.header], rfl⟩
  · exact ⟨[], congrArg (Prod.mk ()) (Device.after_nil ..).symm⟩

private theorem recyclePage_ok (isFlash : setup.config.isFlashDevice = true) (used : NextUsed setup device)
    (first : device.result 0 = 0) (second : device.result 1 = 0) :
    ∃ room, recyclePage setup setup.nextOffset device =
      (0, (device.skip (2 + headerOperations setup device)).after room) := by
  set page : Effect := .fill (setup.nextOffset / device.pageSize * device.pageSize) device.pageSize
    device.eraseValue with pageEq
  simp only [recyclePage, isFlash, run_bind, getPageInfoByOffs_flash_eq, orElseRun_eq, eraseMemory, if_true,
    flashEraseMemory_eq, Device.result_skip, Device.skip_skip, first, second, true_and]
  split
  · next header =>
    obtain ⟨room, run⟩ := @initHeaders_room setup ((device.skip 2).after [page])
    have count : headerOperations setup device = 1 := if_pos ⟨used, isFlash, header⟩
    refine ⟨page :: room, ?_⟩
    rw [run_bind, show (device.skip 1).eraseValue = device.eraseValue from rfl, ← pageEq, run, count,
      Device.skip_after, Device.skip_skip, Device.after_after]
    rfl
  · next header =>
    have count : headerOperations setup device = 0 := if_neg fun recycles => header recycles.2.2
    refine ⟨[page], ?_⟩
    rw [count]
    rfl

private theorem recyclePage_failed (isFlash : setup.config.isFlashDevice = true)
    (failed : ¬ (device.result 0 = 0 ∧ device.result 1 = 0)) :
    ∃ operations, recyclePage setup setup.nextOffset device = (1, device.skip operations) := by
  simp only [recyclePage, isFlash, run_bind, getPageInfoByOffs_flash_eq, orElseRun_eq, eraseMemory, if_true,
    flashEraseMemory_eq, Device.result_skip, Device.skip_skip]
  by_cases first : device.result 0 = 0
  · have second : device.result 1 ≠ 0 := fun second => failed ⟨first, second⟩
    simp only [first, if_true, second, if_false]
    exact ⟨_, rfl⟩
  · simp only [first, if_false]
    exact ⟨_, rfl⟩

/-- Making room succeeds when its operations do. -/
theorem prepareNext_room :
    MakesRoom setup device
      (prepareNext setup (device.memory setup.nextOffset) setup.nextOffset device) := by
  by_cases used : NextUsed setup device
  · rw [prepareNext, if_pos (show _ ≠ _ from used)]
    by_cases isFlash : setup.config.isFlashDevice = true
    · have count : roomOperations setup device = 2 := by simp [roomOperations, used, isFlash]
      have both : (∀ operation < roomOperations setup device, device.result operation = 0) ↔
          device.result 0 = 0 ∧ device.result 1 = 0 := by
        rw [count]
        refine ⟨fun ok => ⟨ok 0 (by omega), ok 1 (by omega)⟩, fun ok operation bound => ?_⟩
        rcases (show operation = 0 ∨ operation = 1 by omega) with rfl | rfl
        · exact ok.1
        · exact ok.2
      rw [if_pos isFlash]
      by_cases ok : device.result 0 = 0 ∧ device.result 1 = 0
      · obtain ⟨room, run⟩ := recyclePage_ok isFlash used ok.1 ok.2
        rw [run]
        exact ⟨iff_of_true rfl (both.mpr ok), _, room, rfl, fun _ => by rw [count]⟩
      · obtain ⟨operations, run⟩ := recyclePage_failed isFlash ok
        rw [run]
        exact ⟨iff_of_false one_ne_zero (mt both.mp ok), operations, [], (Device.after_nil ..).symm,
          fun zero => absurd zero one_ne_zero⟩
    · have count : roomOperations setup device = 1 := by simp [roomOperations, used, isFlash]
      have header : headerOperations setup device = 0 := if_neg fun recycles => isFlash recycles.2.1
      have only : (∀ operation < roomOperations setup device, device.result operation = 0) ↔
          device.result 0 = 0 := by
        simp [count]
      rw [if_neg isFlash, eraseMemory, if_neg isFlash, eepromEraseByte_eq, writeMemory_eq]
      refine ⟨only.symm, ?_⟩
      split
      · exact ⟨1, [.program setup.nextOffset [0xff]], rfl, fun _ => by rw [count, header]⟩
      · next failed => exact ⟨1, [], (Device.after_nil ..).symm, fun ok => absurd ok failed⟩
  · have count : roomOperations setup device = 0 := if_neg used
    have header : headerOperations setup device = 0 := if_neg fun recycles => used recycles.1
    rw [prepareNext, if_neg (show ¬ _ ≠ _ from used)]
    refine ⟨iff_of_true rfl fun operation none => ?_, 0, [], (Device.after_nil ..).symm, fun _ => ?_⟩
    · rw [count] at none
      contradiction
    · rw [count, header]

end CoapsClient.ApplStorage
