import CoapsClient.Model.Storage.Stored
import Mathlib.Data.List.GetD

/-! # What one write does to the device

On a device that reports no error `writeItem` is a short list of effects: those that make room
behind the slot, then the item itself. `flashRoom` and `eepromRoom` name the first part for the two
kinds of device. The item never starts with an all-ones byte, so the one byte `writeItem` looks at
tells a used next slot from a free one.
-/

namespace CoapsClient.ApplStorage

open Machine Math RingLog

variable {setup : StorageSetup} {slots : ℕ} {device : Device}

theorem timeField_lt (time : Int) : timeField time < 2 ^ 47 := by
  simp only [timeField]
  omega

/-- For times that are not negative the field is the masked number of seconds. -/
theorem timeField_ofNat (time : ℕ) : timeField time = time / 1000 &&& 0x7fffffffffff := by
  have seconds : (time : Int).tdiv (msecPerSec : ℕ) = ((time / 1000 : ℕ) : Int) := rfl
  have mask : (0x7fffffffffff : ℕ) = 2 ^ 47 - 1 := rfl
  rw [timeField, seconds, mask, Nat.and_two_pow_sub_one_eq_mod]
  omega

@[simp] theorem itemBytes_length (data : Buffer) (time : Int) (value : List UInt8) :
    (itemBytes setup data time value).length = setup.itemSize := by
  simp [itemBytes]

/-- The value an item carries: cut to the section's size, padded with the slot's old bytes. -/
def storedValue (setup : StorageSetup) (data : Buffer) (value : List UInt8) : List UInt8 :=
  value.take setup.config.valueSize ++
    (List.range (setup.config.valueSize - value.length)).map fun index =>
      data (timeSize + value.length + index)

theorem itemBytes_append (fits : setup.itemSize = setup.config.valueSize + timeSize) (data : Buffer) (time : Int) (value : List UInt8) :
    itemBytes setup data time value =
      bigEndian timeSize (timeField time) ++ storedValue setup data value := by
  apply List.ext_getElem
  · simp only [itemBytes_length, storedValue, List.length_append, bigEndian_length, List.length_take,
      List.length_map, List.length_range]
    omega
  · intro index leftBound rightBound
    rw [itemBytes_length] at leftBound
    simp only [itemBytes, List.getElem_map, List.getElem_range, List.getElem_append, bigEndian_length,
      storedValue, List.length_take]
    by_cases inTime : index < timeSize
    · rw [Buffer.load_outside (Or.inl inTime), Buffer.load_inside (Nat.zero_le _) (by omega),
        dif_pos inTime, Nat.sub_zero]
      exact List.getD_eq_getElem _ _ (by simpa using inTime)
    · rw [dif_neg inTime]
      by_cases inValue : index - timeSize < min setup.config.valueSize value.length
      · rw [Buffer.load_inside (by omega) (by omega), dif_pos inValue, List.getElem_take]
        exact List.getD_eq_getElem _ _ (by omega)
      · rw [Buffer.load_outside (Or.inr (by omega)), Buffer.load_outside (Or.inr (by omega)),
          dif_neg inValue]
        congr 1
        omega

theorem itemBytes_eq (layout : Layout setup slots) (data : Buffer) (time : Int) (value : List UInt8) :
    itemBytes setup data time value =
      bigEndian timeSize (timeField time) ++ storedValue setup data value :=
  itemBytes_append layout.itemSize_eq data time value

/-- No item starts with an all-ones byte. -/
theorem itemBytes_first (layout : Layout setup slots) (data : Buffer) (time : Int) (value : List UInt8) :
    (itemBytes setup data time value).getD 0 0 ≠ 0xff := by
  have small := timeField_lt time
  have head := bigEndian_head_ne_ones 5 (show timeField time < 128 * 256 ^ 5 by omega)
  rw [itemBytes_eq layout]
  exact head

/-- Reading an item returns the masked time and what lies behind it. -/
theorem readEntry_append (setup : StorageSetup) (time : Int) (payload : List UInt8) (size : ℕ) :
    readEntry setup true (some size) (bigEndian timeSize (timeField time) ++ payload) =
      { rc := (min size setup.config.valueSize : ℕ)
        time := some (timeField time * msecPerSec)
        value := payload.take (min size setup.config.valueSize) } := by
  have small := timeField_lt time
  have fits : (bigEndian timeSize (timeField time)).length = timeSize := bigEndian_length _ _
  simp only [readEntry, ↓reduceIte, List.take_left' fits, List.drop_left' fits, ofBigEndian_bigEndian]
  rw [Nat.mod_eq_of_lt (by unfold timeSize; omega)]

/-- The reads of a write that wraps. -/
theorem readCurrent_wrap (healthy : device.faults = [])
    (beyond : setup.endOffset < setup.currentOffset + (setup.itemSize + 1)) :
    ∃ data : Buffer, readCurrent setup device = ((0, data, setup.startOffset), device) ∧
      (∀ index < setup.itemSize, data index = device.memory (setup.currentOffset + index)) ∧
      data setup.itemSize = device.memory setup.startOffset := by
  refine ⟨Buffer.load (Buffer.load (fun _ => 0) 0 setup.itemSize fun offset =>
      device.memory (setup.currentOffset + offset)) setup.itemSize 1 fun offset =>
    device.memory (setup.startOffset + offset), ?_, ?_, ?_⟩
  · simp only [readCurrent]
    rw [if_neg (by omega)]
    simp only [run_bind, readMemory_healthy healthy, ↓reduceIte]
    rfl
  · intro index inside
    rw [Buffer.load_outside (Or.inl inside), Buffer.load_inside (Nat.zero_le _) (by omega),
      Nat.sub_zero]
  · rw [Buffer.load_inside (Nat.le_refl _) (by omega), Nat.sub_self, Nat.add_zero]

/-- The reads of a write: the slot, and the first byte of the next slot behind it. -/
private theorem readCurrent_slot (layout : Layout setup slots) (healthy : device.faults = []) {cursor : ℕ}
    (bound : cursor < slots) (atCursor : setup.currentOffset = slotAddress setup cursor) :
    ∃ data : Buffer, readCurrent setup device =
        ((0, data, slotAddress setup (advance slots cursor)), device) ∧
      (∀ index < setup.itemSize, data index = device.memory (slotAddress setup cursor + index)) ∧
      data setup.itemSize = device.memory (slotAddress setup (advance slots cursor)) := by
  have large := layout.itemSize_pos
  have next := slotAddress_succ setup cursor
  by_cases wraps : cursor + 1 < slots
  · have inSection := layout.slotAddress_lt_iff.mpr wraps
    refine ⟨Buffer.load (fun _ => 0) 0 (setup.itemSize + 1) fun offset =>
      device.memory (slotAddress setup cursor + offset), ?_, ?_, ?_⟩
    · simp only [readCurrent, atCursor]
      rw [if_pos (by omega), advance, if_pos wraps, next]
      simp only [run_bind, readMemory_healthy healthy]
      rfl
    · intro index inside
      rw [Buffer.load_inside (Nat.zero_le _) (by omega), Nat.sub_zero]
    · rw [Buffer.load_inside (Nat.zero_le _) (by omega), Nat.sub_zero, advance, if_pos wraps, next]
  · have last : cursor + 1 = slots := by omega
    have beyond := layout.slotAddress_slots
    rw [← last] at beyond
    rw [advance, if_neg wraps, Layout.start_eq, ← atCursor]
    exact readCurrent_wrap healthy (by omega)

/-- How a flash makes room: it recycles the page of a used next slot. -/
def flashRoom (setup : StorageSetup) (device : Device) (next : ℕ) : List Effect :=
  let page := next / device.pageSize * device.pageSize
  if device.memory next ≠ setup.eraseValue then
    .fill page device.pageSize device.eraseValue ::
      if page = setup.headersOffset then [.program setup.headersOffset setup.header] else []
  else []

/-- How an EEPROM makes room: it erases the first byte of a used next slot. -/
def eepromRoom (setup : StorageSetup) (device : Device) (next : ℕ) : List Effect :=
  if device.memory next ≠ setup.eraseValue then [.program next [0xff]] else []

/-- How the device of a section makes room. -/
def room (setup : StorageSetup) (device : Device) (next : ℕ) : List Effect :=
  if setup.config.isFlashDevice then flashRoom setup device next else eepromRoom setup device next

theorem initHeaders_healthy (healthy : device.faults = []) :
    initHeaders setup device = ((), device.after [.program setup.headersOffset setup.header]) := by
  simp only [initHeaders, run_bind, writeMemory_healthy healthy]
  rfl

private theorem recyclePage_healthy (healthy : device.faults = []) (isFlash : setup.config.isFlashDevice = true)
    (next : ℕ) (used : device.memory next ≠ setup.eraseValue) :
    recyclePage setup next device = (0, device.after (flashRoom setup device next)) := by
  simp only [recyclePage, isFlash, run_bind, getPageInfoByOffs_flash_healthy healthy,
    orElseRun, eraseMemory, ↓reduceIte, flashEraseMemory_healthy healthy, run_pure,
    flashRoom, if_pos used, true_and]
  split
  · simp only [run_bind, initHeaders_healthy (show (device.after _).faults = [] from healthy),
      Device.after_after, List.singleton_append]
    rfl
  · rfl

private theorem eepromEraseMemory_one (healthy : device.faults = []) (address : ℕ) :
    eepromEraseMemory address 1 device = (0, device.after [.program address [0xff]]) := by
  simp only [eepromEraseMemory, eepromEraseBlocks, Nat.zero_lt_one, ↓reduceIte, run_bind]
  rw [show min 1 eepromBlockSize = 1 from rfl, List.replicate_one, writeMemory_healthy healthy]
  rfl

private theorem prepareNext_healthy (healthy : device.faults = []) (next : ℕ) :
    prepareNext setup (device.memory next) next device =
      (0, device.after (room setup device next)) := by
  simp only [prepareNext, room]
  by_cases used : device.memory next ≠ setup.eraseValue
  · rw [if_pos used]
    by_cases isFlash : setup.config.isFlashDevice = true
    · rw [if_pos isFlash, if_pos isFlash, recyclePage_healthy healthy isFlash next used]
    · rw [if_neg isFlash, if_neg isFlash, eepromRoom, if_pos used, eraseMemory, if_neg isFlash,
        eepromEraseMemory_one healthy]
  · rw [if_neg used]
    by_cases isFlash : setup.config.isFlashDevice = true
    · rw [if_pos isFlash, flashRoom, if_neg used, Device.after_nil]
      rfl
    · rw [if_neg isFlash, eepromRoom, if_neg used, Device.after_nil]
      rfl

/-- A write makes room behind the slot, fills the slot and moves on to where it has made room. -/
theorem writeItem_of_read (healthy : device.faults = []) {data : Buffer} {next : ℕ}
    (reads : readCurrent setup device = ((0, data, next), device))
    (first : data setup.itemSize = device.memory next) (time : Int) (value : List UInt8) :
    writeItem setup time value device =
      ((0, { setup with currentOffset := next }), device.after (room setup device next ++
        [.program setup.currentOffset (itemBytes setup data time value)])) := by
  have written := writeMemory_healthy (show (device.after (room setup device next)).faults = [] from healthy)
    setup.currentOffset (itemBytes setup data time value)
  simp only [writeItem, run_bind, reads, ↓reduceIte, first, prepareNext_healthy healthy,
    orElseRun, run_pure, written, Device.after_after]

/-- A write over the slots of a section. -/
theorem writeItem_slot (layout : Layout setup slots) (healthy : device.faults = []) {cursor : ℕ}
    (bound : cursor < slots) (atCursor : setup.currentOffset = slotAddress setup cursor)
    (time : Int) (value : List UInt8) :
    ∃ data : Buffer,
      (∀ index < setup.itemSize, data index = device.memory (slotAddress setup cursor + index)) ∧
      writeItem setup time value device =
        ((0, { setup with currentOffset := slotAddress setup (advance slots cursor) }),
          device.after (room setup device (slotAddress setup (advance slots cursor)) ++
            [.program (slotAddress setup cursor) (itemBytes setup data time value)])) := by
  obtain ⟨data, reads, content, first⟩ := readCurrent_slot layout healthy bound atCursor
  refine ⟨data, content, ?_⟩
  rw [← atCursor]
  exact writeItem_of_read healthy reads first time value

end CoapsClient.ApplStorage
