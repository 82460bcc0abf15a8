import CoapsClient.Model.Storage.Faults

/-! # The result of a write

`appl_storage_write_item` writes the item and moves on, or leaves the write position. But the operations
behind the first read go through `rc = rc || f(..)`, which makes a one of every error: only a failed read of a
slot that is followed by another one is reported as the error it is.
-/

namespace CoapsClient.ApplStorage

open Machine Math

/-- The bytes of an item: its time, its value up to the size of the section, and what stood behind it. -/
structure IsItem (setup : StorageSetup) (time : Int) (value bytes : List UInt8) : Prop where
  length : bytes.length = setup.itemSize
  time : bytes.take timeSize = bigEndian timeSize (timeField time)
  value : (bytes.drop timeSize).take (min value.length setup.config.valueSize) = value.take setup.config.valueSize

/-- The item is the last thing that was written, to the slot. -/
def ItemWritten (setup : StorageSetup) (time : Int) (value : List UInt8) (before after : Device) : Prop :=
  ∃ bytes, IsItem setup time value bytes ∧
    (newEffects before after).getLast? = some (.program setup.currentOffset bytes)

/-- A write returns zero exactly if the item was written and the write position moved on by one slot, and
otherwise an error with the write position unchanged. -/
structure WriteContract (setup : StorageSetup) (device : Device) (time : Int) (value : List UInt8) : Prop where
  ok_iff : (writeItem setup time value device).1.1 = 0 ↔
    ItemWritten setup time value device (writeItem setup time value device).2 ∧
      (writeItem setup time value device).1.2.currentOffset = setup.nextOffset
  failed : (writeItem setup time value device).1.1 ≠ 0 →
    (writeItem setup time value device).1.1 < 0 ∧
      (writeItem setup time value device).1.2.currentOffset = setup.currentOffset

/-- Every operation of the write whose result counts succeeds: the reads, the room for the next slot, and
behind a header the item. -/
structure Succeeds (setup : StorageSetup) (device : Device) : Prop where
  prepares : ∀ operation < readOperations setup + roomOperations setup device, device.result operation = 0
  writes : device.result
    (readOperations setup + roomOperations setup device + headerOperations setup device) = 0

variable {setup : StorageSetup} {device : Device}

private theorem itemBytes_isItem (fits : setup.itemSize = setup.config.valueSize + timeSize) (data : Buffer)
    (time : Int) (value : List UInt8) : IsItem setup time value (itemBytes setup data time value) where
  length := itemBytes_length data time value
  time := by rw [itemBytes_append fits, List.take_left' (bigEndian_length _ _)]
  value := by
    have length : (value.take setup.config.valueSize).length = min value.length setup.config.valueSize := by
      rw [List.length_take, Nat.min_comm]
    rw [itemBytes_append fits, List.drop_left' (bigEndian_length _ _), storedValue, ← length, List.take_left]

/-- A write whose reads fail. -/
theorem writeItem_read_failed (failed : ∃ operation < readOperations setup, device.result operation ≠ 0)
    (time : Int) (value : List UInt8) :
    ∃ operations, writeItem setup time value device =
      ((if setup.Inside then device.result 0 else 1, setup), device.skip operations) := by
  obtain ⟨data, operations, read⟩ := readCurrent_failed failed
  refine ⟨operations, ?_⟩
  have error : (if setup.Inside then device.result 0 else 1) ≠ 0 := by
    split
    · next inside =>
      obtain ⟨operation, bound, failed⟩ := failed
      rw [readOperations, if_pos inside] at bound
      obtain rfl : operation = 0 := by omega
      exact failed
    · exact one_ne_zero
  simp only [writeItem, run_bind, read, if_neg error]
  rfl

/-- The room that is made behind the reads, and the device it leaves. -/
def madeRoom (setup : StorageSetup) (device : Device) : Int × Device :=
  prepareNext setup (device.memory setup.nextOffset) setup.nextOffset (device.skip (readOperations setup))

private theorem madeRoom_effects : ∃ room, (madeRoom setup device).2.effects = device.effects ++ room := by
  have room : MakesRoom setup (device.skip (readOperations setup)) (madeRoom setup device) := prepareNext_room
  obtain ⟨operations, effects, moved, _⟩ := room.effects
  exact ⟨effects, by rw [moved, Device.after_effects, Device.skip_effects, Device.skip_effects]⟩

section Reads

variable (reads : ∀ operation < readOperations setup, device.result operation = 0)
include reads

/-- Behind its reads a write makes room, and writes the item if there is room. -/
theorem writeItem_read (time : Int) (value : List UInt8) :
    writeItem setup time value device =
      if (madeRoom setup device).1 = 0 ∧ (madeRoom setup device).2.result 0 = 0 then
        ((0, { setup with currentOffset := setup.nextOffset }),
          ((madeRoom setup device).2.skip 1).after
            [.program setup.currentOffset (itemBytes setup (slotBuffer setup device) time value)])
      else
        ((1, setup),
          if (madeRoom setup device).1 = 0 then (madeRoom setup device).2.skip 1
          else (madeRoom setup device).2) := by
  have prepared : prepareNext setup (slotBuffer setup device setup.itemSize) setup.nextOffset
      (device.skip (readOperations setup)) = madeRoom setup device := by
    rw [slotBuffer_next, madeRoom]
  simp only [writeItem, run_bind, readCurrent_ok reads, if_true, prepared, orElseRun_eq, writeMemory_eq]
  by_cases ready : (madeRoom setup device).1 = 0
  · by_cases written : (madeRoom setup device).2.result 0 = 0
    · simp only [ready, written, if_true, and_self]
      rfl
    · simp only [ready, written, if_true, if_false, and_false]
      rfl
  · simp only [ready, if_false, false_and]
    rfl

/-- The results that count behind the reads are those of the room and that of the item. -/
private theorem succeeds_iff :
    Succeeds setup device ↔
      (madeRoom setup device).1 = 0 ∧ (madeRoom setup device).2.result 0 = 0 := by
  have room : MakesRoom setup (device.skip (readOperations setup)) (madeRoom setup device) := prepareNext_room
  have count : roomOperations setup (device.skip (readOperations setup)) = roomOperations setup device := rfl
  have header : headerOperations setup (device.skip (readOperations setup)) = headerOperations setup device :=
    rfl
  obtain ⟨operations, effects, moved, used⟩ := room.effects
  have ready : (madeRoom setup device).1 = 0 ↔
      ∀ operation < readOperations setup + roomOperations setup device, device.result operation = 0 := by
    rw [room.ok_iff, count]
    constructor
    · intro ok operation bound
      rcases Nat.lt_or_ge operation (readOperations setup) with before | behind
      · exact reads operation before
      · have later := ok (operation - readOperations setup) (by omega)
        rwa [Device.result_skip, Nat.add_sub_cancel' behind] at later
    · intro ok operation bound
      rw [Device.result_skip]
      exact ok _ (by omega)
  have item (done : (madeRoom setup device).1 = 0) :
      (madeRoom setup device).2.result 0 = device.result
        (readOperations setup + roomOperations setup device + headerOperations setup device) := by
    rw [moved, used done, count, header, Device.result_after, Device.result_skip, Device.result_skip]
    congr 1
    omega
  constructor
  · intro ok
    have done := ready.mpr ok.prepares
    exact ⟨done, (item done).trans ok.writes⟩
  · rintro ⟨done, written⟩
    exact ⟨ready.mp done, (item done).symm.trans written⟩

end Reads

/-- A write that returns one has lost the error. -/
private theorem contract_lost {time : Int} {value : List UInt8} (lost : (writeItem setup time value device).1.1 = 1) :
    ¬ WriteContract setup device time value := by
  intro contract
  have error := contract.failed
  rw [lost] at error
  exact absurd (error one_ne_zero).1 (by decide)

/-- For every section, every device and every pattern of failing operations: a write keeps the contract
exactly if all its operations whose results count succeed, or the read of a slot that is followed by another
one fails with an error. -/
theorem write_contract_iff (fits : setup.itemSize = setup.config.valueSize + timeSize) (device : Device)
    (time : Int) (value : List UInt8) :
    WriteContract setup device time value ↔
      Succeeds setup device ∨ (setup.Inside ∧ device.result 0 < 0) := by
  by_cases reads : ∀ operation < readOperations setup, device.result operation = 0
  · have first : ¬ device.result 0 < 0 := by
      rw [reads 0 (by simp only [readOperations]; split <;> omega)]
      exact lt_irrefl 0
    have run := writeItem_read reads time value
    by_cases ok : Succeeds setup device
    · rw [if_pos ((succeeds_iff reads).mp ok)] at run
      refine iff_of_true ⟨?_, ?_⟩ (.inl ok)
      · rw [run]
        obtain ⟨room, effects⟩ := @madeRoom_effects setup device
        refine iff_of_true rfl ⟨⟨_, itemBytes_isItem fits (slotBuffer setup device) time value, ?_⟩, rfl⟩
        rw [newEffects, Device.after_effects, Device.skip_effects, effects, List.append_assoc,
          List.drop_left, List.getLast?_concat]
      · rw [run]
        exact fun failed => absurd rfl failed
    · rw [if_neg (mt (succeeds_iff reads).mpr ok)] at run
      exact iff_of_false (contract_lost (by rw [run])) (not_or.mpr ⟨ok, fun early => first early.2⟩)
  · push Not at reads
    obtain ⟨operations, run⟩ := writeItem_read_failed reads time value
    have failed : ¬ Succeeds setup device := by
      obtain ⟨operation, bound, failed⟩ := reads
      exact fun ok => failed (ok.prepares operation (by omega))
    by_cases inside : setup.Inside
    · rw [if_pos inside] at run
      have error : device.result 0 ≠ 0 := by
        obtain ⟨operation, bound, failed⟩ := reads
        rw [readOperations, if_pos inside] at bound
        obtain rfl : operation = 0 := by omega
        exact failed
      constructor
      · intro contract
        have negative := contract.failed
        rw [run] at negative
        exact .inr ⟨inside, (negative error).1⟩
      · rintro (ok | ⟨_, negative⟩)
        · exact absurd ok failed
        · refine ⟨?_, ?_⟩
          · rw [run]
            refine iff_of_false error ?_
            rintro ⟨⟨bytes, _, last⟩, _⟩
            simp [newEffects] at last
          · rw [run]
            exact fun _ => ⟨negative, rfl⟩
    · rw [if_neg inside] at run
      exact iff_of_false (contract_lost (by rw [run])) (not_or.mpr ⟨failed, fun early => inside early.1⟩)

/-- An erased EEPROM whose coming operations have the given results. -/
private def erasedEeprom (faults : List Int) : Device where
  memory := fun _ => 0xff
  merge := fun _ new => new
  pageSize := 128
  eraseValue := 0xff
  faults := faults

/-- The reboot codes in one page of an EEPROM. -/
private def codesSection : StorageSetup :=
  setupOf ⟨false, 1, 0x01200340, 2, 1, 2⟩ .initialized 0 128 0xff

/-- An item on a device that answers, and the error of a read. -/
theorem write_contract_kept :
    WriteContract codesSection (erasedEeprom []) 5000 [1, 2] ∧
      WriteContract codesSection (erasedEeprom [-5]) 5000 [1, 2] :=
  ⟨(write_contract_iff rfl (erasedEeprom []) 5000 [1, 2]).mpr (.inl ⟨by decide, by decide⟩),
    (write_contract_iff rfl (erasedEeprom [-5]) 5000 [1, 2]).mpr (.inr ⟨by decide, by decide⟩)⟩

/-- A write to the device that fails with `-EIO` comes back as one. -/
theorem write_error_lost :
    (writeItem codesSection 5000 [1, 2] (erasedEeprom [0, -5])).1.1 = 1 ∧
      ¬ WriteContract codesSection (erasedEeprom [0, -5]) 5000 [1, 2] := by
  have lost : (writeItem codesSection 5000 [1, 2] (erasedEeprom [0, -5])).1.1 = 1 := by decide
  exact ⟨lost, contract_lost lost⟩

end CoapsClient.ApplStorage
