import CoapsClient.Model.Scale.Saving
import CoapsClient.Soundness.SlotGrid

/-! # A saved calibration is loaded

Whatever has happened to the section of a calibration, its write position is a slot, so what a successful write
puts there is what the next read finds. The bytes of a calibration in 24 bits are read as this calibration, if
its divider is the one of a calibration and its reference the one of the channel.
-/

namespace CoapsClient.ApplStorage

open Machine Math

section ReadBack

variable {setup : StorageSetup} {device : Device} {time : Int} {value : List UInt8}

/-- In front of the position behind a slot lies this slot. -/
private theorem previousOffset_next (large : 0 < setup.itemSize) (starts : setup.startOffset ≤ setup.currentOffset)
    (ends : setup.currentOffset + setup.itemSize ≤ setup.endOffset) :
    previousOffset { setup with currentOffset := setup.nextOffset } setup.nextOffset = setup.currentOffset := by
  by_cases inside : setup.Inside
  · have next : setup.nextOffset = setup.currentOffset + setup.itemSize := if_pos inside
    have later : ¬ setup.currentOffset + setup.itemSize = setup.startOffset := by omega
    simp only [previousOffset, next, if_neg later, Nat.add_sub_cancel]
  · have last : ¬ setup.currentOffset + (setup.itemSize + 1) ≤ setup.endOffset := inside
    have next : setup.nextOffset = setup.startOffset := if_neg inside
    simp only [previousOffset, next, if_true]
    omega

/-- A write that returns zero has written the item last. -/
private theorem writeItem_ok (written : (writeItem setup time value device).1.1 = 0) :
    ∃ before : Device, before.merge = device.merge ∧
      writeItem setup time value device = ((0, { setup with currentOffset := setup.nextOffset }),
        before.after [.program setup.currentOffset (itemBytes setup (slotBuffer setup device) time value)]) := by
  by_cases reads : ∀ operation < readOperations setup, device.result operation = 0
  · have run := writeItem_read reads time value
    split at run
    · obtain ⟨operations, room, moved, _⟩ := (@prepareNext_room setup (device.skip (readOperations setup))).effects
      have moved : (madeRoom setup device).2 = ((device.skip (readOperations setup)).skip operations).after room :=
        moved
      refine ⟨(madeRoom setup device).2.skip 1, ?_, run⟩
      rw [moved]
      rfl
    · rw [run] at written
      exact absurd written one_ne_zero
  · push Not at reads
    obtain ⟨operations, run⟩ := writeItem_read_failed reads time value
    obtain ⟨operation, bound, failed⟩ := reads
    rw [run] at written
    simp only [readOperations] at bound
    by_cases inside : setup.Inside
    · rw [if_pos inside] at bound written
      obtain rfl : operation = 0 := by omega
      exact absurd written failed
    · rw [if_neg inside] at written
      exact absurd written one_ne_zero

/-- Bytes that are programmed over others are found there. -/
private theorem program_memory {bytes : List UInt8} {address index : ℕ} (overwrites : ∀ old new, device.merge old new = new)
    (inside : index < bytes.length) :
    (device.after [.program address bytes]).memory (address + index) = bytes.getD index 0 := by
  simp only [Device.after_memory, replay_cons, replay_nil, Effect.apply]
  rw [if_pos ⟨by omega, by omega⟩, overwrites, Nat.add_sub_cancel_left]

/-- An item of an EEPROM is read back as it was written. -/
private theorem itemResult_item (fits : setup.itemSize = setup.config.valueSize + timeSize)
    (ones : setup.eraseValue = 0xff) (full : value.length = setup.config.valueSize) (data : Buffer)
    {offset : ℕ} (found : ∀ index < setup.itemSize,
      device.memory (offset + index) = (itemBytes setup data time value).getD index 0) :
    itemResult setup device offset 0 false (some setup.config.valueSize) =
      { rc := setup.config.valueSize, value } := by
  have split : itemBytes setup data time value = bigEndian timeSize (timeField time) ++ value := by
    rw [itemBytes_append fits, storedValue, full, Nat.sub_self, List.range_zero, List.map_nil,
      List.append_nil, ← full, List.take_length]
  have inItem (index : ℕ) (bound : index < setup.itemSize) :
      device.stack.load 0 setup.itemSize (fun index => device.memory (offset + index)) index =
        (bigEndian timeSize (timeField time) ++ value).getD index 0 := by
    rw [Buffer.load_inside (Nat.zero_le _) (by omega), Nat.sub_zero, found index bound, split]
  have used : isErased (device.stack.load 0 setup.itemSize fun index => device.memory (offset + index)) 0
      timeSize setup.eraseValue = false := by
    rw [Bool.eq_false_iff]
    intro erased
    have first := isErased_iff.mp erased 0 (by decide)
    have small := timeField_lt time
    rw [Nat.zero_add, inItem 0 (by simp only [timeSize] at fits; omega), ones] at first
    exact bigEndian_head_ne_ones 5 (show timeField time < 128 * 256 ^ 5 by omega) first
  rw [itemResult, if_pos rfl]
  simp only [used, Bool.false_eq_true, if_false, Nat.min_self]
  congr 1
  apply List.ext_getElem
  · simp [full]
  · intro index leftBound rightBound
    rw [List.getElem_map, List.getElem_range, inItem _ (by omega), List.getD_append_right _ _ _ _ (by simp),
      bigEndian_length, Nat.add_sub_cancel_left, List.getD_eq_getElem _ _ rightBound]

/-- What a successful write puts into a section is what the next read of it finds. -/
private theorem readIndex_written (fits : setup.itemSize = setup.config.valueSize + timeSize)
    (ones : setup.eraseValue = 0xff) (overwrites : ∀ old new, device.merge old new = new)
    (starts : setup.startOffset ≤ setup.currentOffset)
    (ends : setup.currentOffset + setup.itemSize ≤ setup.endOffset)
    (full : value.length = setup.config.valueSize)
    {written : StorageSetup} {behind : Device}
    (wrote : writeItem setup time value device = ((0, written), behind)) (answers : behind.result 0 = 0) :
    (readIndex written false (some setup.config.valueSize) 0 written.currentOffset behind).1 =
      { rc := setup.config.valueSize, value } := by
  obtain ⟨before, merges, run⟩ := writeItem_ok (congrArg (fun outcome => outcome.1.1) wrote)
  rw [wrote] at run
  obtain ⟨⟨-, rfl⟩, rfl⟩ := Prod.ext_iff.mp run |>.imp Prod.ext_iff.mp id
  have large : 0 < setup.itemSize := by
    rw [fits]
    simp only [timeSize]
    omega
  simp only [readIndex, run_bind, readItem_eq, previousOffset_next large starts ends, answers]
  exact itemResult_item fits ones full _ fun index bound =>
    program_memory (fun old new => by rw [merges, overwrites]) (by rw [itemBytes_length]; exact bound)

end ReadBack

/-- The entry of a section is found behind a write as before it. -/
private theorem applStorageSetup_written {setups : List StorageSetup} {id : Int} {setup written : StorageSetup}
    (config : written.config = setup.config) (initState : written.initState = setup.initState)
    (found : applStorageSetup setups id = some setup) :
    applStorageSetup (setups.map fun entry => if entry = setup then written else entry) id = some written := by
  simp only [applStorageSetup] at found ⊢
  split at found
  · next known =>
    rw [if_pos known]
    induction setups with
    | nil => contradiction
    | cons entry rest ih =>
      simp only [List.map_cons, List.find?_cons] at found ⊢
      cases here : (entry.config.id == id && entry.initState == .initialized) with
      | true =>
        rw [here] at found
        obtain rfl := Option.some_inj.mp found
        rw [if_pos rfl, config, initState, here]
      | false =>
        rw [here] at found
        have other : entry ≠ setup := by
          rintro rfl
          rw [List.find?_some found] at here
          contradiction
        rw [if_neg other, here]
        exact ih found
  · contradiction

end CoapsClient.ApplStorage

namespace CoapsClient.Nau7802

open ApplStorage Machine

/-- The section of a calibration behind its initialisation. -/
def calibrationSection (id : Int) : StorageSetup :=
  setupOf (calibrationStorageConfig id) .initialized 0 eepromBlockSize 0xff

private theorem calibrationSection_laidOut (id : Int) : LaidOut (calibrationSection id) := setupOf_laidOut ..

/-- Seven items of 32 bytes behind a header of the same size. -/
private theorem calibrationSection_tiles (id : Int) : Tiles (calibrationSection id) where
  one := show 32 ≤ 224 by decide
  whole := show 32 ∣ 224 by decide
  buffer := .inl (show 32 ∣ 32 by decide)

section Uses

variable {id : Int} {setup : StorageSetup} {device : Device}

/-- An initialised entry is the section of the calibration with a slot as write position. -/
def InUse (id : Int) (setup : StorageSetup) : Prop :=
  setup.initState = .initialized → AtSlot (calibrationSection id) setup

/-- `appl_storage_add` lays the section out and looks for the write position. -/
private theorem addSection_calibration (setup : StorageSetup) (device : Device) :
    (addSection setup (calibrationStorageConfig id) 0 device).1.2 =
      let fresh := setupOf (calibrationStorageConfig id) setup.initState 0 eepromBlockSize 0xff
      { (initOffset fresh device).1.2 with
        initState := if (initOffset fresh device).1.1 = 0 then .initialized else .initializeError } := by
  rfl

private theorem addSection_inUse : InUse id (addSection setup (calibrationStorageConfig id) 0 device).1.2 := by
  intro initialised
  rw [addSection_calibration] at initialised ⊢
  have laidOut := setupOf_laidOut (calibrationStorageConfig id) setup.initState 0 eepromBlockSize 0xff
  have tiles : Tiles (setupOf (calibrationStorageConfig id) setup.initState 0 eepromBlockSize 0xff) :=
    ⟨(calibrationSection_tiles id).one, (calibrationSection_tiles id).whole, (calibrationSection_tiles id).buffer⟩
  obtain ⟨offset, moved, place⟩ :=
    @initOffset_offset (setupOf (calibrationStorageConfig id) setup.initState 0 eepromBlockSize 0xff) device
  have slot : IsSlot (calibrationSection id) offset := by
    rcases place with rfl | rfl | ⟨test, found, rfl⟩
    · exact (calibrationSection_tiles id).start (calibrationSection_laidOut id)
    · exact (calibrationSection_tiles id).start (calibrationSection_laidOut id)
    · exact (tiles.test found).1
  refine ⟨offset, ?_, slot⟩
  dsimp only at initialised ⊢
  rw [initialised, moved]
  rfl

private theorem format_inUse (here : InUse id setup) : InUse id (format setup device).1.2 := by
  obtain ⟨offset, moved, place⟩ := @format_offset setup device
  rw [moved]
  intro initialised
  obtain ⟨held, same, slot⟩ := here initialised
  refine ⟨offset, by rw [same], ?_⟩
  rcases place with rfl | rfl
  · rw [same]
    exact slot
  · rw [same]
    exact (calibrationSection_tiles id).start (calibrationSection_laidOut id)

private theorem useStorage_inUse {state next : StorageSetup × Device} {use : StorageUse} (here : InUse id state.1)
    (used : UsesStorage id state use next) : InUse id next.1 := by
  obtain rfl := used
  cases use with
  | add => exact addSection_inUse
  | clear => exact format_inUse here
  | write time value =>
    simp only [useStorage]
    split
    · next initialised =>
      exact fun _ => @sectionStep_atSlot _ (calibrationSection_laidOut id) (calibrationSection_tiles id) state _
        (.write time value) (here initialised) rfl
    · exact here
  | read index times value =>
    simp only [useStorage]
    split <;> exact here

private theorem path_inUse {entry : StorageSetup} {uses : List StorageUse} {state : StorageSetup × Device}
    (fresh : entry.initState ≠ .initialized) (run : Path (UsesStorage id) (entry, device) uses state) :
    InUse id state.1 :=
  run.invariant (fun state => InUse id state.1) (fun _ _ _ here used => useStorage_inUse here used)
    fun initialised => absurd initialised fresh

end Uses

section Loads

variable {id now : Int} {setups saved : List StorageSetup} {setup : StorageSetup} {device behind : Device}
  {channel : Channel}

/-- A section that is found is initialised. -/
private theorem applStorageSetup_initialized (found : applStorageSetup setups id = some setup) :
    setup.initState = .initialized := by
  simp only [applStorageSetup] at found
  split at found
  · have here := List.find?_some found
    simp only [Bool.and_eq_true, beq_iff_eq] at here
    exact here.2
  · contradiction

/-- A successful save is a successful write of the bytes of the calibration. -/
private theorem saveExternalCalibration_ok (found : applStorageSetup setups id = some setup)
    (save : saveExternalCalibration setups id now channel device = ((some 0, saved), behind)) :
    ∃ written, writeItem setup now channel.externalCalibration.bytes device = ((0, written), behind) ∧
      saved = setups.map fun entry => if entry = setup then written else entry := by
  cases sensor : channel.i2cOk with
  | false =>
    have silent : scaleSaveExternalCalibration channel = none := if_neg (by simp [sensor])
    simp only [saveExternalCalibration, silent, run_pure] at save
    have nothing := (Prod.mk.inj (Prod.mk.inj save).1).1
    contradiction
  | true =>
    have bytes : scaleSaveExternalCalibration channel = some channel.externalCalibration.bytes := if_pos sensor
    simp only [saveExternalCalibration, bytes, writeBytesItem, found, run_bind, run_pure] at save
    obtain ⟨outcome, rfl⟩ := Prod.mk.inj save
    obtain ⟨zero, rfl⟩ := Prod.mk.inj outcome
    exact ⟨_, Prod.ext (Prod.ext (Option.some_inj.mp zero) rfl) rfl, rfl⟩

/-- What a successful save leaves in the storage, a read of the newest item answers. -/
private theorem readBytesItem_saved (here : AtSlot (calibrationSection id) setup)
    (found : applStorageSetup setups id = some setup)
    (overwrites : ∀ old new, device.merge old new = new)
    (save : saveExternalCalibration setups id now channel device = ((some 0, saved), behind))
    (answers : behind.result 0 = 0) :
    (readBytesItem saved id 0 false (some valueSize) behind).1 =
      { rc := valueSize, value := channel.externalCalibration.bytes } := by
  obtain ⟨offset, same, ⟨count, place⟩, ends⟩ := here
  have config : setup.config.valueSize = valueSize := by rw [same]; rfl
  have starts : setup.startOffset ≤ setup.currentOffset := by
    rw [same]
    simp only [place, slotAddress]
    omega
  obtain ⟨written, wrote, rfl⟩ := saveExternalCalibration_ok found save
  obtain ⟨before, merges, run⟩ := writeItem_ok (congrArg (fun outcome => outcome.1.1) wrote)
  have moved : written = { setup with currentOffset := setup.nextOffset } :=
    congrArg (fun outcome => outcome.1.2) (wrote.symm.trans run)
  have looked := @applStorageSetup_written setups id setup written (by rw [moved]) (by rw [moved]) found
  have read := readIndex_written (by rw [same]; rfl) (by rw [same]; rfl) overwrites starts
    (by rw [same]; exact ends) (by rw [bytes_length, config]) wrote answers
  rw [config] at read
  simp only [readBytesItem, looked]
  exact read

end Loads

/-- For every calibration in 24 bits, whatever has happened to the storage before: behind a successful save a
read of the storage restores all fields of a calibration whose divider is one and whose reference is the one
of the channel or not looked at, and leaves a channel without a divider disabled. -/
theorem calibration_loaded {id now : Int} {entry : StorageSetup} {device : Device} {uses : List StorageUse}
    {state : StorageSetup × Device} (fresh : entry.initState ≠ .initialized)
    (history : Path (UsesStorage id) (entry, device) uses state)
    (overwrites : ∀ old new, state.2.merge old new = new) {setups saved : List StorageSetup}
    (found : applStorageSetup setups id = some state.1) {channel loader : Channel} {behind : Device}
    (fits : channel.externalCalibration.Fits)
    (save : saveExternalCalibration setups id now channel state.2 = ((some 0, saved), behind))
    (answers : behind.result 0 = 0) :
    (channel.externalCalibration.divider = 100 ∨ 2000 ≤ channel.externalCalibration.divider ∧
          channel.externalCalibration.avref = loader.externalCalibration.avref →
        (readExternalCalibration saved id loader behind).1.externalCalibration = channel.externalCalibration) ∧
      (channel.externalCalibration.divider = 0 →
        (readExternalCalibration saved id loader behind).1.values = (0, 0)) := by
  have here := path_inUse fresh history (applStorageSetup_initialized found)
  have read := readBytesItem_saved here found overwrites save answers
  have loaded : (readExternalCalibration saved id loader behind).1.externalCalibration =
      loader.externalCalibration.read (.ok channel.externalCalibration.bytes) := by
    simp only [readExternalCalibration, run_bind, read]
    rfl
  constructor
  · rintro (dummy | ⟨large, same⟩)
    · have normal : normalizeDivider channel.externalCalibration.divider =
          channel.externalCalibration.divider := if_pos (.inr dummy)
      rw [loaded, read_bytes fits _ (.inl dummy) (by omega) normal]
    · have normal : normalizeDivider channel.externalCalibration.divider =
          channel.externalCalibration.divider := if_pos (.inl large)
      rw [loaded, read_bytes fits _ (.inr same) (by omega) normal]
  · intro zero
    rw [Channel.values, loaded, read_bytes_disabled fits _ zero]
    rfl

/-- A calibration of channel A with a negative offset and the largest divider. -/
def sampleCalibration : Channel where
  i2cOk := true
  externalCalibration :=
    { offset := -8388608, divider := 16777215, calibrationTemperature := -5250, avref := 2400 }

/-- An EEPROM as it is delivered. -/
private def blankEeprom : Device where
  memory := fun _ => 0xff
  merge := fun _ new => new
  pageSize := 16
  eraseValue := 0xff

/-- Its section behind an initialisation and a write. -/
private def usedSection : StorageSetup × Device :=
  let entry := setupOf (calibrationStorageConfig 2) .notInitialized 0 eepromBlockSize 0xff
  useStorage 2 (useStorage 2 (entry, blankEeprom) .add) (.write 5000 [1, 2, 3])

set_option maxRecDepth 8000 in
/-- The calibration is saved to this section and loaded again. -/
theorem calibration_loaded_sample :
    let saved := saveExternalCalibration [usedSection.1] 2 6000 sampleCalibration usedSection.2
    (readExternalCalibration saved.1.2 2 {} saved.2).1.externalCalibration =
      sampleCalibration.externalCalibration := by
  have run : Path (UsesStorage 2)
      (setupOf (calibrationStorageConfig 2) .notInitialized 0 eepromBlockSize 0xff, blankEeprom)
      [.add, .write 5000 [1, 2, 3]] usedSection := .cons rfl (.cons rfl (.nil _))
  have found : applStorageSetup [usedSection.1] 2 = some usedSection.1 := by decide +kernel
  have zero : (saveExternalCalibration [usedSection.1] 2 6000 sampleCalibration usedSection.2).1.1 = some 0 := by
    decide +kernel
  have answers : (saveExternalCalibration [usedSection.1] 2 6000 sampleCalibration
      usedSection.2).2.result 0 = 0 := by
    decide +kernel
  have fits : sampleCalibration.externalCalibration.Fits := ⟨by decide, by decide, by decide, by decide⟩
  have overwrites : ∀ old new, usedSection.2.merge old new = new := fun _ _ => rfl
  have save : saveExternalCalibration [usedSection.1] 2 6000 sampleCalibration usedSection.2 =
      ((some 0, _), _) := Prod.ext (Prod.ext zero rfl) rfl
  exact (calibration_loaded (by decide) run overwrites found fits save answers).1 (.inr ⟨by decide, rfl⟩)

end CoapsClient.Nau7802
