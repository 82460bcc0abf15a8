import CoapsClient.Soundness.FlashLog

/-! # Sections without room for two items

In a section with one slot the write position never moves: a write onto a used slot erases the page of
this slot first, and a re-initialisation finds no free slot and formats. A section whose header takes
all the room has no slot at all, and what it is given goes to the address behind it.
-/

namespace CoapsClient.ApplStorage

open Machine Math RingLog

variable {config : StorageConfig} {start : ℕ} {setup : StorageSetup} {device : Device} {store next : Store}
  {action : Action}

/-- The header always fits. -/
theorem FlashSection.layout (flash : FlashSection config start device) (offset : ℕ) :
    Layout (sectionAt config start device offset) (slotCount config device) := by
  have dividesPage : config.valueSize + timeSize ∣ sectionPageSize config device :=
    flash.pageSize_eq ▸ flash.dividesPage
  have perPage : 0 < itemsPerPage config device := by
    refine Nat.div_pos (Nat.le_of_dvd ?_ dividesPage) (Nat.add_pos_right _ (by decide))
    exact flash.pageSize_eq ▸ flash.pageSize_pos
  have units : headerItems config ≤ config.pages * itemsPerPage config device :=
    calc headerItems config ≤ 2 * 1 := (headerItems_spec flash.divides).2.2.1
      _ ≤ config.pages * itemsPerPage config device := Nat.mul_le_mul flash.pages_ge perPage
  exact (section_layout flash.divides dividesPage start offset units).1

theorem Layout.slots_le_one {slots : ℕ} (layout : Layout setup slots) (cramped : ¬ TwoSlots setup) :
    slots ≤ 1 := by
  by_contra many
  have room := Nat.mul_le_mul_right setup.itemSize (show 2 ≤ slots by omega)
  rw [TwoSlots, layout.endOffset_eq] at cramped
  omega

/-- The header takes the room of an item at least. -/
theorem FlashSection.itemSize_le (flash : FlashSection config start device) (offset : ℕ) :
    (sectionAt config start device offset).itemSize ≤ (sectionAt config start device offset).startOffset := by
  rw [sectionAt_startOffset _ _ _ flash.divides]
  exact Nat.le_add_left_of_le (Nat.le_mul_of_pos_left _ (headerItems_spec flash.divides).2.1)

/-- Making room erases the first byte of the next slot. -/
private theorem flashRoom_erases (fits : setup.headersOffset + setup.header.length ≤ setup.startOffset)
    (erase : device.eraseValue = setup.eraseValue) (pageSize : 0 < device.pageSize) :
    replay device.merge device.memory (flashRoom setup device setup.startOffset) setup.startOffset =
      setup.eraseValue := by
  have lower : setup.startOffset / device.pageSize * device.pageSize ≤ setup.startOffset :=
    Nat.div_mul_le_self _ _
  have upper := Nat.lt_div_mul_add pageSize (a := setup.startOffset)
  simp only [flashRoom]
  split_ifs with used first
  · rw [replay_cons, replay_cons, replay_nil, Effect.apply_of_not_touches, Effect.apply_fill lower upper, erase]
    rintro ⟨_, inHeader⟩
    omega
  · rw [replay_cons, replay_nil, Effect.apply_fill lower upper, erase]
  · exact not_not.mp used

/-- What a store without room for two items keeps. -/
structure CrampedInvariant (config : StorageConfig) (start : ℕ) (store : Store) : Prop where
  flash : FlashSection config start store.device
  isSection : ∃ offset, store.setup = sectionAt config start store.device offset
  cramped : ¬ TwoSlots store.setup
  current : store.setup.currentOffset = store.setup.startOffset
  addresses : ∀ item ∈ store.history, item.address = store.setup.startOffset
  /-- The slot is erased or in use. -/
  slot : 0 < slotCount config store.device →
    Uniform store.device.memory store.setup.startOffset timeSize store.setup.eraseValue ∨
      store.device.memory store.setup.startOffset ≠ store.setup.eraseValue

theorem CrampedInvariant.layout (invariant : CrampedInvariant config start store) :
    Layout store.setup (slotCount config store.device) := by
  obtain ⟨offset, same⟩ := invariant.isSection
  exact same ▸ invariant.flash.layout offset

theorem CrampedInvariant.erasedOnes (invariant : CrampedInvariant config start store) :
    store.setup.eraseValue = 0xff := by
  obtain ⟨offset, same⟩ := invariant.isSection
  rw [same]
  exact invariant.flash.eraseValue_eq

/-- A write stays at the first slot. -/
theorem CrampedInvariant.write (invariant : CrampedInvariant config start store) (time : Int)
    (value : List UInt8) : ∃ data : Buffer,
    writeItem store.setup time value store.device =
      ((0, { store.setup with currentOffset := store.setup.startOffset }),
        store.device.after (flashRoom store.setup store.device store.setup.startOffset ++
          [.program store.setup.startOffset (itemBytes store.setup data time value)])) := by
  have layout := invariant.layout
  have few := layout.slots_le_one invariant.cramped
  have span := Nat.mul_le_mul_right store.setup.itemSize few
  have beyond : store.setup.endOffset < store.setup.currentOffset + (store.setup.itemSize + 1) := by
    rw [invariant.current, layout.endOffset_eq]
    omega
  obtain ⟨data, reads, -, first⟩ := readCurrent_wrap invariant.flash.healthy beyond
  have isFlash : store.setup.config.isFlashDevice = true := by
    obtain ⟨offset, same⟩ := invariant.isSection
    rw [same]
    exact invariant.flash.isFlash
  have written := writeItem_of_read invariant.flash.healthy reads first time value
  rw [room, if_pos isFlash, invariant.current] at written
  exact ⟨data, written⟩

/-- Behind a write the slot is in use. -/
theorem CrampedInvariant.first_written (invariant : CrampedInvariant config start store) (data : Buffer)
    (time : Int) (value : List UInt8) :
    replay store.device.merge store.device.memory (flashRoom store.setup store.device store.setup.startOffset ++
      [.program store.setup.startOffset (itemBytes store.setup data time value)]) store.setup.startOffset ≠
        store.setup.eraseValue := by
  have layout := invariant.layout
  have ones := invariant.erasedOnes
  have fits : store.setup.headersOffset + store.setup.header.length ≤ store.setup.startOffset :=
    layout.header_length ▸ layout.header_fits
  have erased := flashRoom_erases fits (invariant.flash.erasedOnes.trans ones.symm) invariant.flash.pageSize_pos
  have large := layout.itemSize_pos
  have programmed : Effect.apply store.device.merge
      (replay store.device.merge store.device.memory (flashRoom store.setup store.device store.setup.startOffset))
      (.program store.setup.startOffset (itemBytes store.setup data time value)) store.setup.startOffset =
        (itemBytes store.setup data time value).getD 0 0 := by
    have inside : store.setup.startOffset <
        store.setup.startOffset + (itemBytes store.setup data time value).length := by
      rw [itemBytes_length]
      omega
    simp only [Effect.apply, Nat.le_refl, inside, and_self, if_true]
    rw [erased, ones, invariant.flash.programs, Nat.sub_self]
  rw [replay_append, replay_cons, replay_nil, programmed, ones]
  exact itemBytes_first layout data time value

/-- An initialisation finds the slot erased, or formats the section. -/
theorem FlashSection.addSection_cramped (flash : FlashSection config start device) (entry : StorageSetup)
    (few : slotCount config device ≤ 1) :
    ∃ effects, addSection entry config start device =
        ((0, sectionAt config start device (sectionAt config start device 0).startOffset), device.after effects) ∧
      (0 < slotCount config device → Uniform (device.after effects).memory
        (sectionAt config start device 0).startOffset timeSize (sectionAt config start device 0).eraseValue) := by
  have layout := flash.layout 0
  have blank {memory : Memory} (erased : ∀ slot < slotCount config device, Uniform memory
      (slotAddress (sectionAt config start device 0) slot) (sectionAt config start device 0).itemSize
      (sectionEraseValue config device)) (one : 0 < slotCount config device) :
      Uniform memory (sectionAt config start device 0).startOffset timeSize
        (sectionAt config start device 0).eraseValue := by
    have uniform := erased 0 one
    rw [Layout.start_eq] at uniform
    exact fun index inside => uniform index (Nat.lt_of_lt_of_le inside layout.itemSize_ge)
  by_cases intact : HeaderIntact (sectionAt config start device 0) device.memory
  · by_cases free : 0 < slotCount config device ∧ slotsOf (sectionAt config start device 0) device.memory 0 = none
    · obtain ⟨one, free⟩ := free
      have found := addSection_found flash.healthy entry layout intact one free (by simp)
      rw [Layout.start_eq] at found
      refine ⟨[], by rw [found, Device.after_nil], fun _ => ?_⟩
      have uniform := slotsOf_eq_none_iff.mp free
      rwa [Layout.start_eq] at uniform
    · have used : ∀ slot < slotCount config device,
          slotsOf (sectionAt config start device 0) device.memory slot ≠ none := by
        intro slot bound isFree
        obtain rfl : slot = 0 := by omega
        exact free ⟨bound, isFree⟩
      obtain ⟨effects, formatted, -, erased⟩ := addSection_of_format flash.writable entry layout fun initState =>
        initOffset_full (layout.plain initState) flash.healthy intact used
      exact ⟨effects, formatted, blank erased⟩
  · obtain ⟨effects, formatted, -, erased⟩ := addSection_foreign flash.writable entry layout intact
    exact ⟨effects, formatted, blank erased⟩

/-- Every operation keeps the invariant. -/
theorem CrampedInvariant.step (invariant : CrampedInvariant config start store)
    (step : Store.Step config start store action next) : CrampedInvariant config start next := by
  obtain ⟨offset, same⟩ := invariant.isSection
  cases step with
  | restart restarted =>
    have few := invariant.layout.slots_le_one invariant.cramped
    rename_i entry rc setup device
    obtain ⟨effects, ran, erased⟩ := invariant.flash.addSection_cramped entry few
    rw [ran] at restarted
    obtain ⟨⟨-, rfl⟩, rfl⟩ := restarted
    have cramped := invariant.cramped
    have addresses := invariant.addresses
    rw [same] at cramped addresses
    exact ⟨invariant.flash.after effects, ⟨_, rfl⟩, cramped, rfl, addresses, fun one => .inl (erased one)⟩
  | @write time value setup device written =>
    obtain ⟨data, wrote⟩ := invariant.write time value
    have used := invariant.first_written data time value
    rw [wrote] at written
    obtain ⟨⟨-, rfl⟩, rfl⟩ := written
    refine ⟨invariant.flash.after _, ⟨store.setup.startOffset, ?_⟩, invariant.cramped, rfl, ?_, fun _ => .inr used⟩
    · rw [same]
      rfl
    · intro item member
      rcases List.mem_cons.mp member with rfl | earlier
      · exact invariant.current
      · exact invariant.addresses item earlier

theorem CrampedInvariant.opened (flash : FlashSection config start device) (entry : StorageSetup)
    (cramped : ¬ TwoSlots (sectionAt config start device 0)) :
    CrampedInvariant config start (Store.opened entry config start device) := by
  have few := (flash.layout 0).slots_le_one cramped
  obtain ⟨effects, ran, erased⟩ := flash.addSection_cramped entry few
  have opened : Store.opened entry config start device =
      { setup := sectionAt config start device (sectionAt config start device 0).startOffset
        device := device.after effects } := by
    rw [Store.opened, ran]
  rw [opened]
  exact ⟨flash.after effects, ⟨_, rfl⟩, cramped, rfl, fun item member => absurd member List.not_mem_nil,
    fun one => .inl (erased one)⟩

/-- The invariant holds at the end of every run. -/
theorem crampedInvariant_of_run (flash : FlashSection config start device) (entry : StorageSetup)
    (cramped : ¬ TwoSlots (sectionAt config start device 0)) {actions : List Action}
    (run : Path (Store.Step config start) (Store.opened entry config start device) actions store) :
    CrampedInvariant config start store :=
  run.invariant (CrampedInvariant config start) (fun _ _ _ invariant step => invariant.step step)
    (CrampedInvariant.opened flash entry cramped)

/-- Without a slot nothing is read where the items go. -/
theorem readAddress_lt (layout : Layout setup 0) (fits : setup.itemSize ≤ setup.startOffset) (index : ℕ)
    {current : ℕ} (bound : current ≤ setup.startOffset) :
    readAddress setup index current < setup.startOffset := by
  have ended := layout.endOffset_eq
  have large := layout.itemSize_pos
  have back {current : ℕ} (bound : current ≤ setup.startOffset) :
      previousOffset setup current < setup.startOffset := by
    simp only [previousOffset]
    split <;> omega
  induction index generalizing current with
  | zero => exact back bound
  | succ index ih => exact ih (Nat.le_of_lt (back bound))

end CoapsClient.ApplStorage
