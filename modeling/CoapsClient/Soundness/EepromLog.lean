import CoapsClient.Model.Storage.Eeprom
import CoapsClient.Model.Storage.Geometry
import Mathlib.Data.List.Forall2

/-! # The log law of an EEPROM section

The law that a flash section keeps unconditionally holds for an EEPROM section as long as every write
finds the tail of the next slot's time field erased. Until the ring is full that is so. The first
write that recycles a slot erases one byte of it, and then the law depends on the time of the recycled
item: nearly every time leaves the section without a free slot, and the next initialisation formats.
-/

namespace CoapsClient.ApplStorage

open Machine Math RingLog

/-- A section of the storage table on an EEPROM that works. -/
structure EepromSection (config : StorageConfig) (device : Device) : Prop where
  isEeprom : config.isFlashDevice = false
  divides : config.valueSize + timeSize ∣ maxItemSize
  pages_pos : 0 < config.pages
  healthy : device.faults = []
  overwrites : ∀ old new, device.merge old new = new

/-- Where the write after the current one goes. -/
def nextOffset (setup : StorageSetup) : ℕ :=
  if setup.currentOffset + (setup.itemSize + 1) ≤ setup.endOffset then
    setup.currentOffset + setup.itemSize else setup.startOffset

/-- A write finds the next slot's time field erased behind its first byte. -/
def EraseSuffices (store : Store) : Action → Prop
  | .write _ _ => ∀ offset < timeSize, 0 < offset →
      store.device.memory (nextOffset store.setup + offset) = 0xff
  | .restart _ => True

/-- An item as it is read back; behind a short value lies what the slot held before. -/
def ReadsAs (config : StorageConfig) (item : Written) (size : ℕ) (result : ReadResult) : Prop :=
  ∃ padding : List UInt8, padding.length = config.valueSize - item.value.length ∧
    result =
      { rc := (min size config.valueSize : ℕ)
        time := some ((item.time / 1000 &&& 0x7fffffffffff) * 1000)
        value := (item.value.take config.valueSize ++ padding).take (min size config.valueSize) }

/-- The write position is erased and is found again without formatting, and reading by index returns
the retained items newest first: all of them, up to one less than there are slots. -/
structure KeepsLog (config : StorageConfig) (start : ℕ) (store : Store) : Prop where
  erased : Uniform store.device.memory store.setup.currentOffset timeSize 0xff
  restarts : ∀ entry, addSection entry config start store.device = ((0, store.setup), store.device)
  reads : ∀ setups, applStorageSetup setups config.id = some store.setup → ∀ index size,
    (∀ item, index < min store.history.length (slotCount config store.device - 1) →
      store.history[index]? = some item →
      ReadsAs config item size
        (readBytesItem setups config.id index true (some size) store.device).1) ∧
    (min store.history.length (slotCount config store.device - 1) ≤ index →
      (readBytesItem setups config.id index true (some size) store.device).1 = { rc := 0 })

variable {config : StorageConfig} {start : ℕ} {device : Device}

theorem EepromSection.pageSize_eq (eeprom : EepromSection config device) :
    sectionPageSize config device = 128 :=
  if_neg (by simp [eeprom.isEeprom])

theorem EepromSection.eraseValue_eq (eeprom : EepromSection config device) :
    sectionEraseValue config device = 0xff :=
  if_neg (by simp [eeprom.isEeprom])

/-- Even one page has room for three items. -/
theorem EepromSection.layout (eeprom : EepromSection config device) (start offset : ℕ) :
    Layout (sectionAt config start device offset) (slotCount config device) ∧
      2 ≤ slotCount config device := by
  have pageEq := eeprom.pageSize_eq
  have sizes := itemSize_cases eeprom.divides
  have dividesPage : config.valueSize + timeSize ∣ sectionPageSize config device := by
    rw [pageEq]
    exact eeprom.divides.trans (by decide)
  have units : headerItems config + 2 ≤ itemsPerPage config device := by
    simp only [headerItems, itemsPerPage]
    rw [pageEq]
    rcases sizes with size | size | size <;> rw [size] <;> decide
  have more : itemsPerPage config device ≤ config.pages * itemsPerPage config device :=
    Nat.le_mul_of_pos_left _ eeprom.pages_pos
  refine ⟨(section_layout eeprom.divides dividesPage start offset (by omega)).1, ?_⟩
  simp only [slotCount]
  omega

private theorem nextOffset_slot {setup : StorageSetup} {slots cursor : ℕ} (layout : Layout setup slots)
    (bound : cursor < slots) (atCursor : setup.currentOffset = slotAddress setup cursor) :
    nextOffset setup = slotAddress setup (advance slots cursor) := by
  have positive := layout.itemSize_pos
  have next := slotAddress_succ setup cursor
  simp only [nextOffset, advance]
  rw [atCursor]
  by_cases inside : cursor + 1 < slots
  · have := layout.slot_inside inside
    rw [if_pos inside, if_pos (by omega), next]
  · have last : cursor + 1 = slots := by omega
    rw [last, layout.slotAddress_slots] at next
    rw [if_neg inside, if_neg (by omega), Layout.start_eq]

/-- The bytes an item left in its slot. -/
def Records (config : StorageConfig) (item : Written) (entry : List UInt8) : Prop :=
  ∃ padding : List UInt8, padding.length = config.valueSize - item.value.length ∧
    entry = bigEndian timeSize (timeField item.time) ++ (item.value.take config.valueSize ++ padding)

/-- What an EEPROM store keeps while every erase suffices. -/
structure EepromInvariant (config : StorageConfig) (start : ℕ) (store : Store) (cursor kept : ℕ)
    (log : List (List UInt8)) : Prop where
  eeprom : EepromSection config store.device
  isSection : store.setup = sectionAt config start store.device store.setup.currentOffset
  stored : Stored store.setup (slotCount config store.device) store.device.memory cursor log kept
  records : List.Forall₂ (Records config) store.history log
  count : kept = min store.history.length (slotCount config store.device - 1)

variable {store next : Store} {cursor kept : ℕ} {log : List (List UInt8)} {action : Action}

theorem EepromInvariant.layout (invariant : EepromInvariant config start store cursor kept log) :
    Layout store.setup (slotCount config store.device) := by
  rw [invariant.isSection]
  exact (invariant.eeprom.layout start _).1

theorem EepromInvariant.two (invariant : EepromInvariant config start store cursor kept log) :
    2 ≤ slotCount config store.device :=
  (invariant.eeprom.layout start 0).2

theorem EepromInvariant.config_eq (invariant : EepromInvariant config start store cursor kept log) :
    store.setup.config = config := by
  rw [invariant.isSection]
  rfl

theorem EepromInvariant.onDevice (invariant : EepromInvariant config start store cursor kept log) :
    EepromDevice store.setup store.device where
  isEeprom := invariant.config_eq ▸ invariant.eeprom.isEeprom
  healthy := invariant.eeprom.healthy
  erasedOnes := by
    rw [invariant.isSection]
    exact invariant.eeprom.eraseValue_eq
  overwrites := invariant.eeprom.overwrites

theorem EepromInvariant.suffices_iff (invariant : EepromInvariant config start store cursor kept log)
    (time : ℕ) (value : List UInt8) :
    EraseSuffices store (.write time value) ↔
      TailErased store.setup store.device.memory (advance (slotCount config store.device) cursor) := by
  simp only [EraseSuffices, TailErased, nextOffset_slot invariant.layout invariant.stored.ring.cursor_lt
    invariant.stored.offset, invariant.onDevice.erasedOnes]

theorem EepromInvariant.restart (invariant : EepromInvariant config start store cursor kept log)
    (entry : StorageSetup) :
    addSection entry config start store.device = ((0, store.setup), store.device) :=
  invariant.stored.addSection_eq invariant.layout invariant.eeprom.healthy invariant.isSection entry

/-- Every operation whose erase suffices keeps the invariant. -/
theorem EepromInvariant.step (invariant : EepromInvariant config start store cursor kept log)
    (enough : EraseSuffices store action) (step : Store.Step config start store action next) :
    ∃ cursor kept log, EepromInvariant config start next cursor kept log := by
  cases step with
  | restart restarted =>
    rw [invariant.restart] at restarted
    obtain ⟨⟨rfl, rfl⟩, rfl⟩ := restarted
    exact ⟨cursor, kept, log, invariant⟩
  | @write time value setup device written =>
    obtain ⟨data, effects, wrote, stores, _⟩ := invariant.onDevice.write invariant.layout invariant.two
      invariant.stored time value
    have stored := stores ((invariant.suffices_iff time value).mp enough)
    rw [wrote] at written
    obtain ⟨⟨-, rfl⟩, rfl⟩ := written
    refine ⟨_, _, _, ⟨invariant.eeprom.isEeprom, invariant.eeprom.divides, invariant.eeprom.pages_pos,
      invariant.eeprom.healthy, invariant.eeprom.overwrites⟩, ?_, stored, .cons ?_ invariant.records, ?_⟩
    · rw [invariant.isSection]
      rfl
    · rw [itemBytes_eq invariant.layout, storedValue, invariant.config_eq]
      exact ⟨_, by simp, rfl⟩
    · have few := invariant.stored.ring.kept_lt
      have count := invariant.count
      change _ = min (store.history.length + 1) (slotCount config store.device - 1)
      simp only [keptAfter]
      split <;> omega

/-- While a slot is free besides the write position, every erase suffices. -/
theorem EepromInvariant.suffices_of_room (invariant : EepromInvariant config start store cursor kept log)
    (room : store.history.length + 1 < slotCount config store.device) (time : ℕ) (value : List UInt8) :
    EraseSuffices store (.write time value) := by
  rw [invariant.suffices_iff]
  have isFree := (invariant.stored.ring.advance_free_iff invariant.two).mpr (by
    have := invariant.count
    omega)
  intro offset bound _
  exact slotsOf_eq_none_iff.mp isFree offset bound

/-- A first lap of writes is a run. -/
theorem EepromInvariant.path_writeAll (items : List (ℕ × List UInt8)) : ∀ {store : Store} {cursor kept log},
    EepromInvariant config start store cursor kept log →
    store.history.length + items.length < slotCount config store.device →
    Path (guarded (Store.Step config start) EraseSuffices) store
      (items.map fun item => .write item.1 item.2) (store.writeAll items) := by
  induction items with
  | nil =>
    intro store _ _ _ _ _
    exact .nil store
  | cons item rest ih =>
    intro store cursor kept log invariant room
    obtain ⟨time, value⟩ := item
    rw [List.length_cons] at room
    have enough := invariant.suffices_of_room (by omega) time value
    obtain ⟨data, effects, wrote, _⟩ := invariant.onDevice.write invariant.layout invariant.two
      invariant.stored time value
    have step : Store.Step config start store (.write time value) _ := .write wrote
    obtain ⟨_, _, _, next⟩ := invariant.step enough step
    have tail := ih next (by
      change store.history.length + 1 + rest.length < slotCount config store.device
      omega)
    rw [List.map_cons, Store.writeAll, wrote]
    exact .cons ⟨enough, step⟩ tail

/-- A freshly formatted section keeps the invariant. -/
theorem EepromInvariant.opened (eeprom : EepromSection config device) (entry : StorageSetup)
    (foreign : ¬ HeaderIntact (sectionAt config start device 0) device.memory) :
    EepromInvariant config start (Store.opened entry config start device) 0 0 [] := by
  obtain ⟨layout, two⟩ := eeprom.layout start 0
  have writable : Writable config device :=
    ⟨eeprom.healthy, eeprom.overwrites _, fun _ => eeprom.overwrites⟩
  obtain ⟨effects, formatted, intact, blank⟩ := addSection_foreign writable entry layout foreign
  have opened : Store.opened entry config start device =
      { setup := sectionAt config start device (sectionAt config start device 0).startOffset
        device := device.after effects } := by
    rw [Store.opened, formatted]
  have allFree : ∀ slot < slotCount config device,
      slotsOf (sectionAt config start device 0) (device.after effects).memory slot = none :=
    fun slot bound => slotsOf_of_blank layout.itemSize_ge (blank slot bound)
  have positive : 0 < slotCount config device := Nat.lt_of_lt_of_le Nat.zero_lt_two two
  rw [opened]
  exact ⟨⟨eeprom.isEeprom, eeprom.divides, eeprom.pages_pos, eeprom.healthy, eeprom.overwrites⟩, rfl,
    ⟨(Layout.start_eq _).symm, intact, Holds.empty positive allFree, Nat.le_refl 0, by simp⟩, .nil,
    (Nat.zero_min _).symm⟩

/-- A store that keeps the invariant keeps the law. -/
theorem EepromInvariant.keepsLog (invariant : EepromInvariant config start store cursor kept log) :
    KeepsLog config start store := by
  have ring := invariant.stored.ring
  refine ⟨?_, invariant.restart, ?_⟩
  · rw [invariant.stored.offset, ← invariant.onDevice.erasedOnes]
    exact slotsOf_eq_none_iff.mp ring.cursor_free
  · intro setups known index size
    have readBytes : readBytesItem setups config.id index true (some size) store.device =
        readIndex store.setup true (some size) index store.setup.currentOffset store.device := by
      simp only [readBytesItem, known]
    rw [readBytes, invariant.stored.readIndex_eq invariant.layout invariant.eeprom.healthy,
      ← invariant.count]
    constructor
    · intro item inside found
      rw [if_pos inside]
      obtain ⟨bound, isItem⟩ := List.getElem?_eq_some_iff.mp found
      have known : index < log.length := Nat.lt_of_lt_of_le inside ring.kept_le
      obtain ⟨padding, fills, entry⟩ := invariant.records.get bound known
      simp only [List.get_eq_getElem, isItem] at fills entry
      refine ⟨padding, fills, ?_⟩
      simp only [List.getElem?_eq_getElem known, entry]
      rw [readEntry_append, timeField_ofNat, invariant.config_eq]
      rfl
    · intro beyond
      rw [if_neg (by omega)]

/-- A write from a store that keeps the invariant keeps the law exactly when its erase suffices. -/
theorem EepromInvariant.write_iff (invariant : EepromInvariant config start store cursor kept log)
    {time : ℕ} {value : List UInt8} (step : Store.Step config start store (.write time value) next) :
    KeepsLog config start next ↔ EraseSuffices store (.write time value) := by
  constructor
  · intro law
    rw [invariant.suffices_iff]
    intro offset bound behind
    obtain ⟨_, effects, wrote, _, same⟩ := invariant.onDevice.write invariant.layout invariant.two
      invariant.stored time value
    cases step with
    | write written =>
      rw [wrote] at written
      obtain ⟨⟨-, rfl⟩, rfl⟩ := written
      rw [← same offset bound behind, invariant.onDevice.erasedOnes]
      exact law.erased offset bound
  · intro enough
    obtain ⟨_, _, _, kept⟩ := invariant.step enough step
    exact kept.keepsLog

/-- The invariant holds at the end of every run whose erases suffice. -/
private theorem eepromInvariant_of_run (eeprom : EepromSection config device) (entry : StorageSetup)
    (foreign : ¬ HeaderIntact (sectionAt config start device 0) device.memory)
    {actions : List Action}
    (run : Path (guarded (Store.Step config start) EraseSuffices)
      (Store.opened entry config start device) actions store) :
    ∃ cursor kept log, EepromInvariant config start store cursor kept log := by
  apply run.invariant fun store => ∃ cursor kept log, EepromInvariant config start store cursor kept log
  · rintro store action next ⟨cursor, kept, log, invariant⟩ ⟨enough, step⟩
    exact invariant.step enough step
  · exact ⟨_, _, _, EepromInvariant.opened eeprom entry foreign⟩

/-- In every run whose writes each find the tail of the next slot's time field erased, the section
keeps the log law; and from each store of such a run a write keeps the law exactly when it does. -/
theorem eeprom_log (eeprom : EepromSection config device) (entry : StorageSetup)
    (foreign : ¬ HeaderIntact (sectionAt config start device 0) device.memory)
    {actions : List Action}
    (run : Path (guarded (Store.Step config start) EraseSuffices)
      (Store.opened entry config start device) actions store) :
    KeepsLog config start store ∧
      ∀ time value next, Store.Step config start store (.write time value) next →
        (KeepsLog config start next ↔ EraseSuffices store (.write time value)) := by
  obtain ⟨cursor, kept, log, invariant⟩ := eepromInvariant_of_run eeprom entry foreign run
  exact ⟨invariant.keepsLog, fun time value next step => invariant.write_iff step⟩

/-- The calibration of scale A: two pages of `0x80` bytes, items of 32 bytes, seven slots. -/
def calibrationStorage : StorageConfig :=
  { isFlashDevice := false, id := 2, magic := 0x03400560, version := 1, pages := 2, valueSize := 26 }

/-- An EEPROM as it is delivered. -/
def freshEeprom : Device :=
  { memory := fun _ => 0xff, merge := fun _ new => new, pageSize := 16, eraseValue := 0xff }

def calibrationStore : Store :=
  Store.opened (setupOf calibrationStorage .notInitialized 0 128 0xff) calibrationStorage 0 freshEeprom

private theorem freshEeprom_section : EepromSection calibrationStorage freshEeprom :=
  ⟨rfl, by decide, by decide, rfl, fun _ _ => rfl⟩

private theorem freshEeprom_foreign :
    ¬ HeaderIntact (sectionAt calibrationStorage 0 freshEeprom 0) freshEeprom.memory := by
  intro intact
  exact absurd (intact 0 (by decide)) (by decide)

/-- Six calibrations fill the section. -/
def sixCalibrations : List (ℕ × List UInt8) :=
  [(1000, [1]), (2000, [2]), (3000, [3]), (4000, [4]), (5000, [5]), (6000, [6])]

def fullCalibration : Store := calibrationStore.writeAll sixCalibrations

private theorem path_fullCalibration :
    Path (guarded (Store.Step calibrationStorage 0) EraseSuffices) calibrationStore
      (sixCalibrations.map fun item => .write item.1 item.2) fullCalibration :=
  (EepromInvariant.opened freshEeprom_section _ freshEeprom_foreign).path_writeAll _ (by decide)

/-- A section that was filled and initialised again keeps the law. -/
theorem eeprom_log_calibration :
    ∃ store, Path (guarded (Store.Step calibrationStorage 0) EraseSuffices) calibrationStore
        (sixCalibrations.map (fun item => .write item.1 item.2) ++ [.restart calibrationStore.setup]) store ∧
      KeepsLog calibrationStorage 0 store := by
  obtain ⟨store, restarted⟩ : ∃ store,
      Store.Step calibrationStorage 0 fullCalibration (.restart calibrationStore.setup) store := ⟨_, .restart rfl⟩
  have step : guarded (Store.Step calibrationStorage 0) EraseSuffices fullCalibration (.restart calibrationStore.setup)
      store := ⟨trivial, restarted⟩
  have run := path_fullCalibration.snoc step
  exact ⟨store, run, (eeprom_log freshEeprom_section _ freshEeprom_foreign run).1⟩

/-- The seventh recycles the first slot. -/
def recycledCalibration : Store := fullCalibration.writeAll [(7000, [7])]

/-- After the seventh calibration the slot at the write position does not count as erased, the next
initialisation formats the section and no calibration is left. -/
theorem calibration_lost :
    (∃ actions, Path (Store.Step calibrationStorage 0) calibrationStore actions recycledCalibration) ∧
      ¬ Uniform recycledCalibration.device.memory recycledCalibration.setup.currentOffset timeSize 0xff ∧
      (let restarted := addSection recycledCalibration.setup calibrationStorage 0
        recycledCalibration.device
      (readBytesItem [restarted.1.2] 2 0 true (some 26) restarted.2).1 = { rc := 0 }) := by
  refine ⟨?_, by decide +kernel, by decide +kernel⟩
  have run := path_fullCalibration
  obtain ⟨_, _, _, invariant⟩ := eepromInvariant_of_run freshEeprom_section _ freshEeprom_foreign run
  obtain ⟨_, _, wrote, _⟩ := invariant.onDevice.write invariant.layout invariant.two invariant.stored
    (7000 : ℕ) [7]
  have step : Store.Step calibrationStorage 0 fullCalibration (.write 7000 [7]) recycledCalibration := by
    rw [recycledCalibration, Store.writeAll, wrote]
    exact .write wrote
  exact ⟨_, (run.mono fun _ _ _ guardedStep => guardedStep.2).snoc step⟩

end CoapsClient.ApplStorage
