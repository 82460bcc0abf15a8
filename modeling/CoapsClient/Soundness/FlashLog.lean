import CoapsClient.Model.Storage.Flash
import CoapsClient.Model.Storage.Geometry

/-! # A flash section is a bounded newest-first log

Over every run of writes and re-initialisations a flash section keeps `FlashInvariant`, so each item
is programmed on erased flash, the write position is found again without formatting, and reading by
index returns the newest items in order. What is missing at the old end lies in the page recycled
last.

The section needs two slots. With a single slot the next slot is the current one, and the first
write leaves no free slot behind.
-/

namespace CoapsClient.ApplStorage

open Machine Math RingLog

/-- A section of the storage table on a flash that works. Sections start at page borders, since
`appl_storage_init` lays them out page by page from zero. -/
structure FlashSection (config : StorageConfig) (start : ℕ) (device : Device) : Prop where
  isFlash : config.isFlashDevice = true
  divides : config.valueSize + timeSize ∣ maxItemSize
  dividesPage : config.valueSize + timeSize ∣ device.pageSize
  pageSize_pos : 0 < device.pageSize
  pages_ge : 2 ≤ config.pages
  aligned : device.pageSize ∣ start
  healthy : device.faults = []
  erasedOnes : device.eraseValue = 0xff
  programs : ∀ new, device.merge 0xff new = new

/-- The section has room for two items. -/
def TwoSlots (setup : StorageSetup) : Prop :=
  setup.startOffset + 2 * setup.itemSize ≤ setup.endOffset

instance (setup : StorageSetup) : Decidable (TwoSlots setup) :=
  inferInstanceAs (Decidable (_ ≤ _))

variable {config : StorageConfig} {start : ℕ} {device : Device}

theorem FlashSection.pageSize_eq (flash : FlashSection config start device) :
    sectionPageSize config device = device.pageSize :=
  if_pos flash.isFlash

theorem FlashSection.paged (flash : FlashSection config start device) {offset : ℕ}
    (two : TwoSlots (sectionAt config start device offset)) :
    Paged (sectionAt config start device offset) (slotCount config device)
      (itemsPerPage config device) (headerItems config) := by
  have same := flash.pageSize_eq
  have dividesPage : config.valueSize + timeSize ∣ sectionPageSize config device :=
    same ▸ flash.dividesPage
  obtain ⟨headerEq, headerPos, headerLe, _⟩ := headerItems_spec flash.divides
  have units : headerItems config + 2 ≤ config.pages * itemsPerPage config device :=
    itemRoom_of_bytes flash.divides dividesPage two
  obtain ⟨layout, startEq, total⟩ :=
    section_layout flash.divides dividesPage start offset (by omega)
  refine ⟨layout, flash.isFlash, ?_, ?_, ?_, startEq, total, flash.pages_ge, headerPos, headerLe,
    by omega⟩
  · by_contra zero
    have : itemsPerPage config device = 0 := by omega
    rw [this, Nat.mul_zero] at units
    omega
  · exact (Nat.div_mul_cancel dividesPage).symm
  · change sectionPageSize config device ∣ start
    rw [same]
    exact flash.aligned

theorem FlashSection.eraseValue_eq (flash : FlashSection config start device) :
    sectionEraseValue config device = 0xff :=
  (if_pos flash.isFlash).trans flash.erasedOnes

theorem FlashSection.after (flash : FlashSection config start device) (effects : List Effect) :
    FlashSection config start (device.after effects) :=
  ⟨flash.isFlash, flash.divides, flash.dividesPage, flash.pageSize_pos, flash.pages_ge, flash.aligned,
    flash.healthy, flash.erasedOnes, flash.programs⟩

theorem FlashSection.writable (flash : FlashSection config start device) : Writable config device where
  healthy := flash.healthy
  programs := by
    rw [flash.eraseValue_eq]
    exact flash.programs
  overwrites := by simp [flash.isFlash]

/-- The log a history of writes leaves. -/
def logOf (config : StorageConfig) (history : List Written) : List (List UInt8) :=
  history.map fun item => logEntry config item.time item.value

/-- What a flash store keeps over its whole life; `floor` is the first unit of a page. -/
structure FlashInvariant (config : StorageConfig) (start : ℕ) (store : Store) (cursor kept : ℕ)
    (floor : Option ℕ) : Prop where
  flash : FlashSection config start store.device
  isSection : store.setup = sectionAt config start store.device store.setup.currentOffset
  two : TwoSlots store.setup
  state : FlashState store.setup (slotCount config store.device) (itemsPerPage config store.device)
    (headerItems config) store.device cursor (logOf config store.history) kept floor
  recycled : store.recycled = floor.map fun unit => start + unit * (config.valueSize + timeSize)
  addresses : ∀ age item, store.history[age]? = some item → age < slotCount config store.device →
    item.address = slotAddress store.setup (back (slotCount config store.device) cursor age)

variable {store next : Store} {cursor kept : ℕ} {floor : Option ℕ} {action : Action}

theorem FlashInvariant.paged (invariant : FlashInvariant config start store cursor kept floor) :
    Paged store.setup (slotCount config store.device) (itemsPerPage config store.device)
      (headerItems config) := by
  have two := invariant.two
  rw [invariant.isSection] at two ⊢
  exact invariant.flash.paged two

/-- The addresses of the newest items follow the cursor. -/
private theorem addresses_push {slots : ℕ} {setup : StorageSetup} {history : List Written}
    (bound : cursor < slots) (item : Written) (here : item.address = slotAddress setup cursor)
    (addresses : ∀ age item, history[age]? = some item → age < slots →
      item.address = slotAddress setup (back slots cursor age)) (age : ℕ) (other : Written)
    (found : (item :: history)[age]? = some other) (recent : age < slots) :
    other.address = slotAddress setup (back slots (advance slots cursor) age) := by
  cases age with
  | zero =>
    rw [List.getElem?_cons_zero] at found
    rw [back_advance_zero bound, ← Option.some.inj found]
    exact here
  | succ age =>
    rw [List.getElem?_cons_succ] at found
    rw [back_advance_succ bound recent]
    exact addresses age other found (by omega)

/-- A re-initialisation changes nothing. -/
theorem FlashInvariant.restart (invariant : FlashInvariant config start store cursor kept floor)
    (entry : StorageSetup) :
    addSection entry config start store.device = ((0, store.setup), store.device) :=
  invariant.state.stored.addSection_eq invariant.paged.toLayout invariant.flash.healthy
    invariant.isSection entry

/-- Every operation keeps the invariant. -/
theorem FlashInvariant.step (invariant : FlashInvariant config start store cursor kept floor)
    (step : Store.Step config start store action next) :
    ∃ cursor kept floor, FlashInvariant config start next cursor kept floor := by
  cases step with
  | restart restarted =>
    rw [invariant.restart] at restarted
    obtain ⟨⟨rfl, rfl⟩, rfl⟩ := restarted
    exact ⟨cursor, kept, floor, invariant⟩
  | @write time value setup device written =>
    obtain ⟨left, -, wrote, -, state⟩ := invariant.state.write invariant.paged time value
    have erased := invariant.state.erasedPage_eq invariant.paged time value
    rw [wrote] at written
    obtain ⟨⟨-, rfl⟩, rfl⟩ := written
    have configEq : store.setup.config = config := by rw [invariant.isSection]; rfl
    have base : store.setup.headersOffset = start := by rw [invariant.isSection]; rfl
    have width : store.setup.itemSize = config.valueSize + timeSize := by rw [invariant.isSection]; rfl
    have bound := invariant.state.stored.ring.cursor_lt
    rw [show logEntry store.setup.config time value = logEntry config time value by rw [configEq]] at state
    refine ⟨_, _, _, invariant.flash.after _, ?_, invariant.two, state, ?_,
      addresses_push bound _ invariant.state.stored.offset invariant.addresses⟩
    · rw [invariant.isSection]
      rfl
    · simp only [newEffects_after, erased, base, width]
      by_cases full : kept + 1 = slotCount config store.device
      · rw [if_pos full, if_pos full]
        rfl
      · rw [if_neg full, if_neg full]
        exact invariant.recycled

/-- A freshly formatted section keeps the invariant. -/
theorem FlashInvariant.opened (flash : FlashSection config start device) (entry : StorageSetup)
    (two : TwoSlots (sectionAt config start device 0))
    (foreign : ¬ HeaderIntact (sectionAt config start device 0) device.memory) :
    FlashInvariant config start (Store.opened entry config start device) 0 0 none := by
  have paged := flash.paged two
  obtain ⟨effects, formatted, intact, blank⟩ :=
    addSection_foreign flash.writable entry paged.toLayout foreign
  have opened : Store.opened entry config start device =
      { setup := sectionAt config start device (sectionAt config start device 0).startOffset
        device := device.after effects } := by
    rw [Store.opened, formatted]
  have allFree : ∀ slot < slotCount config device,
      slotsOf (sectionAt config start device 0) (device.after effects).memory slot = none :=
    fun slot bound => slotsOf_of_blank paged.itemSize_ge (blank slot bound)
  rw [opened]
  refine ⟨flash.after effects, rfl, two, ⟨⟨flash.healthy, ?_, ?_, flash.eraseValue_eq, ?_⟩, ?_, ?_, ?_⟩,
    rfl, by simp⟩
  · exact (if_pos flash.isFlash).symm
  · exact (if_pos flash.isFlash).symm
  · change ∀ new, device.merge (sectionEraseValue config device) new = new
    rw [flash.eraseValue_eq]
    exact flash.programs
  · have positive : 0 < slotCount config device := Nat.lt_of_lt_of_le Nat.zero_lt_two paged.two
    exact ⟨(Layout.start_eq _).symm, intact, Holds.empty positive allFree, Nat.le_refl 0,
      by simp [logOf]⟩
  · intro slot bound _
    exact blank slot bound
  · exact .fresh rfl rfl

/-- What reading an item back delivers: the masked time, and the value cut to the section's size or
padded with erased bytes. -/
def logResult (config : StorageConfig) (size : ℕ) (item : Written) : ReadResult :=
  { rc := (min size config.valueSize : ℕ)
    time := some ((item.time / 1000 &&& 0x7fffffffffff) * 1000)
    value := (item.value.take config.valueSize ++
      List.replicate (config.valueSize - item.value.length) 0xff).take (min size config.valueSize) }

/-- The store behaves as a bounded newest-first log of its history. -/
structure BehavesAsLog (config : StorageConfig) (start : ℕ) (store : Store) : Prop where
  aligned : ∃ slot < slotCount config store.device,
    store.setup.currentOffset = store.setup.startOffset + slot * store.setup.itemSize
  inside : store.setup.currentOffset + store.setup.itemSize ≤ store.setup.endOffset
  erased : Uniform store.device.memory store.setup.currentOffset store.setup.itemSize 0xff
  writes : ∀ (time : ℕ) (value : List UInt8), ∃ setup effects,
    writeItem store.setup time value store.device = ((0, setup), store.device.after effects) ∧
      Clean store.device.merge 0xff store.device.memory effects
  restarts : ∀ entry, addSection entry config start store.device = ((0, store.setup), store.device)
  reads : ∃ kept ≤ store.history.length,
    (∀ setups, applStorageSetup setups config.id = some store.setup → ∀ index size,
      readBytesItem setups config.id index true (some size) store.device =
        (match if index < kept then store.history[index]? else none with
          | none => { rc := 0 }
          | some item => logResult config size item, store.device)) ∧
    ∀ age item, store.history[age]? = some item → age < slotCount config store.device →
      (∀ page, store.recycled = some page →
        ¬ (page ≤ item.address ∧ item.address < page + store.device.pageSize)) → age < kept

private theorem readEntry_logEntry (setup : StorageSetup) (item : Written) (size : ℕ) :
    readEntry setup true (some size) (logEntry setup.config item.time item.value) =
      logResult setup.config size item := by
  rw [logEntry, readEntry_append, timeField_ofNat]
  rfl

/-- The kept part of the log, read by index. -/
theorem FlashInvariant.read (invariant : FlashInvariant config start store cursor kept floor)
    (setups : List StorageSetup) (known : applStorageSetup setups config.id = some store.setup)
    (index size : ℕ) :
    readBytesItem setups config.id index true (some size) store.device =
      (match if index < kept then store.history[index]? else none with
        | none => { rc := 0 }
        | some item => logResult config size item, store.device) := by
  have configEq : store.setup.config = config := by rw [invariant.isSection]; rfl
  simp only [readBytesItem, known]
  rw [invariant.state.stored.readIndex_eq invariant.paged.toLayout invariant.flash.healthy]
  by_cases inside : index < kept
  · rw [if_pos inside, if_pos inside, logOf, List.getElem?_map]
    cases store.history[index]? with
    | none => rfl
    | some item =>
      have entry := readEntry_logEntry store.setup item size
      rw [configEq] at entry
      simp only [Option.map_some, entry]
  · rw [if_neg inside, if_neg inside]

/-- A store that keeps the invariant behaves as a log. -/
theorem FlashInvariant.behaves (invariant : FlashInvariant config start store cursor kept floor) :
    BehavesAsLog config start store := by
  have paged := invariant.paged
  have stored := invariant.state.stored
  have bound := stored.ring.cursor_lt
  have ones := invariant.state.erasedOnes
  refine ⟨⟨cursor, bound, stored.offset⟩, ?_, ?_, ?_, invariant.restart, kept, ?_, invariant.read, ?_⟩
  · rw [stored.offset]
    exact paged.slot_inside bound
  · rw [stored.offset, ← ones]
    exact invariant.state.blank cursor bound stored.ring.cursor_free
  · intro time value
    obtain ⟨_, -, written, clean, -⟩ := invariant.state.write paged time value
    rw [ones] at clean
    exact ⟨_, _, written, clean⟩
  · simpa [logOf] using stored.ring.kept_le
  · intro age item found recent outside
    have existing : age < (logOf config store.history).length := by
      rw [logOf, List.length_map]
      exact (List.getElem?_eq_some_iff.mp found).1
    apply invariant.state.reach.keeps_outside paged bound recent existing
    rintro unit rfl ⟨lower, upper⟩
    -- The unit of the item's slot lies in the page, so its address does.
    have base : store.setup.headersOffset = start := by rw [invariant.isSection]; rfl
    have width : store.setup.itemSize = config.valueSize + timeSize := by rw [invariant.isSection]; rfl
    have page : store.device.pageSize =
        itemsPerPage config store.device * (config.valueSize + timeSize) := by
      rw [itemsPerPage, invariant.flash.pageSize_eq, Nat.div_mul_cancel invariant.flash.dividesPage]
    apply outside _ invariant.recycled
    rw [invariant.addresses age item found recent, paged.slotAddress_eq, base, width, page,
      Nat.add_assoc, ← Nat.add_mul]
    have positive : 0 < config.valueSize + timeSize := width ▸ paged.itemSize_pos
    exact ⟨Nat.add_le_add_left (Nat.mul_le_mul_right _ lower) _,
      Nat.add_lt_add_left (Nat.mul_lt_mul_of_pos_right upper positive) _⟩

/-- The invariant holds at the end of every run. -/
theorem flashInvariant_of_run (flash : FlashSection config start device) (entry : StorageSetup)
    (two : TwoSlots (sectionAt config start device 0))
    (foreign : ¬ HeaderIntact (sectionAt config start device 0) device.memory)
    {actions : List Action}
    (run : Path (Store.Step config start) (Store.opened entry config start device) actions store) :
    ∃ cursor kept floor, FlashInvariant config start store cursor kept floor := by
  apply run.invariant fun store =>
    ∃ cursor kept floor, FlashInvariant config start store cursor kept floor
  · rintro store action next ⟨cursor, kept, floor, invariant⟩ step
    exact invariant.step step
  · exact ⟨_, _, _, FlashInvariant.opened flash entry two foreign⟩

/-- On a flash every write succeeds, so a list of writes is a run. -/
theorem FlashInvariant.path_writeAll (invariant : FlashInvariant config start store cursor kept floor)
    (items : List (ℕ × List UInt8)) :
    Path (Store.Step config start) store (items.map fun item => .write item.1 item.2)
      (store.writeAll items) := by
  have accepted : ∀ store, (∃ cursor kept floor, FlashInvariant config start store cursor kept floor) →
      ∀ (time : ℕ) value, (writeItem store.setup time value store.device).1.1 = 0 := by
    rintro store ⟨_, _, _, invariant⟩ time value
    obtain ⟨_, _, written, _⟩ := invariant.state.write invariant.paged time value
    rw [written]
  refine Store.path_writeAll config start accepted ?_ items ⟨_, _, _, invariant⟩
  rintro store action next ⟨_, _, _, invariant⟩ step
  exact invariant.step step

/-- A flash section behaves as a bounded newest-first log, for every run of successful writes and
re-initialisations. -/
theorem flash_log (flash : FlashSection config start device) (entry : StorageSetup)
    (two : TwoSlots (sectionAt config start device 0))
    (foreign : ¬ HeaderIntact (sectionAt config start device 0) device.memory)
    {actions : List Action}
    (run : Path (Store.Step config start) (Store.opened entry config start device) actions store) :
    BehavesAsLog config start store := by
  obtain ⟨cursor, kept, floor, invariant⟩ := flashInvariant_of_run flash entry two foreign run
  exact invariant.behaves

/-- Two pages of four items; the header takes two of the eight. -/
def smallSection : StorageConfig :=
  { isFlashDevice := true, id := 1, magic := 0x1ab, version := 1, pages := 2, valueSize := 2 }

/-- A section with room for one item behind the header. -/
def singleSection : StorageConfig := { smallSection with valueSize := 26 }

/-- A flash with pages of 32 bytes that holds zeros. -/
def zeroedFlash : Device :=
  { memory := fun _ => 0, merge := fun old new => old &&& new, pageSize := 32, eraseValue := 0xff }

theorem zeroedFlash_section (size : ℕ) (divides : size + timeSize ∣ maxItemSize) :
    FlashSection { smallSection with valueSize := size } 0 zeroedFlash :=
  ⟨rfl, divides, divides, by decide, Nat.le_refl 2, by decide, rfl, rfl, by
    intro new
    apply UInt8.toBitVec_inj.mp
    exact BitVec.allOnes_and⟩

theorem zeroedFlash_foreign :
    ¬ HeaderIntact (sectionAt smallSection 0 zeroedFlash 0) zeroedFlash.memory := by
  intro intact
  exact absurd (intact 2 (by decide)) (by decide)

/-- The small section, formatted. -/
def smallStore : Store :=
  Store.opened (setupOf smallSection .notInitialized 0 32 0xff) smallSection 0 zeroedFlash

/-- Seven items for six slots. -/
def sevenItems : List (ℕ × List UInt8) :=
  [(1000, [1]), (2000, [2]), (3000, [3]), (4000, [4]), (5000, [5]), (6000, [6]), (7000, [7])]

/-- The writes cross both page borders of the small section and wrap; a re-initialisation finds what they left. -/
theorem flash_log_small :
    ∃ store, Path (Store.Step smallSection 0) smallStore
        (sevenItems.map (fun item => .write item.1 item.2) ++ [.restart smallStore.setup]) store ∧
      BehavesAsLog smallSection 0 store := by
  have flash : FlashSection smallSection 0 zeroedFlash := zeroedFlash_section 2 (by decide)
  have writes : Path (Store.Step smallSection 0) smallStore (sevenItems.map fun item => .write item.1 item.2)
      (smallStore.writeAll sevenItems) :=
    (FlashInvariant.opened flash _ (by decide) zeroedFlash_foreign).path_writeAll sevenItems
  obtain ⟨store, restarted⟩ : ∃ store,
      Store.Step smallSection 0 (smallStore.writeAll sevenItems) (.restart smallStore.setup) store := ⟨_, .restart rfl⟩
  have run := writes.snoc restarted
  exact ⟨store, run, flash_log flash _ (by decide) zeroedFlash_foreign run⟩

/-- With one slot the first write leaves no erased slot, and the next initialisation formats. -/
theorem single_slot_formats :
    FlashSection singleSection 0 zeroedFlash ∧
      ∃ store, Path (Store.Step singleSection 0)
          (Store.opened (setupOf singleSection .notInitialized 0 32 0xff) singleSection 0 zeroedFlash)
          [.write 5000 [1, 2]] store ∧
        ¬ Uniform store.device.memory store.setup.currentOffset store.setup.itemSize 0xff ∧
        newEffects store.device (addSection store.setup singleSection 0 store.device).2 ≠ [] := by
  refine ⟨zeroedFlash_section 26 (by decide), _, .cons (.write rfl) (.nil _), ?_, ?_⟩
  · decide
  · decide

end CoapsClient.ApplStorage
