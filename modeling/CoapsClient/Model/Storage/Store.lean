import CoapsClient.Model.Storage.Write
import CoapsClient.Machine.Path

/-! # A section in use

`Store.Step` is the life of one section: successful writes, and re-initialisations at any point
between them. A store remembers what was written, newest first and with the address each item went
to, and the page the device erased last. `Store.opened` is a section whose header was foreign, so
that its first initialisation formats it.
-/

namespace CoapsClient.ApplStorage

open Machine Math RingLog

/-- An item as it was written. -/
structure Written where
  time : ℕ
  value : List UInt8
  address : ℕ
deriving DecidableEq, Repr

structure Store where
  setup : StorageSetup
  device : Device
  history : List Written := []
  recycled : Option ℕ := none

inductive Action where
  | write (time : ℕ) (value : List UInt8)
  | restart (entry : StorageSetup)
deriving DecidableEq, Repr

/-- The page that a list of effects erases. -/
def erasedPage (effects : List Effect) : Option ℕ :=
  effects.findSome? fun
    | .fill address _ _ => some address
    | .program _ _ => none

/-- The effects that an operation added to a device. -/
def newEffects (before after : Device) : List Effect := after.effects.drop before.effects.length

@[simp] theorem newEffects_after (device : Device) (effects : List Effect) :
    newEffects device (device.after effects) = effects := by
  simp [newEffects]

/-- A successful write, or a re-initialisation over whatever entry the table had before. -/
inductive Store.Step (config : StorageConfig) (start : ℕ) : Store → Action → Store → Prop
  | write {store : Store} {time : ℕ} {value : List UInt8} {setup : StorageSetup} {device : Device}
      (written : writeItem store.setup time value store.device = ((0, setup), device)) :
      Step config start store (.write time value)
        { setup, device
          history := ⟨time, value, store.setup.currentOffset⟩ :: store.history
          recycled := (erasedPage (newEffects store.device device)).or store.recycled }
  | restart {store : Store} {entry : StorageSetup} {rc : Int} {setup : StorageSetup} {device : Device}
      (restarted : addSection entry config start store.device = ((rc, setup), device)) :
      Step config start store (.restart entry) { store with setup, device }

/-- The store after a list of writes, oldest first. -/
def Store.writeAll (store : Store) : List (ℕ × List UInt8) → Store
  | [] => store
  | (time, value) :: rest =>
      let result := writeItem store.setup time value store.device
      Store.writeAll
        { setup := result.1.2
          device := result.2
          history := ⟨time, value, store.setup.currentOffset⟩ :: store.history
          recycled := (erasedPage (newEffects store.device result.2)).or store.recycled } rest

/-- Writes to a healthy device are the steps of a run. -/
theorem Store.path_writeAll (config : StorageConfig) (start : ℕ) {inv : Store → Prop}
    (accepted : ∀ store, inv store → ∀ (time : ℕ) value,
      (writeItem store.setup time value store.device).1.1 = 0)
    (kept : ∀ store action next, inv store → Store.Step config start store action next → inv next)
    (items : List (ℕ × List UInt8)) : ∀ {store : Store}, inv store →
    Path (Store.Step config start) store (items.map fun item => .write item.1 item.2)
      (store.writeAll items) := by
  induction items with
  | nil =>
    intro store _
    exact .nil store
  | cons item rest ih =>
    intro store holds
    obtain ⟨time, value⟩ := item
    have step : Store.Step config start store (.write time value) _ :=
      .write (Prod.ext (Prod.ext (accepted store holds time value) rfl) rfl)
    exact .cons step (ih (kept _ _ _ holds step))

/-- The store after the first initialisation. -/
def Store.opened (entry : StorageSetup) (config : StorageConfig) (start : ℕ) (device : Device) : Store :=
  { setup := (addSection entry config start device).1.2
    device := (addSection entry config start device).2 }

/-- The page size `initSetup` works with. -/
def sectionPageSize (config : StorageConfig) (device : Device) : ℕ :=
  if config.isFlashDevice then device.pageSize else eepromBlockSize

/-- The erase value `initSetup` works with. -/
def sectionEraseValue (config : StorageConfig) (device : Device) : UInt8 :=
  if config.isFlashDevice then device.eraseValue else 0xff

/-- An initialised section with its write position. -/
def sectionAt (config : StorageConfig) (start : ℕ) (device : Device) (offset : ℕ) : StorageSetup :=
  { setupOf config .initialized start (sectionPageSize config device) (sectionEraseValue config device)
    with currentOffset := offset }

variable {setup : StorageSetup} {slots : ℕ} {device : Device} {config : StorageConfig} {start : ℕ}

private theorem initSetup_healthy (healthy : device.faults = []) (entry : StorageSetup) :
    initSetup entry config start device =
      initOffset (setupOf config entry.initState start (sectionPageSize config device)
        (sectionEraseValue config device)) device := by
  simp only [initSetup, sectionPageSize, sectionEraseValue]
  cases kind : config.isFlashDevice with
  | true =>
    simp only [run_bind, getPageInfoByOffs_flash_healthy healthy, ↓reduceIte]
    rfl
  | false => rfl

/-- The layout does not depend on the write position or the state of the entry. -/
theorem Layout.plain {offset : ℕ} (layout : Layout (sectionAt config start device offset) slots)
    (initState : StorageInitState) : Layout (setupOf config initState start (sectionPageSize config device)
      (sectionEraseValue config device)) slots :=
  ⟨layout.itemSize_eq, layout.divides, layout.header_length, layout.header_fits, layout.endOffset_eq⟩

/-- A section that stores a log is found again as it was, whatever the entry held before. -/
theorem addSection_found (healthy : device.faults = []) (entry : StorageSetup) {offset cursor : ℕ}
    (layout : Layout (sectionAt config start device offset) slots)
    (intact : HeaderIntact (sectionAt config start device offset) device.memory) (bound : cursor < slots)
    (isFree : slotsOf (sectionAt config start device offset) device.memory cursor = none)
    (used : ∀ earlier < cursor,
      slotsOf (sectionAt config start device offset) device.memory earlier ≠ none) :
    addSection entry config start device =
      ((0, sectionAt config start device
        (slotAddress (sectionAt config start device offset) cursor)), device) := by
  have found := initOffset_found (layout.plain entry.initState) healthy intact bound isFree used
  simp only [addSection, run_bind, initSetup_healthy healthy, found]
  rfl

/-- Re-initialising a section that stores a log finds it again and changes nothing. -/
theorem Stored.addSection_eq {cursor kept : ℕ} {log : List (List UInt8)} (layout : Layout setup slots)
    (healthy : device.faults = []) (stored : Stored setup slots device.memory cursor log kept)
    (isSection : setup = sectionAt config start device setup.currentOffset) (entry : StorageSetup) :
    addSection entry config start device = ((0, setup), device) := by
  have offset := stored.offset
  rw [isSection] at stored layout
  rw [addSection_found healthy entry layout stored.header stored.ring.cursor_lt
    stored.ring.cursor_free (fun earlier bound => stored.ring.used_before stored.found bound),
    ← isSection, ← offset, ← isSection]

/-- The block loop succeeds; on an overwriting device it erases exactly its range. -/
theorem eepromEraseBlocks_healthy (fuel : ℕ) : ∀ (device : Device) (address count : ℕ),
    device.faults = [] → count ≤ fuel →
    ∃ effects, eepromEraseBlocks fuel address count device = (0, device.after effects) ∧
      ((∀ old new, device.merge old new = new) → ∀ query, replay device.merge device.memory effects query =
        if address ≤ query ∧ query < address + count then 0xff else device.memory query) := by
  induction fuel with
  | zero =>
    intro device address count healthy enough
    refine ⟨[], by rw [Device.after_nil]; rfl, ?_⟩
    intro _ query
    rw [if_neg (by omega), replay_nil]
  | succ fuel ih =>
    intro device address count healthy enough
    by_cases positive : 0 < count
    · have blockBytes : 0 < min count eepromBlockSize := by
        simp only [eepromBlockSize]
        omega
      set block := min count eepromBlockSize with blockEq
      have short : block ≤ count := Nat.min_le_left _ _
      obtain ⟨effects, ran, content⟩ := ih (device.after [.program address (List.replicate block 0xff)])
        (address + block) (count - block) healthy (by omega)
      refine ⟨.program address (List.replicate block 0xff) :: effects, ?_, ?_⟩
      · simp only [eepromEraseBlocks, if_pos positive, run_bind, ← blockEq,
          writeMemory_healthy healthy, ↓reduceIte, ran, Device.after_after, List.singleton_append]
      · intro overwrites query
        have rest := content overwrites query
        rw [Device.after_memory, replay_cons, replay_nil] at rest
        rw [replay_cons]
        refine rest.trans ?_
        by_cases later : address + block ≤ query ∧ query < address + block + (count - block)
        · rw [if_pos later, if_pos (by omega)]
        · rw [if_neg later]
          by_cases here : address ≤ query ∧ query < address + block
          · rw [Effect.apply_program_over overwrites here.1 (by simpa using here.2), if_pos (by omega)]
            exact (List.getD_eq_getElem _ _ (by simp; omega)).trans (List.getElem_replicate _)
          · rw [Effect.apply_of_not_touches (by simpa [Effect.Touches] using here), if_neg (by omega)]
    · refine ⟨[], ?_, ?_⟩
      · rw [Device.after_nil, eepromEraseBlocks, if_neg positive]
        rfl
      · intro _ query
        rw [if_neg (by omega), replay_nil]

/-- A device whose bytes can be written as the code expects: an EEPROM overwrites, a flash programs
erased bytes. -/
structure Writable (config : StorageConfig) (device : Device) : Prop where
  healthy : device.faults = []
  programs : ∀ new, device.merge (sectionEraseValue config device) new = new
  overwrites : config.isFlashDevice = false → ∀ old new, device.merge old new = new

private theorem eraseMemory_healthy (writable : Writable config device) (address count : ℕ) :
    ∃ effects, eraseMemory config.isFlashDevice address count device = (0, device.after effects) ∧
      ∀ query, replay device.merge device.memory effects query =
        if address ≤ query ∧ query < address + count then sectionEraseValue config device
        else device.memory query := by
  simp only [eraseMemory, sectionEraseValue]
  cases kind : config.isFlashDevice with
  | true =>
    refine ⟨_, flashEraseMemory_healthy writable.healthy address count, ?_⟩
    intro query
    rfl
  | false =>
    obtain ⟨effects, ran, content⟩ :=
      eepromEraseBlocks_healthy count device address count writable.healthy (Nat.le_refl count)
    exact ⟨effects, ran, content (writable.overwrites kind)⟩

/-- Formatting erases the section, puts the header in place and starts at the first slot. -/
private theorem format_healthy (writable : Writable setup.config device)
    (erase : setup.eraseValue = sectionEraseValue setup.config device)
    (lengthEq : setup.header.length = headerSize)
    (fits : setup.headersOffset + headerSize ≤ setup.startOffset)
    (ordered : setup.startOffset ≤ setup.endOffset) :
    ∃ effects, format setup device =
        ((0, { setup with currentOffset := setup.startOffset }), device.after effects) ∧
      HeaderIntact setup (replay device.merge device.memory effects) ∧
      ∀ query, setup.startOffset ≤ query → query < setup.endOffset →
        replay device.merge device.memory effects query = setup.eraseValue := by
  obtain ⟨effects, ran, content⟩ := eraseMemory_healthy writable setup.headersOffset
    (setup.endOffset - setup.headersOffset)
  have erased : ∀ query, setup.headersOffset ≤ query → query < setup.endOffset →
      replay device.merge device.memory effects query = setup.eraseValue := by
    intro query lower upper
    rw [content query, if_pos (by omega), erase]
  refine ⟨effects ++ [.program setup.headersOffset setup.header], ?_, ?_, ?_⟩
  · simp only [format, run_bind, ran, Int.reduceLT, ↓reduceIte,
      initHeaders_healthy (show (device.after effects).faults = [] from writable.healthy),
      Device.after_after]
    rfl
  · have old : Uniform (replay device.merge device.memory effects) setup.headersOffset
        setup.header.length setup.eraseValue := by
      intro offset inside
      exact erased _ (by omega) (by omega)
    intro index bound
    rw [replay_append, replay_cons, replay_nil, Effect.apply_program_erased
      (by rw [erase]; exact writable.programs) old (by omega) (by omega), Nat.add_sub_cancel_left]
  · intro query lower upper
    rw [replay_append, replay_cons, replay_nil, Effect.apply_of_not_touches]
    · exact erased query (by omega) upper
    · rintro ⟨_, inHeader⟩
      omega

/-- An initialisation that formats erases every slot and starts at the first one. -/
theorem addSection_of_format (writable : Writable config device) (entry : StorageSetup) {offset : ℕ}
    (layout : Layout (sectionAt config start device offset) slots)
    (formats : ∀ initState, initOffset (setupOf config initState start (sectionPageSize config device)
        (sectionEraseValue config device)) device =
      format (setupOf config initState start (sectionPageSize config device)
        (sectionEraseValue config device)) device) :
    ∃ effects, addSection entry config start device =
        ((0, sectionAt config start device (sectionAt config start device offset).startOffset),
          device.after effects) ∧
      HeaderIntact (sectionAt config start device offset) (replay device.merge device.memory effects) ∧
      ∀ slot < slots, Uniform (replay device.merge device.memory effects)
        (slotAddress (sectionAt config start device offset) slot)
        (sectionAt config start device offset).itemSize (sectionEraseValue config device) := by
  have ordered : (sectionAt config start device offset).startOffset ≤
      (sectionAt config start device offset).endOffset := by
    rw [layout.endOffset_eq]
    omega
  set plain := setupOf config entry.initState start (sectionPageSize config device)
    (sectionEraseValue config device) with plainEq
  obtain ⟨effects, formatted, intact, erased⟩ : ∃ effects, format plain device = _ ∧ _ :=
    format_healthy writable rfl layout.header_length layout.header_fits ordered
  refine ⟨effects, ?_, intact, ?_⟩
  · have same : initOffset plain device = format plain device := formats entry.initState
    simp only [addSection, run_bind, initSetup_healthy writable.healthy, ← plainEq, same, formatted]
    rfl
  · intro slot bound index inside
    have inSection := layout.slot_inside bound
    exact erased _ (Nat.le_add_right_of_le (Nat.le_add_right _ _)) (Nat.lt_of_lt_of_le
      (Nat.add_lt_add_left inside _) inSection)

/-- The first initialisation of a section with a foreign header formats it. -/
theorem addSection_foreign (writable : Writable config device) (entry : StorageSetup) {offset : ℕ}
    (layout : Layout (sectionAt config start device offset) slots)
    (foreign : ¬ HeaderIntact (sectionAt config start device offset) device.memory) :
    ∃ effects, addSection entry config start device =
        ((0, sectionAt config start device (sectionAt config start device offset).startOffset),
          device.after effects) ∧
      HeaderIntact (sectionAt config start device offset) (replay device.merge device.memory effects) ∧
      ∀ slot < slots, Uniform (replay device.merge device.memory effects)
        (slotAddress (sectionAt config start device offset) slot)
        (sectionAt config start device offset).itemSize (sectionEraseValue config device) :=
  addSection_of_format writable entry layout fun _ => initOffset_foreign writable.healthy foreign

end CoapsClient.ApplStorage
