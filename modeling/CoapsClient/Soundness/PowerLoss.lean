import CoapsClient.Soundness.CrampedSection

/-! # Losing power inside a write

A write is up to three device operations, and after a power loss only the flash content is left. At
a page border inside the section the erased page lies behind the write position, and the section is
found again with everything outside the page. At the wrap the erased page is the one the scan starts
in: the header is gone and the section is formatted, or the scan stops at the first slot and the
walk back meets the empty slot that was going to be written. Either way nothing is readable. Without
room for two items every write erases the page of the only item there can be, so nothing outside it is
lost.
-/

namespace CoapsClient.ApplStorage

open Machine Math RingLog

/-- What reading by index delivers, with room for a whole value. -/
def readAt (setup : StorageSetup) (device : Device) (index : ℕ) : ReadResult :=
  (readIndex setup true (some setup.config.valueSize) index setup.currentOffset device).1

/-- What reading by index delivers after a re-initialisation of the section. -/
def readRestarted (entry : StorageSetup) (config : StorageConfig) (start : ℕ) (device : Device)
    (index : ℕ) : ReadResult :=
  let restarted := addSection entry config start device
  readAt restarted.1.2 restarted.2 index

/-- An item is readable by the index, and the slot it is read from does not lie in the page. -/
def ReadableOutside (store : Store) (page : Option ℕ) (index : ℕ) : Prop :=
  0 < (readAt store.setup store.device index).rc ∧
    ∃ item ∈ store.history, item.address = readAddress store.setup index store.setup.currentOffset ∧
      ∀ address, page = some address →
        ¬ (address ≤ item.address ∧ item.address < address + store.device.pageSize)

/-- Wherever power is lost within the effects, the items outside the erased page are readable again
after the re-initialisation, in their old order. -/
def SurvivesPowerLoss (config : StorageConfig) (start : ℕ) (store : Store) (effects : List Effect) : Prop :=
  ∀ count ≤ effects.length, ∀ entry, ∃ position : ℕ → ℕ,
    (∀ newer older, ReadableOutside store (erasedPage effects) newer →
      ReadableOutside store (erasedPage effects) older → newer < older → position newer < position older) ∧
    ∀ index, ReadableOutside store (erasedPage effects) index →
      readRestarted entry config start (store.device.after (effects.take count)) (position index) =
        readAt store.setup store.device index

/-- The write does not wrap onto a first slot that is in use, or nothing outside the first slot's page
is readable anyway. -/
def SafePoint (store : Store) : Prop :=
  store.setup.currentOffset + store.setup.itemSize = store.setup.endOffset →
  store.device.memory store.setup.startOffset ≠ store.setup.eraseValue →
  ∀ index, ¬ ReadableOutside store
    (some (store.setup.startOffset / store.setup.pageSize * store.setup.pageSize)) index

variable {config : StorageConfig} {start : ℕ} {store : Store} {cursor kept left : ℕ} {floor : Option ℕ}

/-- Reading a stored log by index, as a function. -/
theorem Stored.readAt_eq {setup : StorageSetup} {slots : ℕ} {device : Device} {log : List (List UInt8)}
    (layout : Layout setup slots) (healthy : device.faults = [])
    (stored : Stored setup slots device.memory cursor log kept) (index : ℕ) :
    readAt setup device index = match if index < kept then log[index]? else none with
      | none => { rc := 0 }
      | some entry => readEntry setup true (some setup.config.valueSize) entry :=
  congrArg Prod.fst (stored.readIndex_eq layout healthy true (some setup.config.valueSize) index)

/-- Nothing is readable through an empty slot behind the write position. -/
private theorem readAt_empty {setup : StorageSetup} {slots : ℕ} {device : Device} (layout : Layout setup slots)
    (healthy : device.faults = []) (positive : 0 < slots)
    (atCursor : setup.currentOffset = slotAddress setup cursor)
    (isFree : slotsOf setup device.memory (retreat slots cursor) = none) (index : ℕ) :
    readAt setup device index = { rc := 0 } := by
  have ended : readBack slots (slotsOf setup device.memory) cursor index = none := by
    cases index with
    | zero => exact isFree
    | succ index => simp only [readBack, isFree]
  rw [readAt, atCursor, readIndex_slot layout healthy positive, ended]

theorem FlashInvariant.readable_iff (invariant : FlashInvariant config start store cursor kept floor)
    (index : ℕ) : 0 < (readAt store.setup store.device index).rc ↔ index < kept := by
  have layout := invariant.paged.toLayout
  rw [invariant.state.stored.readAt_eq layout invariant.flash.healthy]
  by_cases inside : index < kept
  · have known : index < (logOf config store.history).length :=
      Nat.lt_of_lt_of_le inside invariant.state.stored.ring.kept_le
    rw [if_pos inside, List.getElem?_eq_getElem known]
    have := layout.valueSize_pos
    simp only [readEntry, Nat.min_self]
    omega
  · rw [if_neg inside]
    simpa using inside

/-- A readable index is that of an item that was written. -/
theorem FlashInvariant.item_read (invariant : FlashInvariant config start store cursor kept floor)
    {index : ℕ} (inside : index < kept) :
    readAddress store.setup index store.setup.currentOffset =
        slotAddress store.setup (back (slotCount config store.device) cursor index) ∧
      ∃ item ∈ store.history, item.address =
        slotAddress store.setup (back (slotCount config store.device) cursor index) := by
  have stored := invariant.state.stored
  have few := stored.ring.kept_lt
  have known : index < store.history.length := by
    have := stored.ring.kept_le
    rw [logOf, List.length_map] at this
    omega
  refine ⟨?_, store.history[index], List.getElem_mem known, ?_⟩
  · rw [stored.offset]
    exact readAddress_slot invariant.paged.toLayout index stored.ring.cursor_lt (by omega)
  · exact invariant.addresses index _ (List.getElem?_eq_getElem known) (by omega)

/-- Which indices are readable outside the page of a slot. -/
theorem FlashInvariant.readableOutside_iff (invariant : FlashInvariant config start store cursor kept floor)
    (slot index : ℕ) :
    ReadableOutside store (some (store.setup.headersOffset +
        blockFloor (itemsPerPage config store.device) (headerItems config + slot) * store.setup.itemSize))
        index ↔
      index < kept ∧ ¬ inPage (itemsPerPage config store.device) (headerItems config) slot
        (back (slotCount config store.device) cursor index) := by
  have paged := invariant.paged
  rw [ReadableOutside, invariant.readable_iff]
  apply and_congr_right
  intro inside
  obtain ⟨address, item, member, written⟩ := invariant.item_read inside
  have shared : _ ↔ inPage (itemsPerPage config store.device) (headerItems config) slot
      (back (slotCount config store.device) cursor index) := paged.byte_inPage 0 paged.itemSize_pos
  rw [Nat.add_zero, ← invariant.state.pageSize_eq] at shared
  rw [address, ← shared]
  constructor
  · rintro ⟨other, -, same, apart⟩
    exact same ▸ apart _ rfl
  · intro apart
    refine ⟨item, member, written, fun page same => ?_⟩
    rw [written, ← Option.some.inj same]
    exact apart

theorem FlashInvariant.readableOutside_none (invariant : FlashInvariant config start store cursor kept floor)
    (index : ℕ) : ReadableOutside store none index ↔ index < kept := by
  rw [ReadableOutside, invariant.readable_iff]
  refine and_iff_left_of_imp fun inside => ?_
  obtain ⟨address, item, member, written⟩ := invariant.item_read inside
  exact ⟨item, member, written.trans address.symm, fun page none => nomatch none⟩

/-- An item that is readable outside the page a write erases is not among those the write drops. -/
theorem FlashInvariant.survivor_lt (invariant : FlashInvariant config start store cursor kept floor)
    (drops : ∀ age < kept, left ≤ age → kept + 1 = slotCount config store.device ∧
      inPage (itemsPerPage config store.device) (headerItems config)
        (advance (slotCount config store.device) cursor) (back (slotCount config store.device) cursor age))
    (time : Int) (value : List UInt8) {index : ℕ}
    (outside : ReadableOutside store (erasedPage (writeEffects store.setup (slotCount config store.device)
      store.device cursor time value)) index) : index < left ∧ index < kept := by
  rw [invariant.state.erasedPage_eq invariant.paged] at outside
  by_cases full : kept + 1 = slotCount config store.device
  · rw [if_pos full, invariant.readableOutside_iff] at outside
    refine ⟨?_, outside.1⟩
    by_contra old
    exact outside.2 (drops index outside.1 (by omega)).2
  · rw [if_neg full, invariant.readableOutside_none] at outside
    refine ⟨?_, outside⟩
    by_contra old
    exact full (drops index outside (by omega)).1

/-- After a re-initialisation a stored log reads as an older one did, behind its newer entries. -/
theorem Stored.readRestarted_eq {setup other : StorageSetup} {slots position kept' : ℕ}
    {device later : Device} {log : List (List UInt8)} (newer : List (List UInt8))
    (layout : Layout setup slots) (healthy : device.faults = [])
    (stored : Stored setup slots device.memory cursor log kept)
    (layout' : Layout other slots) (healthy' : later.faults = [])
    (stored' : Stored other slots later.memory position (newer ++ log) kept')
    (isSection : other = sectionAt config start later other.currentOffset)
    (sameConfig : other.config = setup.config) (entry : StorageSetup) {index : ℕ}
    (inside : index < kept) (inside' : newer.length + index < kept') :
    readRestarted entry config start later (newer.length + index) = readAt setup device index := by
  rw [readRestarted, stored'.addSection_eq layout' healthy' isSection]
  rw [stored.readAt_eq layout healthy, stored'.readAt_eq layout' healthy', if_pos inside, if_pos inside',
    List.getElem?_append_right (Nat.le_add_right _ _), Nat.add_sub_cancel_left]
  simp only [readEntry, sameConfig]

/-- Power lost after the item was programmed. -/
theorem FlashInvariant.reads_written (invariant : FlashInvariant config start store cursor kept floor)
    (time : Int) (value : List UInt8) (entry : StorageSetup) {index : ℕ}
    (outside : ReadableOutside store (erasedPage (writeEffects store.setup (slotCount config store.device)
      store.device cursor time value)) index) :
    readRestarted entry config start (store.device.after (writeEffects store.setup
        (slotCount config store.device) store.device cursor time value)) (1 + index) =
      readAt store.setup store.device index := by
  have paged := invariant.paged
  obtain ⟨left, drops, _, _, after⟩ := invariant.state.write paged time value
  obtain ⟨recent, inside⟩ := invariant.survivor_lt drops time value outside
  have moved := paged.move (slotAddress store.setup (advance (slotCount config store.device) cursor))
  apply Stored.readRestarted_eq [logEntry store.setup.config time value] paged.toLayout
    invariant.flash.healthy invariant.state.stored moved.toLayout after.healthy after.stored ?_ rfl entry
    inside
  · rw [List.length_singleton]
    omega
  · rw [invariant.isSection]
    rfl

/-- Power lost after the page erase, at a border inside the section. -/
theorem FlashInvariant.reads_erased (invariant : FlashInvariant config start store cursor kept floor)
    (time : Int) (value : List UInt8) (full : kept + 1 = slotCount config store.device)
    (border : cursor + 1 < slotCount config store.device) (entry : StorageSetup) {index : ℕ}
    (outside : ReadableOutside store (erasedPage (writeEffects store.setup (slotCount config store.device)
      store.device cursor time value)) index) :
    readRestarted entry config start (store.device.after
        [erasePage store.setup (advance (slotCount config store.device) cursor)]) index =
      readAt store.setup store.device index := by
  have paged := invariant.paged
  have stored := invariant.state.stored
  obtain ⟨left, _, drops, ring, _, found⟩ := invariant.state.erase_ring paged full
  obtain ⟨recent, inside⟩ := invariant.survivor_lt (fun age upper lower =>
    ⟨full, drops age upper lower⟩) time value outside
  have after : Stored store.setup (slotCount config store.device) (store.device.after
      [erasePage store.setup (advance (slotCount config store.device) cursor)]).memory cursor
      (logOf config store.history) left := by
    refine ⟨stored.offset, ?_, ring, found.resolve_right (by omega), stored.entries⟩
    exact paged.header_erasePage store.device (invariant.state.reach.border paged full border)
      stored.header
  have reads := Stored.readRestarted_eq [] paged.toLayout invariant.flash.healthy stored paged.toLayout
    (show (store.device.after _).faults = [] from invariant.flash.healthy) after invariant.isSection rfl
    entry inside (by simpa using recent)
  rwa [List.length_nil, Nat.zero_add] at reads

/-- The value size in the header is small, so its first byte is never erased. -/
private theorem headerOf_eight (divides : config.valueSize + timeSize ∣ maxItemSize) :
    (headerOf config).getD 8 0 = 0 := by
  rcases itemSize_cases divides with size | size | size <;> simp [headerOf, bigEndian, size]

/-- The ring view does not depend on the write position. -/
private theorem slotsOf_section {setup : StorageSetup} {device : Device} {offset : ℕ}
    (same : setup = sectionAt config start device offset) (other : ℕ) (memory : Memory) :
    slotsOf (sectionAt config start device other) memory = slotsOf setup memory := by
  subst same
  rfl

/-- Power lost after the page erase at the wrap: nothing is readable any more. -/
theorem FlashInvariant.empty_erased (invariant : FlashInvariant config start store cursor kept floor)
    (full : kept + 1 = slotCount config store.device)
    (wraps : cursor + 1 = slotCount config store.device) (entry : StorageSetup) (index : ℕ) :
    readRestarted entry config start (store.device.after [erasePage store.setup 0]) index =
      { rc := 0 } := by
  have paged := invariant.paged
  have same := invariant.isSection
  have positive : 0 < slotCount config store.device := by omega
  have next : advance (slotCount config store.device) cursor = 0 := if_neg (by omega)
  have last : retreat (slotCount config store.device) 0 = cursor := by
    rw [retreat, if_pos rfl]
    omega
  set crashed := store.device.after [erasePage store.setup 0] with crashedEq
  have healthy : crashed.faults = [] := invariant.flash.healthy
  have layout : Layout (sectionAt config start crashed store.setup.currentOffset)
      (slotCount config store.device) := same ▸ paged.toLayout
  by_cases first : blockFloor (itemsPerPage config store.device) (headerItems config + 0) = 0
  · -- The header went with the page, so the section is formatted.
    have erased := paged.headers_erased store.device store.device.memory first
    have foreign : ¬ HeaderIntact (sectionAt config start crashed store.setup.currentOffset)
        crashed.memory := by
      intro intact
      have here := intact 8 (by decide)
      have there := erased 8 (by decide)
      have base : store.setup.headersOffset = start := by rw [same]; rfl
      rw [invariant.state.erasedOnes, base] at there
      exact absurd (there.symm.trans (here.trans (headerOf_eight invariant.flash.divides))) (by decide)
    obtain ⟨effects, formatted, _, cleared⟩ :=
      addSection_foreign (invariant.flash.after _).writable entry layout foreign
    rw [readRestarted, formatted]
    have moved : Layout (sectionAt config start crashed
        (sectionAt config start crashed store.setup.currentOffset).startOffset)
        (slotCount config store.device) := layout.move _
    refine readAt_empty moved (show (crashed.after effects).faults = [] from healthy) positive
      (Layout.start_eq _).symm ?_ index
    rw [last]
    exact slotsOf_of_blank layout.itemSize_ge (cleared cursor (by omega))
  · -- The first slot is free and is found first; the slot before it was never written.
    obtain ⟨left, _, _, ring, _, _⟩ := invariant.state.erase_ring paged full
    rw [next] at ring
    have intact := paged.header_erasePage store.device first invariant.state.stored.header
    have isFree : slotsOf store.setup crashed.memory 0 = none := by
      have shared : inPage (itemsPerPage config store.device) (headerItems config) 0 0 :=
        ⟨blockFloor_le _ _, lt_blockFloor_add _ paged.perPage_pos⟩
      rw [crashedEq, Device.after_memory, replay_cons, replay_nil, erasePage, paged.slotsOf_fill,
        if_pos shared]
    have found := addSection_found healthy entry layout (same ▸ intact) positive (same ▸ isFree) (by simp)
    rw [readRestarted, found]
    have moved : Layout (sectionAt config start crashed
        (slotAddress (sectionAt config start crashed store.setup.currentOffset) 0))
        (slotCount config store.device) := layout.move _
    refine readAt_empty moved healthy positive rfl ?_ index
    rw [last]
    exact (congrFun (slotsOf_section same _ _) _).trans ring.cursor_free

/-- The condition in terms of the ring: the write that wraps onto a used slot has nothing to lose. -/
theorem FlashInvariant.safePoint_iff (invariant : FlashInvariant config start store cursor kept floor)
    (time : Int) (value : List UInt8) :
    SafePoint store ↔ (kept + 1 = slotCount config store.device →
      cursor + 1 = slotCount config store.device → ∀ index, ¬ ReadableOutside store (erasedPage
        (writeEffects store.setup (slotCount config store.device) store.device cursor time value)) index) := by
  have paged := invariant.paged
  have stored := invariant.state.stored
  have used := stored.next_used_iff paged.toLayout paged.two
  have atEnd : store.setup.currentOffset + store.setup.itemSize = store.setup.endOffset ↔
      cursor + 1 = slotCount config store.device := by
    have bound := stored.ring.cursor_lt
    rw [stored.offset, ← slotAddress_succ]
    constructor
    · intro beyond
      by_contra inner
      have := paged.slotAddress_lt_iff.mpr (show cursor + 1 < slotCount config store.device by omega)
      omega
    · intro last
      rw [last, paged.slotAddress_slots]
  have page := paged.pageAddress 0
  rw [Layout.start_eq] at page
  rw [SafePoint, atEnd, page, invariant.state.erasedPage_eq paged]
  constructor
  · intro safe full wraps
    have next : advance (slotCount config store.device) cursor = 0 := if_neg (by omega)
    rw [next, Layout.start_eq] at used
    rw [if_pos full, next]
    exact safe wraps (used.mpr full)
  · intro safe wraps inUse
    have next : advance (slotCount config store.device) cursor = 0 := if_neg (by omega)
    rw [next, Layout.start_eq] at used
    have lost := safe (used.mp inUse) wraps
    rwa [if_pos (used.mp inUse), next] at lost

/-- Where power can be lost within a write that does not wrap onto a used slot. -/
theorem FlashInvariant.take_effects (invariant : FlashInvariant config start store cursor kept floor)
    (time : Int) (value : List UInt8) (inner : ¬ (kept + 1 = slotCount config store.device ∧
      cursor + 1 = slotCount config store.device)) (count : ℕ)
    (bound : count ≤ (writeEffects store.setup (slotCount config store.device) store.device cursor time
      value).length) :
    count = 0 ∨
      count = (writeEffects store.setup (slotCount config store.device) store.device cursor time
        value).length ∨
      kept + 1 = slotCount config store.device ∧
      (writeEffects store.setup (slotCount config store.device) store.device cursor time
        value).take count =
        [erasePage store.setup (advance (slotCount config store.device) cursor)] := by
  rw [writeEffects, invariant.state.room_eq invariant.paged] at bound ⊢
  by_cases full : kept + 1 = slotCount config store.device
  · have inside : cursor + 1 < slotCount config store.device := by
      have := invariant.state.stored.ring.cursor_lt
      omega
    rw [if_pos full, if_neg (invariant.state.reach.border invariant.paged full inside)] at bound ⊢
    simp only [List.cons_append, List.nil_append, List.length_cons, List.length_nil] at bound ⊢
    rcases (show count = 0 ∨ count = 2 ∨ count = 1 by omega) with rfl | rfl | rfl
    · exact Or.inl rfl
    · exact Or.inr (Or.inl rfl)
    · exact Or.inr (Or.inr ⟨full, rfl⟩)
  · rw [if_neg full] at bound ⊢
    simp only [List.nil_append, List.length_cons, List.length_nil] at bound ⊢
    omega

/-- A write survives power losses exactly at the safe points. -/
theorem FlashInvariant.survives_iff (invariant : FlashInvariant config start store cursor kept floor)
    (time : Int) (value : List UInt8) :
    SurvivesPowerLoss config start store
        (writeEffects store.setup (slotCount config store.device) store.device cursor time value) ↔
      SafePoint store := by
  have paged := invariant.paged
  have stored := invariant.state.stored
  rw [invariant.safePoint_iff time value]
  constructor
  · intro survives full wraps index outside
    have next : advance (slotCount config store.device) cursor = 0 := if_neg (by omega)
    have first : (writeEffects store.setup (slotCount config store.device) store.device cursor time
        value).take 1 = [erasePage store.setup 0] := by
      rw [writeEffects, invariant.state.room_eq paged, if_pos full, next]
      rfl
    obtain ⟨position, _, reads⟩ := survives 1 (by simp [writeEffects]) store.setup
    have lost := invariant.empty_erased full wraps store.setup (position index)
    have kept := reads index outside
    rw [first, lost] at kept
    have readable := outside.1
    rw [← kept] at readable
    exact absurd readable (by decide)
  · intro safe count bound entry
    by_cases wrap : kept + 1 = slotCount config store.device ∧ cursor + 1 = slotCount config store.device
    · have none := safe wrap.1 wrap.2
      exact ⟨id, fun newer _ outside => absurd outside (none newer), fun index outside =>
        absurd outside (none index)⟩
    rcases invariant.take_effects time value wrap count bound with rfl | rfl | ⟨full, taken⟩
    · refine ⟨id, fun _ _ _ _ order => order, ?_⟩
      intro index _
      rw [List.take_zero, Device.after_nil, readRestarted, invariant.restart]
      rfl
    · refine ⟨(1 + ·), fun _ _ _ _ order => Nat.add_lt_add_left order 1, ?_⟩
      intro index outside
      rw [List.take_length]
      exact invariant.reads_written time value entry outside
    · refine ⟨id, fun _ _ _ _ order => order, ?_⟩
      intro index outside
      rw [taken]
      have bound := stored.ring.cursor_lt
      exact invariant.reads_erased time value full (by omega) entry outside

theorem CrampedInvariant.pageSize_eq (invariant : CrampedInvariant config start store) :
    store.setup.pageSize = store.device.pageSize := by
  obtain ⟨offset, same⟩ := invariant.isSection
  rw [same]
  exact invariant.flash.pageSize_eq

theorem CrampedInvariant.itemSize_le (invariant : CrampedInvariant config start store) :
    store.setup.itemSize ≤ store.setup.startOffset := by
  obtain ⟨offset, same⟩ := invariant.isSection
  rw [same]
  exact invariant.flash.itemSize_le offset

/-- In a section without room for two items only the page that the next write erases has an item. -/
theorem CrampedInvariant.used_of_readable (invariant : CrampedInvariant config start store)
    {page : Option ℕ} {index : ℕ} (outside : ReadableOutside store page index) :
    store.device.memory store.setup.startOffset ≠ store.setup.eraseValue ∧
      page ≠ some (store.setup.startOffset / store.device.pageSize * store.device.pageSize) := by
  obtain ⟨readable, item, member, address, apart⟩ := outside
  have layout := invariant.layout
  have here := invariant.addresses item member
  rw [here] at address apart
  have one : slotCount config store.device = 1 := by
    have few := layout.slots_le_one invariant.cramped
    by_contra other
    have none : slotCount config store.device = 0 := by omega
    rw [none] at layout
    have below := readAddress_lt layout invariant.itemSize_le index (Nat.le_of_eq invariant.current)
    omega
  rw [one] at layout
  constructor
  · rcases invariant.slot (by omega) with erased | used
    · have isFree : slotsOf store.setup store.device.memory 0 = none := by
        rw [slotsOf_eq_none_iff, Layout.start_eq]
        exact erased
      have atStart : store.setup.currentOffset = slotAddress store.setup 0 :=
        invariant.current.trans (Layout.start_eq _).symm
      have nothing := readAt_empty layout invariant.flash.healthy Nat.zero_lt_one atStart isFree index
      rw [nothing] at readable
      exact absurd readable (by decide)
    · exact used
  · intro same
    refine apart _ same ⟨Nat.div_mul_le_self _ _, ?_⟩
    exact Nat.lt_div_mul_add invariant.flash.pageSize_pos

theorem CrampedInvariant.safePoint (invariant : CrampedInvariant config start store) : SafePoint store := by
  intro _ _ index outside
  rw [invariant.pageSize_eq] at outside
  exact (invariant.used_of_readable outside).2 rfl

theorem CrampedInvariant.survives (invariant : CrampedInvariant config start store) (data : Buffer)
    (time : Int) (value : List UInt8) : SurvivesPowerLoss config start store
      (flashRoom store.setup store.device store.setup.startOffset ++
        [.program store.setup.startOffset (itemBytes store.setup data time value)]) := by
  have nothing : ∀ index, ¬ ReadableOutside store (erasedPage
      (flashRoom store.setup store.device store.setup.startOffset ++
        [.program store.setup.startOffset (itemBytes store.setup data time value)])) index := by
    intro index outside
    obtain ⟨used, apart⟩ := invariant.used_of_readable outside
    refine apart ?_
    rw [flashRoom, if_pos used]
    rfl
  intro count _ entry
  exact ⟨id, fun newer _ outside => absurd outside (nothing newer), fun index outside =>
    absurd outside (nothing index)⟩

/-- For every reachable store and every write: wherever power is lost within the write, the items
outside the erased page survive, exactly when the store is at a safe point. -/
theorem power_loss {device : Device} (flash : FlashSection config start device) (entry : StorageSetup)
    (foreign : ¬ HeaderIntact (sectionAt config start device 0) device.memory)
    {actions : List Action}
    (run : Path (Store.Step config start) (Store.opened entry config start device) actions store)
    {time : ℕ} {value : List UInt8} {rc : Int} {setup : StorageSetup} {after : Device}
    (written : writeItem store.setup time value store.device = ((rc, setup), after)) :
    SurvivesPowerLoss config start store (newEffects store.device after) ↔ SafePoint store := by
  by_cases two : TwoSlots (sectionAt config start device 0)
  · obtain ⟨cursor, kept, floor, invariant⟩ := flashInvariant_of_run flash entry two foreign run
    obtain ⟨_, _, wrote, _, _⟩ := invariant.state.write invariant.paged time value
    rw [wrote] at written
    obtain ⟨⟨_, _⟩, rfl⟩ := written
    rw [newEffects_after]
    exact invariant.survives_iff time value
  · have invariant := crampedInvariant_of_run flash entry two run
    obtain ⟨data, wrote⟩ := invariant.write time value
    rw [wrote] at written
    obtain ⟨⟨_, _⟩, rfl⟩ := written
    rw [newEffects_after]
    exact iff_of_true (invariant.survives data time value) invariant.safePoint

/-- The small section with five items: every slot but the last is in use. -/
def filledStore : Store := smallStore.writeAll (sevenItems.take 5)

/-- Two writes later both pages have been crossed, and the next write erases the second one. -/
def crossedStore : Store := smallStore.writeAll sevenItems

/-- The runs to these stores exist. -/
private theorem path_writeAll_small (items : List (ℕ × List UInt8)) :
    ∃ actions, Path (Store.Step smallSection 0) smallStore actions (smallStore.writeAll items) :=
  ⟨_, (FlashInvariant.opened (zeroedFlash_section 2 (by decide)) _ (by decide) zeroedFlash_foreign).path_writeAll
    items⟩

/-- The eighth write erases the page behind the one it writes to, and the seventh item survives. -/
theorem power_loss_border :
    ∃ actions setup after, Path (Store.Step smallSection 0) smallStore actions crossedStore ∧
      writeItem crossedStore.setup (8000 : ℕ) [8] crossedStore.device = ((0, setup), after) ∧
      ReadableOutside crossedStore (erasedPage (newEffects crossedStore.device after)) 0 ∧
      SurvivesPowerLoss smallSection 0 crossedStore (newEffects crossedStore.device after) := by
  obtain ⟨actions, run⟩ : ∃ actions, Path (Store.Step smallSection 0) smallStore actions crossedStore :=
    path_writeAll_small sevenItems
  have written : writeItem crossedStore.setup (8000 : ℕ) [8] crossedStore.device = ((0, _), _) := rfl
  refine ⟨actions, _, _, run, written, ?_, ?_⟩
  · refine ⟨by decide +kernel, ⟨7000, [7], 16⟩, by decide +kernel, by decide +kernel, ?_⟩
    intro address page
    have erased : erasedPage (newEffects crossedStore.device
        (writeItem crossedStore.setup (8000 : ℕ) [8] crossedStore.device).2) = some 32 := by decide +kernel
    obtain rfl := Option.some.inj (erased.symm.trans page)
    decide
  · refine (power_loss (zeroedFlash_section 2 (by decide)) _ zeroedFlash_foreign run written).mpr fun atEnd => ?_
    exact absurd atEnd (by decide +kernel)

/-- The sixth write wraps, and losing power after its page erase loses the three items outside the
erased page. -/
theorem power_loss_wrap :
    ∃ actions setup after, Path (Store.Step smallSection 0) smallStore actions filledStore ∧
      writeItem filledStore.setup (6000 : ℕ) [6] filledStore.device = ((0, setup), after) ∧
      ¬ SurvivesPowerLoss smallSection 0 filledStore (newEffects filledStore.device after) := by
  have flash : FlashSection smallSection 0 zeroedFlash := zeroedFlash_section 2 (by decide)
  obtain ⟨actions, run⟩ : ∃ actions, Path (Store.Step smallSection 0) smallStore actions filledStore :=
    path_writeAll_small _
  obtain ⟨cursor, kept, floor, invariant⟩ := flashInvariant_of_run flash _ (by decide)
    zeroedFlash_foreign run
  obtain ⟨_, _, written, _, _⟩ := invariant.state.write invariant.paged (6000 : ℕ) [6]
  refine ⟨actions, _, _, run, written, ?_⟩
  rw [newEffects_after, invariant.survives_iff]
  intro safe
  refine safe (by decide +kernel) (by decide +kernel) 0 ⟨by decide +kernel, ⟨5000, [5], 48⟩, ?_⟩
  refine ⟨by decide +kernel, by decide +kernel, fun address page => ?_⟩
  obtain rfl := Option.some.inj page
  decide +kernel

end CoapsClient.ApplStorage
