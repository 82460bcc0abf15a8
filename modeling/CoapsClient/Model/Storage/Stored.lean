import CoapsClient.Model.Storage.Layout

/-! # The stored log

`Stored` is the representation invariant that both kinds of device keep: the header is in place, the
ring view of the memory holds the newest entries of a log, and the write position is the first free
slot. Over it the operations are what their names say: initialisation finds the write position and
leaves the device alone, reading by index returns the kept entries newest first.
-/

namespace CoapsClient.ApplStorage

open Machine Math RingLog

/-- The section stores the newest `kept` entries of the log, and a scan finds the write position. -/
structure Stored (setup : StorageSetup) (slots : ℕ) (memory : Memory) (cursor : ℕ)
    (log : List (List UInt8)) (kept : ℕ) : Prop where
  offset : setup.currentOffset = slotAddress setup cursor
  header : HeaderIntact setup memory
  ring : Holds slots cursor (slotsOf setup memory) log kept
  found : Recoverable cursor kept
  entries : ∀ entry ∈ log, entry.getD 0 0 ≠ setup.eraseValue

/-- What an item with these bytes reads as. -/
def readEntry (setup : StorageSetup) (times : Bool) (value : Option ℕ) (entry : List UInt8) : ReadResult :=
  { rc := match value with
      | none => setup.config.valueSize
      | some size => (min size setup.config.valueSize : ℕ)
    time := if times then some (ofBigEndian (entry.take timeSize) * msecPerSec) else none
    value := match value with
      | none => []
      | some size => (entry.drop timeSize).take (min size setup.config.valueSize) }

variable {setup : StorageSetup} {slots : ℕ} {device : Device}

theorem Layout.valueSize_pos (layout : Layout setup slots) : 0 < setup.config.valueSize := by
  by_contra zero
  have six : setup.itemSize = 6 := by
    rw [layout.itemSize_eq]
    simp only [timeSize]
    omega
  have := layout.divides
  rw [six] at this
  revert this
  decide

theorem initOffset_found (layout : Layout setup slots) (healthy : device.faults = []) {cursor : ℕ}
    (intact : HeaderIntact setup device.memory) (bound : cursor < slots)
    (isFree : slotsOf setup device.memory cursor = none)
    (used : ∀ earlier < cursor, slotsOf setup device.memory earlier ≠ none) :
    initOffset setup device =
      ((0, { setup with currentOffset := slotAddress setup cursor }), device) := by
  have enough : cursor < setup.endOffset - setup.startOffset := by
    rw [layout.endOffset_eq, Nat.add_sub_cancel_left]
    exact Nat.lt_of_lt_of_le bound (Nat.le_mul_of_pos_right _ layout.itemSize_pos)
  have scan := scanChunks_found layout healthy bound isFree (setup.endOffset - setup.startOffset) 0
    (device.stack.load 0 headerSize fun offset => device.memory (setup.headersOffset + offset))
    (Nat.zero_le _) (by omega) (fun earlier _ upper => used earlier upper)
  rw [Layout.start_eq] at scan
  simp only [initOffset, run_bind, run_get,
    readMemory_healthy healthy, headerMatches_iff.mpr intact, ↓reduceIte, scan]

/-- A section without a free slot is formatted. -/
theorem initOffset_full (layout : Layout setup slots) (healthy : device.faults = [])
    (intact : HeaderIntact setup device.memory)
    (used : ∀ slot < slots, slotsOf setup device.memory slot ≠ none) :
    initOffset setup device = format setup device := by
  have scan := scanChunks_full layout healthy (setup.endOffset - setup.startOffset) 0
    (device.stack.load 0 headerSize fun offset => device.memory (setup.headersOffset + offset))
    (fun later _ bound => used later bound)
  rw [Layout.start_eq] at scan
  simp only [initOffset, run_bind, run_get,
    readMemory_healthy healthy, headerMatches_iff.mpr intact, ↓reduceIte, scan]

/-- A section with a foreign header is formatted. -/
theorem initOffset_foreign (healthy : device.faults = [])
    (foreign : ¬ HeaderIntact setup device.memory) : initOffset setup device = format setup device := by
  have differs : headerMatches setup (device.stack.load 0 headerSize fun offset =>
      device.memory (setup.headersOffset + offset)) = false := by
    rw [← Bool.not_eq_true, headerMatches_iff]
    exact foreign
  simp only [initOffset, run_bind, run_get,
    readMemory_healthy healthy, differs, ↓reduceIte, Bool.false_eq_true]

/-- A slot that a stored log has in use starts with a byte that is not the erase value. -/
theorem Stored.next_used_iff {memory : Memory} {cursor kept : ℕ} {log : List (List UInt8)}
    (layout : Layout setup slots) (stored : Stored setup slots memory cursor log kept)
    (two : 2 ≤ slots) :
    memory (slotAddress setup (advance slots cursor)) ≠ setup.eraseValue ↔ kept + 1 = slots := by
  have isFree := stored.ring.advance_free_iff two
  have few := stored.ring.kept_lt
  constructor
  · intro used
    by_contra notFull
    have erased := slotsOf_eq_none_iff.mp (isFree.mpr (by omega))
    exact used (by simpa using erased 0 (by decide))
  · intro full erased
    have position : advance slots cursor = back slots cursor (slots - 2) := by
      have := stored.ring.cursor_lt
      simp only [advance, back]
      split <;> split <;> omega
    have entry := stored.ring.entry (slots - 2) (by omega)
    rw [← position] at entry
    have inLog : slots - 2 < log.length := by have := stored.ring.kept_le; omega
    rw [List.getElem?_eq_getElem inLog] at entry
    apply stored.entries _ (List.getElem_mem inLog)
    have bytes : log[slots - 2] = (List.range setup.itemSize).map fun index =>
        memory (slotAddress setup (advance slots cursor) + index) := by
      simp only [slotsOf] at entry
      split at entry
      · contradiction
      · exact (Option.some.inj entry).symm
    obtain ⟨size, sizeEq⟩ := Nat.exists_eq_succ_of_ne_zero (Nat.ne_of_gt layout.itemSize_pos)
    rw [bytes, sizeEq, List.range_succ_eq_map]
    simpa using erased

private theorem previousOffset_slot (layout : Layout setup slots) {cursor : ℕ} (positive : 0 < slots) :
    previousOffset setup (slotAddress setup cursor) = slotAddress setup (retreat slots cursor) := by
  have step (slot : ℕ) : slotAddress setup (slot + 1) - setup.itemSize = slotAddress setup slot := by
    rw [slotAddress_succ, Nat.add_sub_cancel]
  simp only [previousOffset, retreat]
  by_cases zero : cursor = 0
  · subst zero
    rw [if_pos (Layout.start_eq setup), if_pos rfl, ← layout.slotAddress_slots,
      ← step (slots - 1), Nat.sub_add_cancel positive]
  · rw [if_neg (fun same => zero (layout.slotAddress_eq_start.mp same)), if_neg zero,
      ← step (cursor - 1), Nat.sub_add_cancel (by omega)]

/-- Where the item with an index is read. -/
def readAddress (setup : StorageSetup) : ℕ → ℕ → ℕ
  | 0, current => previousOffset setup current
  | index + 1, current => readAddress setup index (previousOffset setup current)

/-- The walk of `readIndex` goes back slot by slot. -/
theorem readAddress_slot (layout : Layout setup slots) (index : ℕ) {cursor : ℕ} (bound : cursor < slots)
    (inside : index < slots) :
    readAddress setup index (slotAddress setup cursor) = slotAddress setup (back slots cursor index) := by
  have positive : 0 < slots := Nat.zero_lt_of_lt bound
  induction index generalizing cursor with
  | zero => rw [readAddress, previousOffset_slot layout positive, retreat_cursor bound]
  | succ index ih =>
    have earlier : retreat slots cursor < slots := by
      simp only [retreat]
      split <;> omega
    have behind : back slots (retreat slots cursor) index = back slots cursor (index + 1) := by
      simp only [back, retreat]
      split <;> split <;> split <;> omega
    rw [readAddress, previousOffset_slot layout positive, ih earlier (by omega), behind]

/-- One step of the backward walk, over the ring view. -/
private theorem readItem_slot (layout : Layout setup slots) (healthy : device.faults = []) {cursor : ℕ}
    (positive : 0 < slots) (times : Bool) (value : Option ℕ) :
    readItem setup (slotAddress setup cursor) times value device =
      ((match slotsOf setup device.memory (retreat slots cursor) with
        | none => { rc := 0 }
        | some entry => readEntry setup times value entry,
        slotAddress setup (retreat slots cursor)), device) := by
  have large := layout.itemSize_ge
  have fits := layout.itemSize_eq
  set address := slotAddress setup (retreat slots cursor) with addressEq
  have loaded : ∀ index < setup.itemSize, device.stack.load 0 setup.itemSize
      (fun offset => device.memory (address + offset)) index = device.memory (address + index) := by
    intro index bound
    rw [Buffer.load_inside (Nat.zero_le _) (by omega), Nat.sub_zero]
  have erased : isErased (device.stack.load 0 setup.itemSize
      fun offset => device.memory (address + offset)) 0 timeSize setup.eraseValue = true ↔
        slotsOf setup device.memory (retreat slots cursor) = none := by
    rw [isErased_iff, slotsOf_eq_none_iff]
    simp only [Uniform]
    constructor
    · intro uniform offset bound
      rw [← loaded offset (by omega)]
      simpa using uniform offset bound
    · intro uniform offset bound
      rw [Nat.zero_add, loaded offset (by omega)]
      exact uniform offset bound
  simp only [readItem, previousOffset_slot layout positive, run_bind, run_get, pure, readMemory_healthy healthy, ↓reduceIte, ← addressEq]
  cases view : slotsOf setup device.memory (retreat slots cursor) with
  | none => rw [if_pos (erased.mpr view)]; rfl
  | some entry =>
    have notErased := fun isErased => Option.some_ne_none entry (view.symm.trans (erased.mp isErased))
    rw [if_neg notErased]
    have bytes : entry = (List.range setup.itemSize).map fun index => device.memory (address + index) := by
      simp only [slotsOf] at view
      split at view
      · contradiction
      · exact (Option.some.inj view).symm
    have time : (List.range timeSize).map (device.stack.load 0 setup.itemSize
        fun offset => device.memory (address + offset)) = entry.take timeSize := by
      rw [bytes, ← List.map_take, List.take_range, Nat.min_eq_left large]
      apply List.map_congr_left
      intro index member
      exact loaded index (by have := List.mem_range.mp member; omega)
    cases value with
    | none => simp only [readEntry, time]; rfl
    | some size =>
      have payload : ((List.range (min size setup.config.valueSize)).map fun index =>
          device.stack.load 0 setup.itemSize (fun offset => device.memory (address + offset))
            (timeSize + index)) = (entry.drop timeSize).take (min size setup.config.valueSize) := by
        apply List.ext_getElem
        · simp only [bytes, List.length_map, List.length_range, List.length_take, List.length_drop]
          omega
        · intro index leftBound rightBound
          simp only [List.length_map, List.length_range] at leftBound
          simp only [bytes, List.getElem_map, List.getElem_range, List.getElem_take, List.getElem_drop]
          exact loaded _ (by omega)
      simp only [readEntry, time, payload]
      rfl

private theorem readEntry_rc_pos (layout : Layout setup slots) (entry : List UInt8) :
    0 < (readEntry setup false none entry).rc := by
  have := layout.valueSize_pos
  simp only [readEntry]
  omega

/-- Reading by index is walking the ring backwards. -/
theorem readIndex_slot (layout : Layout setup slots) (healthy : device.faults = []) (positive : 0 < slots)
    (times : Bool) (value : Option ℕ) (index cursor : ℕ) :
    readIndex setup times value index (slotAddress setup cursor) device =
      (match readBack slots (slotsOf setup device.memory) cursor index with
        | none => { rc := 0 }
        | some entry => readEntry setup times value entry, device) := by
  induction index generalizing cursor with
  | zero =>
    simp only [readIndex, readBack, run_bind, run_pure,
      readItem_slot layout healthy positive]
  | succ index ih =>
    simp only [readIndex, readBack, run_bind, readItem_slot layout healthy positive]
    cases slotsOf setup device.memory (retreat slots cursor) with
    | none => rfl
    | some entry =>
      simp only [if_pos (readEntry_rc_pos layout entry)]
      exact ih _

/-- Reading a stored log by index: the kept entries newest first, nothing beyond. -/
theorem Stored.readIndex_eq {cursor kept : ℕ} {log : List (List UInt8)} (layout : Layout setup slots)
    (healthy : device.faults = []) (stored : Stored setup slots device.memory cursor log kept)
    (times : Bool) (value : Option ℕ) (index : ℕ) :
    readIndex setup times value index setup.currentOffset device =
      (match if index < kept then log[index]? else none with
        | none => { rc := 0 }
        | some entry => readEntry setup times value entry, device) := by
  rw [stored.offset, readIndex_slot layout healthy (by have := stored.ring.cursor_lt; omega),
    stored.ring.readBack_eq]

end CoapsClient.ApplStorage
