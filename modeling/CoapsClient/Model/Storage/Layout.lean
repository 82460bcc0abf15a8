import CoapsClient.Model.Storage.ApplStorage
import CoapsClient.Machine.RingLog
import Mathlib.Tactic.Ring
import Mathlib.Tactic.Linarith

/-! # A section as a ring of slots

When the item size divides the scan buffer, the slots of a section tile every chunk that
`initOffset` reads. `slotsOf` views the memory as a ring of slots, a slot being free when its time
field is erased. Over that view the scan of `initOffset` finds the first free slot.
-/

namespace CoapsClient.ApplStorage

open Machine Math RingLog

/-- A section whose slots tile the scan buffer. -/
structure Layout (setup : StorageSetup) (slots : ℕ) : Prop where
  itemSize_eq : setup.itemSize = setup.config.valueSize + timeSize
  divides : setup.itemSize ∣ maxItemSize
  header_length : setup.header.length = headerSize
  header_fits : setup.headersOffset + headerSize ≤ setup.startOffset
  endOffset_eq : setup.endOffset = setup.startOffset + slots * setup.itemSize

/-- The address of a slot. -/
def slotAddress (setup : StorageSetup) (slot : ℕ) : ℕ := setup.startOffset + slot * setup.itemSize

/-- The ring view: a slot with an erased time field is free, any other holds its bytes. -/
def slotsOf (setup : StorageSetup) (memory : Memory) (slot : ℕ) : Option (List UInt8) :=
  if Uniform memory (slotAddress setup slot) timeSize setup.eraseValue then none
  else some ((List.range setup.itemSize).map fun index => memory (slotAddress setup slot + index))

/-- The header bytes `initOffset` compares are in place. -/
def HeaderIntact (setup : StorageSetup) (memory : Memory) : Prop :=
  ∀ index < headerSize, memory (setup.headersOffset + index) = setup.header.getD index 0

section Geometry

variable {setup : StorageSetup} {slots : ℕ}

theorem Layout.itemSize_ge (layout : Layout setup slots) : timeSize ≤ setup.itemSize := by
  rw [layout.itemSize_eq]
  omega

theorem Layout.itemSize_pos (layout : Layout setup slots) : 0 < setup.itemSize := by
  have := layout.itemSize_ge
  simp only [timeSize] at this
  omega

theorem Layout.move (layout : Layout setup slots) (offset : ℕ) :
    Layout { setup with currentOffset := offset } slots :=
  ⟨layout.itemSize_eq, layout.divides, layout.header_length, layout.header_fits, layout.endOffset_eq⟩

theorem slotAddress_succ (setup : StorageSetup) (slot : ℕ) :
    slotAddress setup (slot + 1) = slotAddress setup slot + setup.itemSize := by
  simp only [slotAddress]
  ring

theorem slotAddress_add (setup : StorageSetup) (slot count : ℕ) :
    slotAddress setup (slot + count) = slotAddress setup slot + count * setup.itemSize := by
  simp only [slotAddress]
  ring

private theorem slotAddress_le (setup : StorageSetup) {first second : ℕ} (order : first ≤ second) :
    slotAddress setup first ≤ slotAddress setup second :=
  Nat.add_le_add_left (Nat.mul_le_mul_right _ order) _

theorem slotAddress_before (setup : StorageSetup) {first second : ℕ} (order : first < second) :
    slotAddress setup first + setup.itemSize ≤ slotAddress setup second := by
  rw [← slotAddress_succ]
  exact slotAddress_le setup order

theorem Layout.slotAddress_slots (layout : Layout setup slots) :
    slotAddress setup slots = setup.endOffset :=
  layout.endOffset_eq.symm

theorem Layout.slot_inside (layout : Layout setup slots) {slot : ℕ} (bound : slot < slots) :
    slotAddress setup slot + setup.itemSize ≤ setup.endOffset := by
  rw [← layout.slotAddress_slots]
  exact slotAddress_before setup bound

theorem Layout.slotAddress_lt_iff (layout : Layout setup slots) {slot : ℕ} :
    slotAddress setup slot < setup.endOffset ↔ slot < slots := by
  rw [← layout.slotAddress_slots]
  constructor
  · intro below
    by_contra beyond
    have := slotAddress_le setup (Nat.le_of_not_lt beyond)
    omega
  · intro bound
    have := slotAddress_before setup bound
    have := layout.itemSize_pos
    omega

theorem Layout.start_eq (setup : StorageSetup) : slotAddress setup 0 = setup.startOffset := by
  simp [slotAddress]

theorem Layout.slotAddress_eq_start (layout : Layout setup slots) {slot : ℕ} :
    slotAddress setup slot = setup.startOffset ↔ slot = 0 := by
  have := layout.itemSize_pos
  constructor
  · intro same
    simp only [slotAddress] at same
    have : slot * setup.itemSize = 0 := by omega
    rcases Nat.mul_eq_zero.mp this with zero | zero <;> omega
  · rintro rfl
    exact Layout.start_eq setup

end Geometry

section View

variable {setup : StorageSetup} {memory other : Memory}

theorem slotsOf_eq_none_iff {slot : ℕ} :
    slotsOf setup memory slot = none ↔
      Uniform memory (slotAddress setup slot) timeSize setup.eraseValue := by
  simp only [slotsOf]
  split <;> simp_all

/-- A slot that is erased as a whole is free. -/
theorem slotsOf_of_blank {slot : ℕ} (large : timeSize ≤ setup.itemSize)
    (blank : Uniform memory (slotAddress setup slot) setup.itemSize setup.eraseValue) :
    slotsOf setup memory slot = none :=
  slotsOf_eq_none_iff.mpr fun offset bound => blank offset (Nat.lt_of_lt_of_le bound large)

/-- The view of a slot depends on the bytes of that slot alone. -/
theorem slotsOf_congr {slot : ℕ} (large : timeSize ≤ setup.itemSize)
    (same : ∀ index < setup.itemSize,
      memory (slotAddress setup slot + index) = other (slotAddress setup slot + index)) :
    slotsOf setup memory slot = slotsOf setup other slot := by
  have erased : Uniform memory (slotAddress setup slot) timeSize setup.eraseValue ↔
      Uniform other (slotAddress setup slot) timeSize setup.eraseValue := by
    constructor
    · intro uniform index bound
      rw [← same index (by omega)]
      exact uniform index bound
    · intro uniform index bound
      rw [same index (by omega)]
      exact uniform index bound
  have bytes : ((List.range setup.itemSize).map fun index => memory (slotAddress setup slot + index)) =
      (List.range setup.itemSize).map fun index => other (slotAddress setup slot + index) := by
    apply List.map_congr_left
    intro index member
    exact same index (List.mem_range.mp member)
  simp only [slotsOf, erased, bytes]

/-- A slot whose first byte is not the erase value is used. -/
theorem slotsOf_of_first {slot : ℕ} (first : memory (slotAddress setup slot) ≠ setup.eraseValue) :
    slotsOf setup memory slot =
      some ((List.range setup.itemSize).map fun index => memory (slotAddress setup slot + index)) := by
  refine if_neg fun uniform => first ?_
  simpa using uniform 0 (by decide)

end View

section Scan

variable {setup : StorageSetup} {slots : ℕ} {memory : Memory} {data : Buffer}

/-- In a chunk that starts at a slot, slot `count` further on begins at `count` item sizes. -/
private theorem isErased_chunk {slot count : ℕ}
    (loaded : ∀ index < maxItemSize, data index = memory (slotAddress setup slot + index))
    (inside : count * setup.itemSize + timeSize ≤ maxItemSize) :
    isErased data (count * setup.itemSize) timeSize setup.eraseValue = true ↔
      slotsOf setup memory (slot + count) = none := by
  rw [isErased_iff, slotsOf_eq_none_iff]
  simp only [Uniform]
  have shift : ∀ offset < timeSize, data (count * setup.itemSize + offset) =
      memory (slotAddress setup (slot + count) + offset) := by
    intro offset bound
    rw [loaded _ (by omega), slotAddress_add, Nat.add_assoc]
  constructor
  · intro uniform offset bound
    rw [← shift offset bound]
    exact uniform offset bound
  · intro uniform offset bound
    rw [shift offset bound]
    exact uniform offset bound

private theorem chunk_index (layout : Layout setup slots) (count : ℕ)
    (below : count < maxItemSize / setup.itemSize) :
    count * setup.itemSize + timeSize ≤ maxItemSize ∧ count * setup.itemSize < maxItemSize := by
  have whole := Nat.div_mul_cancel layout.divides
  have step : (count + 1) * setup.itemSize ≤ maxItemSize := by
    rw [← whole]
    exact Nat.mul_le_mul_right _ below
  have := layout.itemSize_ge
  have := layout.itemSize_pos
  rw [Nat.succ_mul] at step
  omega

/-- The inner loop stops at the first free slot of the chunk. -/
private theorem findErased_found (layout : Layout setup slots) {slot cursor : ℕ}
    (loaded : ∀ index < maxItemSize, data index = memory (slotAddress setup slot + index))
    (bound : cursor < slots) (isFree : slotsOf setup memory cursor = none) :
    ∀ fuel count, slot + count ≤ cursor → cursor < slot + maxItemSize / setup.itemSize →
      cursor < slot + count + fuel →
      (∀ earlier, slot + count ≤ earlier → earlier < cursor → slotsOf setup memory earlier ≠ none) →
      findErased setup data (slotAddress setup slot) fuel (count * setup.itemSize) =
        some (slotAddress setup cursor) := by
  intro fuel
  induction fuel with
  | zero => intro count reached _ enough _; omega
  | succ fuel ih =>
    intro count reached inChunk enough used
    obtain ⟨inside, below⟩ := chunk_index layout count (by omega)
    have address : slotAddress setup slot + count * setup.itemSize = slotAddress setup (slot + count) :=
      (slotAddress_add setup slot count).symm
    have inSection : slotAddress setup (slot + count) < setup.endOffset :=
      layout.slotAddress_lt_iff.mpr (by omega)
    rw [findErased, if_pos ⟨below, by rw [address]; exact inSection⟩, address]
    by_cases here : slot + count = cursor
    · rw [if_pos ((isErased_chunk loaded inside).mpr (here ▸ isFree)), here]
    · have notFree := used (slot + count) (Nat.le_refl _) (by omega)
      rw [if_neg (fun erased => notFree ((isErased_chunk loaded inside).mp erased)),
        ← Nat.succ_mul]
      exact ih (count + 1) (by omega) inChunk (by omega) (fun earlier lower upper =>
        used earlier (by omega) upper)

/-- The inner loop finds nothing in a chunk whose slots are all used. -/
private theorem findErased_none (layout : Layout setup slots) {slot : ℕ}
    (loaded : ∀ index < maxItemSize, data index = memory (slotAddress setup slot + index)) :
    ∀ fuel count, (∀ earlier, slot + count ≤ earlier → earlier < slots →
        earlier < slot + maxItemSize / setup.itemSize → slotsOf setup memory earlier ≠ none) →
      findErased setup data (slotAddress setup slot) fuel (count * setup.itemSize) = none := by
  intro fuel
  induction fuel with
  | zero => intro _ _; rfl
  | succ fuel ih =>
    intro count used
    have address : slotAddress setup slot + count * setup.itemSize = slotAddress setup (slot + count) :=
      (slotAddress_add setup slot count).symm
    rw [findErased]
    split
    · next here =>
      obtain ⟨below, inSection⟩ := here
      rw [address] at inSection
      have bound := layout.slotAddress_lt_iff.mp inSection
      have inChunk : count < maxItemSize / setup.itemSize :=
        (Nat.lt_div_iff_mul_lt' layout.divides count).mpr (by rwa [Nat.mul_comm])
      obtain ⟨inside, _⟩ := chunk_index layout count inChunk
      have notFree := used (slot + count) (Nat.le_refl _) bound (by omega)
      rw [if_neg (fun erased => notFree ((isErased_chunk loaded inside).mp erased)), ← Nat.succ_mul]
      exact ih (count + 1) (fun earlier lower => used earlier (by omega))
    · rfl

variable {device : Device}

/-- Without read errors the scan finds the first free slot and changes nothing on the device. -/
theorem scanChunks_found (layout : Layout setup slots) (healthy : device.faults = []) {cursor : ℕ}
    (bound : cursor < slots) (isFree : slotsOf setup device.memory cursor = none) :
    ∀ fuel slot (data : Buffer), slot ≤ cursor → cursor < slot + fuel →
      (∀ earlier, slot ≤ earlier → earlier < cursor → slotsOf setup device.memory earlier ≠ none) →
      scanChunks setup fuel (slotAddress setup slot) data device =
        ((0, { setup with currentOffset := slotAddress setup cursor }), device) := by
  have perChunk : 0 < maxItemSize / setup.itemSize :=
    Nat.div_pos (Nat.le_of_dvd (by decide) layout.divides) layout.itemSize_pos
  have few : maxItemSize / setup.itemSize ≤ maxItemSize := Nat.div_le_self _ _
  have span : maxItemSize / setup.itemSize * setup.itemSize = maxItemSize :=
    Nat.div_mul_cancel layout.divides
  intro fuel
  induction fuel with
  | zero => intro slot _ reached enough _; omega
  | succ fuel ih =>
    intro slot data reached enough used
    have inSection : slotAddress setup slot < setup.endOffset := layout.slotAddress_lt_iff.mpr (by omega)
    have loaded : ∀ index < maxItemSize, data.load 0 maxItemSize
        (fun offset => device.memory (slotAddress setup slot + offset)) index =
          device.memory (slotAddress setup slot + index) := by
      intro index inside
      rw [Buffer.load_inside (Nat.zero_le _) (by omega), Nat.sub_zero]
    simp only [scanChunks, if_pos inSection, run_bind, readMemory_healthy healthy]
    by_cases here : cursor < slot + maxItemSize / setup.itemSize
    · have found := findErased_found layout loaded bound isFree maxItemSize 0 (by omega) here (by omega)
        (fun earlier lower upper => used earlier (by omega) upper)
      rw [Nat.zero_mul] at found
      simp only [found, ↓reduceIte]
      rfl
    · have none := findErased_none layout loaded maxItemSize 0
        (fun earlier lower _ upper => used earlier (by omega) (by omega))
      rw [Nat.zero_mul] at none
      simp only [none, ↓reduceIte]
      have next := ih (slot + maxItemSize / setup.itemSize) (data.load 0 maxItemSize
          (fun offset => device.memory (slotAddress setup slot + offset)))
        (by omega) (by omega) (fun earlier lower upper => used earlier (by omega) upper)
      rw [slotAddress_add, span] at next
      exact next

/-- Without a free slot the scan ends in formatting the section. -/
theorem scanChunks_full (layout : Layout setup slots) (healthy : device.faults = []) :
    ∀ fuel slot (data : Buffer),
      (∀ later, slot ≤ later → later < slots → slotsOf setup device.memory later ≠ none) →
      scanChunks setup fuel (slotAddress setup slot) data device = format setup device := by
  have span : maxItemSize / setup.itemSize * setup.itemSize = maxItemSize :=
    Nat.div_mul_cancel layout.divides
  intro fuel
  induction fuel with
  | zero => intro _ _ _; rfl
  | succ fuel ih =>
    intro slot data used
    rw [scanChunks]
    split
    · have loaded : ∀ index < maxItemSize, data.load 0 maxItemSize
          (fun offset => device.memory (slotAddress setup slot + offset)) index =
            device.memory (slotAddress setup slot + index) := by
        intro index inside
        rw [Buffer.load_inside (Nat.zero_le _) (by omega), Nat.sub_zero]
      have none := findErased_none layout loaded maxItemSize 0
        (fun earlier lower bound _ => used earlier (by omega) bound)
      rw [Nat.zero_mul] at none
      have next := ih (slot + maxItemSize / setup.itemSize) (data.load 0 maxItemSize
          (fun offset => device.memory (slotAddress setup slot + offset)))
        (fun later lower bound => used later (Nat.le_trans (Nat.le_add_right _ _) lower) bound)
      rw [slotAddress_add, span] at next
      simp only [run_bind, readMemory_healthy healthy, none, ↓reduceIte]
      exact next
    · rfl

theorem headerMatches_iff {device : Device} {data : Buffer} :
    headerMatches setup (data.load 0 headerSize fun offset =>
      device.memory (setup.headersOffset + offset)) = true ↔ HeaderIntact setup device.memory := by
  simp only [headerMatches, List.all_eq_true, List.mem_range, beq_iff_eq, HeaderIntact]
  constructor
  · intro same index bound
    have := same index bound
    rwa [Buffer.load_inside (Nat.zero_le _) (by omega)] at this
  · intro same index bound
    rw [Buffer.load_inside (Nat.zero_le _) (by omega)]
    exact same index bound

end Scan

end CoapsClient.ApplStorage
