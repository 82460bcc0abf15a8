import CoapsClient.Model.Storage.Walks
import CoapsClient.Soundness.WriteResult
import Mathlib.Tactic.Ring

/-! # The slots of a section

The scan for the write position goes through the section in chunks of its buffer, a write goes on from one slot
to the next, and a read comes back from the end. They agree on where the slots are exactly if the items tile
the section, and the buffer or the whole section fits the other. `appl_storage_add` takes every value size up
to `MAX_VALUE_SIZE`, though only 2, 10 and 26 tile the buffer.
-/

namespace CoapsClient.ApplStorage

open Machine Math

/-- A slot: some items behind the start of the section, and wholly inside of it. -/
def IsSlot (setup : StorageSetup) (address : ℕ) : Prop :=
  (∃ count, address = slotAddress setup count) ∧ address + setup.itemSize ≤ setup.endOffset

/-- What happens to a section, with the time and the value of a write. -/
inductive SectionOp where
  | init
  | write (time : Int) (value : List UInt8)
deriving DecidableEq, Repr

def sectionStep (fresh : StorageSetup) (state : StorageSetup × Device) : SectionOp → StorageSetup × Device
  | .init => ((initOffset fresh state.2).1.2, (initOffset fresh state.2).2)
  | .write time value =>
    ((writeItem state.1 time value state.2).1.2, (writeItem state.1 time value state.2).2)

/-- A section and its device behind an initialisation or a write, with whatever result. -/
def SectionStep (fresh : StorageSetup) (state : StorageSetup × Device) (op : SectionOp)
    (next : StorageSetup × Device) : Prop :=
  sectionStep fresh state op = next

/-- Where an item is read from that is so many items behind the newest one. -/
def readPosition (setup : StorageSetup) (index : ℕ) : ℕ :=
  (previousOffset setup)^[index + 1] setup.currentOffset

/-- Scan, writes and reads agree on the slots of a section: the scan stays in its buffer and tests the slots,
all of them up to the first one that is erased, and in every state each write and each read is of a slot. -/
structure OnGrid (fresh : StorageSetup) : Prop where
  buffer : ∀ device, ∀ test ∈ initTests fresh device, ∀ query,
    test.Accesses fresh.eraseValue query → query < maxItemSize
  tests : ∀ device, ∀ test ∈ initTests fresh device, IsSlot fresh test.address
  all : ∀ device : Device, device.faults = [] → HeaderIntact fresh device.memory →
    ∀ count, IsSlot fresh (slotAddress fresh count) →
      (∀ earlier < count, ¬ Uniform device.memory (slotAddress fresh earlier) timeSize fresh.eraseValue) →
      ∃ test ∈ initTests fresh device, test.address = slotAddress fresh count
  writes : ∀ device ops state, Path (SectionStep fresh) (fresh, device) ops state →
    IsSlot fresh state.1.currentOffset
  reads : ∀ device ops state, Path (SectionStep fresh) (fresh, device) ops state →
    ∀ index, IsSlot fresh (readPosition state.1 index)

/-- The bytes behind the header. -/
def StorageSetup.span (setup : StorageSetup) : ℕ := setup.endOffset - setup.startOffset

/-- The items tile the section, and they tile the buffer of the scan or the section fits it. -/
structure Tiles (setup : StorageSetup) : Prop where
  one : setup.itemSize ≤ setup.span
  whole : setup.itemSize ∣ setup.span
  buffer : setup.itemSize ∣ maxItemSize ∨ setup.span ≤ maxItemSize

/-- What `appl_storage_init_setup` lays out. -/
structure LaidOut (setup : StorageSetup) : Prop where
  large : timeSize ≤ setup.itemSize
  current : setup.currentOffset = setup.startOffset
  header_fits : setup.headersOffset + headerSize ≤ setup.startOffset

private theorem headerSlots_ge {itemSize : ℕ} (positive : 0 < itemSize) (fuel size : ℕ)
    (enough : headerSize ≤ size + fuel) : headerSize ≤ headerSlots itemSize fuel size := by
  induction fuel generalizing size with
  | zero => exact enough
  | succ fuel ih =>
    simp only [headerSlots]
    split
    · exact ih _ (by omega)
    · omega

theorem setupOf_laidOut (config : StorageConfig) (initState : StorageInitState) (start pageSize : ℕ)
    (eraseValue : UInt8) : LaidOut (setupOf config initState start pageSize eraseValue) where
  large := Nat.le_add_left _ _
  current := rfl
  header_fits := Nat.add_le_add_left
    (headerSlots_ge (Nat.add_pos_right _ (by decide)) headerSize _ (Nat.le_add_left _ _)) start

variable {setup : StorageSetup} {device : Device} {data : Buffer}

/-- The address of a chunk of the scan. -/
def scanAddress (setup : StorageSetup) (chunk : ℕ) : ℕ := setup.startOffset + chunk * maxItemSize

private theorem scanAddress_succ (chunk : ℕ) : scanAddress setup (chunk + 1) = scanAddress setup chunk + maxItemSize := by
  simp only [scanAddress]
  ring

/-- Every test is one of the inner loop, in some chunk. -/
private theorem scanTests_mem {fuel chunk : ℕ} {test : SlotTest}
    (found : test ∈ scanTests setup fuel (scanAddress setup chunk) data device) :
    ∃ chunk, test.chunk = scanAddress setup chunk ∧
      test.index ∈ testedIndices setup test.data test.chunk maxItemSize 0 := by
  induction fuel generalizing chunk data device with
  | zero => contradiction
  | succ fuel ih =>
    simp only [scanTests, ← scanAddress_succ] at found
    split at found
    · split at found
      · rcases List.mem_append.mp found with here | later
        · obtain ⟨index, tested, rfl⟩ := List.mem_map.mp here
          exact ⟨chunk, rfl, tested⟩
        · split at later
          · contradiction
          · exact ih later
      · exact ih found
    · contradiction

private theorem initTests_mem {test : SlotTest} (found : test ∈ initTests setup device) :
    ∃ chunk, test.chunk = scanAddress setup chunk ∧
      test.index ∈ testedIndices setup test.data test.chunk maxItemSize 0 := by
  have start : setup.startOffset = scanAddress setup 0 := by simp [scanAddress]
  simp only [initTests] at found
  split at found
  · rw [start] at found
    exact scanTests_mem found
  · contradiction

/-- The bytes of a chunk are in the buffer. -/
def Loaded (setup : StorageSetup) (device : Device) (chunk : ℕ) (data : Buffer) : Prop :=
  ∀ index < maxItemSize, data index = device.memory (scanAddress setup chunk + index)

private theorem loaded_load (chunk : ℕ) :
    Loaded setup device chunk
      (data.load 0 maxItemSize fun offset => device.memory (scanAddress setup chunk + offset)) := by
  intro index bound
  rw [Buffer.load_inside (Nat.zero_le _) (by omega), Nat.sub_zero]

/-- Without read errors the scan gets to every chunk before which it finds nothing. -/
private theorem scanTests_reach (healthy : device.faults = []) {last : ℕ}
    (inSection : scanAddress setup last < setup.endOffset) {fuel chunk : ℕ} (behind : chunk ≤ last)
    (enough : last < chunk + fuel)
    (nothing : ∀ earlier, chunk ≤ earlier → earlier < last → ∀ data, Loaded setup device earlier data →
      findErased setup data (scanAddress setup earlier) maxItemSize 0 = none) :
    ∃ loaded, Loaded setup device last loaded ∧
      ∀ test ∈ chunkTests setup loaded (scanAddress setup last),
        test ∈ scanTests setup fuel (scanAddress setup chunk) data device := by
  induction fuel generalizing chunk data with
  | zero => omega
  | succ fuel ih =>
    have here : scanAddress setup chunk < setup.endOffset := by
      have order : scanAddress setup chunk ≤ scanAddress setup last :=
        Nat.add_le_add_left (Nat.mul_le_mul_right _ behind) _
      omega
    simp only [scanTests, if_pos here, readMemory_healthy healthy, if_true, ← scanAddress_succ]
    rcases Nat.eq_or_lt_of_le behind with rfl | before
    · exact ⟨_, loaded_load chunk, fun test found => List.mem_append_left _ found⟩
    · obtain ⟨loaded, isLoaded, reached⟩ := @ih (data.load 0 maxItemSize fun offset => device.memory (scanAddress setup chunk + offset))
        (chunk + 1) (by omega) (by omega)
        fun earlier lower upper => nothing earlier (by omega) upper
      refine ⟨loaded, isLoaded, fun test found => List.mem_append_right _ ?_⟩
      rw [nothing chunk (Nat.le_refl _) before _ (loaded_load chunk)]
      exact reached test found

/-- The same for an initialisation that finds its header. -/
private theorem initTests_reach (healthy : device.faults = []) (intact : HeaderIntact setup device.memory) {last : ℕ}
    (inSection : scanAddress setup last < setup.endOffset)
    (nothing : ∀ earlier < last, ∀ data, Loaded setup device earlier data →
      findErased setup data (scanAddress setup earlier) maxItemSize 0 = none) :
    ∃ loaded, Loaded setup device last loaded ∧
      ∀ test ∈ chunkTests setup loaded (scanAddress setup last), test ∈ initTests setup device := by
  have start : setup.startOffset = scanAddress setup 0 := by simp [scanAddress]
  have enough : last < 0 + (setup.endOffset - setup.startOffset) := by
    simp only [scanAddress, maxItemSize, timeSize, maxValueSize] at inSection
    omega
  simp only [initTests, readMemory_healthy healthy, headerMatches_iff.mpr intact, and_self, if_true]
  generalize setup.endOffset - setup.startOffset = fuel at enough ⊢
  rw [start]
  exact scanTests_reach healthy inSection (Nat.zero_le _) enough fun earlier _ upper => nothing earlier upper

theorem LaidOut.item_pos (laidOut : LaidOut setup) : 0 < setup.itemSize :=
  Nat.lt_of_lt_of_le (by decide) laidOut.large

/-- A slot of a chunk is found erased exactly if its time is. -/
theorem LaidOut.erased_iff (laidOut : LaidOut setup) {chunk first count : ℕ}
    (start : scanAddress setup chunk = slotAddress setup first) (loaded : Loaded setup device chunk data)
    (ends : count * setup.itemSize + setup.itemSize ≤ maxItemSize) :
    isErased data (count * setup.itemSize) timeSize setup.eraseValue = true ↔
      Uniform device.memory (slotAddress setup (first + count)) timeSize setup.eraseValue := by
  have large := laidOut.large
  rw [isErased_iff, slotAddress_add, ← start]
  refine forall_congr' fun offset => forall_congr' fun bound => ?_
  rw [loaded _ (by omega), Nat.add_assoc]

section Tiled

variable (laidOut : LaidOut setup) (tiles : Tiles setup)
include tiles

/-- A slot that starts inside of the section ends there. -/
theorem Tiles.inside {count : ℕ} (starts : slotAddress setup count < setup.endOffset) :
    IsSlot setup (slotAddress setup count) := by
  refine ⟨⟨count, rfl⟩, ?_⟩
  obtain ⟨slots, span⟩ := tiles.whole
  simp only [StorageSetup.span, slotAddress] at span starts ⊢
  have bound : count * setup.itemSize < slots * setup.itemSize := by
    rw [Nat.mul_comm slots]
    omega
  have next := Nat.mul_le_mul_right setup.itemSize (Nat.lt_of_mul_lt_mul_right bound)
  rw [Nat.succ_mul, Nat.mul_comm slots] at next
  omega

/-- A chunk that starts inside of the section starts with a slot. -/
theorem Tiles.chunk {chunk : ℕ} (starts : scanAddress setup chunk < setup.endOffset) :
    ∃ count, scanAddress setup chunk = slotAddress setup count := by
  rcases tiles.buffer with ⟨items, product⟩ | short
  · refine ⟨chunk * items, ?_⟩
    rw [scanAddress, slotAddress, product]
    ring
  · have first : chunk = 0 := by
      by_contra later
      have := Nat.mul_le_mul_right maxItemSize (Nat.one_le_iff_ne_zero.mpr later)
      simp only [scanAddress, StorageSetup.span] at starts short
      omega
    exact ⟨0, by simp [scanAddress, slotAddress, first]⟩

/-- A slot that starts in the buffer ends there. -/
theorem Tiles.in_buffer {chunk count : ℕ} (buffer : count * setup.itemSize < maxItemSize)
    (starts : scanAddress setup chunk + count * setup.itemSize < setup.endOffset) :
    count * setup.itemSize + setup.itemSize ≤ maxItemSize := by
  rcases tiles.buffer with ⟨items, product⟩ | short
  · rw [product, Nat.mul_comm setup.itemSize] at buffer ⊢
    rw [← Nat.succ_mul]
    exact Nat.mul_le_mul_right _ (Nat.lt_of_mul_lt_mul_right buffer)
  · have inside : slotAddress setup count < setup.endOffset := by
      simp only [scanAddress, slotAddress] at starts ⊢
      omega
    have ends := (tiles.inside inside).2
    simp only [slotAddress, StorageSetup.span] at ends short
    omega

/-- Every test is for a slot, and stays in the buffer. -/
theorem Tiles.test {test : SlotTest} (found : test ∈ initTests setup device) :
    IsSlot setup test.address ∧ test.index + setup.itemSize ≤ maxItemSize := by
  obtain ⟨chunk, place, tested⟩ := initTests_mem found
  obtain ⟨buffer, inSection, count, index⟩ := testedIndices_mem tested
  rw [Nat.zero_add] at index
  rw [place, index] at inSection
  obtain ⟨first, start⟩ := tiles.chunk (show scanAddress setup chunk < setup.endOffset by omega)
  have address : test.address = slotAddress setup (first + count) := by
    rw [SlotTest.address, place, index, start, slotAddress_add]
  refine ⟨?_, ?_⟩
  · rw [address]
    refine tiles.inside ?_
    rwa [slotAddress_add, ← start]
  · rw [index] at buffer ⊢
    exact tiles.in_buffer buffer inSection

include laidOut

/-- The scan finds nothing in a chunk in front of an item when the slots before the item are used. -/
theorem Tiles.nothing {count chunk earlier : ℕ} (before : earlier < chunk)
    (lower : chunk * maxItemSize ≤ count * setup.itemSize)
    (used : ∀ earlier < count,
      ¬ Uniform device.memory (slotAddress setup earlier) timeSize setup.eraseValue)
    (loaded : Loaded setup device earlier data) :
    findErased setup data (scanAddress setup earlier) maxItemSize 0 = none := by
  rw [findErased_eq, Option.map_eq_none_iff, List.find?_eq_none]
  intro tested found erased
  obtain ⟨buffer, inside, items, place⟩ := testedIndices_mem found
  rw [Nat.zero_add] at place
  subst place
  obtain ⟨slots, begins⟩ := tiles.chunk (show scanAddress setup earlier < setup.endOffset by omega)
  have free := (laidOut.erased_iff begins loaded (tiles.in_buffer buffer inside)).mp erased
  refine used _ ?_ free
  have chunks := Nat.mul_le_mul_right maxItemSize (show earlier + 1 ≤ chunk from before)
  simp only [scanAddress, slotAddress] at begins
  refine Nat.lt_of_mul_lt_mul_right (a := setup.itemSize) ?_
  rw [Nat.add_mul]
  rw [Nat.succ_mul] at chunks
  omega

/-- Without read errors every slot is tested before which there is no erased one. -/
theorem Tiles.all (healthy : device.faults = []) (intact : HeaderIntact setup device.memory) {count : ℕ}
    (slot : IsSlot setup (slotAddress setup count))
    (used : ∀ earlier < count,
      ¬ Uniform device.memory (slotAddress setup earlier) timeSize setup.eraseValue) :
    ∃ test ∈ initTests setup device, test.address = slotAddress setup count := by
  have positive := laidOut.item_pos
  have ends := slot.2
  set chunk := count * setup.itemSize / maxItemSize with chunkEq
  have split : chunk * maxItemSize + count * setup.itemSize % maxItemSize = count * setup.itemSize :=
    Nat.div_add_mod' _ _
  have rest : count * setup.itemSize % maxItemSize < maxItemSize := Nat.mod_lt _ (by decide)
  have inSection : scanAddress setup chunk < setup.endOffset := by
    simp only [scanAddress, slotAddress] at ends ⊢
    omega
  obtain ⟨first, start⟩ := tiles.chunk inSection
  have lower : first * setup.itemSize = chunk * maxItemSize := by
    simp only [scanAddress, slotAddress] at start
    omega
  have order : first ≤ count := Nat.le_of_mul_le_mul_right (by omega) positive
  obtain ⟨behind, rfl⟩ := Nat.exists_eq_add_of_le order
  have index : behind * setup.itemSize = (first + behind) * setup.itemSize % maxItemSize := by
    rw [Nat.add_mul] at split ⊢
    omega
  obtain ⟨loaded, isLoaded, reached⟩ := initTests_reach healthy intact inSection
    fun earlier before _ isLoaded => tiles.nothing laidOut before (by omega) used isLoaded
  have buffer : behind * setup.itemSize < maxItemSize := by omega
  have inside : scanAddress setup chunk + behind * setup.itemSize < setup.endOffset := by
    rw [start, ← slotAddress_add]
    omega
  have tested := @mem_testedIndices setup loaded (scanAddress setup chunk) maxItemSize 0 behind
    (Nat.lt_of_le_of_lt (Nat.le_mul_of_pos_right _ positive) buffer) (by omega) (by omega) (by
      intro earlier bound
      rw [Nat.zero_add, Bool.eq_false_iff]
      intro erased
      have below := Nat.mul_lt_mul_of_pos_right bound positive
      refine used (first + earlier) (by omega) ((laidOut.erased_iff start isLoaded ?_).mp erased)
      exact @Tiles.in_buffer _ tiles chunk _ (by omega) (by omega))
  rw [Nat.zero_add] at tested
  refine ⟨_, reached _ (List.mem_map_of_mem tested), ?_⟩
  rw [SlotTest.address, start, slotAddress_add]

end Tiled

theorem format_offset : ∃ offset, (format setup device).1.2 = { setup with currentOffset := offset } ∧
    (offset = setup.currentOffset ∨ offset = setup.startOffset) := by
  simp only [format, run_bind]
  split
  · exact ⟨_, rfl, .inl rfl⟩
  · exact ⟨_, rfl, .inr rfl⟩

/-- The scan ends at an address that it has tested, or with a formatted section. -/
private theorem scanChunks_offset (fuel address : ℕ) (data : Buffer) (device : Device) :
    ∃ offset, (scanChunks setup fuel address data device).1.2 = { setup with currentOffset := offset } ∧
      (offset = setup.currentOffset ∨ offset = setup.startOffset ∨
        ∃ test ∈ scanTests setup fuel address data device, test.address = offset) := by
  induction fuel generalizing address data device with
  | zero =>
    obtain ⟨offset, moved, place⟩ := @format_offset setup device
    exact ⟨offset, moved, place.imp_right .inl⟩
  | succ fuel ih =>
    simp only [scanChunks, scanTests]
    split
    · simp only [run_bind]
      split
      · cases found : findErased setup (readMemory address data 0 maxItemSize device).1.2 address
            maxItemSize 0 with
        | some offset =>
          refine ⟨offset, rfl, .inr (.inr ?_)⟩
          rw [findErased_eq] at found
          obtain ⟨index, erased, place⟩ := Option.map_eq_some_iff.mp found
          have tested := List.mem_of_find?_eq_some erased
          exact ⟨_, List.mem_append_left _ (List.mem_map_of_mem tested), place⟩
        | none =>
          obtain ⟨offset, moved, place⟩ := ih (address + maxItemSize)
            (readMemory address data 0 maxItemSize device).1.2 (readMemory address data 0 maxItemSize device).2
          refine ⟨offset, moved, place.imp_right (.imp_right ?_)⟩
          rintro ⟨test, member, place⟩
          exact ⟨test, List.mem_append_right _ member, place⟩
      · exact ih _ _ _
    · obtain ⟨offset, moved, place⟩ := @format_offset setup device
      exact ⟨offset, moved, place.imp_right .inl⟩

theorem initOffset_offset (device : Device) :
    ∃ offset, (initOffset setup device).1.2 = { setup with currentOffset := offset } ∧
      (offset = setup.currentOffset ∨ offset = setup.startOffset ∨
        ∃ test ∈ initTests setup device, test.address = offset) := by
  simp only [initOffset, initTests, run_bind, run_get]
  split
  · next ok =>
    split
    · next found =>
      rw [if_pos ⟨ok, found⟩]
      exact scanChunks_offset _ _ _ _
    · obtain ⟨offset, moved, place⟩ :=
        @format_offset setup (readMemory setup.headersOffset device.stack 0 headerSize device).2
      exact ⟨offset, moved, place.imp_right .inl⟩
  · exact ⟨_, rfl, .inl rfl⟩

/-- A write leaves the write position or moves it to the next slot. -/
private theorem writeItem_offset (time : Int) (value : List UInt8) :
    (writeItem setup time value device).1.2 = setup ∨
      (writeItem setup time value device).1.2 = { setup with currentOffset := setup.nextOffset } := by
  by_cases reads : ∀ operation < readOperations setup, device.result operation = 0
  · rw [writeItem_read reads]
    split
    · exact .inr rfl
    · exact .inl rfl
  · push Not at reads
    obtain ⟨operations, run⟩ := writeItem_read_failed reads time value
    rw [run]
    exact .inl rfl

section Positions

variable {fresh : StorageSetup} (laidOut : LaidOut fresh) (tiles : Tiles fresh)
include laidOut tiles

theorem Tiles.start : IsSlot fresh fresh.startOffset := by
  have one := tiles.one
  have positive := laidOut.item_pos
  refine ⟨⟨0, (Layout.start_eq fresh).symm⟩, ?_⟩
  simp only [StorageSetup.span] at one
  omega

omit laidOut in
/-- The next slot is a slot, and so is the first one behind the last. -/
theorem Tiles.next {offset : ℕ} (slot : IsSlot fresh offset) (start : IsSlot fresh fresh.startOffset) :
    IsSlot fresh { fresh with currentOffset := offset }.nextOffset := by
  obtain ⟨⟨count, rfl⟩, _⟩ := slot
  by_cases inside : { fresh with currentOffset := slotAddress fresh count }.Inside
  · rw [StorageSetup.nextOffset, if_pos inside, ← slotAddress_succ]
    refine tiles.inside ?_
    rw [slotAddress_succ]
    simp only [StorageSetup.Inside] at inside
    omega
  · rw [StorageSetup.nextOffset, if_neg inside]
    exact start

/-- The slot before a slot is a slot, and so is the last one before the first. -/
theorem Tiles.previous {offset : ℕ} (slot : IsSlot fresh offset) : IsSlot fresh (previousOffset fresh offset) := by
  have positive := laidOut.item_pos
  have inside := (tiles.start laidOut).2
  simp only [previousOffset]
  split
  · obtain ⟨slots, span⟩ := tiles.whole
    have some : 0 < slots := by
      by_contra none
      obtain rfl : slots = 0 := by omega
      simp only [StorageSetup.span] at span
      omega
    obtain ⟨rest, rfl⟩ : ∃ rest, slots = rest + 1 := ⟨slots - 1, by omega⟩
    refine ⟨⟨rest, ?_⟩, by omega⟩
    rw [Nat.mul_succ, Nat.mul_comm] at span
    simp only [StorageSetup.span, slotAddress] at span ⊢
    omega
  · next later =>
    obtain ⟨⟨count, rfl⟩, ends⟩ := slot
    obtain ⟨rest, rfl⟩ : ∃ rest, count = rest + 1 := by
      refine ⟨count - 1, ?_⟩
      by_contra zero
      obtain rfl : count = 0 := by omega
      exact later (Layout.start_eq fresh)
    rw [slotAddress_succ] at ends ⊢
    exact ⟨⟨rest, by omega⟩, by omega⟩

/-- What every initialisation and every write keeps: the layout, and a write position that is a slot. -/
def AtSlot (fresh setup : StorageSetup) : Prop :=
  ∃ offset, setup = { fresh with currentOffset := offset } ∧ IsSlot fresh offset

theorem sectionStep_atSlot {state next : StorageSetup × Device} {op : SectionOp}
    (here : AtSlot fresh state.1) (moved : SectionStep fresh state op next) : AtSlot fresh next.1 := by
  obtain rfl := moved
  have start := tiles.start laidOut
  cases op with
  | init =>
    obtain ⟨offset, moved, place⟩ := @initOffset_offset fresh state.2
    refine ⟨offset, moved, ?_⟩
    rcases place with rfl | rfl | ⟨test, found, rfl⟩
    · rw [laidOut.current]
      exact start
    · exact start
    · exact (tiles.test found).1
  | write time value =>
    obtain ⟨offset, same, slot⟩ := here
    rcases @writeItem_offset state.1 state.2 time value with stays | moves
    · exact ⟨offset, stays.trans same, slot⟩
    · refine ⟨state.1.nextOffset, ?_, ?_⟩
      · simp only [sectionStep, moves]
        rw [same]
      · rw [same]
        exact tiles.next slot start

private theorem path_atSlot {ops : List SectionOp} {state : StorageSetup × Device}
    (run : Path (SectionStep fresh) (fresh, device) ops state) : AtSlot fresh state.1 := by
  refine run.invariant (fun state => AtSlot fresh state.1)
    (fun _ _ _ here moved => sectionStep_atSlot laidOut tiles here moved) ⟨fresh.currentOffset, rfl, ?_⟩
  rw [laidOut.current]
  exact tiles.start laidOut

private theorem readPosition_slot {setup : StorageSetup} (here : AtSlot fresh setup) (index : ℕ) :
    IsSlot fresh (readPosition setup index) := by
  obtain ⟨offset, rfl, slot⟩ := here
  simp only [readPosition]
  induction index with
  | zero => exact tiles.previous laidOut slot
  | succ index ih =>
    rw [Function.iterate_succ_apply']
    exact tiles.previous laidOut ih

end Positions

/-- A byte that is not erased. -/
def usedByte (eraseValue : UInt8) : UInt8 := if eraseValue = 0 then 1 else 0

private theorem usedByte_ne (eraseValue : UInt8) : usedByte eraseValue ≠ eraseValue := by
  simp only [usedByte]
  split
  · next zero =>
    rw [zero]
    decide
  · next other => exact fun zero => other zero.symm

/-- A device with the header of the section and no erased byte behind it. -/
def fullDevice (setup : StorageSetup) : Device where
  memory := fun query =>
    if query < setup.headersOffset + headerSize then setup.header.getD (query - setup.headersOffset) 0
    else usedByte setup.eraseValue
  merge := fun _ new => new
  pageSize := setup.pageSize
  eraseValue := setup.eraseValue

/-- On a full device the scan tests the start of the second chunk. -/
private theorem fullDevice_second (laidOut : LaidOut setup) (long : maxItemSize < setup.span) :
    ∃ test ∈ initTests setup (fullDevice setup), test.address = scanAddress setup 1 := by
  have header := laidOut.header_fits
  have inSection : scanAddress setup 1 < setup.endOffset := by
    simp only [scanAddress, StorageSetup.span] at long ⊢
    omega
  have intact : HeaderIntact setup (fullDevice setup).memory := by
    intro index bound
    simp only [fullDevice]
    rw [if_pos (by omega), Nat.add_sub_cancel_left]
  obtain ⟨loaded, _, reached⟩ := @initTests_reach setup (fullDevice setup) rfl intact _ inSection (by
    intro earlier before data loaded
    rw [findErased_eq, Option.map_eq_none_iff, List.find?_eq_none]
    intro tested found erased
    have byte := isErased_iff.mp erased 0 (by decide)
    rw [Nat.add_zero, loaded _ (testedIndices_mem found).1] at byte
    refine usedByte_ne setup.eraseValue (Eq.trans ?_ byte)
    simp only [fullDevice, scanAddress]
    rw [if_neg (by omega)])
  have first : 0 ∈ testedIndices setup loaded (scanAddress setup 1) maxItemSize 0 := by
    have tested := @mem_testedIndices setup loaded (scanAddress setup 1) maxItemSize 0 0 (by decide) (by simp [maxItemSize, timeSize])
      (by omega) (by omega)
    rwa [Nat.zero_mul] at tested
  exact ⟨_, reached _ (List.mem_map_of_mem first), rfl⟩

/-- Scan, writes and reads that agree are those of a tiled section. -/
theorem OnGrid.tiles (laidOut : LaidOut setup) (grid : OnGrid setup) : Tiles setup := by
  have positive := laidOut.item_pos
  have write := grid.writes (fullDevice setup) [] (setup, fullDevice setup) (.nil _)
  have read := grid.reads (fullDevice setup) [] (setup, fullDevice setup) (.nil _) 0
  simp only [laidOut.current] at write
  have one : setup.itemSize ≤ setup.span := by
    have := write.2
    simp only [StorageSetup.span]
    omega
  refine ⟨one, ?_, ?_⟩
  · obtain ⟨⟨count, place⟩, _⟩ := read
    have last : readPosition setup 0 = setup.endOffset - setup.itemSize := by
      have first : readPosition setup 0 = previousOffset setup setup.currentOffset := rfl
      rw [first, previousOffset, if_pos laidOut.current]
    rw [last, slotAddress] at place
    refine ⟨count + 1, ?_⟩
    simp only [StorageSetup.span] at one ⊢
    rw [Nat.mul_succ, Nat.mul_comm]
    omega
  · by_cases long : maxItemSize < setup.span
    · obtain ⟨test, found, place⟩ := fullDevice_second laidOut long
      obtain ⟨⟨count, same⟩, _⟩ := grid.tests (fullDevice setup) test found
      refine .inl ⟨count, ?_⟩
      rw [place, scanAddress, slotAddress, Nat.one_mul] at same
      rw [Nat.mul_comm]
      omega
    · exact .inr (by omega)

/-- For every value size, every number of pages and every page size: scan, writes and reads agree on the
slots, and the scan stays in its buffer, exactly if the items tile the section and the buffer. -/
theorem on_grid_iff (config : StorageConfig) (initState : StorageInitState) (start pageSize : ℕ)
    (eraseValue : UInt8) :
    OnGrid (setupOf config initState start pageSize eraseValue) ↔
      Tiles (setupOf config initState start pageSize eraseValue) := by
  have laidOut := setupOf_laidOut config initState start pageSize eraseValue
  generalize setupOf config initState start pageSize eraseValue = fresh at laidOut ⊢
  constructor
  · exact fun grid => grid.tiles laidOut
  · intro tiles
    refine ⟨?_, ?_, ?_, ?_, ?_⟩
    · rintro device test found query ⟨offset, bound, rfl, _⟩
      have ends := (tiles.test found).2
      have large := laidOut.large
      omega
    · exact fun device test found => (tiles.test found).1
    · exact fun device healthy intact count slot used => tiles.all laidOut healthy intact slot used
    · intro device ops state run
      obtain ⟨offset, same, slot⟩ := path_atSlot laidOut tiles run
      rw [same]
      exact slot
    · intro device ops state run index
      exact readPosition_slot laidOut tiles (path_atSlot laidOut tiles run) index

/-- The reboot codes in four pages of an EEPROM are tiled. -/
theorem codes_on_grid : OnGrid (setupOf ⟨false, 1, 0x01200340, 2, 4, 2⟩ .notInitialized 0 128 0xff) :=
  (on_grid_iff _ _ _ _ _).mpr ⟨by decide, by decide, by decide⟩

/-- A section with values of four bytes in one page of an EEPROM. -/
private def oddSection : StorageSetup := setupOf ⟨false, 1, 0x01200340, 2, 1, 4⟩ .notInitialized 0 128 0xff

/-- It is full, but the two bytes at the end of the first chunk are erased. -/
private def oddDevice : Device :=
  { fullDevice oddSection with
    memory := fun query => if query = 40 ∨ query = 41 then 0xff else (fullDevice oddSection).memory query }

/-- The scan of items of ten bytes reads behind its buffer of 32 bytes, tests an address that is no slot, and
the oldest item is read from between two slots. -/
theorem odd_items_off_grid :
    (∃ test ∈ initTests oddSection oddDevice, test.Accesses 0xff 32) ∧
      (initTests oddSection oddDevice).map SlotTest.address =
        [10, 20, 30, 40, 42, 52, 62, 72, 74, 84, 94, 104, 106, 116, 126] ∧
      readPosition oddSection 0 = 118 ∧ ¬ OnGrid oddSection := by
  have overrun : ∃ test ∈ initTests oddSection oddDevice, test.Accesses 0xff 32 := by
    refine ⟨(initTests oddSection oddDevice).get ⟨3, by decide +kernel⟩, List.get_mem _ _, 2, by decide, ?_, ?_⟩
    · decide +kernel
    · decide +kernel
  refine ⟨overrun, by decide +kernel, by decide, fun grid => ?_⟩
  obtain ⟨test, found, access⟩ := overrun
  exact absurd (grid.buffer oddDevice test found 32 access) (by decide)

end CoapsClient.ApplStorage
