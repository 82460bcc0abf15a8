import CoapsClient.Model.Storage.Faults

/-! # Walks through a section: reading codes and the tests of the scan

`appl_storage_read_int_items` fills two arrays in one walk back through a section: items in front of the index
are read like all others, but do not move on in the arrays. The arrays are functions of the index; a `none` is
a `NULL`, and the number of entries comes back as an `int`.

`appl_storage_init_offset` reads the section in chunks of its buffer and tests one slot after the other in each
of them. `scanTests` records these tests, beside the loops of `findErased` and `scanChunks` that run them, and
`findErased_eq` says that the loop stops at the first test that finds a slot erased.
-/

namespace CoapsClient.ApplStorage

open Machine Math
open Machine

section Codes

/-- `appl_storage_write_bytes_item`, at a time. -/
def writeBytesItem (setups : List StorageSetup) (id : Int) (now : Int) (data : List UInt8) :
    StateM Device (Int × List StorageSetup) :=
  match applStorageSetup setups id with
  | some setup => do
    let (rc, written) ← writeItem setup now data
    return (rc, setups.map fun entry => if entry = setup then written else entry)
  | none => return (einval, setups)

/-- `appl_storage_write_int_item`. -/
def writeIntItem (setups : List StorageSetup) (id : Int) (now : Int) (code : ℕ) :
    StateM Device (Int × List StorageSetup) :=
  writeBytesItem setups id now (bigEndian 2 code)

/-- An array of the caller. -/
abbrev Entries := ℕ → ℕ

/-- The loop variables of `appl_storage_read_int_items`, with the arrays from their start. -/
structure IntItems where
  rc : Int := einval
  read : ℕ := 0
  data : List UInt8
  times : Option Entries
  codes : Option Entries

/-- An entry is written through a pointer. -/
def storeEntry (entries : Option Entries) (index : ℕ) : Option ℕ → Option Entries
  | none => entries
  | some value => entries.map fun entries => Function.update entries index value

/-- What one read of an item leaves in the variables. -/
def IntItems.after (items : IntItems) (result : ReadResult) : IntItems :=
  { items with
    rc := result.rc
    data := result.value ++ items.data.drop result.value.length
    times := storeEntry items.times items.read result.time }

/-- `*codes = sys_get_be16(data)`, and one item more is read. -/
def IntItems.next (items : IntItems) : IntItems :=
  { items with
    codes := storeEntry items.codes items.read (some (ofBigEndian items.data))
    read := items.read + 1 }

/-- The loop of `appl_storage_read_int_items`. -/
def readInts (setup : StorageSetup) (count : ℕ) : ℕ → ℕ → ℕ → IntItems → StateM Device IntItems
  | 0, _, _, items => return items
  | fuel + 1, current, index, items =>
    if items.read < count then do
      let (result, current) ← readItem setup current items.times.isSome (some 2)
      let items := items.after result
      if result.rc ≤ 0 then return items
      else if 0 < index then readInts setup count fuel current (index - 1) items
      else readInts setup count fuel current index items.next
    else return items

/-- `appl_storage_read_int_items`: every turn skips an item or fills an entry. -/
def readIntItems (setups : List StorageSetup) (id : Int) (index : ℕ) (times codes : Option Entries)
    (count : ℕ) : StateM Device IntItems := do
  let device ← get
  let items : IntItems := { data := [device.stack 0, device.stack 1], times, codes }
  match applStorageSetup setups id with
  | some setup =>
    let items ← readInts setup count (index + count) setup.currentOffset index items
    return if 0 < items.read then { items with rc := (items.read : Int).bmod 4294967296 } else items
  | none => return items

variable {setup : StorageSetup} {device : Device}

/-- What is read of an item whose read has the given result. -/
def itemResult (setup : StorageSetup) (device : Device) (offset : ℕ) (rc : Int) (times : Bool)
    (value : Option ℕ) : ReadResult :=
  if rc = 0 then
    let data := device.stack.load 0 setup.itemSize fun index => device.memory (offset + index)
    if isErased data 0 timeSize setup.eraseValue then { rc := 0 }
    else
      let time := if times then
        some (ofBigEndian ((List.range timeSize).map data) * msecPerSec) else none
      match value with
      | none => { rc := setup.config.valueSize, time }
      | some size =>
        { rc := (min size setup.config.valueSize : ℕ)
          time
          value := (List.range (min size setup.config.valueSize)).map fun index => data (timeSize + index) }
  else { rc }

theorem readItem_eq (current : ℕ) (times : Bool) (value : Option ℕ) :
    readItem setup current times value device =
      ((itemResult setup device (previousOffset setup current) (device.result 0) times value,
        previousOffset setup current), device.skip 1) := by
  simp only [readItem, itemResult, run_bind, run_get, readMemory_eq]
  by_cases ok : device.result 0 = 0
  · simp only [ok, if_true]
    split
    · rfl
    · cases value <;> rfl
  · simp only [ok, if_false]
    rfl

/-- The read that comes so many items behind the newest one, when all reads up to it are done. -/
def walkResult (setup : StorageSetup) (device : Device) (times : Bool) (value : Option ℕ) (item : ℕ) : ReadResult :=
  itemResult setup device ((previousOffset setup)^[item + 1] setup.currentOffset) (device.result item) times value

/-- An item of the walk is there. -/
def Present (setup : StorageSetup) (device : Device) (item : ℕ) : Prop :=
  0 < (walkResult setup device false none item).rc

instance (setup : StorageSetup) (device : Device) (item : ℕ) : Decidable (Present setup device item) :=
  inferInstanceAs (Decidable (_ < _))

theorem readItem_walk (item : ℕ) (times : Bool) (value : Option ℕ) :
    readItem setup ((previousOffset setup)^[item] setup.currentOffset) times value (device.skip item) =
      ((walkResult setup device times value item, (previousOffset setup)^[item + 1] setup.currentOffset),
        device.skip (item + 1)) := by
  rw [readItem_eq, walkResult, Function.iterate_succ_apply', Device.result_skip, Device.skip_skip]
  rfl

/-- A read behind items that are there. -/
theorem readIndex_walk (times : Bool) (value : Option ℕ) (index : ℕ) : ∀ item,
    (∀ earlier, item ≤ earlier → earlier < item + index → Present setup device earlier) →
    (readIndex setup times value index ((previousOffset setup)^[item] setup.currentOffset)
      (device.skip item)).1 = walkResult setup device times value (item + index) := by
  induction index with
  | zero =>
    intro item _
    simp only [readIndex, run_bind, readItem_walk]
    rfl
  | succ index ih =>
    intro item present
    have here : 0 < (walkResult setup device false none item).rc :=
      present item (Nat.le_refl item) (by omega)
    simp only [readIndex, run_bind, readItem_walk, here, if_true]
    rw [ih (item + 1) fun earlier lower upper => present earlier (by omega) (by omega)]
    congr 1
    omega

/-- A read that ends at an item in front of its own. -/
theorem readIndex_stopped (times : Bool) (value : Option ℕ) (index : ℕ) : ∀ item stop,
    (∀ earlier, item ≤ earlier → earlier < stop → Present setup device earlier) →
    item ≤ stop → stop < item + index → ¬ Present setup device stop →
    (readIndex setup times value index ((previousOffset setup)^[item] setup.currentOffset)
      (device.skip item)).1 = { rc := (walkResult setup device false none stop).rc } := by
  induction index with
  | zero =>
    intro item stop _ lower upper
    omega
  | succ index ih =>
    intro item stop present lower upper missing
    by_cases here : item = stop
    · subst here
      have none : ¬ 0 < (walkResult setup device false none item).rc := missing
      simp only [readIndex, run_bind, readItem_walk, none, if_false]
      rfl
    · have first : 0 < (walkResult setup device false none item).rc :=
        present item (Nat.le_refl item) (by omega)
      simp only [readIndex, run_bind, readItem_walk, first, if_true]
      exact ih (item + 1) stop (fun earlier above below => present earlier (by omega) below) (by omega) (by omega)
        missing

end Codes

section Tests

/-- The call of `is_erased` for an index of the buffer, with the chunk of an address in it. -/
structure SlotTest where
  data : Buffer
  chunk : ℕ
  index : ℕ

/-- The address that a test is for. -/
def SlotTest.address (test : SlotTest) : ℕ := test.chunk + test.index

/-- `is_erased` reads a byte of the time when all bytes before it are erased. -/
def SlotTest.Accesses (eraseValue : UInt8) (test : SlotTest) (query : ℕ) : Prop :=
  ∃ offset < timeSize, query = test.index + offset ∧
    ∀ earlier < offset, test.data (test.index + earlier) = eraseValue

/-- The indices that the inner loop tests. -/
def testedIndices (setup : StorageSetup) (data : Buffer) (address : ℕ) : ℕ → ℕ → List ℕ
  | 0, _ => []
  | fuel + 1, index =>
    if index < maxItemSize ∧ address + index < setup.endOffset then
      index :: if isErased data index timeSize setup.eraseValue then []
        else testedIndices setup data address fuel (index + setup.itemSize)
    else []

/-- The tests in a chunk. -/
def chunkTests (setup : StorageSetup) (data : Buffer) (address : ℕ) : List SlotTest :=
  (testedIndices setup data address maxItemSize 0).map (SlotTest.mk data address)

/-- The tests of the outer loop. -/
def scanTests (setup : StorageSetup) : ℕ → ℕ → Buffer → Device → List SlotTest
  | 0, _, _, _ => []
  | fuel + 1, address, data, device =>
    if address < setup.endOffset then
      let read := readMemory address data 0 maxItemSize device
      if read.1.1 = 0 then
        chunkTests setup read.1.2 address ++
          match findErased setup read.1.2 address maxItemSize 0 with
          | some _ => []
          | none => scanTests setup fuel (address + maxItemSize) read.1.2 read.2
      else scanTests setup fuel (address + maxItemSize) read.1.2 read.2
    else []

/-- The tests of `appl_storage_init_offset`. -/
def initTests (setup : StorageSetup) (device : Device) : List SlotTest :=
  let read := readMemory setup.headersOffset device.stack 0 headerSize device
  if read.1.1 = 0 ∧ headerMatches setup read.1.2 then
    scanTests setup (setup.endOffset - setup.startOffset) setup.startOffset read.1.2 read.2
  else []

section Inner

variable {setup : StorageSetup} {data : Buffer} {address : ℕ}

/-- The loop ends with the first test that finds a slot erased. -/
theorem findErased_eq (fuel index : ℕ) :
    findErased setup data address fuel index =
      ((testedIndices setup data address fuel index).find? fun index =>
        isErased data index timeSize setup.eraseValue).map (address + ·) := by
  induction fuel generalizing index with
  | zero => rfl
  | succ fuel ih =>
    simp only [findErased, testedIndices]
    by_cases inside : index < maxItemSize ∧ address + index < setup.endOffset
    · rw [if_pos inside, if_pos inside]
      cases erased : isErased data index timeSize setup.eraseValue with
      | true => simp [erased]
      | false =>
        simp only [Bool.false_eq_true, if_false, List.find?_cons, erased]
        exact ih _
    · rw [if_neg inside, if_neg inside]
      rfl

/-- A tested index is in the buffer and in the section, some items behind the first one. -/
theorem testedIndices_mem {fuel index tested : ℕ}
    (found : tested ∈ testedIndices setup data address fuel index) :
    tested < maxItemSize ∧ address + tested < setup.endOffset ∧
      ∃ count, tested = index + count * setup.itemSize := by
  induction fuel generalizing index with
  | zero => contradiction
  | succ fuel ih =>
    simp only [testedIndices] at found
    split at found
    · next inside =>
      rcases List.mem_cons.mp found with rfl | later
      · exact ⟨inside.1, inside.2, 0, by omega⟩
      · split at later
        · contradiction
        · obtain ⟨buffer, section', count, rfl⟩ := ih later
          exact ⟨buffer, section', count + 1, by rw [Nat.succ_mul]; omega⟩
    · contradiction

/-- The loop gets to every index before which it has found nothing. -/
theorem mem_testedIndices {fuel index count : ℕ} (enough : count < fuel)
    (buffer : index + count * setup.itemSize < maxItemSize)
    (inSection : address + (index + count * setup.itemSize) < setup.endOffset)
    (used : ∀ earlier < count,
      isErased data (index + earlier * setup.itemSize) timeSize setup.eraseValue = false) :
    index + count * setup.itemSize ∈ testedIndices setup data address fuel index := by
  induction count generalizing fuel index with
  | zero =>
    obtain ⟨fuel, rfl⟩ : ∃ rest, fuel = rest + 1 := ⟨fuel - 1, by omega⟩
    rw [Nat.zero_mul, Nat.add_zero] at buffer inSection ⊢
    rw [testedIndices, if_pos ⟨buffer, inSection⟩]
    exact List.mem_cons_self
  | succ count ih =>
    obtain ⟨fuel, rfl⟩ : ∃ rest, fuel = rest + 1 := ⟨fuel - 1, by omega⟩
    have shift (count : ℕ) :
        index + (count + 1) * setup.itemSize = index + setup.itemSize + count * setup.itemSize := by
      rw [Nat.succ_mul]
      omega
    rw [shift] at buffer inSection ⊢
    have first : isErased data index timeSize setup.eraseValue = false := by
      simpa using used 0 (Nat.succ_pos count)
    rw [testedIndices, if_pos ⟨by omega, by omega⟩, if_neg (by simp [first])]
    refine List.mem_cons_of_mem _ (ih (by omega) buffer inSection fun earlier bound => ?_)
    rw [← shift]
    exact used (earlier + 1) (by omega)

end Inner

end Tests

end CoapsClient.ApplStorage
