import CoapsClient.Model.Storage.Device
import CoapsClient.Math.BigEndian

/-! # Storage sections, their initialisation and their items

A section is a header followed by slots of `itemSize` bytes up to `endOffset`. The write position
is not stored: `initOffset` finds it again by scanning for the first slot whose time field is
erased, and formats the section when the header differs or no such slot is found.

Offsets are natural numbers; every section lies far below the range of the C types.

`writeItem` prepares the slot after the current one before it fills the current one: a flash
recycles the whole page of the next slot, an EEPROM erases a single byte of it. Reading walks
backwards from the write position until it meets an erased slot.

C's `rc = rc || f(..)` turns every failure into `1`; `orElseRun` keeps that.
-/

namespace CoapsClient.ApplStorage

open Machine Math

/-- `TIME_SIZE`. -/
def timeSize : ℕ := 6
/-- `MAX_VALUE_SIZE`. -/
def maxValueSize : ℕ := 26
/-- `MAX_ITEM_SIZE`. -/
def maxItemSize : ℕ := timeSize + maxValueSize
/-- `HEADER_SIZE`. -/
def headerSize : ℕ := 10
/-- `MSEC_PER_SEC`. -/
def msecPerSec : ℕ := 1000

/-- `struct storage_config`; the device itself is the state of the operations. -/
structure StorageConfig where
  isFlashDevice : Bool
  id : Int
  magic : ℕ
  version : ℕ
  pages : ℕ
  valueSize : ℕ
deriving DecidableEq, Repr

inductive StorageInitState where
  | notInitialized
  | initialized
  | initializeError
deriving DecidableEq, Repr

/-- `struct storage_setup`. -/
structure StorageSetup where
  config : StorageConfig
  header : List UInt8
  eraseValue : UInt8
  initState : StorageInitState
  pageSize : ℕ
  itemSize : ℕ
  headersOffset : ℕ
  startOffset : ℕ
  currentOffset : ℕ
  endOffset : ℕ
deriving DecidableEq, Repr

/-- `appl_storage_setup`: the initialised section with this id. -/
def applStorageSetup (setups : List StorageSetup) (id : Int) : Option StorageSetup :=
  if id ≠ 0 then
    setups.find? fun setup => setup.config.id == id && setup.initState == .initialized
  else none

/-- `appl_storage_init_headers`; its result is not used. -/
def initHeaders (setup : StorageSetup) : StateM Device Unit := do
  let _ ← writeMemory setup.headersOffset setup.header

/-- `appl_storage_format`. -/
def format (setup : StorageSetup) : StateM Device (Int × StorageSetup) := do
  let rc ← eraseMemory setup.config.isFlashDevice setup.headersOffset
    (setup.endOffset - setup.headersOffset)
  if rc < 0 then
    return (rc, setup)
  else
    initHeaders setup
    return (rc, { setup with currentOffset := setup.startOffset })

/-- The inner loop of `appl_storage_init_offset`: the first erased slot of a chunk. -/
def findErased (setup : StorageSetup) (data : Buffer) (address : ℕ) : ℕ → ℕ → Option ℕ
  | 0, _ => none
  | fuel + 1, index =>
      if index < maxItemSize ∧ address + index < setup.endOffset then
        if isErased data index timeSize setup.eraseValue then some (address + index)
        else findErased setup data address fuel (index + setup.itemSize)
      else none

/-- The outer loop of `appl_storage_init_offset`. A chunk that cannot be read is passed over. -/
def scanChunks (setup : StorageSetup) : ℕ → ℕ → Buffer → StateM Device (Int × StorageSetup)
  | 0, _, _ => format setup
  | fuel + 1, address, data =>
      if address < setup.endOffset then do
        let (rc, data) ← readMemory address data 0 maxItemSize
        if rc = 0 then
          match findErased setup data address maxItemSize 0 with
          | some offset => return (rc, { setup with currentOffset := offset })
          | none => scanChunks setup fuel (address + maxItemSize) data
        else scanChunks setup fuel (address + maxItemSize) data
      else format setup

/-- `memcmp(data, setup->header, sizeof(setup->header)) == 0`. -/
def headerMatches (setup : StorageSetup) (data : Buffer) : Bool :=
  (List.range headerSize).all fun index => data index == setup.header.getD index 0

/-- `appl_storage_init_offset`. The scan takes at most one turn for each byte of the section. -/
def initOffset (setup : StorageSetup) : StateM Device (Int × StorageSetup) := do
  let device ← get
  let (rc, data) ← readMemory setup.headersOffset device.stack 0 headerSize
  if rc = 0 then
    if headerMatches setup data then
      scanChunks setup (setup.endOffset - setup.startOffset) setup.startOffset data
    else format setup
  else return (rc, setup)

/-- `while (header_size < HEADER_SIZE) header_size += item_size`. -/
def headerSlots (itemSize : ℕ) : ℕ → ℕ → ℕ
  | 0, size => size
  | fuel + 1, size => if size < headerSize then headerSlots itemSize fuel (size + itemSize) else size

/-- The header as `appl_storage_init_setup` lays it out. -/
def headerOf (config : StorageConfig) : List UInt8 :=
  bigEndian 4 config.magic ++ bigEndian 4 config.version ++ bigEndian 2 config.valueSize

/-- The fields `appl_storage_init_setup` computes before it looks for the write position. -/
def setupOf (config : StorageConfig) (initState : StorageInitState) (start pageSize : ℕ)
    (eraseValue : UInt8) : StorageSetup :=
  let itemSize := config.valueSize + timeSize
  let startOffset := start + headerSlots itemSize headerSize itemSize
  { config, initState, eraseValue, pageSize, itemSize, startOffset
    header := headerOf config
    headersOffset := start
    currentOffset := startOffset
    endOffset := start + config.pages * pageSize }

/-- `appl_storage_init_setup`; a failed page lookup leaves the entry as it was. -/
def initSetup (setup : StorageSetup) (config : StorageConfig) (start : ℕ) :
    StateM Device (Int × StorageSetup) := do
  let (rc, info) ← getPageInfoByOffs config.isFlashDevice start
  if rc = 0 then
    let eraseValue ← getEraseValue config.isFlashDevice
    initOffset (setupOf config setup.initState start info.size eraseValue)
  else return (rc, setup)

/-- What `appl_storage_init` and `appl_storage_add` do for one section. -/
def addSection (setup : StorageSetup) (config : StorageConfig) (start : ℕ) :
    StateM Device (Int × StorageSetup) := do
  let (rc, setup) ← initSetup setup config start
  return (rc, { setup with initState := if rc = 0 then .initialized else .initializeError })

/-- `rc || action()`: the action runs only after success, and every failure becomes one. -/
def orElseRun (rc : Int) (action : StateM Device Int) : StateM Device Int := do
  if rc = 0 then
    let result ← action
    return if result = 0 then 0 else 1
  else return 1

/-- `(time / MSEC_PER_SEC) & 0x7fffffffffffL`. -/
def timeField (time : Int) : ℕ := (time.tdiv msecPerSec % 2 ^ 47).toNat

/-- The two reads of `appl_storage_write_item`: the slot content, the first byte of the next slot
behind it, and where that next slot is. -/
def readCurrent (setup : StorageSetup) : StateM Device (Int × Buffer × ℕ) := do
  let data : Buffer := fun _ => 0
  if setup.currentOffset + (setup.itemSize + 1) ≤ setup.endOffset then
    let (rc, data) ← readMemory setup.currentOffset data 0 (setup.itemSize + 1)
    return (rc, data, setup.currentOffset + setup.itemSize)
  else
    let (rc, data) ← readMemory setup.currentOffset data 0 setup.itemSize
    if rc = 0 then
      let (rc, data) ← readMemory setup.startOffset data setup.itemSize 1
      return (if rc = 0 then 0 else 1, data, setup.startOffset)
    else return (1, data, setup.startOffset)

/-- The page of a used next slot is erased ahead; the first page gets its header back. -/
def recyclePage (setup : StorageSetup) (next : ℕ) : StateM Device Int := do
  let (rc, info) ← getPageInfoByOffs setup.config.isFlashDevice next
  let rc ← orElseRun rc (eraseMemory setup.config.isFlashDevice info.startOffset info.size)
  if rc = 0 ∧ info.startOffset = setup.headersOffset then initHeaders setup
  return rc

/-- Make room behind the slot that is going to be written. -/
def prepareNext (setup : StorageSetup) (first : UInt8) (next : ℕ) : StateM Device Int :=
  if first ≠ setup.eraseValue then
    if setup.config.isFlashDevice then recyclePage setup next
    else eraseMemory setup.config.isFlashDevice next 1
  else return 0

/-- The bytes of an item: time, value and, behind a short value, what the slot held before. -/
def itemBytes (setup : StorageSetup) (data : Buffer) (time : Int) (value : List UInt8) : List UInt8 :=
  let valueSize := min value.length setup.config.valueSize
  let data := data.load 0 timeSize fun index => (bigEndian timeSize (timeField time)).getD index 0
  let data := data.load timeSize valueSize fun index => value.getD index 0
  (List.range setup.itemSize).map data

/-- `appl_storage_write_item`. -/
def writeItem (setup : StorageSetup) (time : Int) (value : List UInt8) :
    StateM Device (Int × StorageSetup) := do
  let (rc, data, next) ← readCurrent setup
  if rc = 0 then
    let rc ← prepareNext setup (data setup.itemSize) next
    let rc ← orElseRun rc (writeMemory setup.currentOffset (itemBytes setup data time value))
    return (rc, if rc = 0 then { setup with currentOffset := next } else setup)
  else return (rc, setup)

/-- What `appl_storage_read_item` delivers through its result and its pointers. -/
structure ReadResult where
  rc : Int
  time : Option ℕ := none
  value : List UInt8 := []
deriving DecidableEq, Repr

/-- The position `appl_storage_read_item` reads from. -/
def previousOffset (setup : StorageSetup) (current : ℕ) : ℕ :=
  (if current = setup.startOffset then setup.endOffset else current) - setup.itemSize

/-- `appl_storage_read_item`; `value` is the size of the caller's array, `none` for `NULL`. -/
def readItem (setup : StorageSetup) (current : ℕ) (times : Bool) (value : Option ℕ) :
    StateM Device (ReadResult × ℕ) := do
  let offset := previousOffset setup current
  let device ← get
  let (rc, data) ← readMemory offset device.stack 0 setup.itemSize
  if rc = 0 then
    if isErased data 0 timeSize setup.eraseValue then
      return ({ rc := 0 }, offset)
    else
      let time := if times then
        some (ofBigEndian ((List.range timeSize).map data) * msecPerSec) else none
      match value with
      | none => return ({ rc := setup.config.valueSize, time }, offset)
      | some size =>
          let count := min size setup.config.valueSize
          let bytes := (List.range count).map fun index => data (timeSize + index)
          return ({ rc := count, time, value := bytes }, offset)
  else return ({ rc }, offset)

/-- The loop of `appl_storage_read_bytes_item`: step over `index` items, then read one. -/
def readIndex (setup : StorageSetup) (times : Bool) (value : Option ℕ) :
    ℕ → ℕ → StateM Device ReadResult
  | 0, current => do
      let (result, _) ← readItem setup current times value
      return result
  | index + 1, current => do
      let (result, current) ← readItem setup current false none
      if 0 < result.rc then readIndex setup times value index current else return { rc := result.rc }

/-- `-EINVAL`. -/
def einval : Int := -22

/-- `appl_storage_read_bytes_item`. -/
def readBytesItem (setups : List StorageSetup) (id : Int) (index : ℕ) (times : Bool)
    (value : Option ℕ) : StateM Device ReadResult :=
  match applStorageSetup setups id with
  | some setup => readIndex setup times value index setup.currentOffset
  | none => return { rc := einval }

end CoapsClient.ApplStorage
