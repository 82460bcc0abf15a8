import CoapsClient.Machine.Memory

/-! # The storage device behind `appl_storage`

A device is its memory, what its driver documents (page size, erase value, how a byte is programmed
over an old one) and a script of results for the coming operations: an operation takes the head of
`faults`, an exhausted script succeeds. A failing operation has no effect. `effects` records the
writes and erases that were carried out, oldest first. A device that is not ready is one whose
operations all fail.

A flash device erases with its own erase value; an EEPROM has no erase operation and
`eraseMemory` writes blocks of `0xff` instead.
-/

namespace CoapsClient.ApplStorage

open Machine

/-- `EEPROM_BLOCK_SIZE`. -/
def eepromBlockSize : ℕ := 128

/-- A local byte array of the C code. What lies behind its end is whatever the stack holds. -/
abbrev Buffer := ℕ → UInt8

/-- Overwrite `count` bytes of a buffer, starting at `index`. -/
def Buffer.load (data : Buffer) (index count : ℕ) (bytes : ℕ → UInt8) : Buffer := fun query =>
  if index ≤ query ∧ query < index + count then bytes (query - index) else data query

structure Device where
  memory : Memory
  merge : UInt8 → UInt8 → UInt8
  pageSize : ℕ
  eraseValue : UInt8
  /-- Content of local arrays that the code does not initialise. -/
  stack : Buffer := fun _ => 0
  faults : List Int := []
  effects : List Effect := []

/-- The result of the next device operation. -/
def attempt : StateM Device Int := fun device =>
  match device.faults with
  | [] => (0, device)
  | rc :: rest => (rc, { device with faults := rest })

/-- Carry out an effect. -/
def perform (effect : Effect) : StateM Device Unit := fun device =>
  ((), { device with
    memory := effect.apply device.merge device.memory
    effects := device.effects ++ [effect] })

/-- `appl_storage_read_memory`: `count` bytes at `address` into `data[index ..]`. -/
def readMemory (address : ℕ) (data : Buffer) (index count : ℕ) : StateM Device (Int × Buffer) := do
  let rc ← attempt
  if rc = 0 then
    let device ← get
    return (rc, data.load index count fun offset => device.memory (address + offset))
  else
    return (rc, data)

/-- `appl_storage_write_memory`. -/
def writeMemory (address : ℕ) (bytes : List UInt8) : StateM Device Int := do
  let rc ← attempt
  if rc = 0 then perform (.program address bytes)
  return rc

/-- `appl_flash_storage_erase_memory`. -/
def flashEraseMemory (address count : ℕ) : StateM Device Int := do
  let rc ← attempt
  if rc = 0 then
    let device ← get
    perform (.fill address count device.eraseValue)
  return rc

/-- The loop of `appl_eeprom_storage_erase_memory`: full blocks until `count` is used up. -/
def eepromEraseBlocks : ℕ → ℕ → ℕ → StateM Device Int
  | 0, _, _ => return 0
  | fuel + 1, address, count =>
      if 0 < count then do
        let blockBytes := min count eepromBlockSize
        let rc ← writeMemory address (List.replicate blockBytes 0xff)
        if rc = 0 then eepromEraseBlocks fuel (address + blockBytes) (count - blockBytes) else return rc
      else return 0

/-- `appl_eeprom_storage_erase_memory`; every turn of the loop erases at least one byte. -/
def eepromEraseMemory (address count : ℕ) : StateM Device Int :=
  eepromEraseBlocks count address count

/-- `appl_storage_erase_memory`. -/
def eraseMemory (isFlashDevice : Bool) (address count : ℕ) : StateM Device Int :=
  if isFlashDevice then flashEraseMemory address count else eepromEraseMemory address count

/-- The part of `struct flash_pages_info` that is used. -/
structure PageInfo where
  startOffset : ℕ
  size : ℕ
deriving DecidableEq, Repr

/-- `appl_storage_get_page_info_by_offs`, for a device with pages of one size. -/
def getPageInfoByOffs (isFlashDevice : Bool) (address : ℕ) : StateM Device (Int × PageInfo) :=
  if isFlashDevice then do
    let rc ← attempt
    let device ← get
    return (rc, ⟨address / device.pageSize * device.pageSize, device.pageSize⟩)
  else
    return (0, ⟨address / eepromBlockSize * eepromBlockSize, eepromBlockSize⟩)

/-- `appl_storage_get_erase_value`. -/
def getEraseValue (isFlashDevice : Bool) : StateM Device UInt8 := do
  let device ← get
  return if isFlashDevice then device.eraseValue else 0xff

/-- `is_erased(&data[index], len, erase_value)`. -/
def isErased (data : Buffer) (index len : ℕ) (eraseValue : UInt8) : Bool :=
  (List.range len).all fun offset => data (index + offset) == eraseValue

theorem isErased_iff {data : Buffer} {index len : ℕ} {eraseValue : UInt8} :
    isErased data index len eraseValue = true ↔ Uniform data index len eraseValue := by
  simp [isErased, Uniform]

section Buffer

variable {data : Buffer} {index count query : ℕ} {bytes : ℕ → UInt8}

theorem Buffer.load_inside (lower : index ≤ query) (upper : query < index + count) :
    data.load index count bytes query = bytes (query - index) :=
  if_pos ⟨lower, upper⟩

theorem Buffer.load_outside (outside : query < index ∨ index + count ≤ query) :
    data.load index count bytes query = data query :=
  if_neg (by omega)

end Buffer

/-- The device after an effect that was carried out. -/
def Device.after (device : Device) (effects : List Effect) : Device :=
  { device with
    memory := replay device.merge device.memory effects
    effects := device.effects ++ effects }

section Healthy

variable {device : Device}

@[simp] theorem Device.after_nil : device.after [] = device := by
  simp [Device.after]

@[simp] theorem Device.after_after (first second : List Effect) :
    (device.after first).after second = device.after (first ++ second) := by
  simp [Device.after, replay_append]

@[simp] theorem Device.after_faults (effects : List Effect) :
    (device.after effects).faults = device.faults := rfl

@[simp] theorem Device.after_memory (effects : List Effect) :
    (device.after effects).memory = replay device.merge device.memory effects := rfl

@[simp] theorem Device.after_merge (effects : List Effect) : (device.after effects).merge = device.merge := rfl

@[simp] theorem Device.after_pageSize (effects : List Effect) :
    (device.after effects).pageSize = device.pageSize := rfl

@[simp] theorem Device.after_eraseValue (effects : List Effect) :
    (device.after effects).eraseValue = device.eraseValue := rfl

@[simp] theorem Device.after_effects (effects : List Effect) :
    (device.after effects).effects = device.effects ++ effects := rfl

variable (healthy : device.faults = [])
include healthy

omit healthy in
/-- A computation that only returns a value leaves the device alone. -/
theorem run_pure {α : Type} (value : α) : (pure value : StateM Device α) device = (value, device) := rfl

omit healthy in
theorem run_bind {α β : Type} (first : StateM Device α) (second : α → StateM Device β) :
    (first >>= second) device = second (first device).1 (first device).2 := rfl

omit healthy in
theorem run_get : (get : StateM Device Device) device = (device, device) := rfl

private theorem attempt_healthy : attempt device = (0, device) := by
  simp only [attempt, healthy]

theorem readMemory_healthy (address : ℕ) (data : Buffer) (index count : ℕ) :
    readMemory address data index count device =
      ((0, data.load index count fun offset => device.memory (address + offset)), device) := by
  simp only [readMemory, run_bind, attempt_healthy healthy, run_get, run_pure, ↓reduceIte]

theorem writeMemory_healthy (address : ℕ) (bytes : List UInt8) :
    writeMemory address bytes device = (0, device.after [.program address bytes]) := by
  simp only [writeMemory, run_bind, attempt_healthy healthy, run_pure, ↓reduceIte]
  rfl

theorem flashEraseMemory_healthy (address count : ℕ) :
    flashEraseMemory address count device =
      (0, device.after [.fill address count device.eraseValue]) := by
  simp only [flashEraseMemory, run_bind, attempt_healthy healthy, run_get, run_pure, ↓reduceIte]
  rfl

theorem getPageInfoByOffs_flash_healthy (address : ℕ) :
    getPageInfoByOffs true address device =
      ((0, ⟨address / device.pageSize * device.pageSize, device.pageSize⟩), device) := by
  simp only [getPageInfoByOffs, run_bind, attempt_healthy healthy, run_get, run_pure, ↓reduceIte]

end Healthy

end CoapsClient.ApplStorage
