import CoapsClient.Model.Scale.Calibration
import CoapsClient.Model.Storage.Walks

/-! # Saving a calibration and its storage

`scale_save_external_calibration`, and what a call of `scale_calibrate` writes with it. Whether the storage
takes the bytes is only logged. What is written here is what `scale_read_external_calibration` reads when a
sensor is initialised.

`scale_save_external_calibration` and `scale_read_external_calibration` with the section they write to and read
from, two pages of the EEPROM of the channel, and what else happens to this section: it is initialised when the
sensor is, cleared by a command, and read and written with results of all kinds in between.
-/

namespace CoapsClient.Nau7802

open Math (bigEndian)
open ApplStorage Machine

/-- `sys_put_be24`; the value is taken as `uint32_t`. -/
def sysPutBe24 (value : Int) : List UInt8 := bigEndian 3 (value % 4294967296).toNat

/-- The bytes of a calibration in the storage, padded to `CALIBRATE_VALUE_SIZE`. -/
def Calibration.bytes (calibration : Calibration) : List UInt8 :=
  sysPutBe24 calibration.offset ++ sysPutBe24 calibration.divider ++
    sysPutBe24 calibration.calibrationTemperature ++ bigEndian 2 calibration.avref ++
    List.replicate (valueSize - 11) 0

/-- `scale_save_external_calibration`: the bytes it writes, for a channel whose sensor answers. -/
def scaleSaveExternalCalibration (channel : Channel) : Option (List UInt8) :=
  if channel.i2cOk then some channel.externalCalibration.bytes else none

/-- What a call of `scale_calibrate` writes for channel A and for channel B. A call that saves does it
last, so it writes the channels as it leaves them. -/
def scaleCalibrateSaves (env : Env) (scale : Scale) (phase : Phase) :
    List (Option (List UInt8) × Option (List UInt8)) :=
  let next := (scaleCalibrate env scale phase).2
  if next.saves = scale.saves then []
  else [(scaleSaveExternalCalibration next.a, scaleSaveExternalCalibration next.b)]

/-- A channel with other values as offset and divider. -/
def Channel.holding (channel : Channel) (values : Int × Int) : Channel :=
  { channel with
    externalCalibration := { channel.externalCalibration with offset := values.1, divider := values.2 } }

@[simp] theorem holding_values (channel : Channel) : channel.holding channel.values = channel := rfl

/-- The values that fit the bytes of a calibration. -/
structure Calibration.Fits (calibration : Calibration) : Prop where
  offset : -8388608 ≤ calibration.offset ∧ calibration.offset < 8388608
  divider : 0 ≤ calibration.divider ∧ calibration.divider < 16777216
  temperature : -8388608 ≤ calibration.calibrationTemperature ∧
    calibration.calibrationTemperature < 8388608
  avref : calibration.avref < 65536

section ReadBack

variable {calibration : Calibration} {value : Int}

@[simp] theorem sysPutBe24_length : (sysPutBe24 value).length = 3 := Math.bigEndian_length ..

private theorem ofBigEndian_sysPutBe24 : Math.ofBigEndian (sysPutBe24 value) = (value % 16777216).toNat := by
  rw [sysPutBe24, Math.ofBigEndian_bigEndian]
  omega

/-- The sign of a 24 bit value is found again. -/
private theorem expandSign24_sysPutBe24 (low : -8388608 ≤ value) (high : value < 8388608) :
    expandSign24 (Math.ofBigEndian (sysPutBe24 value)) = value := by
  rw [ofBigEndian_sysPutBe24, expandSign24]
  split <;> omega

@[simp] theorem bytes_length : calibration.bytes.length = valueSize := by
  simp [Calibration.bytes, valueSize]

private theorem ofBytes_bytes (fits : calibration.Fits) :
    Calibration.ofBytes calibration.bytes =
      { calibration with divider := normalizeDivider calibration.divider } := by
  have offset : calibration.bytes.take 3 = sysPutBe24 calibration.offset := by
    simp [Calibration.bytes]
  have divider : (calibration.bytes.drop 3).take 3 = sysPutBe24 calibration.divider := by
    simp [Calibration.bytes]
  have temperature : (calibration.bytes.drop 6).take 3 = sysPutBe24 calibration.calibrationTemperature := by
    simp [Calibration.bytes, List.drop_append, List.take_append]
  have avref : (calibration.bytes.drop 9).take 2 = bigEndian 2 calibration.avref := by
    simp [Calibration.bytes, List.drop_append, List.drop_eq_nil_of_le]
  have small : calibration.avref % 256 ^ 2 = calibration.avref := Nat.mod_eq_of_lt fits.avref
  rw [Calibration.ofBytes, offset, divider, temperature, avref, expandSign24_sysPutBe24 fits.offset.1
    fits.offset.2, expandSign24_sysPutBe24 fits.temperature.1 fits.temperature.2, ofBigEndian_sysPutBe24,
    Math.ofBigEndian_bigEndian, small]
  have whole : ((calibration.divider % 16777216).toNat : Int) = calibration.divider := by
    have bounds := fits.divider
    omega
  rw [whole]

/-- The bytes of a calibration are read as this calibration, if the reference is the same or not looked at. -/
theorem read_bytes (fits : calibration.Fits) (held : Calibration)
    (same : calibration.divider = dummyAdcDivider ∨ calibration.avref = held.avref)
    (positive : 0 < calibration.divider) (normal : normalizeDivider calibration.divider = calibration.divider) :
    held.read (.ok calibration.bytes) = calibration := by
  have decoded : Calibration.ofBytes calibration.bytes = calibration := by
    rw [ofBytes_bytes fits, normal]
  simp only [Calibration.read, bytes_length, ne_eq, not_true_eq_false, if_false, decoded, positive, same,
    and_self, if_true]

/-- The bytes of a calibration without a divider disable the channel. -/
theorem read_bytes_disabled (fits : calibration.Fits) (held : Calibration) (zero : calibration.divider = 0) :
    held.read (.ok calibration.bytes) = held.disabled := by
  have decoded : (Calibration.ofBytes calibration.bytes).divider = 0 := by
    rw [ofBytes_bytes fits, zero]
    rfl
  simp only [Calibration.read, bytes_length, ne_eq, not_true_eq_false, if_false, decoded, Int.lt_irrefl,
    false_and]

/-- A channel reads back what it has saved. -/
theorem scaleReadExternalCalibration_saved {answers : Answers} {channel : Channel} {bytes : List UInt8}
    (fits : channel.externalCalibration.Fits) (positive : 0 < channel.externalCalibration.divider)
    (normal : normalizeDivider channel.externalCalibration.divider = channel.externalCalibration.divider)
    (saved : scaleSaveExternalCalibration channel = some bytes) :
    scaleReadExternalCalibration { answers with stored := .ok bytes } channel = channel := by
  simp only [scaleSaveExternalCalibration] at saved
  split at saved
  · obtain rfl := Option.some_inj.mp saved
    simp only [scaleReadExternalCalibration, read_bytes fits _ (.inr rfl) positive normal]
  · contradiction

end ReadBack

/-- An entry of `calibration_storage_configs`, by `CALIBRATION_A_ID` or `CALIBRATION_B_ID`. -/
def calibrationStorageConfig (id : Int) : StorageConfig where
  isFlashDevice := false
  id
  magic := 0x03400560
  version := 1
  pages := 2
  valueSize

/-- `scale_save_external_calibration`, with the result of the write and the table behind it. Without an answer
of the sensor nothing is written. -/
def saveExternalCalibration (setups : List StorageSetup) (id now : Int) (channel : Channel) :
    StateM Device (Option Int × List StorageSetup) :=
  match scaleSaveExternalCalibration channel with
  | some bytes => do
    let (rc, setups) ← writeBytesItem setups id now bytes
    return (some rc, setups)
  | none => return (none, setups)

/-- What a read of the storage answers to a channel. -/
def storedAnswer (result : ReadResult) : Except Int (List UInt8) :=
  if result.rc = valueSize then .ok result.value else .error result.rc

/-- `scale_read_external_calibration`, on the storage. -/
def readExternalCalibration (setups : List StorageSetup) (id : Int) (channel : Channel) :
    StateM Device Channel := do
  let result ← readBytesItem setups id 0 false (some valueSize)
  return scaleReadExternalCalibration { stored := storedAnswer result } channel

/-- What happens to the section of a calibration. -/
inductive StorageUse where
  /-- `appl_storage_add`. -/
  | add
  /-- `appl_storage_clear`. -/
  | clear
  | write (time : Int) (value : List UInt8)
  | read (index : ℕ) (times : Bool) (value : Option ℕ)
deriving DecidableEq, Repr

/-- The section and its device behind a use; an entry that is not initialised is not found. -/
def useStorage (id : Int) (state : StorageSetup × Device) : StorageUse → StorageSetup × Device
  | .add =>
    let added := addSection state.1 (calibrationStorageConfig id) 0 state.2
    (added.1.2, added.2)
  | .clear =>
    let formatted := format state.1 state.2
    (formatted.1.2, formatted.2)
  | .write time value =>
    if state.1.initState = .initialized then
      let written := writeItem state.1 time value state.2
      (written.1.2, written.2)
    else state
  | .read index times value =>
    if state.1.initState = .initialized then
      (state.1, (readIndex state.1 times value index state.1.currentOffset state.2).2)
    else state

/-- A use takes section and device to those behind it, with whatever result. -/
def UsesStorage (id : Int) (state : StorageSetup × Device) (use : StorageUse) (next : StorageSetup × Device) :
    Prop :=
  useStorage id state use = next

end CoapsClient.Nau7802
