import CoapsClient.Machine.Path
import CoapsClient.Math.BigEndian

/-! # Calibration of the scale

`scale_calibrate` of `nau7802.c` as a state machine over the two channels, with `scale_sample` beside it.
What the sensor and the storage of a channel answer to one call is its `Answers`: the accesses of
`scale_resume`, `scale_init_channel`, `scale_read_channel_value` and `scale_read_temperature` enter by
their result and by the fields they leave.

Channel B is checked and sampled by a work item while channel A is; the work touches only its own channel
and the caller waits for it, so the two follow one another here. The five seconds after which the caller
stops to wait are left out, as are the logs, the times and the LEDs.
-/

namespace CoapsClient.Nau7802

open Math (ofBigEndian)

/-- `calibrate_phase`. -/
inductive Phase where
  | none
  | start
  | zero
  | cha10kg
  | chb10kg
  | done
deriving DecidableEq, Repr

/-- The number of a phase. -/
def Phase.code : Phase → Int
  | none => 0
  | start => 1
  | zero => 2
  | cha10kg => 3
  | chb10kg => 4
  | done => 5

/-- `avdd_source`. -/
inductive AvddSource where
  | unknown
  | external
  | internal
deriving DecidableEq, Repr

/-- `-ENOENT`. -/
def enoent : Int := -2
/-- `-ENODATA`. -/
def enodata : Int := -61
/-- `-EINPROGRESS`. -/
def einprogress : Int := -119
/-- `-ENOTSUP`. -/
def enotsup : Int := -134

/-- `NAU7802_NONE_ADC_VALUE`, as `int32_t`. -/
def noneAdcValue : Int := -8388608
/-- `MIN_ADC_DIVIDER`. -/
def minAdcDivider : Int := 2000
/-- `DUMMY_ADC_DIVIDER`. -/
def dummyAdcDivider : Int := 100
/-- `SCALE_CALIBRATION_G`. -/
def calibrationG : Int := 10000
/-- `CALIBRATE_VALUE_SIZE`. -/
def valueSize : ℕ := 26

/-- `NORMALIZE_DIVIDER`. -/
def normalizeDivider (divider : Int) : Int :=
  if minAdcDivider ≤ divider ∨ divider = dummyAdcDivider then divider else 0

/-- `scale_calibrate`, the structure. -/
structure Calibration where
  offset : Int := noneAdcValue
  divider : Int := 0
  calibrationTemperature : Int := 0
  avref : ℕ := 2400
deriving DecidableEq, Repr

/-- `scale_config`. -/
structure Channel where
  externalCalibration : Calibration := {}
  i2cOk : Bool := false
  readTemperature : Bool := false
  source : AvddSource := .unknown
  gain : ℕ := 7
  internalOffset : Int := 0
  raw : Int := noneAdcValue
  weight : Int := 0
  temperature : Int := noneAdcValue
  previousOffset : Int := noneAdcValue
  previousDivider : Int := 0
deriving DecidableEq, Repr

/-- What sensor and storage of one channel answer to one call. -/
structure Answers where
  /-- `device_is_ready`. -/
  ready : Bool := true
  /-- `scale_read_ocal_value` of `scale_restart_channel`. -/
  ocal : Except Int Int := .ok 1
  /-- `scale_resume`, whether it gets to `scale_avdd`, and the internal offset where it calibrates the
  sensor. -/
  resume : Int := 0
  resumeAvdd : Bool := true
  resumeOffset : Option Int := none
  /-- `scale_init_channel` before it reads the stored calibration, whether it gets to `scale_avdd`, and what it
  leaves. -/
  init : Int := 0
  initAvdd : Bool := true
  initSource : AvddSource := .external
  initOffset : Int := 1
  initRaw : Int := 0
  /-- `appl_storage_read_bytes_item`: its error, or the bytes it reads. -/
  stored : Except Int (List UInt8) := .ok []
  /-- `scale_read_channel_value`: its error, or the value. -/
  value : Except Int Int := .ok 0
  /-- `scale_read_temperature`: its error or the temperature, and the raw value it leaves. -/
  temperature : Except Int Int := .ok 0
  temperatureRaw : Int := 0

/-- `expand_sign_24` of three bytes. -/
def expandSign24 (value : ℕ) : Int := if value < 8388608 then value else value - 16777216

/-- The calibration in the bytes of the storage. -/
def Calibration.ofBytes (bytes : List UInt8) : Calibration where
  offset := expandSign24 (ofBigEndian (bytes.take 3))
  divider := normalizeDivider (ofBigEndian ((bytes.drop 3).take 3))
  calibrationTemperature := expandSign24 (ofBigEndian ((bytes.drop 6).take 3))
  avref := ofBigEndian ((bytes.drop 9).take 2)

/-- A channel without a calibration. -/
def Calibration.disabled (calibration : Calibration) : Calibration :=
  { calibration with divider := 0, offset := 0 }

/-- The calibration of a channel behind `scale_read_external_calibration`. -/
def Calibration.read (calibration : Calibration) : Except Int (List UInt8) → Calibration
  | .error _ => calibration.disabled
  | .ok bytes =>
    if bytes.length ≠ valueSize then calibration.disabled
    else
      let cal := ofBytes bytes
      if 0 < cal.divider ∧ (cal.divider = dummyAdcDivider ∨ cal.avref = calibration.avref) then cal
      else calibration.disabled

/-- `scale_read_external_calibration`. -/
def scaleReadExternalCalibration (answers : Answers) (channel : Channel) : Channel :=
  { channel with externalCalibration := channel.externalCalibration.read answers.stored }

/-- `scale_resume`. -/
def scaleResume (answers : Answers) (channel : Channel) : Int × Channel :=
  (answers.resume,
    { channel with
      readTemperature := if answers.resumeAvdd ∧ channel.source ≠ .unknown then channel.source = .internal
        else channel.readTemperature
      internalOffset := answers.resumeOffset.getD channel.internalOffset })

/-- `scale_init_channel`. -/
def scaleInitChannel (answers : Answers) (channel : Channel) : Int × Channel :=
  let channel := { channel with
    source := if answers.initAvdd then answers.initSource else channel.source
    readTemperature := if answers.initAvdd then answers.initSource = .internal else channel.readTemperature
    internalOffset := answers.initOffset
    raw := answers.initRaw }
  (answers.init, if answers.init = 0 then scaleReadExternalCalibration answers channel else channel)

/-- The internal offset of the sensor is the one it was initialised with. -/
def sameSensor (answers : Answers) (channel : Channel) : Bool :=
  match answers.ocal with
  | .error _ => false
  | .ok offset => offset ≠ 0 ∧ channel.internalOffset = offset

/-- The end of `scale_restart_channel`. -/
def restarted (rc : Int) (channel : Channel) : Int × Channel :=
  if rc = 0 then (0, channel) else (rc, { channel with i2cOk := false, raw := noneAdcValue })

/-- `scale_restart_channel`. -/
def scaleRestartChannel (answers : Answers) (channel : Channel) : Int × Channel :=
  if answers.ready = false then (enotsup, channel)
  else
    let channel := { channel with weight := noneAdcValue, temperature := noneAdcValue }
    if channel.i2cOk ∧ sameSensor answers channel then
      if channel.externalCalibration.divider = 0 then (enodata, channel)
      else restarted (scaleResume answers channel).1 (scaleResume answers channel).2
    else
      let channel := { channel with i2cOk := true }
      restarted (scaleInitChannel answers channel).1 (scaleInitChannel answers channel).2

/-- `scale_check_channel`; the sensor is suspended. -/
def scaleCheckChannel (answers : Answers) (channel : Channel) : Channel :=
  (scaleRestartChannel answers channel).2

/-- `scale_read_channel_value`. -/
def scaleReadChannelValue (answers : Answers) (channel : Channel) : Int × Channel :=
  match answers.value with
  | .error rc => (rc, { channel with raw := noneAdcValue })
  | .ok value => (0, { channel with raw := value })

/-- `scale_read_temperature`. -/
def scaleReadTemperature (answers : Answers) (channel : Channel) : Int × Channel :=
  match answers.temperature with
  | .error rc => (rc, { channel with raw := answers.temperatureRaw })
  | .ok temperature => (0, { channel with raw := answers.temperatureRaw, temperature })

/-- The reading of `scale_sample_channel`. -/
def readChannel (answers : Answers) (channel : Channel) : Int × Channel :=
  let read := scaleReadChannelValue answers channel
  if read.1 = 0 then
    let channel := { read.2 with weight := read.2.raw }
    if channel.readTemperature then scaleReadTemperature answers channel else (0, channel)
  else read

/-- `scale_sample_channel` in the given phase. -/
def scaleSampleChannel (phase : Phase) (answers : Answers) (channel : Channel) : Int × Channel :=
  let restart := scaleRestartChannel answers channel
  if restart.1 = 0 then
    if phase = .start ∨ phase = .done then (enodata, restart.2)
    else
      let read := readChannel answers restart.2
      (if read.1 = 0 ∧ read.2.raw = noneAdcValue then enodata else read.1, read.2)
  else restart

/-- `scale_prepare_calibration`. -/
def scalePrepareCalibration (channel : Channel) : Channel :=
  { channel with
    previousOffset := channel.externalCalibration.offset
    previousDivider := channel.externalCalibration.divider
    externalCalibration := { channel.externalCalibration with divider := 1, offset := 0 } }

/-- `scale_restore_calibration`. -/
def scaleRestoreCalibration (channel : Channel) (offset : Bool) : Channel :=
  { channel with
    externalCalibration := { channel.externalCalibration with
      offset := if offset then channel.previousOffset else channel.externalCalibration.offset
      divider := channel.previousDivider } }

/-- `scale_calc_calibration`, on `int32_t`. -/
def scaleCalcCalibration (channel : Channel) : Channel :=
  let weight := channel.weight - channel.externalCalibration.offset
  { channel with
    externalCalibration := { channel.externalCalibration with
      divider := normalizeDivider
        ((((weight * 1000).bmod 4294967296 + calibrationG / 2 - 1).bmod 4294967296).tdiv calibrationG) } }

/-- The divider is normalized before it is saved. -/
def Channel.normalize (channel : Channel) : Channel :=
  { channel with
    externalCalibration := { channel.externalCalibration with
      divider := normalizeDivider channel.externalCalibration.divider } }

/-- A failed zero calibration. -/
def Channel.clear (channel : Channel) : Channel :=
  { channel with
    externalCalibration := { channel.externalCalibration with
      offset := 0, calibrationTemperature := 0, divider := 0 } }

/-- The channel can be calibrated with a weight. -/
def Channel.calibrates (channel : Channel) : Bool := channel.i2cOk ∧ 0 < channel.externalCalibration.divider

/-- A sampled zero, or the failure of it. -/
def Channel.zeroed (channel : Channel) (ok : Bool) : Channel :=
  if ok then
    { channel with
      externalCalibration := { channel.externalCalibration with
        offset := channel.weight, calibrationTemperature := channel.temperature } }
  else
    { channel with
      externalCalibration := { channel.externalCalibration with divider := 0, calibrationTemperature := 0 } }

/-- Offset and divider of a channel. -/
def Channel.values (channel : Channel) : Int × Int :=
  (channel.externalCalibration.offset, channel.externalCalibration.divider)

/-- The values a restore of a channel brings back. -/
def Channel.previous (channel : Channel) : Int × Int := (channel.previousOffset, channel.previousDivider)

structure Scale where
  /-- `configs[0]`. -/
  a : Channel := {}
  /-- `configs[1]`. -/
  b : Channel := {}
  /-- `current_calibrate_phase`. -/
  current : Phase := .none
  /-- `next_calibrate_phase`. -/
  next : Phase := .start
  /-- Offset and divider of both channels before the last `CALIBRATE_START`; not in the source. -/
  before : (Int × Int) × (Int × Int) := ((0, 0), (0, 0))
  /-- How often a calibration ended by saving; not in the source. -/
  saves : ℕ := 0
deriving DecidableEq, Repr

/-- Offset and divider of both channels. -/
def Scale.values (scale : Scale) : (Int × Int) × (Int × Int) := (scale.a.values, scale.b.values)

/-- What a restore of both channels brings back. -/
def Scale.previous (scale : Scale) : (Int × Int) × (Int × Int) := (scale.a.previous, scale.b.previous)

/-- What the two sensors answer to one call. -/
structure Env where
  a : Answers := {}
  b : Answers := {}

/-- How a phase ends: `stop`, `save` and `error` of `scale_calibrate`, or none of them. -/
inductive Ending where
  | goesOn
  | stop
  | save
  | error
deriving DecidableEq, Repr

/-- `CALIBRATE_START`. -/
def startPhase (env : Env) (scale : Scale) : Ending × Int × Scale :=
  (.goesOn, Phase.zero.code,
    { scale with
      a := scalePrepareCalibration (scaleCheckChannel env.a scale.a)
      b := scalePrepareCalibration (scaleCheckChannel env.b scale.b)
      current := .start
      next := .zero
      before := scale.values })

/-- Channel A in `CALIBRATE_ZERO`: the result of the sample decides. -/
def zeroA (env : Env) (channel : Channel) : Channel :=
  if channel.i2cOk then
    let sample := scaleSampleChannel .zero env.a channel
    sample.2.zeroed (sample.1 = 0)
  else channel.zeroed false

/-- Channel B in `CALIBRATE_ZERO`: the raw value decides. -/
def zeroB (env : Env) (channel : Channel) : Channel :=
  let channel := if channel.i2cOk then (scaleSampleChannel .zero env.b channel).2 else channel
  channel.zeroed (channel.i2cOk ∧ channel.raw ≠ noneAdcValue)

/-- `CALIBRATE_ZERO`. -/
def zeroPhase (env : Env) (rc : Int) (scale : Scale) : Ending × Int × Scale :=
  let scale := { scale with a := zeroA env scale.a, b := zeroB env scale.b, current := .zero }
  if scale.a.calibrates then (.goesOn, Phase.cha10kg.code, { scale with next := .cha10kg })
  else if scale.b.calibrates then (.goesOn, Phase.chb10kg.code, { scale with next := .chb10kg })
  else (.error, rc, scale)

/-- The sample of a channel with its weight, without a temperature. -/
def sampleWeight (phase : Phase) (answers : Answers) (channel : Channel) : Int × Channel :=
  scaleSampleChannel phase answers { channel with readTemperature := false }

/-- `CALIBRATE_CHA_10KG`. -/
def chaPhase (env : Env) (scale : Scale) : Ending × Int × Scale :=
  let sample := sampleWeight .cha10kg env.a scale.a
  let channel := { sample.2 with readTemperature := scale.a.readTemperature }
  let scale := { scale with
    a := if sample.1 = 0 then scaleCalcCalibration channel else channel
    current := .cha10kg }
  if scale.b.calibrates then (.goesOn, Phase.chb10kg.code, { scale with next := .chb10kg })
  else (.save, sample.1, scale)

/-- `CALIBRATE_CHB_10KG`; `read_temperature` is not put back. -/
def chbPhase (env : Env) (scale : Scale) : Ending × Int × Scale :=
  let sample := sampleWeight .chb10kg env.b scale.b
  (.save, sample.1,
    { scale with
      b := if sample.1 = 0 then scaleCalcCalibration sample.2 else sample.2
      current := .chb10kg })

/-- `CALIBRATE_DONE`. -/
def donePhase (rc : Int) (scale : Scale) : Ending × Int × Scale :=
  if scale.current = .zero then
    (.save, rc,
      { scale with a := scaleRestoreCalibration scale.a false, b := scaleRestoreCalibration scale.b false })
  else if scale.current = .cha10kg then (.save, rc, scale)
  else (.stop, rc, scale)

/-- `CALIBRATE_NONE`. -/
def nonePhase (rc : Int) (scale : Scale) : Ending × Int × Scale :=
  (.stop, rc,
    { scale with a := scaleRestoreCalibration scale.a true, b := scaleRestoreCalibration scale.b true })

/-- The switch of `scale_calibrate`. -/
def runPhase (env : Env) (rc : Int) (scale : Scale) : Phase → Ending × Int × Scale
  | .none => nonePhase rc scale
  | .start => startPhase env scale
  | .zero => zeroPhase env rc scale
  | .cha10kg => chaPhase env scale
  | .chb10kg => chbPhase env scale
  | .done => donePhase rc scale

/-- No calibration is running any more. -/
def Scale.idle (scale : Scale) : Scale := { scale with current := .none, next := .start }

/-- The saving of both channels. -/
def Scale.save (scale : Scale) : Scale :=
  { scale with a := scale.a.normalize, b := scale.b.normalize, saves := scale.saves + 1 }

/-- The end of `scale_calibrate` behind the switch. -/
def endPhase (phase : Phase) : Ending × Int × Scale → Int × Scale
  | (.goesOn, rc, scale) => (rc, scale)
  | (.stop, _, scale) => (Phase.none.code, scale.idle)
  | (.save, _, scale) => (if phase = .done then Phase.none.code else Phase.done.code, scale.idle.save)
  | (.error, _, scale) =>
    (if phase = .done then Phase.none.code else Phase.done.code,
      { scale with a := scale.a.clear, b := scale.b.clear }.idle.save)

/-- The phase that is run for a call: a phase out of order cancels. -/
def Scale.phaseFor (scale : Scale) (phase : Phase) : Phase :=
  if phase ≠ .none ∧ phase ≠ .done ∧ scale.next ≠ phase then .none else phase

/-- `scale_calibrate`. -/
def scaleCalibrate (env : Env) (scale : Scale) (phase : Phase) : Int × Scale :=
  let ended := phase = .done ∧ scale.current = .none
  let phase := if ended then .none else phase
  let rc := if ended then Phase.none.code else scale.next.code
  if scale.current = phase then (rc, scale)
  else
    let run := scale.phaseFor phase
    endPhase run (runPhase env (if run = phase then rc else enoent) scale run)

/-- `scale_values_to_doubles` has a value. -/
def Channel.available (channel : Channel) : Bool :=
  channel.i2cOk ∧ 0 < channel.externalCalibration.divider ∧ channel.raw ≠ noneAdcValue

/-- `scale_sample`; the values are left out. -/
def scaleSample (env : Env) (scale : Scale) : Int × Scale :=
  if scale.current = .none then
    let a := (scaleSampleChannel .none env.a scale.a).2
    let b := (scaleSampleChannel .none env.b scale.b).2
    ((if a.available then 1 else 0) + (if b.available then 2 else 0), { scale with a, b })
  else (einprogress, scale)

/-- The calls. -/
inductive Call where
  | calibrate (phase : Phase)
  | sample
deriving DecidableEq, Repr

structure Label where
  call : Call
  env : Env := {}

def step (scale : Scale) (label : Label) : Scale :=
  match label.call with
  | .calibrate phase => (scaleCalibrate label.env scale phase).2
  | .sample => (scaleSample label.env scale).2

/-- A call takes the scale to the state behind it. -/
def Step (scale : Scale) (label : Label) (next : Scale) : Prop := step scale label = next

end CoapsClient.Nau7802
