import CoapsClient.Machine.Integer
import CoapsClient.Model.Scale.Calibration
import Mathlib.Logic.Function.Basic

/-! # Sampling and weighing with a channel

`scale_read_channel_value` of `nau7802.c` on the samples the converter delivers: it fills `values[]` with
samples that lie close together, starts anew with the one that is too far away from the others, and gives up
after a number of turns. The converter is a stream of samples and errors; how many of them a call reads and
where it writes `values[]` are kept beside its result.

All numbers stay far inside of `int32_t`: samples have 24 bits and at most eight of them are added up.

`scale_values_to_doubles`, and `scale_calc_calibration` once more, with every operation of their `int32_t`
arithmetic checked: a calculation that overflows has no result. The doubles are kept as the integers they are
made of, a weight in units of `SCALE_RESOLUTION_G` and a temperature in thousandths.
-/

namespace CoapsClient.Nau7802

open Machine

/-- `-EINVAL`. -/
def einval : Int := -22
/-- `-ESTALE`. -/
def estale : Int := -133

/-- `MAX_ADC_HISTORY`. -/
def maxAdcHistory : ℕ := 8
/-- `MAX_ADC_DITHER`. -/
def maxAdcDither : Int := 512 * 3
/-- `NAU7802_MAX_ADC_VALUE`. -/
def maxAdcValue : Int := 8388605

/-- `max_loops` and `min_values`. -/
structure Limits where
  maxLoops : ℕ
  minValues : ℕ
deriving DecidableEq, Repr

/-- `MAX_ADC_LOOPS` and `MIN_ADC_SAMPLES`. -/
def Limits.sample : Limits := ⟨12, 4⟩

/-- `MAX_ADC_LOOPS_CALIBRATION` and `MIN_ADC_SAMPLES_CALIBRATION`. -/
def Limits.calibration : Limits := ⟨15, 8⟩

/-- What the converter answers to one call. Errors are not zero and samples have 24 bits. -/
structure Adc where
  /-- `scale_wait_uptime` has waited, so the first sample is not used. -/
  waited : Bool
  /-- `scale_start_adc`. -/
  start : Int
  /-- `scale_read_adc_value`, one after the other. -/
  reads : ℕ → Except Int Int
  error : ∀ index rc, reads index = .error rc → rc ≠ 0
  sample : ∀ index value, reads index = .ok value → Signed 24 value

/-- The local variables of `scale_read_channel_value`, with the number of samples that are read and the places
of `values[]` that are written. -/
structure Window where
  loops : ℕ
  counter : ℕ
  max : Int
  min : Int
  values : ℕ → Int
  reads : ℕ
  writes : List ℕ

/-- `scale_values_average`. -/
def scaleValuesAverage (counter : ℕ) (values : ℕ → Int) : Int :=
  if 0 < counter then
    let sum := (List.range (counter - 1)).foldl (fun v index => v + values (index + 1)) (values 0)
    if 1 < counter then (sum + (counter / 2 : ℕ)).tdiv counter else values 0
  else enodata

/-- `values[index] = v`. -/
def Window.write (window : Window) (index : ℕ) (v : Int) : Window :=
  { window with values := Function.update window.values index v, writes := window.writes ++ [index] }

/-- The first sample that is used. -/
def Window.first (reads : ℕ) (v : Int) : Window :=
  { loops := 1, counter := 1, max := v, min := v, values := fun _ => 0, reads, writes := [] : Window }.write 0 v

/-- A sample more is read. -/
def Window.turn (window : Window) : Window :=
  { window with loops := window.loops + 1, reads := window.reads + 1 }

/-- The extremes take a sample in. -/
def Window.widen (window : Window) (v : Int) : Window :=
  if v < window.min then { window with min := v }
  else if window.max < v then { window with max := v }
  else window

/-- One turn of the loop with its sample. -/
def Window.take (window : Window) (maxLoops : ℕ) (v : Int) : Window :=
  let window := window.turn.widen v
  if maxAdcDither < window.max - window.min then
    let window := { window.write 0 v with counter := 1 }
    if window.loops < maxLoops then { window with max := v, min := v } else window
  else { window.write window.counter v with counter := window.counter + 1 }

/-- The loop of `scale_read_channel_value`; it turns at most `max_loops` times. -/
def sampleLoop (adc : Adc) (limits : Limits) : ℕ → Window → Int × Window
  | 0, window => (0, window)
  | fuel + 1, window =>
    match adc.reads window.reads with
    | .error rc => (rc, { window with reads := window.reads + 1 })
    | .ok v =>
      let window := window.take limits.maxLoops v
      if window.counter < limits.minValues ∧ window.loops < limits.maxLoops then
        sampleLoop adc limits fuel window
      else (0, window)

/-- What a call of `scale_read_channel_value` leaves. -/
structure Reading where
  rc : Int
  channel : Channel
  reads : ℕ := 0
  writes : List ℕ := []

/-- A value the converter can have. -/
def InRange (value : Int) : Prop := -maxAdcValue ≤ value ∧ value ≤ maxAdcValue

instance (value : Int) : Decidable (InRange value) := inferInstanceAs (Decidable (_ ∧ _))

/-- The result of `scale_read_channel_value` behind its loop, and the value it stores. -/
def samplingResult (limits : Limits) (internalOffset : Int) (loop : Int × Window) : Except Int Int :=
  let average := scaleValuesAverage loop.2.counter loop.2.values
  if 0 < loop.2.counter ∧ ¬ InRange average then .error einval
  else if 0 < loop.2.counter ∧ internalOffset ≠ 0 ∧ ¬ InRange (average - internalOffset) then .error einval
  else if loop.1 < 0 then .error loop.1
  else if loop.2.counter < limits.minValues then .error estale
  else .ok (if 0 < loop.2.counter then average else 0)

/-- A call of `scale_read_channel_value` that ends in front of its loop. -/
def unsampled (rc : Int) (channel : Channel) (reads : ℕ) : Reading where
  rc
  channel := { channel with raw := noneAdcValue }
  reads

/-- `scale_read_channel_value` behind the first sample that is used. -/
def sampled (adc : Adc) (limits : Limits) (channel : Channel) (reads : ℕ) (v : Int) : Reading :=
  let loop := sampleLoop adc limits limits.maxLoops (Window.first reads v)
  let result := scaleReadChannelValue { value := samplingResult limits channel.internalOffset loop } channel
  { rc := result.1, channel := result.2, reads := loop.2.reads, writes := loop.2.writes }

/-- The sample of `scale_read_channel_value` at an index of the stream, and the rest of the call. -/
def readFirst (adc : Adc) (limits : Limits) (channel : Channel) (index : ℕ) : Reading :=
  match adc.reads index with
  | .error rc => unsampled rc channel (index + 1)
  | .ok v => sampled adc limits channel (index + 1) v

/-- `scale_read_channel_value`, on the samples of the converter. -/
def readChannelValue (adc : Adc) (limits : Limits) (channel : Channel) : Reading :=
  if channel.i2cOk = false then unsampled estale channel 0
  else if adc.start ≠ 0 then unsampled adc.start channel 0
  else if adc.waited then
    match adc.reads 0 with
    | .error rc => unsampled rc channel 1
    | .ok _ => readFirst adc limits channel 1
  else readFirst adc limits channel 0

/-- `SCALE_RESOLUTION_G`. -/
def resolutionG : Int := 10

/-- What a channel reads more than its offset. -/
def Channel.difference (channel : Channel) : Int := channel.weight - channel.externalCalibration.offset

/-- A channel with another divider. -/
def Channel.dividing (channel : Channel) (divider : Int) : Channel :=
  { channel with externalCalibration := { channel.externalCalibration with divider } }

/-- `scale_calc_calibration`, none where its arithmetic overflows. -/
def checkedCalcCalibration (channel : Channel) : Option Channel := do
  let weight ← checked 32 channel.difference
  let product ← checked 32 (weight * 1000)
  let half ← checked 32 (product + calibrationG / 2)
  let sum ← checked 32 (half - 1)
  pure (channel.dividing (normalizeDivider (sum.tdiv calibrationG)))

/-- The result of `scale_values_to_doubles` and the values it writes. -/
structure Values where
  rc : Int := enodata
  value : Option Int := none
  temperature : Option Int := none
deriving DecidableEq, Repr

/-- `cal_value` of `scale_values_to_doubles`, none where its arithmetic overflows. -/
def calValue (channel : Channel) : Option Int := do
  let div := channel.externalCalibration.divider
  let offsetValue ← checked 32 channel.difference
  let scaled ← checked 32 (offsetValue * (1000 / resolutionG))
  let half ← checked 32 (scaled + div.tdiv 2)
  let sum ← checked 32 (half - 1)
  pure (sum.tdiv div)

/-- The temperature `scale_values_to_doubles` writes. -/
def Channel.readsTemperature (channel : Channel) : Option Int :=
  if channel.readTemperature then some channel.temperature else none

/-- `scale_values_to_doubles`, none where its arithmetic overflows. -/
def scaleValuesToDoubles (channel : Channel) : Option Values :=
  if channel.i2cOk = false then some {}
  else if channel.externalCalibration.divider = 0 then some {}
  else if channel.raw = noneAdcValue then some {}
  else if 0 < channel.externalCalibration.divider then
    (calValue channel).map fun value =>
      { rc := 0, value := some value, temperature := channel.readsTemperature }
  else some {}

section Arithmetic

variable {channel next : Channel}

/-- A calculation without overflow is the one of `scaleCalcCalibration`, that wraps. -/
theorem scaleCalcCalibration_of_checked (calculated : checkedCalcCalibration channel = some next) :
    scaleCalcCalibration channel = next := by
  simp only [checkedCalcCalibration, Option.bind_eq_bind, checked_bind_eq_some_iff, Option.pure_def,
    Option.some.injEq] at calculated
  obtain ⟨_, product, half, sum, rfl⟩ := calculated
  have wrapsProduct := bmod_of_signed (by decide) product
  have wrapsSum := bmod_of_signed (by decide) sum
  simp only [Nat.reducePow, Channel.difference] at wrapsProduct wrapsSum
  simp only [scaleCalcCalibration, wrapsProduct, wrapsSum, Channel.dividing, Channel.difference]

/-- An available channel has the weight that is calculated. -/
theorem scaleValuesToDoubles_of_available (available : channel.available) :
    scaleValuesToDoubles channel =
      (calValue channel).map fun value => ⟨0, some value, channel.readsTemperature⟩ := by
  obtain ⟨answers, positive, valid⟩ : channel.i2cOk = true ∧ 0 < channel.externalCalibration.divider ∧
      channel.raw ≠ noneAdcValue := by simpa [Channel.available] using available
  rw [scaleValuesToDoubles, if_neg (by simp [answers]), if_neg (Int.ne_of_gt positive), if_neg valid,
    if_pos positive]

end Arithmetic

end CoapsClient.Nau7802
