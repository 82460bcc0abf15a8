import CoapsClient.Model.Scale.Channel
import Mathlib.Algebra.Order.BigOperators.Group.List
import CoapsClient.Math.Rounding

/-! # The samples a channel is read from, and what it weighs

The window of `scale_read_channel_value` holds the samples that were read last, one behind the other, and its
extremes bound them as long as the loop goes on. A window that is full was never too wide, because the one the
last turn restarts holds a single sample. So a value is the average of samples that follow one another in the
stream and lie close together, and everything else ends with an error and without a value.

The divider is the rounded tenth of the difference the calibration weight makes, and the same weight is 1000
units behind it: both divisions round alike, and the error of the first is small beside the divider. The
product that is divided by `SCALE_CALIBRATION_G` leaves `int32_t` for a difference above 2147478, a quarter of
what the readings can differ by; the one of the weighing never does.
-/

namespace CoapsClient.Nau7802

open Machine Math

section Sampling

variable {adc : Adc} {limits : Limits} {window : Window} {v : Int}

section Turns

variable {maxLoops : ℕ}

private theorem widen_eq (ordered : window.min ≤ window.max) :
    window.widen v = { window with max := max window.max v, min := min window.min v } := by
  simp only [Window.widen]
  split_ifs with below above
  · rw [max_eq_left (by omega), min_eq_right (by omega)]
  · rw [max_eq_right (by omega), min_eq_left (by omega)]
  · rw [max_eq_left (by omega), min_eq_left (by omega)]

/-- A sample that is close to the others is added to them. -/
private theorem take_near (ordered : window.min ≤ window.max)
    (near : max window.max v - min window.min v ≤ maxAdcDither) :
    window.take maxLoops v =
      { loops := window.loops + 1
        counter := window.counter + 1
        max := max window.max v
        min := min window.min v
        values := Function.update window.values window.counter v
        reads := window.reads + 1
        writes := window.writes ++ [window.counter] } := by
  rw [Window.take, @widen_eq window.turn v ordered]
  exact if_neg (Int.not_lt.mpr near)

/-- A sample that is too far away from the others starts the window anew; its extremes are forgotten but in the
last turn. -/
private theorem take_far (ordered : window.min ≤ window.max)
    (far : maxAdcDither < max window.max v - min window.min v) :
    ∃ high low, window.take maxLoops v =
        { loops := window.loops + 1
          counter := 1
          max := high
          min := low
          values := Function.update window.values 0 v
          reads := window.reads + 1
          writes := window.writes ++ [0] } ∧
      (window.loops + 1 < maxLoops → high = v ∧ low = v) := by
  rw [Window.take, @widen_eq window.turn v ordered]
  by_cases more : window.loops + 1 < maxLoops
  · exact ⟨v, v, (if_pos far).trans (if_pos more), fun _ => ⟨rfl, rfl⟩⟩
  · exact ⟨_, _, (if_pos far).trans (if_neg more), fun less => absurd less more⟩

/-- The window holds the samples that were read last. -/
structure Collected (adc : Adc) (window : Window) : Prop where
  positive : 0 < window.counter
  read : window.counter ≤ window.reads
  samples : ∀ index < window.counter, adc.reads (window.reads - window.counter + index) = .ok (window.values index)
  inside : ∀ index ∈ window.writes, index < maxAdcHistory

/-- The samples of the window lie close together. -/
structure Stable (window : Window) : Prop where
  low : ∀ index < window.counter, window.min ≤ window.values index
  high : ∀ index < window.counter, window.values index ≤ window.max
  near : window.max - window.min ≤ maxAdcDither

theorem Stable.ordered (stable : Stable window) (positive : 0 < window.counter) : window.min ≤ window.max :=
  (stable.low 0 positive).trans (stable.high 0 positive)

/-- What holds for the values and for a further one holds behind it. -/
private theorem forall_update {values : ℕ → Int} {counter : ℕ} (property : ℕ → Int → Prop)
    (earlier : ∀ index < counter, property index (values index)) (last : property counter v) :
    ∀ index < counter + 1, property index (Function.update values counter v index) := by
  intro index bound
  rcases Nat.lt_succ_iff_lt_or_eq.mp bound with before | rfl
  · rw [Function.update_of_ne (Nat.ne_of_lt before)]
    exact earlier index before
  · rw [Function.update_self]
    exact last

theorem Collected.inside_snoc (collected : Collected adc window) {place : ℕ} (inside : place < maxAdcHistory) :
    ∀ index ∈ window.writes ++ [place], index < maxAdcHistory := by
  intro index written
  rcases List.mem_append.mp written with earlier | here
  · exact collected.inside index earlier
  · rwa [List.mem_singleton.mp here]

/-- A near sample is one more in the window. -/
theorem Collected.near_taken (collected : Collected adc window) (stable : Stable window)
    (room : window.counter < maxAdcHistory) (read : adc.reads window.reads = .ok v)
    (near : max window.max v - min window.min v ≤ maxAdcDither) : Collected adc (window.take maxLoops v) := by
  have before := collected.read
  rw [take_near (stable.ordered collected.positive) near]
  refine ⟨Nat.succ_pos _, Nat.succ_le_succ before, ?_, collected.inside_snoc room⟩
  dsimp only
  rw [Nat.add_sub_add_right]
  apply forall_update fun index value => adc.reads (window.reads - window.counter + index) = .ok value
  · exact collected.samples
  · rw [Nat.sub_add_cancel before, read]

theorem Stable.near_taken (stable : Stable window) (ordered : window.min ≤ window.max)
    (near : max window.max v - min window.min v ≤ maxAdcDither) : Stable (window.take maxLoops v) := by
  rw [take_near ordered near]
  refine ⟨?_, ?_, near⟩
  · apply forall_update fun _ value => min window.min v ≤ value
    · exact fun index bound => (min_le_left _ _).trans (stable.low index bound)
    · exact min_le_right _ _
  · apply forall_update fun _ value => value ≤ max window.max v
    · exact fun index bound => (stable.high index bound).trans (le_max_left _ _)
    · exact le_max_right _ _

/-- A turn takes one sample more into the window, or starts it anew. Only the last turn leaves a window that is
not stable, and then with a single sample. -/
private theorem take_collected (collected : Collected adc window) (stable : Stable window)
    (room : window.counter < maxAdcHistory) (read : adc.reads window.reads = .ok v) :
    Collected adc (window.take maxLoops v) ∧
      (window.take maxLoops v).loops = window.loops + 1 ∧ (window.take maxLoops v).reads = window.reads + 1 ∧
      (window.take maxLoops v).counter ≤ window.counter + 1 ∧
      (Stable (window.take maxLoops v) ∨
        (window.take maxLoops v).counter = 1 ∧ maxLoops ≤ (window.take maxLoops v).loops) := by
  have ordered := stable.ordered collected.positive
  by_cases near : max window.max v - min window.min v ≤ maxAdcDither
  · refine ⟨collected.near_taken stable room read near, ?_, ?_, ?_, .inl (stable.near_taken ordered near)⟩
    · rw [take_near ordered near]
    · rw [take_near ordered near]
    · rw [take_near ordered near]
  · obtain ⟨high, low, anew, forgotten⟩ := @take_far window v maxLoops ordered (Int.not_le.mp near)
    have single : ∀ index < 1, Function.update window.values 0 v index = v := by
      intro index bound
      obtain rfl : index = 0 := Nat.lt_one_iff.mp bound
      exact Function.update_self _ _ _
    rw [anew]
    refine ⟨⟨Nat.one_pos, Nat.succ_le_succ (Nat.zero_le _), ?_, collected.inside_snoc (by decide)⟩, rfl, rfl,
      Nat.succ_le_succ (Nat.zero_le _), ?_⟩
    · intro index bound
      dsimp only
      rw [single index bound, Nat.lt_one_iff.mp bound]
      exact read
    · by_cases more : window.loops + 1 < maxLoops
      · obtain ⟨rfl, rfl⟩ := forgotten more
        refine .inl ⟨?_, ?_, by simp [maxAdcDither]⟩
        · exact fun index bound => (single index bound).ge
        · exact fun index bound => (single index bound).le
      · exact .inr ⟨rfl, Nat.le_of_not_lt more⟩

end Turns

/-- The limits leave room for every sample, and ask for more than one. -/
structure Limits.Fit (limits : Limits) : Prop where
  two : 2 ≤ limits.minValues
  room : limits.minValues ≤ maxAdcHistory
  turns : 2 ≤ limits.maxLoops

/-- How the loop ends: a full window holds samples that follow one another and lie close together. -/
structure Ended (adc : Adc) (limits : Limits) (loop : Int × Window) : Prop where
  inside : ∀ index ∈ loop.2.writes, index < maxAdcHistory
  full : limits.minValues ≤ loop.2.counter →
    loop.2.counter = limits.minValues ∧ Collected adc loop.2 ∧ Stable loop.2

/-- The window that the loop goes on with is stable, and there is a turn left for each sample it reads. -/
private theorem sampleLoop_ended (fit : limits.Fit) (fuel : ℕ) : ∀ {window : Window}, Collected adc window →
    Stable window → window.counter < limits.minValues → window.loops < limits.maxLoops →
    limits.maxLoops ≤ window.loops + fuel →
    Ended adc limits (sampleLoop adc limits fuel window) ∧
      (sampleLoop adc limits fuel window).2.reads + window.loops ≤ window.reads + limits.maxLoops := by
  have room := fit.room
  have two := fit.two
  induction fuel with
  | zero =>
    intro window _ _ _ more enough
    omega
  | succ fuel ih =>
    intro window collected stable small more enough
    cases read : adc.reads window.reads with
    | error rc =>
      simp only [sampleLoop, read]
      exact ⟨⟨collected.inside, fun full => absurd full (Nat.not_le.mpr small)⟩, by omega⟩
    | ok v =>
      obtain ⟨next, loops, reads, grown, kept⟩ :=
        @take_collected adc window v limits.maxLoops collected stable (by omega) read
      simp only [sampleLoop, read]
      split
      · next goesOn =>
        have still : Stable (window.take limits.maxLoops v) :=
          kept.resolve_right fun last => Nat.not_lt.mpr last.2 goesOn.2
        obtain ⟨ended, bound⟩ := ih next still goesOn.1 goesOn.2 (by omega)
        exact ⟨ended, by omega⟩
      · refine ⟨⟨next.inside, ?_⟩, by dsimp only; omega⟩
        intro full
        dsimp only at full ⊢
        refine ⟨by omega, next, kept.resolve_right ?_⟩
        rintro ⟨single, _⟩
        omega

private theorem first_collected {index : ℕ} (read : adc.reads index = .ok v) :
    Collected adc (Window.first (index + 1) v) where
  positive := Nat.one_pos
  read := Nat.succ_le_succ (Nat.zero_le index)
  samples := by
    intro place bound
    obtain rfl : place = 0 := Nat.lt_one_iff.mp bound
    exact read
  inside := by
    intro place written
    obtain rfl : place = 0 := List.mem_singleton.mp written
    decide

private theorem first_stable (reads : ℕ) (v : Int) : Stable (Window.first reads v) where
  low := by
    intro place bound
    obtain rfl : place = 0 := Nat.lt_one_iff.mp bound
    exact le_rfl
  high := by
    intro place bound
    obtain rfl : place = 0 := Nat.lt_one_iff.mp bound
    exact le_rfl
  near := by simp [Window.first, Window.write, maxAdcDither]

/-- The values that are added up. -/
def Window.samples (window : Window) : List Int := (List.range window.counter).map window.values

private theorem foldl_add (values : ℕ → Int) (count : ℕ) (start : Int) :
    (List.range count).foldl (fun v index => v + values (index + 1)) start =
      start + ((List.range count).map fun index => values (index + 1)).sum := by
  induction count with
  | zero => simp
  | succ count ih =>
    rw [List.range_succ, List.foldl_append, ih, List.map_append, List.sum_append]
    simp [Int.add_assoc]

/-- The average of at least two values. -/
private theorem scaleValuesAverage_eq (two : 2 ≤ window.counter) :
    scaleValuesAverage window.counter window.values =
      (window.samples.sum + (window.counter / 2 : ℕ)).tdiv window.counter := by
  have several : 1 < window.counter := two
  obtain ⟨rest, count⟩ := Nat.exists_eq_add_of_lt (show 0 < window.counter by omega)
  rw [Nat.zero_add] at count
  have sum : window.samples.sum =
      (List.range (window.counter - 1)).foldl (fun v index => v + window.values (index + 1)) (window.values 0) := by
    rw [Window.samples, foldl_add, count, Nat.add_sub_cancel, List.range_succ_eq_map, List.map_cons,
      List.sum_cons, List.map_map]
    rfl
  rw [scaleValuesAverage, if_pos (by omega), sum]
  exact if_pos several

/-- The sum of the values stays inside of its type. -/
theorem Collected.sum_signed (collected : Collected adc window) (few : window.counter ≤ maxAdcHistory) :
    Signed 32 (window.samples.sum + (window.counter / 2 : ℕ)) := by
  have bounds : ∀ value ∈ window.samples, -8388608 ≤ value ∧ value ≤ 8388607 := by
    intro value member
    obtain ⟨index, inside, rfl⟩ := List.mem_map.mp member
    have fits := signed_24.mp (adc.sample _ _ (collected.samples index (List.mem_range.mp inside)))
    omega
  have length : window.samples.length = window.counter := by simp [Window.samples]
  have low := List.card_nsmul_le_sum window.samples (-8388608) fun value member => (bounds value member).1
  have high := List.sum_le_card_nsmul window.samples 8388607 fun value member => (bounds value member).2
  have eight : maxAdcHistory = 8 := rfl
  rw [length, nsmul_eq_mul] at low high
  rw [signed_32]
  omega

/-- A call that reports an error reports one that is not zero. -/
private theorem samplingResult_error {internalOffset rc : Int} {loop : Int × Window}
    (failed : samplingResult limits internalOffset loop = .error rc) : rc ≠ 0 := by
  simp only [samplingResult] at failed
  split_ifs at failed with outside shifted error few
  all_goals obtain rfl := Except.error.inj failed
  · decide
  · decide
  · omega
  · decide

/-- A call with a value has a full window, and its value is in range. -/
private theorem samplingResult_ok {internalOffset value : Int} {loop : Int × Window} (two : 2 ≤ limits.minValues)
    (read : samplingResult limits internalOffset loop = .ok value) :
    limits.minValues ≤ loop.2.counter ∧ value = scaleValuesAverage loop.2.counter loop.2.values ∧
      InRange value := by
  simp only [samplingResult] at read
  split_ifs at read with outside shifted error few some
  · obtain rfl := Except.ok.inj read
    exact ⟨Nat.le_of_not_lt few, rfl, by_contra fun out => outside ⟨some, out⟩⟩
  · omega

/-- The value of a call: the rounded average of samples that follow one another in the stream and lie close
together. -/
structure Averages (adc : Adc) (limits : Limits) (reading : Reading) (first : ℕ) (samples : List Int) : Prop where
  length : samples.length = limits.minValues
  consecutive : ∀ index (inside : index < samples.length), adc.reads (first + index) = .ok (samples.get ⟨index, inside⟩)
  read : first + limits.minValues ≤ reading.reads
  near : ∀ high ∈ samples, ∀ low ∈ samples, high - low ≤ maxAdcDither
  fits : Signed 32 (samples.sum + (limits.minValues / 2 : ℕ))
  raw : reading.channel.raw = (samples.sum + (limits.minValues / 2 : ℕ)).tdiv limits.minValues
  range : InRange reading.channel.raw

/-- What a call keeps to: it stays in its array, and has either a stable value or an error. -/
structure Samples (adc : Adc) (limits : Limits) (reading : Reading) : Prop where
  reads : reading.reads ≤ limits.maxLoops + 1
  inside : ∀ index ∈ reading.writes, index < maxAdcHistory
  value : reading.rc = 0 → ∃ first samples, Averages adc limits reading first samples
  failed : reading.rc ≠ 0 → reading.channel.raw = noneAdcValue

private theorem unsampled_samples {rc : Int} {reads : ℕ} (channel : Channel) (error : rc ≠ 0)
    (few : reads ≤ limits.maxLoops + 1) : Samples adc limits (unsampled rc channel reads) where
  reads := few
  inside := fun _ written => absurd written List.not_mem_nil
  value := fun zero => absurd zero error
  failed := fun _ => rfl

/-- The samples of a stable window. -/
theorem Stable.near_samples (stable : Stable window) :
    ∀ high ∈ window.samples, ∀ low ∈ window.samples, high - low ≤ maxAdcDither := by
  intro high highIn low lowIn
  obtain ⟨top, topBound, rfl⟩ := List.mem_map.mp highIn
  obtain ⟨bottom, bottomBound, rfl⟩ := List.mem_map.mp lowIn
  have above := stable.high top (List.mem_range.mp topBound)
  have below := stable.low bottom (List.mem_range.mp bottomBound)
  have near := stable.near
  omega

private theorem sampled_samples (fit : limits.Fit) (channel : Channel) {index : ℕ} (early : index ≤ 1)
    (read : adc.reads index = .ok v) : Samples adc limits (sampled adc limits channel (index + 1) v) := by
  have two := fit.two
  have turns := fit.turns
  obtain ⟨ended, bound⟩ := sampleLoop_ended fit limits.maxLoops (first_collected read)
    (first_stable (index + 1) v) two turns (Nat.le_add_left ..)
  simp only [sampled]
  set loop := sampleLoop adc limits limits.maxLoops (Window.first (index + 1) v)
  have few : loop.2.reads ≤ limits.maxLoops + 1 := by
    have start : (Window.first (index + 1) v).loops = 1 ∧ (Window.first (index + 1) v).reads = index + 1 :=
      ⟨rfl, rfl⟩
    omega
  cases result : samplingResult limits channel.internalOffset loop with
  | error rc =>
    exact ⟨few, ended.inside, fun zero => absurd zero (samplingResult_error result), fun _ => rfl⟩
  | ok value =>
    refine ⟨few, ended.inside, fun _ => ?_, fun failed => absurd rfl failed⟩
    obtain ⟨enough, average, range⟩ := samplingResult_ok two result
    obtain ⟨count, collected, stable⟩ := ended.full enough
    have length : loop.2.samples.length = limits.minValues := by
      rw [Window.samples, List.length_map, List.length_range, count]
    refine ⟨loop.2.reads - loop.2.counter, loop.2.samples, ⟨length, ?_, ?_, stable.near_samples, ?_, ?_, range⟩⟩
    · intro place inside
      rw [length, ← count] at inside
      rw [collected.samples place inside]
      simp [Window.samples]
    · have held := collected.read
      dsimp only
      omega
    · rw [← count]
      exact collected.sum_signed (by rw [count]; exact fit.room)
    · rw [← count, ← scaleValuesAverage_eq (by omega)]
      exact average

private theorem readFirst_samples (fit : limits.Fit) (channel : Channel) {index : ℕ} (early : index ≤ 1) :
    Samples adc limits (readFirst adc limits channel index) := by
  have turns := fit.turns
  cases read : adc.reads index with
  | error rc =>
    simp only [readFirst, read]
    exact unsampled_samples channel (adc.error index rc read) (by omega)
  | ok v =>
    simp only [readFirst, read]
    exact sampled_samples fit channel early read

/-- For all limits that leave room for the samples. -/
private theorem readChannelValue_samples (adc : Adc) (channel : Channel) (fit : limits.Fit) :
    Samples adc limits (readChannelValue adc limits channel) := by
  simp only [readChannelValue]
  split_ifs with missing failed waited
  · exact unsampled_samples channel (by decide) (Nat.zero_le _)
  · exact unsampled_samples channel failed (Nat.zero_le _)
  · cases read : adc.reads 0 with
    | error rc => exact unsampled_samples channel (adc.error 0 rc read) (Nat.le_add_left ..)
    | ok v => exact readFirst_samples fit channel le_rfl
  · exact readFirst_samples fit channel (Nat.zero_le 1)

/-- For every stream of samples and errors, with the limits of a sample or of a calibration: a call reads at most
one sample more than it may turn, stays in its array, and ends with the average of stable samples or with an
error and no value. -/
theorem stable_sampling (adc : Adc) (limits : Limits) (channel : Channel)
    (known : limits = .sample ∨ limits = .calibration) :
    Samples adc limits (readChannelValue adc limits channel) := by
  apply readChannelValue_samples
  rcases known with rfl | rfl
  · exact ⟨by decide, by decide, by decide⟩
  · exact ⟨by decide, by decide, by decide⟩

/-- A converter that drifts by 1000 with each of its first samples and is stable then. -/
def driftingAdc : Adc where
  waited := true
  start := 0
  reads := fun index => .ok (if index < 6 then 1000 * index else 6000)
  error := by
    intro index rc failed
    contradiction
  sample := by
    intro index value read
    obtain rfl := Except.ok.inj read
    rw [signed_24]
    split_ifs <;> omega

/-- The window is restarted by the samples 3000 and 5000, and the value is that of the samples behind. -/
theorem stable_sampling_drift :
    Samples driftingAdc .sample (readChannelValue driftingAdc .sample { i2cOk := true }) ∧
      (readChannelValue driftingAdc .sample { i2cOk := true }).rc = 0 ∧
      (readChannelValue driftingAdc .sample { i2cOk := true }).channel.raw = 5750 :=
  ⟨stable_sampling driftingAdc .sample { i2cOk := true } (.inl rfl), by decide, by decide⟩

end Sampling

section Weight

section Calibrating

variable {channel next : Channel} {value : Int}

private theorem difference_bounds (weight : Signed 24 channel.weight)
    (offset : Signed 24 channel.externalCalibration.offset) :
    -16777215 ≤ channel.difference ∧ channel.difference ≤ 16777215 := by
  have weightBounds := signed_24.mp weight
  have offsetBounds := signed_24.mp offset
  simp only [Channel.difference]
  omega

/-- The division by `SCALE_CALIBRATION_G` rounds to the tenth of a difference. -/
private theorem tdiv_calibrationG (positive : 0 ≤ value) :
    (value * 1000 + calibrationG / 2 - 1).tdiv calibrationG = roundedDiv value 10 := by
  rw [calibrationG, roundedDiv, Int.tdiv_eq_ediv_of_nonneg (by omega)]
  omega

/-- A difference that gives a divider is large. -/
private theorem difference_of_divides (divides : minAdcDivider ≤ roundedDiv value 10) : 19996 ≤ value := by
  simp only [minAdcDivider, roundedDiv] at divides
  omega

/-- A divider is calculated for the differences whose product fits, and is then the rounded tenth. -/
private theorem checkedCalcCalibration_eq_some_iff (divides : minAdcDivider ≤ roundedDiv channel.difference 10)
    (bound : channel.difference ≤ 16777215) :
    checkedCalcCalibration channel = some next ↔
      channel.difference ≤ 2147478 ∧ next = channel.dividing (roundedDiv channel.difference 10) := by
  have low := difference_of_divides divides
  have quotient := @tdiv_calibrationG channel.difference (by omega)
  have normal : normalizeDivider (roundedDiv channel.difference 10) = roundedDiv channel.difference 10 :=
    if_pos (Or.inl divides)
  have kilograms : calibrationG = 10000 := rfl
  simp only [checkedCalcCalibration, Option.bind_eq_bind, checked_bind_eq_some_iff, Option.pure_def,
    Option.some.injEq, signed_32, quotient, normal]
  constructor
  · rintro ⟨_, _, half, _, rfl⟩
    exact ⟨by omega, rfl⟩
  · rintro ⟨fits, rfl⟩
    exact ⟨by omega, by omega, by omega, by omega, rfl⟩

end Calibrating

section Weighing

variable {channel : Channel}

/-- The weight is the rounded quotient of hundred differences, and nothing overflows. -/
private theorem calValue_eq (divider : 2 ≤ channel.externalCalibration.divider)
    (small : channel.externalCalibration.divider ≤ 16777215)
    (positive : 0 ≤ channel.difference) (bound : channel.difference ≤ 16777215) :
    calValue channel =
      some (roundedDiv (channel.difference * 100) channel.externalCalibration.divider) := by
  have half : channel.externalCalibration.divider.tdiv 2 = channel.externalCalibration.divider / 2 :=
    Int.tdiv_eq_ediv_of_nonneg (by omega)
  have unit : 1000 / resolutionG = 100 := rfl
  simp only [calValue, Option.bind_eq_bind, checked_bind_eq_some_iff, Option.pure_def, Option.some.injEq,
    signed_32, half, unit, roundedDiv]
  exact ⟨by omega, by omega, by omega, by omega, Int.tdiv_eq_ediv_of_nonneg (by omega)⟩

/-- Behind a calibration the weight of it is 1000 units. -/
private theorem calValue_calibrated (divides : minAdcDivider ≤ roundedDiv channel.difference 10)
    (bound : channel.difference ≤ 16777215) :
    calValue (channel.dividing (roundedDiv channel.difference 10)) = some 1000 := by
  have low := difference_of_divides divides
  have large : 2000 ≤ roundedDiv channel.difference 10 := divides
  have small : roundedDiv channel.difference 10 ≤ 16777215 := by
    simp only [roundedDiv]
    omega
  have exact : roundedDiv (channel.difference * 100) (roundedDiv channel.difference 10) = 10 * 100 :=
    roundedDiv_cancel (by decide) (by decide) (by omega)
  have same : (channel.dividing (roundedDiv channel.difference 10)).difference = channel.difference := rfl
  rw [calValue_eq (by simp only [Channel.dividing]; omega) (by simp only [Channel.dividing]; omega)
    (by rw [same]; omega) (by rw [same]; exact bound), same]
  exact congrArg some exact

end Weighing

/-- A calibration with a weight and the weighing of it go right: the divider is the rounded tenth of the
difference, the weight 10 kg, and nothing overflows. -/
def WeighsCalibration (channel : Channel) : Prop :=
  ∃ next, checkedCalcCalibration channel = some next ∧
    next.externalCalibration.divider = roundedDiv channel.difference 10 ∧
    scaleValuesToDoubles next = some ⟨0, some 1000, channel.readsTemperature⟩

/-- For two readings that give a divider, the calibration and the weighing behind it go right exactly when the
difference is at most 2147478. -/
theorem weighsCalibration_iff (channel : Channel) (answers : channel.i2cOk = true)
    (valid : channel.raw ≠ noneAdcValue) (weight : Signed 24 channel.weight)
    (offset : Signed 24 channel.externalCalibration.offset)
    (divides : minAdcDivider ≤ roundedDiv channel.difference 10) :
    WeighsCalibration channel ↔ channel.difference ≤ 2147478 := by
  have bound := (difference_bounds weight offset).2
  constructor
  · rintro ⟨next, calculated, _⟩
    exact ((checkedCalcCalibration_eq_some_iff divides bound).mp calculated).1
  · intro fits
    have large : 2000 ≤ roundedDiv channel.difference 10 := divides
    have available : (channel.dividing (roundedDiv channel.difference 10)).available := by
      have positive : 0 < roundedDiv channel.difference 10 := by omega
      simp [Channel.available, Channel.dividing, answers, positive, valid]
    refine ⟨channel.dividing (roundedDiv channel.difference 10),
      (checkedCalcCalibration_eq_some_iff divides bound).mpr ⟨fits, rfl⟩, rfl, ?_⟩
    rw [scaleValuesToDoubles_of_available available, calValue_calibrated divides bound]
    rfl

/-- A channel that reads 0 without a weight and the given value with it. -/
def loadCell (reading : Int) : Channel where
  i2cOk := true
  raw := reading
  weight := reading
  externalCalibration := { offset := 0, divider := 1 }

/-- A load cell that reads 1000000 more with the weight. -/
theorem weighsCalibration_million : WeighsCalibration (loadCell 1000000) :=
  (weighsCalibration_iff (loadCell 1000000) rfl (by decide) (by decide) (by decide) (by decide)).mpr (by decide)

/-- A load cell that reads 3000000 more: the divider would be 300000, but its calculation overflows. -/
theorem not_weighsCalibration_three_million :
    minAdcDivider ≤ roundedDiv (loadCell 3000000).difference 10 ∧ ¬ WeighsCalibration (loadCell 3000000) := by
  refine ⟨by decide, ?_⟩
  rintro ⟨next, calculated, _⟩
  have overflows : checkedCalcCalibration (loadCell 3000000) = none := by decide
  rw [overflows] at calculated
  contradiction

end Weight

end CoapsClient.Nau7802
