import CoapsClient.Machine.Integer
import CoapsClient.Soundness.BatteryForecast
import Mathlib.Algebra.Order.Group.Abs

/-! # The days of the battery forecast

With uptimes below 2^47 ms no time of the forecast overflows. The days that are returned are the nearest ones to the time
that is left, except for those that do not fit into 16 bits, and for times that are so long over that the division rounds
them up.
-/

namespace CoapsClient.Power

open Machine (Path guarded Signed)

/-- No other number of units is nearer to a value. -/
def Nearest (unit value count : ℤ) : Prop := 2 * |unit * count - value| ≤ unit

instance (unit value count : ℤ) : Decidable (Nearest unit value count) := inferInstanceAs (Decidable (_ ≤ _))

/-- A time in days fits into 16 bits, and a half day before it is not cut. -/
def DaysFit (time : ℤ) : Prop :=
  (0 ≤ time + msecPerDay / 2 ∨ msecPerDay ∣ time + msecPerDay / 2) ∧
    -32768 ≤ (time + msecPerDay / 2) / msecPerDay ∧ (time + msecPerDay / 2) / msecPerDay < 32768

instance (time : ℤ) : Decidable (DaysFit time) := inferInstanceAs (Decidable (_ ∧ _ ∧ _))

private theorem nearest_day {value count : ℤ} :
    Nearest msecPerDay value count ↔ -43200000 ≤ 86400000 * count - value ∧ 86400000 * count - value ≤ 43200000 := by
  have two : 2 * |86400000 * count - value| ≤ 86400000 ↔ |86400000 * count - value| ≤ 43200000 := by omega
  exact two.trans abs_le

/-- The macro gives the nearest number of days exactly where they fit. -/
private theorem nearest_roundDays (time : ℤ) : Nearest msecPerDay time (roundDays time) ↔ DaysFit time := by
  have wrap : roundDays time = (time + 43200000).tdiv 86400000 -
      65536 * (((time + 43200000).tdiv 86400000 + 32768) / 65536) := by
    have half : msecPerDay / 2 = 43200000 := rfl
    unfold roundDays int16
    rw [half, msecPerDay, Int.bmod_eq_emod]
    generalize (time + 43200000).tdiv 86400000 = days
    split <;> omega
  have positive : 0 ≤ time + 43200000 → (time + 43200000).tdiv 86400000 = (time + 43200000) / 86400000 :=
    fun nonneg => Int.tdiv_eq_ediv_of_nonneg nonneg
  have negative : time + 43200000 < 0 → (time + 43200000).tdiv 86400000 = -(-(time + 43200000) / 86400000) := by
    intro negative
    rw [← Int.tdiv_eq_ediv_of_nonneg (by omega), Int.neg_tdiv, Int.neg_neg]
  rw [nearest_day]
  unfold DaysFit msecPerDay
  omega

/-- The lowest level with the level of a call, and its time. -/
def Call.lowest (call : Call) (forecast : Forecast) : ℕ × ℤ :=
  if call.batteryLevel < forecast.lowestBatteryLevel then (call.batteryLevel, call.now)
  else (forecast.lowestBatteryLevel, forecast.lowestBatteryLevelUptime)

/-- The left time is calculated again: not in the call that adjusts after the first day, and for a lower level. -/
structure Call.Recalculates (call : Call) (forecast : Forecast) : Prop where
  adjusted : ¬ (forecast.forecastFirstDay = false ∧ msecPerDay < call.now - forecast.firstBatteryLevelUptime)
  lower : forecast.lastBatteryLevelUptime ≠ (call.lowest forecast).2
  condition : Forecast.RefreshCalculation forecast.currentBatteryChanges (forecast.lastBatteryLevel - call.batteryLevel)
    (call.now - forecast.lastBatteryLevelUptime)

instance (call : Call) (forecast : Forecast) : Decidable (call.Recalculates forecast) :=
  decidable_of_iff (_ ∧ _ ∧ _) ⟨fun all => ⟨all.1, all.2.1, all.2.2⟩, fun all => ⟨all.1, all.2, all.3⟩⟩

/-- How long a level lasts that went down from another one. -/
def lasting (level past : ℕ) (time : ℤ) : ℤ := time * level / (past - level)

/-- The left time from the lowest level on; the time since the first level counts twice. -/
def Call.extrapolated (call : Call) (forecast : Forecast) : ℤ :=
  let (level, uptime) := call.lowest forecast
  let last := lasting level forecast.lastBatteryLevel (uptime - forecast.lastBatteryLevelUptime)
  if forecast.firstBatteryLevelUptime = forecast.lastBatteryLevelUptime then last
  else (2 * lasting level forecast.firstBatteryLevel (uptime - forecast.firstBatteryLevelUptime) + last) / 3

/-- The time that is left at a call. -/
def Call.remaining (call : Call) (forecast : Forecast) : ℤ :=
  if call.Recalculates forecast then call.extrapolated forecast - (call.now - (call.lowest forecast).2)
  else forecast.lastBatteryLeftTime - (call.now - forecast.lastBatteryLevelUptime)

section Remaining

variable {forecast : Forecast} {call : Call}

/-- In a forecast that has begun, a lower level only changes the lowest one. -/
private theorem lower_of_begun (begun : 2 ≤ forecast.currentBatteryChanges) :
    forecast.lower call = { forecast with
      lowestBatteryLevel := (call.lowest forecast).1, lowestBatteryLevelUptime := (call.lowest forecast).2 } := by
  unfold Forecast.lower Call.lowest
  by_cases less : call.batteryLevel < forecast.lowestBatteryLevel
  · rw [if_pos less, if_pos less]
    exact if_neg (not_lt.mpr begun)
  · rw [if_neg less, if_neg less]

private theorem handle_of_begun (begun : 2 ≤ forecast.currentBatteryChanges) :
    forecast.handle call = ({ forecast with
      lowestBatteryLevel := (call.lowest forecast).1
      lowestBatteryLevelUptime := (call.lowest forecast).2 } : Forecast).adjust call.now := by
  rw [Forecast.handle, lower_of_begun begun]
  exact if_pos begun

private theorem refreshes_iff (begun : 2 ≤ forecast.currentBatteryChanges) :
    (forecast.handle call).Refreshes forecast call ↔ call.Recalculates forecast := by
  rw [handle_of_begun begun, Forecast.adjust]
  dsimp only
  by_cases adjusts : forecast.forecastFirstDay = false ∧ msecPerDay < call.now - forecast.firstBatteryLevelUptime
  · rw [if_pos adjusts]
    exact iff_of_false (fun all => all.apart rfl) (fun all => all.adjusted adjusts)
  · rw [if_neg adjusts]
    exact ⟨fun all => ⟨adjusts, all.apart, all.condition⟩, fun all => ⟨begun, all.lower, all.condition⟩⟩

/-- The last level was reached with the lowest one. -/
def Forecast.Fresh (forecast : Forecast) : Prop := forecast.lastBatteryLevelUptime = forecast.lowestBatteryLevelUptime

/-- The first lower level starts the calculation. -/
private theorem lower_of_few (few : forecast.currentBatteryChanges < 2) :
    (forecast.lower call).currentBatteryChanges ≤ 2 ∧
      (1 < (forecast.lower call).currentBatteryChanges → (forecast.lower call).Fresh) := by
  unfold Forecast.lower
  by_cases less : forecast.lowestBatteryLevel > call.batteryLevel
  · rw [if_pos less]
    dsimp only
    rw [if_pos few]
    exact ⟨le_rfl, fun _ => rfl⟩
  · rw [if_neg less]
    exact ⟨few.le, fun more => absurd few (by omega)⟩

private theorem adjust_fresh (fresh : forecast.Fresh) (now : ℤ) : (forecast.adjust now).Fresh := by
  unfold Forecast.adjust
  split
  · rfl
  · exact fresh

private theorem adjust_changes (now : ℤ) :
    (forecast.adjust now).currentBatteryChanges = forecast.currentBatteryChanges := by
  unfold Forecast.adjust
  split <;> rfl

private theorem handle_of_few (few : forecast.currentBatteryChanges < 2) :
    (forecast.handle call).currentBatteryChanges ≤ 2 ∧
      (1 < (forecast.handle call).currentBatteryChanges → (forecast.handle call).Fresh) := by
  obtain ⟨bound, fresh⟩ := @lower_of_few forecast call few
  unfold Forecast.handle
  split
  · next more => exact ⟨(adjust_changes call.now).trans_le bound, fun _ => adjust_fresh (fresh more) call.now⟩
  · exact ⟨bound, fresh⟩

/-- A forecast that has more than two changes had begun before. -/
private theorem begun_of_more (handled : IsHandled call forecast (calculateForecast call forecast))
    (more : 2 < (calculateForecast call forecast).forecast.currentBatteryChanges) :
    2 ≤ forecast.currentBatteryChanges := by
  by_contra few
  obtain ⟨bound, fresh⟩ := @handle_of_few forecast call (not_le.mp few)
  rcases handled.effect with ⟨refreshes, _⟩ | ⟨_, same, _⟩
  · exact refreshes.apart (fresh refreshes.begun)
  · rw [same] at more
    omega

theorem Period.leftTime_eq {period : Period} (passed : period.past ≤ period.now) :
    period.leftTime = lasting period.batteryLevel period.batteryLevelPast (period.now - period.past) :=
  Int.tdiv_eq_ediv_of_nonneg (Int.mul_nonneg (Int.sub_nonneg.mpr passed) (Int.natCast_nonneg _))

/-- The left time of a refresh. -/
private theorem leftTime_handle (kept : forecast.Kept call.now) (begun : 2 ≤ forecast.currentBatteryChanges)
    (recalculates : call.Recalculates forecast) : (forecast.handle call).leftTime = call.extrapolated forecast := by
  have refreshes := (refreshes_iff begun).mpr recalculates
  have ordered := kept.handle.ordered refreshes.begun
  have last := @Period.leftTime_eq (forecast.handle call).lastPeriod ordered.last_before
  have all := @Period.leftTime_eq (forecast.handle call).allPeriods
    (ordered.first_before.trans ordered.last_before)
  have nonneg := ordered.periods_nonneg
  have handle := @handle_of_begun forecast call begun
  rw [Forecast.adjust, if_neg recalculates.adjusted] at handle
  rw [all, last] at nonneg
  rw [Forecast.leftTime_of_ordered ordered refreshes.apart, Int.tdiv_eq_ediv_of_nonneg (by omega), all, last, handle]
  rfl

/-- What is left behind a call, from the state before it. -/
private theorem remaining_eq (kept : forecast.Kept call.now)
    (handled : IsHandled call forecast (calculateForecast call forecast))
    (more : 2 < (calculateForecast call forecast).forecast.currentBatteryChanges) :
    (calculateForecast call forecast).forecast.lastBatteryLeftTime - (calculateForecast call forecast).passedTime =
      call.remaining forecast := by
  have begun := begun_of_more handled more
  rw [Call.remaining]
  rcases handled.effect with ⟨refreshes, same, passed, _⟩ | ⟨keeps, same, passed, _⟩
  · have recalculates := (refreshes_iff begun).mp refreshes
    have handle := @handle_of_begun forecast call begun
    rw [Forecast.adjust, if_neg recalculates.adjusted] at handle
    rw [if_pos recalculates, same, passed]
    refine congrArg₂ (· - ·) (leftTime_handle kept begun recalculates) ?_
    rw [handle]
  · have leftTime : (forecast.handle call).lastBatteryLeftTime = forecast.lastBatteryLeftTime := by
      rw [handle_of_begun begun, Forecast.adjust]
      split <;> rfl
    rw [if_neg (mt (refreshes_iff begun).mpr keeps), same, passed, leftTime]

end Remaining

/-- An uptime below 2^47 ms, and a level up to 10000 or a special one. -/
structure Call.InRange (call : Call) : Prop where
  now_nonneg : 0 ≤ call.now
  now_lt : call.now < 2 ^ 47
  level : call.batteryLevel ≤ 10000 ∨ call.batteryLevel = pmInvalidInternalLevel ∨
    call.batteryLevel = pmResetInternalLevel

instance (call : Call) : Decidable call.InRange :=
  decidable_of_iff (_ ∧ _ ∧ (_ ∨ _ ∨ _)) ⟨fun all => ⟨all.1, all.2.1, all.2.2⟩, fun all => ⟨all.1, all.2, all.3⟩⟩

/-- The values of a forecast with levels and times in their range. -/
structure Forecast.Small (forecast : Forecast) : Prop where
  first : 2 ≤ forecast.currentBatteryChanges → forecast.firstBatteryLevel ≤ 10000 ∧ 0 ≤ forecast.firstBatteryLevelUptime
  leftTime : forecast.lastBatteryLeftTime ≤ 10000 * 2 ^ 47

/-- The products of a period, and three times its left time, which no sum of two of them is above, have 64 bits. -/
def Period.Fits (period : Period) : Prop :=
  Signed 64 ((period.now - period.past) * period.batteryLevel) ∧ Signed 64 (3 * period.leftTime)

section Range

variable {forecast : Forecast} {call : Call} {now : ℤ} {period : Period}

/-- A period over small levels. -/
theorem Period.small (positive : 0 < period.diff) (begin : 0 ≤ period.past) (passed : period.past ≤ period.now)
    (end' : period.now < 2 ^ 47) (small : period.batteryLevel ≤ 10000) :
    period.Fits ∧ period.leftTime ≤ 10000 * 2 ^ 47 := by
  have time : 0 ≤ period.now - period.past ∧ period.now - period.past ≤ 2 ^ 47 := by omega
  have product : (period.now - period.past) * period.batteryLevel ≤ 2 ^ 47 * 10000 :=
    Int.mul_le_mul time.2 (by omega) (Int.natCast_nonneg _) (by decide)
  have nonneg : 0 ≤ (period.now - period.past) * period.batteryLevel :=
    Int.mul_nonneg time.1 (Int.natCast_nonneg _)
  have quotient : period.leftTime ≤ (period.now - period.past) * period.batteryLevel :=
    (Int.tdiv_eq_ediv_of_nonneg nonneg).trans_le (Int.ediv_le_self _ nonneg)
  have left := Period.leftTime_nonneg (le_of_lt positive) passed
  refine ⟨⟨?_, ?_⟩, by omega⟩
  · unfold Signed
    omega
  · unfold Signed
    omega

theorem Forecast.Small.periods (small : forecast.Small) (ordered : forecast.Ordered now) (before : now < 2 ^ 47)
    (begun : 2 ≤ forecast.currentBatteryChanges)
    (apart : forecast.lastBatteryLevelUptime ≠ forecast.lowestBatteryLevelUptime) :
    ∀ period ∈ forecast.periods, period.Fits ∧ period.leftTime ≤ 10000 * 2 ^ 47 := by
  have positive := ordered.periods apart
  obtain ⟨level, begin⟩ := small.first begun
  have lowest : forecast.lowestBatteryLevel ≤ 10000 := (ordered.lowest_le.trans ordered.last_le).trans level
  intro period found
  have positive := positive period found
  unfold Forecast.periods at found
  have last : period = forecast.lastPeriod → period.Fits ∧ period.leftTime ≤ 10000 * 2 ^ 47 := by
    rintro rfl
    exact Period.small positive (begin.trans ordered.first_before) ordered.last_before
      (ordered.before_now.trans_lt before) lowest
  split at found
  · exact last (List.mem_singleton.mp found)
  · rcases List.mem_cons.mp found with rfl | other
    · exact Period.small positive begin (ordered.first_before.trans ordered.last_before)
        (ordered.before_now.trans_lt before) lowest
    · exact last (List.mem_singleton.mp other)

theorem Forecast.Small.leftTime_le (small : forecast.Small) (ordered : forecast.Ordered now) (before : now < 2 ^ 47)
    (begun : 2 ≤ forecast.currentBatteryChanges)
    (apart : forecast.lastBatteryLevelUptime ≠ forecast.lowestBatteryLevelUptime) :
    forecast.leftTime ≤ 10000 * 2 ^ 47 := by
  have bounds := small.periods ordered before begun apart
  obtain ⟨all, last⟩ := ordered.periods_nonneg
  rw [Forecast.leftTime_of_ordered ordered apart]
  unfold Forecast.periods at bounds
  split at bounds
  · next same =>
    rw [if_pos same]
    exact (bounds _ List.mem_cons_self).2
  · next different =>
    have first := (bounds _ List.mem_cons_self).2
    have second := (bounds _ (List.mem_cons_of_mem _ List.mem_cons_self)).2
    rw [if_neg different, Int.tdiv_eq_ediv_of_nonneg (by omega)]
    omega

theorem Forecast.Small.handle (small : forecast.Small) (kept : forecast.Kept call.now) (inRange : call.InRange)
    (resets : ¬ call.Resets forecast) : (forecast.handle call).Small := by
  have level : call.batteryLevel ≤ 10000 := by
    rcases inRange.level with small | special | special
    · exact small
    · exact absurd (.inl (.inl special)) resets
    · exact absurd (.inl (.inr (.inl special))) resets
  have lowered : (forecast.lower call).Small := by
    by_cases begun : 2 ≤ forecast.currentBatteryChanges
    · rw [lower_of_begun begun]
      exact ⟨small.first, small.leftTime⟩
    · unfold Forecast.lower
      by_cases less : forecast.lowestBatteryLevel > call.batteryLevel
      · simp only [if_pos less, if_pos (not_le.mp begun)]
        exact ⟨fun _ => ⟨level, inRange.now_nonneg⟩, small.leftTime⟩
      · rw [if_neg less]
        exact small
  unfold Forecast.handle
  split
  · next more =>
    have ordered := kept.lower.ordered more
    obtain ⟨first, begin⟩ := lowered.first more
    unfold Forecast.adjust
    split
    · exact ⟨fun _ => ⟨(ordered.lowest_le.trans ordered.last_le).trans first,
        (begin.trans ordered.first_before).trans ordered.last_before⟩, lowered.leftTime⟩
    · exact lowered
  · exact lowered

/-- A call in the range keeps the forecast small, and none of its values overflows. -/
theorem Forecast.Small.calculate (small : forecast.Small) (kept : forecast.Kept call.now) (inRange : call.InRange) :
    (calculateForecast call forecast).forecast.Small ∧
      ∀ period ∈ (calculateForecast call forecast).periods, period.Fits := by
  rcases calculateForecast_cases call forecast with reset | waiting | handled
  · refine ⟨⟨fun begun => absurd begun (not_le.mpr reset.changes), ?_⟩, by simp [reset.periods]⟩
    exact reset.leftTime ▸ small.leftTime
  · exact ⟨waiting.same.symm ▸ small, by simp [waiting.periods]⟩
  · have next := small.handle kept inRange handled.resets
    rcases handled.effect with ⟨refreshes, same, _, periods⟩ | ⟨_, same, _, periods⟩
    · have ordered := kept.handle.ordered refreshes.begun
      rw [same, periods]
      refine ⟨⟨fun _ => next.first refreshes.begun, ?_⟩, fun period found => ?_⟩
      · exact next.leftTime_le ordered inRange.now_lt refreshes.begun refreshes.apart
      · exact (next.periods ordered inRange.now_lt refreshes.begun refreshes.apart period found).1
    · exact ⟨same ▸ next, by simp [periods]⟩

theorem Forecast.small_init : ({} : Forecast).Small := ⟨fun begun => absurd begun (by decide), by decide⟩

/-- The time that passed is not longer than the device runs. -/
private theorem passedTime_bounds (small : forecast.Small) (kept : forecast.Kept call.now) (inRange : call.InRange)
    (handled : IsHandled call forecast (calculateForecast call forecast)) (begun : 2 ≤ forecast.currentBatteryChanges) :
    0 ≤ (calculateForecast call forecast).passedTime ∧ (calculateForecast call forecast).passedTime < 2 ^ 47 := by
  have now := inRange.now_lt
  rcases handled.effect with ⟨refreshes, _, passed, _⟩ | ⟨_, _, passed, _⟩
  · have levels := kept.handle.ordered refreshes.begun
    have begin := ((small.handle kept inRange handled.resets).first refreshes.begun).2
    have first := levels.first_before
    have last := levels.last_before
    have before := levels.before_now
    omega
  · have begin := (small.first begun).2
    have first := (kept.ordered begun).first_before
    have due := handled.due
    omega

end Range

/-- The values of an outcome have 64 bits. -/
def Outcome.Fits (outcome : Outcome) : Prop :=
  (∀ period ∈ outcome.periods, period.Fits) ∧
    Signed 64 (outcome.forecast.lastBatteryLeftTime - outcome.passedTime + msecPerDay / 2)

private theorem small_step {record next : Record} {call : Call} (good : record.Good) (small : record.forecast.Small)
    (inRange : call.InRange) (moved : Step record call next) : next.Good ∧ next.forecast.Small := by
  refine ⟨good.step moved, ?_⟩
  obtain ⟨ordered, rfl⟩ := moved
  exact (small.calculate (good.kept.mono ordered) inRange).1

/-- In every state that calls in the range reach, a call that ends with more than two changes calculates without an
overflow, and returns the nearest number of days exactly where they fit. -/
theorem forecast_days_iff {start : ℤ} {calls : List Call} {record : Record} {call : Call}
    (path : Path (guarded Step fun _ call => call.InRange) { now := start } calls record) (inRange : call.InRange)
    (ordered : record.now ≤ call.now)
    (more : 2 < (calculateForecast call record.forecast).forecast.currentBatteryChanges) :
    (calculateForecast call record.forecast).Fits ∧
      (Nearest msecPerDay
        ((calculateForecast call record.forecast).forecast.lastBatteryLeftTime -
          (calculateForecast call record.forecast).passedTime)
        (calculateForecast call record.forecast).days ↔ DaysFit (call.remaining record.forecast)) := by
  obtain ⟨good, small⟩ := path.invariant (fun record => record.Good ∧ record.forecast.Small)
    (fun _ _ _ holds moved => small_step holds.1 holds.2 moved.1 moved.2) ⟨Record.good_init, Forecast.small_init⟩
  have kept := good.kept.mono ordered
  rcases calculateForecast_cases call record.forecast with reset | waiting | handled
  · exact absurd reset.changes (by omega)
  · rw [waiting.same] at more
    have levels := good.kept.ordered (le_of_lt more)
    have early := waiting.early
    have before := levels.last_before.trans levels.before_now
    omega
  · obtain ⟨next, fits⟩ := small.calculate kept inRange
    have remaining := remaining_eq kept handled more
    refine ⟨⟨fits, ?_⟩, ?_⟩
    · have passed := passedTime_bounds small kept inRange handled (begun_of_more handled more)
      have left := next.leftTime
      have nonneg := kept.calculate.1.leftTime_nonneg
      have half : msecPerDay / 2 = 43200000 := rfl
      rw [half]
      unfold Signed
      omega
    · rw [handled.days, if_pos more, ← remaining]
      exact nearest_roundDays _

/-- A level from the battery at a day. -/
def onDay (day : ℤ) (batteryLevel : ℕ) : Call := ⟨day * msecPerDay, batteryLevel, some .fromBattery, 0⟩

/-- A level that falls by 0.6 % in two days. -/
theorem forecast_days_falling :
    ∃ record, Path (guarded Step fun _ call => call.InRange) { now := 0 } [onDay 0 10000, onDay 2 9990, onDay 3 9960] record ∧
      (calculateForecast (onDay 5 9900) record.forecast).days = 330 ∧
      Nearest msecPerDay
        ((calculateForecast (onDay 5 9900) record.forecast).forecast.lastBatteryLeftTime -
          (calculateForecast (onDay 5 9900) record.forecast).passedTime)
        (calculateForecast (onDay 5 9900) record.forecast).days := by
  have path : Path (guarded Step fun _ call => call.InRange) { now := 0 } [onDay 0 10000, onDay 2 9990, onDay 3 9960] _ :=
    .cons ⟨by decide, by decide, rfl⟩ (.cons ⟨by decide, by decide, rfl⟩ (.cons ⟨by decide, by decide, rfl⟩ (.nil _)))
  have days := @forecast_days_iff 0 _ _ (onDay 5 9900) path (by decide) (by decide +kernel) (by decide +kernel)
  exact ⟨_, path, by decide +kernel, days.2.mpr (by decide +kernel)⟩

/-- A level that falls by 0.01 % in four days leaves 39992 days, which are returned as -25544; and a day that is over is
returned as none. -/
theorem forecast_days_cut :
    (∃ record, Path (guarded Step fun _ call => call.InRange) { now := 0 } [onDay 0 10000, onDay 4 9999] record ∧
      (onDay 8 9998).InRange ∧ record.now ≤ (onDay 8 9998).now ∧
      (calculateForecast (onDay 8 9998) record.forecast).forecast.currentBatteryChanges = 3 ∧
      (calculateForecast (onDay 8 9998) record.forecast).forecast.lastBatteryLeftTime = 39992 * msecPerDay ∧
      (calculateForecast (onDay 8 9998) record.forecast).passedTime = 0 ∧
      (calculateForecast (onDay 8 9998) record.forecast).days = -25544 ∧
      ¬ Nearest msecPerDay (39992 * msecPerDay) (-25544)) ∧
    ∃ record, Path (guarded Step fun _ call => call.InRange) { now := 0 } [onDay 0 10000, onDay 2 9990, onDay 3 9960] record ∧
      (onDay 336 9960).InRange ∧ record.now ≤ (onDay 336 9960).now ∧
      (calculateForecast (onDay 336 9960) record.forecast).forecast.currentBatteryChanges = 3 ∧
      (calculateForecast (onDay 336 9960) record.forecast).forecast.lastBatteryLeftTime -
        (calculateForecast (onDay 336 9960) record.forecast).passedTime = -msecPerDay ∧
      (calculateForecast (onDay 336 9960) record.forecast).days = 0 ∧ ¬ Nearest msecPerDay (-msecPerDay) 0 := by
  refine ⟨⟨_, .cons ⟨by decide, by decide, rfl⟩ (.cons ⟨by decide, by decide, rfl⟩ (.nil _)), ?_⟩,
    ⟨_, .cons ⟨by decide, by decide, rfl⟩ (.cons ⟨by decide, by decide, rfl⟩ (.cons ⟨by decide, by decide, rfl⟩ (.nil _))),
      ?_⟩⟩
  · decide +kernel
  · decide +kernel

end CoapsClient.Power
