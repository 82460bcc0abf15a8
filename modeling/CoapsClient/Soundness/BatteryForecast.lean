import CoapsClient.Machine.Path
import CoapsClient.Model.Power.Forecast
import Mathlib.Order.Bounds.Basic

/-! # The levels of the battery forecast

The forecast keeps three levels with their times: the first, the last and the lowest one. As soon as it has begun, they
go down while their times go up, and two of them with different times are different. Each extrapolation is therefore over
a level that went down.
-/

namespace CoapsClient.Power

open Machine (Path guarded)

/-- The levels go down and the times go up; where the times are different, the levels are. -/
structure Forecast.Ordered (forecast : Forecast) (now : ℤ) : Prop where
  lowest_le : forecast.lowestBatteryLevel ≤ forecast.lastBatteryLevel
  last_le : forecast.lastBatteryLevel ≤ forecast.firstBatteryLevel
  first_before : forecast.firstBatteryLevelUptime ≤ forecast.lastBatteryLevelUptime
  last_before : forecast.lastBatteryLevelUptime ≤ forecast.lowestBatteryLevelUptime
  before_now : forecast.lowestBatteryLevelUptime ≤ now
  lowest_lt : forecast.lastBatteryLevelUptime ≠ forecast.lowestBatteryLevelUptime →
    forecast.lowestBatteryLevel < forecast.lastBatteryLevel
  last_lt : forecast.firstBatteryLevelUptime ≠ forecast.lastBatteryLevelUptime →
    forecast.lastBatteryLevel < forecast.firstBatteryLevel

/-- What the forecast keeps between the calls. -/
structure Forecast.Kept (forecast : Forecast) (now : ℤ) : Prop where
  ordered : 2 ≤ forecast.currentBatteryChanges → forecast.Ordered now
  leftTime_nonneg : 0 ≤ forecast.lastBatteryLeftTime

section Order

variable {forecast : Forecast} {call : Call} {now later : ℤ}

theorem Forecast.Ordered.mono (ordered : forecast.Ordered now) (passed : now ≤ later) : forecast.Ordered later :=
  { ordered with before_now := ordered.before_now.trans passed }

theorem Forecast.Kept.mono (kept : forecast.Kept now) (passed : now ≤ later) : forecast.Kept later :=
  ⟨fun begun => (kept.ordered begun).mono passed, kept.leftTime_nonneg⟩

theorem Forecast.kept_init : ({} : Forecast).Kept now := ⟨fun begun => absurd begun (by decide), le_rfl⟩

/-- A lower level. -/
theorem Forecast.Kept.lower (kept : forecast.Kept call.now) : (forecast.lower call).Kept call.now := by
  unfold Forecast.lower
  by_cases less : forecast.lowestBatteryLevel > call.batteryLevel
  · by_cases start : 2 > forecast.currentBatteryChanges
    · simp only [if_pos less, if_pos start]
      exact ⟨fun _ => ⟨le_rfl, le_rfl, le_rfl, le_rfl, le_rfl, fun apart => absurd rfl apart, fun apart => absurd rfl apart⟩,
        kept.leftTime_nonneg⟩
    · simp only [if_pos less, if_neg start]
      refine ⟨fun begun => ?_, kept.leftTime_nonneg⟩
      have ordered := kept.ordered begun
      exact
        { lowest_le := le_of_lt (less.trans_le ordered.lowest_le)
          last_le := ordered.last_le
          first_before := ordered.first_before
          last_before := ordered.last_before.trans ordered.before_now
          before_now := le_rfl
          lowest_lt := fun _ => less.trans_le ordered.lowest_le
          last_lt := ordered.last_lt }
  · rw [if_neg less]
    exact kept

/-- The adjustment after the first day. -/
theorem Forecast.Kept.adjust (kept : forecast.Kept now) : (forecast.adjust now).Kept now := by
  unfold Forecast.adjust
  split
  · exact ⟨fun begun => ⟨le_rfl, le_rfl, le_rfl, le_rfl, (kept.ordered begun).before_now, fun apart => absurd rfl apart,
      fun apart => absurd rfl apart⟩, kept.leftTime_nonneg⟩
  · exact kept

/-- The levels of a refresh went down. -/
theorem Forecast.Ordered.periods (ordered : forecast.Ordered now)
    (apart : forecast.lastBatteryLevelUptime ≠ forecast.lowestBatteryLevelUptime) :
    ∀ period ∈ forecast.periods, 0 < period.diff := by
  have last : 0 < forecast.lastPeriod.diff := by
    have less := ordered.lowest_lt apart
    simp only [Forecast.lastPeriod, Period.diff]
    omega
  intro period found
  unfold Forecast.periods at found
  split at found
  · exact List.mem_singleton.mp found ▸ last
  · next different =>
    rcases List.mem_cons.mp found with rfl | other
    · have less := ordered.last_lt different
      have more := ordered.lowest_lt apart
      simp only [Forecast.allPeriods, Period.diff]
      omega
    · exact List.mem_singleton.mp other ▸ last

theorem Period.leftTime_nonneg {period : Period} (down : 0 ≤ period.diff) (passed : period.past ≤ period.now) :
    0 ≤ period.leftTime :=
  Int.tdiv_nonneg (Int.mul_nonneg (Int.sub_nonneg.mpr passed) (Int.natCast_nonneg _)) down

/-- Levels that do not go up leave a time that is not negative. -/
theorem Forecast.Ordered.periods_nonneg (ordered : forecast.Ordered now) :
    0 ≤ forecast.allPeriods.leftTime ∧ 0 ≤ forecast.lastPeriod.leftTime := by
  have last := ordered.lowest_le
  have first := ordered.last_le
  refine ⟨Period.leftTime_nonneg ?_ (ordered.first_before.trans ordered.last_before),
    Period.leftTime_nonneg ?_ ordered.last_before⟩
  · simp only [Period.diff, Forecast.allPeriods]
    omega
  · simp only [Period.diff, Forecast.lastPeriod]
    omega

private theorem calculateLeftTime_of_pos {period : Period} {time : ℤ} (positive : 0 < period.diff) :
    calculateLeftTime period time = (0, time + period.leftTime) := if_neg (ne_of_gt positive)

/-- The left time that a refresh calculates, where the levels went down. -/
theorem Forecast.leftTime_of_ordered (ordered : forecast.Ordered now)
    (apart : forecast.lastBatteryLevelUptime ≠ forecast.lowestBatteryLevelUptime) :
    forecast.leftTime =
      if forecast.firstBatteryLevelUptime = forecast.lastBatteryLevelUptime then forecast.lastPeriod.leftTime
      else (2 * forecast.allPeriods.leftTime + forecast.lastPeriod.leftTime).tdiv 3 := by
  have positive := ordered.periods apart
  unfold Forecast.leftTime
  unfold Forecast.periods at positive
  split at positive
  · next same =>
    rw [if_pos same, if_pos same, calculateLeftTime_of_pos (positive _ List.mem_cons_self), Int.zero_add]
  · next different =>
    rw [if_neg different, if_neg different, calculateLeftTime_of_pos (positive _ List.mem_cons_self),
      calculateLeftTime_of_pos (positive _ (List.mem_cons_of_mem _ List.mem_cons_self)), Int.zero_add, Int.mul_comm]

theorem Forecast.Ordered.leftTime_nonneg (ordered : forecast.Ordered now)
    (apart : forecast.lastBatteryLevelUptime ≠ forecast.lowestBatteryLevelUptime) : 0 ≤ forecast.leftTime := by
  obtain ⟨all, last⟩ := ordered.periods_nonneg
  rw [Forecast.leftTime_of_ordered ordered apart]
  split
  · exact last
  · exact Int.tdiv_nonneg (by omega) (by decide)

/-- A refresh. -/
theorem Forecast.Ordered.refresh (ordered : forecast.Ordered now)
    (apart : forecast.lastBatteryLevelUptime ≠ forecast.lowestBatteryLevelUptime) : forecast.refresh.Kept now where
  ordered _ :=
    { lowest_le := le_rfl
      last_le := ordered.lowest_le.trans ordered.last_le
      first_before := ordered.first_before.trans ordered.last_before
      last_before := le_rfl
      before_now := ordered.before_now
      lowest_lt := fun different => absurd rfl different
      last_lt := fun _ => (ordered.lowest_lt apart).trans_le ordered.last_le }
  leftTime_nonneg := ordered.leftTime_nonneg apart

/-- A level that is handled. -/
theorem Forecast.Kept.handle (kept : forecast.Kept call.now) : (forecast.handle call).Kept call.now := by
  unfold Forecast.handle
  split
  · exact kept.lower.adjust
  · exact kept.lower

theorem Forecast.lowest_handle :
    (forecast.handle call).lowestBatteryLevel = min forecast.lowestBatteryLevel call.batteryLevel := by
  have lowered : (forecast.lower call).lowestBatteryLevel = min forecast.lowestBatteryLevel call.batteryLevel := by
    unfold Forecast.lower
    by_cases less : forecast.lowestBatteryLevel > call.batteryLevel
    · rw [if_pos less, Nat.min_eq_right (le_of_lt less)]
      dsimp only
      split <;> rfl
    · rw [if_neg less, Nat.min_eq_left (not_lt.mp less)]
  unfold Forecast.handle Forecast.adjust
  split
  · split <;> exact lowered
  · exact lowered

end Order

/-- The call resets the forecast, for a level that is none, without the battery, or for a suspected charging. -/
def Call.Resets (call : Call) (forecast : Forecast) : Prop := call.Charging ∨ call.Suspected forecast

instance (call : Call) (forecast : Forecast) : Decidable (call.Resets forecast) := inferInstanceAs (Decidable (_ ∨ _))

/-- A call that resets the forecast. -/
structure IsReset (call : Call) (forecast : Forecast) (outcome : Outcome) : Prop where
  resets : call.Resets forecast
  changes : outcome.forecast.currentBatteryChanges < 2
  lowest : outcome.forecast.lowestBatteryLevel = call.batteryLevel
  uptime : outcome.forecast.lastBatteryLevelUptime = call.now + msecPerHour
  leftTime : outcome.forecast.lastBatteryLeftTime = forecast.lastBatteryLeftTime
  periods : outcome.periods = []

/-- A call within the hour behind a reset. -/
structure IsWaiting (call : Call) (forecast : Forecast) (outcome : Outcome) : Prop where
  resets : ¬ call.Resets forecast
  early : call.now < forecast.lastBatteryLevelUptime
  same : outcome.forecast = forecast
  periods : outcome.periods = []

/-- The refresh of a handled level. -/
structure Forecast.Refreshes (handled forecast : Forecast) (call : Call) : Prop where
  begun : 1 < handled.currentBatteryChanges
  apart : handled.lastBatteryLevelUptime ≠ handled.lowestBatteryLevelUptime
  condition : Forecast.RefreshCalculation handled.currentBatteryChanges
    (forecast.lastBatteryLevel - call.batteryLevel) (call.now - forecast.lastBatteryLevelUptime)

/-- A call that handles its level. -/
structure IsHandled (call : Call) (forecast : Forecast) (outcome : Outcome) : Prop where
  resets : ¬ call.Resets forecast
  due : forecast.lastBatteryLevelUptime ≤ call.now
  days : outcome.days =
    if 2 < outcome.forecast.currentBatteryChanges then
      roundDays (outcome.forecast.lastBatteryLeftTime - outcome.passedTime) else -1
  effect :
    (forecast.handle call).Refreshes forecast call ∧ outcome.forecast = (forecast.handle call).refresh ∧
        outcome.passedTime = call.now - (forecast.handle call).lowestBatteryLevelUptime ∧
        outcome.periods = (forecast.handle call).periods ∨
      ¬ (forecast.handle call).Refreshes forecast call ∧ outcome.forecast = forecast.handle call ∧
        outcome.passedTime = call.now - forecast.lastBatteryLevelUptime ∧ outcome.periods = []

/-- What a call does. -/
theorem calculateForecast_cases (call : Call) (forecast : Forecast) :
    IsReset call forecast (calculateForecast call forecast) ∨ IsWaiting call forecast (calculateForecast call forecast) ∨
      IsHandled call forecast (calculateForecast call forecast) := by
  unfold calculateForecast
  by_cases charging : call.Charging
  · rw [if_pos charging]
    exact .inl ⟨.inl charging, Nat.zero_lt_two, rfl, rfl, rfl, rfl⟩
  rw [if_neg charging]
  by_cases suspected : call.Suspected forecast
  · rw [if_pos suspected]
    exact .inl ⟨.inr suspected, Nat.one_lt_two, rfl, rfl, rfl, rfl⟩
  rw [if_neg suspected]
  have resets : ¬ call.Resets forecast := not_or.mpr ⟨charging, suspected⟩
  by_cases early : call.now < forecast.lastBatteryLevelUptime
  · rw [if_pos (Int.sub_neg_of_lt early)]
    exact .inr (.inl ⟨resets, early, rfl, rfl⟩)
  rw [if_neg (by omega)]
  refine .inr (.inr ⟨resets, not_lt.mp early, rfl, ?_⟩)
  by_cases refreshes : (forecast.handle call).Refreshes forecast call
  · have all := And.intro refreshes.begun (And.intro refreshes.apart refreshes.condition)
    refine .inl ⟨refreshes, if_pos all, ?_, if_pos all⟩
    exact (if_pos all).trans (congrArg (call.now - Forecast.lastBatteryLevelUptime ·) (if_pos all))
  · have none := fun all => refreshes ⟨And.left all, And.left (And.right all), And.right (And.right all)⟩
    exact .inr ⟨refreshes, if_neg none, if_neg none, if_neg none⟩

/-- A call keeps the order, and calculates over levels that went down. -/
theorem Forecast.Kept.calculate {call : Call} {forecast : Forecast} (kept : forecast.Kept call.now) :
    (calculateForecast call forecast).forecast.Kept call.now ∧
      ∀ period ∈ (calculateForecast call forecast).periods, 0 < period.diff := by
  rcases calculateForecast_cases call forecast with reset | waiting | handled
  · refine ⟨⟨fun begun => absurd begun (not_le.mpr reset.changes), ?_⟩, by simp [reset.periods]⟩
    exact reset.leftTime ▸ kept.leftTime_nonneg
  · exact ⟨waiting.same.symm ▸ kept, by simp [waiting.periods]⟩
  · rcases handled.effect with ⟨refreshes, same, _, periods⟩ | ⟨_, same, _, periods⟩
    · have ordered := kept.handle.ordered refreshes.begun
      exact ⟨same ▸ ordered.refresh refreshes.apart, periods ▸ ordered.periods refreshes.apart⟩
    · exact ⟨same ▸ kept.handle, by simp [periods]⟩

/-- The level of the last reset, the end of the hour behind it, and the levels that came since then. -/
structure Since where
  level : ℕ := pmInvalidInternalLevel
  after : ℤ := 0
  levels : List ℕ := []
deriving DecidableEq

/-- A call of a given kind. -/
def Since.next (since : Since) (call : Call) (resets : Prop) [Decidable resets] : Since :=
  if resets then { level := call.batteryLevel, after := call.now + msecPerHour, levels := [] }
  else if since.after ≤ call.now then { since with levels := call.batteryLevel :: since.levels } else since

/-- The calls so far: the forecast that they leave, the time of the last one, what came since the last reset, and the
calls of `calculate_left_time`. -/
structure Record where
  forecast : Forecast := {}
  now : ℤ
  since : Since := {}
  periods : List Period := []
deriving DecidableEq

/-- A call that comes not before the last one. -/
def Step (record : Record) (call : Call) (next : Record) : Prop :=
  record.now ≤ call.now ∧ next =
    { forecast := (calculateForecast call record.forecast).forecast
      now := call.now
      since := record.since.next call (call.Resets record.forecast)
      periods := record.periods ++ (calculateForecast call record.forecast).periods }

/-- The lowest level is the least one since the last reset. Either the hour behind the reset is awaited, or it is
over. -/
structure Record.Follows (record : Record) : Prop where
  lowest : IsLeast { level | level ∈ record.since.level :: record.since.levels } record.forecast.lowestBatteryLevel
  due : record.forecast.lastBatteryLevelUptime = record.since.after ∨
    record.forecast.lastBatteryLevelUptime ≤ record.now ∧ record.since.after ≤ record.now

section Runs

variable {record next : Record} {call : Call} {calls : List Call} {start : ℤ}

private theorem isLeast_cons {least level other : ℕ} {levels : List ℕ} (found : IsLeast { l | l ∈ level :: levels } least) :
    IsLeast { l | l ∈ level :: other :: levels } (min least other) := by
  have same : { l | l ∈ level :: other :: levels } = insert other { l | l ∈ level :: levels } := by
    ext
    simp only [List.mem_cons, Set.mem_ofPred_eq, Set.mem_insert_iff]
    exact or_left_comm
  rw [same, min_comm]
  exact found.insert other

/-- The last level of a handled call is not of a later time. -/
theorem Forecast.uptime_handle {forecast : Forecast} (kept : forecast.Kept call.now)
    (due : forecast.lastBatteryLevelUptime ≤ call.now) : (forecast.handle call).lastBatteryLevelUptime ≤ call.now := by
  by_cases begun : 1 < (forecast.handle call).currentBatteryChanges
  · have ordered := kept.handle.ordered begun
    exact ordered.last_before.trans ordered.before_now
  · have changes : ¬ 1 < (forecast.lower call).currentBatteryChanges := by
      intro more
      rw [Forecast.handle, if_pos more, Forecast.adjust] at begun
      split at begun <;> exact begun more
    rw [Forecast.handle, if_neg changes]
    unfold Forecast.lower at changes ⊢
    split
    · next less =>
      rw [if_pos less] at changes
      dsimp only at changes ⊢
      split
      · exact le_rfl
      · exact due
    · exact due

theorem Record.Follows.step (follows : record.Follows) (kept : record.forecast.Kept record.now)
    (moved : Step record call next) : next.Follows := by
  obtain ⟨ordered, rfl⟩ := moved
  have now := kept.mono ordered
  rcases calculateForecast_cases call record.forecast with reset | waiting | handled
  · constructor
    · simp only [Since.next, if_pos reset.resets, reset.lowest]
      simp [IsLeast, lowerBounds]
    · refine .inl ?_
      simp only [Since.next, if_pos reset.resets, reset.uptime]
  · have early := waiting.early
    have awaited : record.forecast.lastBatteryLevelUptime = record.since.after := by
      rcases follows.due with same | ⟨before, _⟩
      · exact same
      · omega
    have later : ¬ record.since.after ≤ call.now := by omega
    constructor
    · simp only [Since.next, if_neg waiting.resets, if_neg later, waiting.same]
      exact follows.lowest
    · simp only [Since.next, if_neg waiting.resets, if_neg later, waiting.same]
      exact .inl awaited
  · have due := handled.due
    have later : record.since.after ≤ call.now := by
      rcases follows.due with same | ⟨_, after⟩
      · exact same ▸ due
      · exact after.trans ordered
    have lowest : (calculateForecast call record.forecast).forecast.lowestBatteryLevel =
        (record.forecast.handle call).lowestBatteryLevel := by
      rcases handled.effect with ⟨_, same, _⟩ | ⟨_, same, _⟩
      · rw [same]
        rfl
      · rw [same]
    have uptime : (calculateForecast call record.forecast).forecast.lastBatteryLevelUptime ≤ call.now := by
      rcases handled.effect with ⟨refreshes, same, _⟩ | ⟨_, same, _⟩
      · rw [same]
        exact (now.handle.ordered refreshes.begun).before_now
      · rw [same]
        exact Forecast.uptime_handle now due
    constructor
    · simp only [Since.next, if_neg handled.resets, if_pos later, lowest, Forecast.lowest_handle]
      exact isLeast_cons follows.lowest
    · simp only [Since.next, if_neg handled.resets, if_pos later]
      exact .inr ⟨uptime, later⟩

/-- All that is kept along a run. -/
structure Record.Good (record : Record) : Prop where
  kept : record.forecast.Kept record.now
  follows : record.Follows
  periods : ∀ period ∈ record.periods, 0 < period.diff

theorem Record.good_init : Record.Good { now := start } where
  kept := Forecast.kept_init
  follows := ⟨by simp [IsLeast, lowerBounds], .inl rfl⟩
  periods := by simp

theorem Record.Good.step (good : record.Good) (moved : Step record call next) : next.Good := by
  have follows := good.follows.step good.kept moved
  obtain ⟨ordered, rfl⟩ := moved
  obtain ⟨kept, positive⟩ := (good.kept.mono ordered).calculate
  refine ⟨kept, follows, fun period found => ?_⟩
  rcases List.mem_append.mp found with before | added
  · exact good.periods period before
  · exact positive period added

private theorem good_of_path (path : Path Step { now := start } calls record) : record.Good :=
  path.invariant Record.Good (fun _ _ _ good moved => good.step moved) Record.good_init

end Runs

/-- Along any calls in the order of time, a forecast that has begun has its levels go down and their times go up, the
lowest level is the least one since the last reset, each left time is calculated over levels that went down, and none
is negative. -/
theorem forecast_kept {start : ℤ} {calls : List Call} {record : Record}
    (path : Path Step { now := start } calls record) :
    (2 ≤ record.forecast.currentBatteryChanges →
      (record.forecast.lowestBatteryLevel ≤ record.forecast.lastBatteryLevel ∧
        record.forecast.lastBatteryLevel ≤ record.forecast.firstBatteryLevel) ∧
      record.forecast.firstBatteryLevelUptime ≤ record.forecast.lastBatteryLevelUptime ∧
        record.forecast.lastBatteryLevelUptime ≤ record.forecast.lowestBatteryLevelUptime) ∧
    IsLeast { level | level ∈ record.since.level :: record.since.levels } record.forecast.lowestBatteryLevel ∧
    (∀ period ∈ record.periods, 0 < period.diff) ∧ 0 ≤ record.forecast.lastBatteryLeftTime := by
  have good := good_of_path path
  refine ⟨fun begun => ?_, good.follows.lowest, good.periods, good.kept.leftTime_nonneg⟩
  have ordered := good.kept.ordered begun
  exact ⟨⟨ordered.lowest_le, ordered.last_le⟩, ordered.first_before, ordered.last_before⟩

/-- Levels that are handled, in the order of time. -/
def falling : List Call :=
  [⟨0, 10000, some .fromBattery, 0⟩, ⟨2 * msecPerDay, 9990, some .fromBattery, 0⟩,
    ⟨3 * msecPerDay, 9960, some .powerUnknown, 0⟩, ⟨5 * msecPerDay, 9900, some .fromBattery, 0⟩]

/-- A start, the adjustment after the first day and two refreshes. -/
theorem forecast_kept_falling :
    ∃ record, Path Step { now := 0 } falling record ∧ record.forecast.currentBatteryChanges = 4 ∧
      record.periods.length = 3 ∧ (∀ period ∈ record.periods, 0 < period.diff) := by
  have path : Path Step { now := 0 } falling _ :=
    .cons ⟨by decide, rfl⟩ (.cons ⟨by decide, rfl⟩ (.cons ⟨by decide, rfl⟩ (.cons ⟨by decide, rfl⟩ (.nil _))))
  exact ⟨_, path, by decide +kernel, by decide +kernel, (forecast_kept path).2.2.1⟩

end CoapsClient.Power
