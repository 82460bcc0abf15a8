import Mathlib.Tactic.Common
import Mathlib.Data.Int.Order.Basic
import Mathlib.Algebra.Group.Nat.Defs

/-! # The battery forecast

`calculate_left_time` and `calculate_forecast` of `power_manager.c`. Levels are in 0.01 %, times in ms. The times are
exact. The linear regression, which the forecast only resets, and the messages of the log are left out.
-/

namespace CoapsClient.Power

/-- `PM_INVALID_INTERNAL_LEVEL`. -/
def pmInvalidInternalLevel : ℕ := 0xffff

/-- `PM_RESET_INTERNAL_LEVEL`. -/
def pmResetInternalLevel : ℕ := 0xfffe

/-- `MINIMUM_BATTERY_LEVEL_DELTA`. -/
def minimumBatteryLevelDelta : ℤ := 20

/-- `MSEC_PER_HOUR`. -/
def msecPerHour : ℤ := 3600000

/-- `MSEC_PER_DAY`. -/
def msecPerDay : ℤ := 86400000

/-- `MSEC_PER_WEEK`. -/
def msecPerWeek : ℤ := 604800000

/-- The cast to `int16_t`. -/
def int16 (value : ℤ) : ℤ := value.bmod 65536

/-- `ROUND_DAYS`; the division of C rounds toward zero. -/
def roundDays (time : ℤ) : ℤ := int16 ((time + msecPerDay / 2).tdiv msecPerDay)

/-- `power_manager_status_t`. -/
inductive PowerManagerStatus where
  | powerUnknown
  | fromBattery
  | chargingTrickle
  | chargingI
  | chargingV
  | chargingS
  | chargingCompleted
  | fromExternal
deriving DecidableEq, Repr

/-- The variables of the forecast. -/
structure Forecast where
  currentBatteryChanges : ℕ := 0
  forecastFirstDay : Bool := false
  firstBatteryLevel : ℕ := pmInvalidInternalLevel
  firstBatteryLevelUptime : ℤ := 0
  lastBatteryLevel : ℕ := pmInvalidInternalLevel
  lastBatteryLevelUptime : ℤ := 0
  lowestBatteryLevel : ℕ := pmInvalidInternalLevel
  lowestBatteryLevelUptime : ℤ := 0
  lastBatteryLeftTime : ℤ := 0
deriving DecidableEq

/-- The arguments of `calculate_forecast`, no status for a null pointer, and the value of `battery_reset_threshold`. -/
structure Call where
  now : ℤ
  batteryLevel : ℕ
  status : Option PowerManagerStatus
  batteryResetThreshold : ℕ := 0
deriving DecidableEq

/-- The levels and times of `calculate_left_time`. -/
structure Period where
  now : ℤ
  batteryLevel : ℕ
  past : ℤ
  batteryLevelPast : ℕ
deriving DecidableEq

/-- `diff` of `calculate_left_time`. -/
def Period.diff (period : Period) : ℤ := period.batteryLevelPast - period.batteryLevel

/-- `left_time` of `calculate_left_time`. -/
def Period.leftTime (period : Period) : ℤ := ((period.now - period.past) * period.batteryLevel).tdiv period.diff

/-- `calculate_left_time`: what it returns, and the time that it has added to. -/
def calculateLeftTime (period : Period) (time : ℤ) : ℤ × ℤ :=
  if period.diff = 0 then (-1, time) else (0, time + period.leftTime)

namespace Forecast

/-- The part of `calculate_forecast` that begins to wait for an hour. -/
def wait (forecast : Forecast) (call : Call) : Forecast :=
  { forecast with
    lastBatteryLevelUptime := call.now + msecPerHour
    lastBatteryLevel := call.batteryLevel
    lowestBatteryLevelUptime := call.now
    lowestBatteryLevel := call.batteryLevel }

/-- The part that takes over a lower level, and starts the calculation with the first one. -/
def lower (forecast : Forecast) (call : Call) : Forecast :=
  if forecast.lowestBatteryLevel > call.batteryLevel then
    let forecast := { forecast with lowestBatteryLevel := call.batteryLevel, lowestBatteryLevelUptime := call.now }
    if 2 > forecast.currentBatteryChanges then
      { forecast with
        firstBatteryLevel := call.batteryLevel
        firstBatteryLevelUptime := call.now
        lastBatteryLevel := call.batteryLevel
        lastBatteryLevelUptime := call.now
        currentBatteryChanges := 2 }
    else forecast
  else forecast

/-- The adjustment after the first day. -/
def adjust (forecast : Forecast) (now : ℤ) : Forecast :=
  if forecast.forecastFirstDay = false ∧ msecPerDay < now - forecast.firstBatteryLevelUptime then
    { forecast with
      forecastFirstDay := true
      firstBatteryLevel := forecast.lowestBatteryLevel
      firstBatteryLevelUptime := forecast.lowestBatteryLevelUptime
      lastBatteryLevel := forecast.lowestBatteryLevel
      lastBatteryLevelUptime := forecast.lowestBatteryLevelUptime }
  else forecast

/-- The part that handles a level, up to the refresh. -/
def handle (forecast : Forecast) (call : Call) : Forecast :=
  if 1 < (forecast.lower call).currentBatteryChanges then (forecast.lower call).adjust call.now else forecast.lower call

/-- `refresh_calculation`. -/
def RefreshCalculation (changes : ℕ) (delta passedTime : ℤ) : Prop :=
  if changes = 2 then minimumBatteryLevelDelta ≤ delta ∨ msecPerDay < passedTime
  else minimumBatteryLevelDelta ≤ delta ∧ msecPerDay < passedTime ∨ msecPerWeek < passedTime

instance (changes : ℕ) (delta passedTime : ℤ) : Decidable (RefreshCalculation changes delta passedTime) :=
  inferInstanceAs (Decidable (if changes = 2 then _ ∨ _ else _ ∧ _ ∨ _))

/-- The period from the first level to the lowest one. -/
def allPeriods (forecast : Forecast) : Period where
  now := forecast.lowestBatteryLevelUptime
  batteryLevel := forecast.lowestBatteryLevel
  past := forecast.firstBatteryLevelUptime
  batteryLevelPast := forecast.firstBatteryLevel

/-- The period from the last level to the lowest one. -/
def lastPeriod (forecast : Forecast) : Period where
  now := forecast.lowestBatteryLevelUptime
  batteryLevel := forecast.lowestBatteryLevel
  past := forecast.lastBatteryLevelUptime
  batteryLevelPast := forecast.lastBatteryLevel

/-- The periods that the refresh calls `calculate_left_time` for. -/
def periods (forecast : Forecast) : List Period :=
  if forecast.firstBatteryLevelUptime = forecast.lastBatteryLevelUptime then [forecast.lastPeriod]
  else [forecast.allPeriods, forecast.lastPeriod]

/-- `last_battery_left_time` that the refresh calculates. -/
def leftTime (forecast : Forecast) : ℤ :=
  if forecast.firstBatteryLevelUptime = forecast.lastBatteryLevelUptime then (calculateLeftTime forecast.lastPeriod 0).2
  else ((calculateLeftTime forecast.lastPeriod ((calculateLeftTime forecast.allPeriods 0).2 * 2)).2).tdiv 3

/-- The refresh of the calculation. -/
def refresh (forecast : Forecast) : Forecast :=
  { forecast with
    currentBatteryChanges := (forecast.currentBatteryChanges + 1) % 2 ^ 16
    lastBatteryLeftTime := forecast.leftTime
    lastBatteryLevel := forecast.lowestBatteryLevel
    lastBatteryLevelUptime := forecast.lowestBatteryLevelUptime }

end Forecast

/-- What a call of `calculate_forecast` leaves. -/
structure Outcome where
  forecast : Forecast
  /-- What is returned. -/
  days : ℤ := -1
  status : Option PowerManagerStatus
  /-- The variable `passed_time`. -/
  passedTime : ℤ
  /-- The calls of `calculate_left_time`. -/
  periods : List Period := []
deriving DecidableEq

/-- The level is none, or the device does not run from its battery. -/
def Call.Charging (call : Call) : Prop :=
  call.batteryLevel = pmInvalidInternalLevel ∨ call.batteryLevel = pmResetInternalLevel ∨
    (call.status ≠ some .fromBattery ∧ call.status ≠ some .powerUnknown)

instance (call : Call) : Decidable call.Charging := inferInstanceAs (Decidable (_ ∨ _ ∨ _))

/-- The level is so far above the last one that the battery was charged without a signal. -/
def Call.Suspected (call : Call) (forecast : Forecast) : Prop :=
  forecast.currentBatteryChanges ≠ 0 ∧ call.batteryResetThreshold ≠ 0 ∧
    (forecast.lastBatteryLevel - call.batteryLevel : ℤ) < -call.batteryResetThreshold

instance (call : Call) (forecast : Forecast) : Decidable (call.Suspected forecast) :=
  inferInstanceAs (Decidable (_ ∧ _ ∧ _))

/-- `calculate_forecast`. -/
def calculateForecast (call : Call) (forecast : Forecast) : Outcome :=
  let passedTime := call.now - forecast.lastBatteryLevelUptime
  let delta : ℤ := forecast.lastBatteryLevel - call.batteryLevel
  if call.Charging then
    -- reset, wait 60min after start running from battery
    { forecast := { forecast.wait call with forecastFirstDay := false, currentBatteryChanges := 0 }
      status := call.status
      passedTime }
  else if call.Suspected forecast then
    { forecast := { forecast.wait call with currentBatteryChanges := 1 }
      status := call.status.map fun _ => .chargingS
      passedTime }
  else if 0 > passedTime then { forecast, status := call.status, passedTime }
  else
    let forecast := forecast.handle call
    let refreshes := 1 < forecast.currentBatteryChanges ∧
      forecast.lastBatteryLevelUptime ≠ forecast.lowestBatteryLevelUptime ∧
      Forecast.RefreshCalculation forecast.currentBatteryChanges delta passedTime
    let periods := if refreshes then forecast.periods else []
    let forecast := if refreshes then forecast.refresh else forecast
    let passedTime := if refreshes then call.now - forecast.lastBatteryLevelUptime else passedTime
    { forecast
      days := if 2 < forecast.currentBatteryChanges then roundDays (forecast.lastBatteryLeftTime - passedTime) else -1
      status := call.status
      passedTime
      periods }

end CoapsClient.Power
