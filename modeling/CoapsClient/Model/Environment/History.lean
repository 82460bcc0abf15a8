import Mathlib.Tactic.Common
import Mathlib.Data.Int.Order.Basic
import Mathlib.Data.UInt

/-! # The history of the environment

`environment_history.c` in a build with a sensor. A history is an array with the newest value first, and a time up to
which values are only taken by force. The values of temperature, humidity and pressure are of any type; those of the
air quality are 16 bits. The locks are left out: each function holds one from its start to its end.
-/

namespace CoapsClient.Environment

structure Config where
  /-- `CONFIG_ENVIRONMENT_HISTORY_SIZE`; the functions count the values in a `uint8_t`. -/
  historySize : ℕ
  historySize_lt : historySize < 256
  /-- `CONFIG_ENVIRONMENT_HISTORY_INTERVAL_S`. -/
  historyIntervalS : ℕ
  /-- `CONFIG_BME680_BSEC`. -/
  bme680Bsec : Bool

variable {config : Config} {α : Type}

/-- The loop that shifts the values by one, from an index down. -/
def shift : ℕ → List α → List α
  | 0, history => history
  | index + 1, history =>
    match history[index]? with
    | some value => shift index (history.set (index + 1) value)
    | none => history

/-- The loop keeps the first value, and takes the one at the index. -/
private theorem shift_eq {index : ℕ} {history : List α} (inside : index < history.length) :
    shift index history = history.take 1 ++ history.take index ++ history.drop (index + 1) := by
  induction index generalizing history with
  | zero =>
    rw [shift, List.take_zero, List.append_nil, List.take_append_drop]
  | succ index ih =>
    have before : index < history.length := by omega
    rw [shift, List.getElem?_eq_getElem before]
    dsimp only
    have behind : (history.set (index + 1) history[index]).drop (index + 1) = history[index] :: history.drop (index + 2) := by
      rw [List.drop_set, if_neg (Nat.lt_irrefl _), Nat.sub_self, List.drop_eq_getElem_cons inside, List.set_cons_zero]
    have longer : history.take (index + 1) = history.take index ++ [history[index]] := (List.take_append_getElem before).symm
    rw [ih (by rwa [List.length_set]), List.take_set_of_le (by omega), List.take_set_of_le (by omega), behind, longer]
    simp only [List.append_assoc, List.cons_append, List.nil_append]

@[simp] theorem length_shift {index : ℕ} {history : List α} : (shift index history).length = history.length := by
  induction index generalizing history with
  | zero => rfl
  | succ index ih =>
    rw [shift]
    split
    · rw [ih, List.length_set]
    · rfl

/-- The new value is put in front of the others. -/
theorem set_shift {index : ℕ} {history : List α} {value : α} (inside : index < history.length) :
    (shift index history).set 0 value = value :: (history.take index ++ history.drop (index + 1)) := by
  obtain ⟨first, rest, rfl⟩ := List.exists_cons_of_length_pos (l := history) (by omega)
  rw [shift_eq inside]
  rfl

/-- `SENSOR_HISTORY`. -/
structure SensorHistory (config : Config) (α : Type) where
  nextTime : ℤ := 0
  size : ℕ := 0
  history : List α
  size_le : size ≤ config.historySize
  length_eq : history.length = config.historySize

/-- `environment_init_double_history` and `environment_init_uint16_history`. -/
def environmentInitSensorHistory [Zero α] : SensorHistory config α where
  history := List.replicate config.historySize 0
  size_le := Nat.zero_le _
  length_eq := List.length_replicate

/-- `environment_add_double_history` and `environment_add_uint16_history`, at a time in ms. -/
def environmentAddSensorHistory (history : SensorHistory config α) (now : ℤ) (value : α) (force : Bool) :
    SensorHistory config α :=
  if force ∨ 0 ≤ now - history.nextTime then
    let size := if history.size < config.historySize then history.size + 1 else history.size
    { nextTime := now + config.historyIntervalS * 1000
      size
      history := (shift (size - 1) history.history).set 0 value
      size_le := by
        have bound := history.size_le
        simp only [size]
        split <;> omega
      length_eq := by rw [List.length_set, length_shift, history.length_eq] }
  else history

/-- `environment_get_double_history` and `environment_get_uint16_history`. -/
def environmentGetSensorHistory (history : SensorHistory config α) (size : ℕ) : List α :=
  history.history.take (if history.size < size then history.size else size)

/-- The histories of the source. -/
structure Histories (config : Config) (α : Type) where
  temperature : SensorHistory config α
  humidity : SensorHistory config α
  pressure : SensorHistory config α
  iaq : SensorHistory config UInt16

/-- `environment_init_history`. -/
def environmentInitHistory [Zero α] : Histories config α where
  temperature := environmentInitSensorHistory
  humidity := environmentInitSensorHistory
  pressure := environmentInitSensorHistory
  iaq := environmentInitSensorHistory

/-- A call of one of the functions that add a value, with the uptime it is called at. -/
inductive Sample (α : Type) where
  | temperature (now : ℤ) (value : α) (force : Bool)
  | humidity (now : ℤ) (value : α) (force : Bool)
  | pressure (now : ℤ) (value : α) (force : Bool)
  | iaq (now : ℤ) (value : UInt16) (force : Bool)

/-- `environment_add_temperature_history`, `environment_add_humidity_history`, `environment_add_pressure_history` and
`environment_add_iaq_history`. -/
def Histories.add (histories : Histories config α) : Sample α → Histories config α
  | .temperature now value force =>
    { histories with temperature := environmentAddSensorHistory histories.temperature now value force }
  | .humidity now value force =>
    { histories with humidity := environmentAddSensorHistory histories.humidity now value force }
  | .pressure now value force =>
    { histories with pressure := environmentAddSensorHistory histories.pressure now value force }
  | .iaq now value force =>
    if config.bme680Bsec then { histories with iaq := environmentAddSensorHistory histories.iaq now value force }
    else histories

/-- `environment_get_temperature_history`. -/
def environmentGetTemperatureHistory (histories : Histories config α) (size : ℕ) : List α :=
  environmentGetSensorHistory histories.temperature size

/-- `environment_get_humidity_history`. -/
def environmentGetHumidityHistory (histories : Histories config α) (size : ℕ) : List α :=
  environmentGetSensorHistory histories.humidity size

/-- `environment_get_pressure_history`. -/
def environmentGetPressureHistory (histories : Histories config α) (size : ℕ) : List α :=
  environmentGetSensorHistory histories.pressure size

/-- `environment_get_iaq_history`. -/
def environmentGetIaqHistory (histories : Histories config α) (size : ℕ) : List UInt16 :=
  if config.bme680Bsec then environmentGetSensorHistory histories.iaq size else []

end CoapsClient.Environment
