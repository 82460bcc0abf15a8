import CoapsClient.Machine.Writer
import CoapsClient.Model.Environment.History
import CoapsClient.Model.Shell.Text

/-! # The environment section of a report

`coap_appl_client_prepare_env_info` in a build with `CONFIG_ENVIRONMENT_SENSOR`. The values of the sensors are of any
type, with the text that `%.*f` makes of one as a parameter. Logs are left out.
-/

namespace CoapsClient.CoapAppl

open Machine (Writer)
open Environment
open ShCmd (Text)

variable {config : Config} {α : Type}

/-- `%d`. -/
def decimal (value : ℤ) : Text :=
  if value < 0 then '-' :: Nat.toDigits 10 value.natAbs else Nat.toDigits 10 value.natAbs

/-- `environment_get_iaq_description`. -/
def environmentGetIaqDescription (value : ℤ) : Text :=
  match (if 0 < value then (value - 1) / 50 else 0).toNat with
  | 0 => "excellent".toList
  | 1 => "good".toList
  | 2 => "lightly polluted".toList
  | 3 => "moderately polluted".toList
  | 4 => "heavily polluted".toList
  | 5 | 6 => "severely polluted".toList
  | _ => "extremely polluted".toList

/-- `IAQ_VALUE`. -/
def iaqValue (iaq : UInt16) : ℤ := (iaq &&& 0x3fff).toNat

/-- `IAQ_ACCURANCY`. -/
def iaqAccurancy (iaq : UInt16) : ℤ := (iaq >>> 14).toNat

/-- What the sensors have now, if they have it: the results of `environment_get_temperature` and of its siblings, with
the accuracy of the air quality. -/
structure Current (α : Type) where
  temperature : Option α := none
  humidity : Option α := none
  pressure : Option α := none
  iaq : Option (ℤ × ℤ) := none

/-- `if (index) buf[index++] = '\n'; start = index;`. -/
def separate (writer : Writer) : Option Writer := do
  let writer ← if writer.index ≠ 0 then writer.append '\n' else some writer
  some writer.mark

/-- `coap_appl_client_prepare_env_history`. -/
def coapApplClientPrepareEnvHistory (format : ℕ → α → Text) (values : List α) (prec : ℕ) (writer : Writer) :
    Option (Writer × ℤ) := do
  let writer ← values.foldlM (fun writer value => writer.print (format prec value ++ [','])) writer
  let writer := writer.move (writer.index - 1)
  some (writer, writer.index)

/-- The values of a line, with their unit. -/
def printHistory (format : ℕ → α → Text) (values : List α) (prec : ℕ) (unit : Text) (writer : Writer) : Option Writer := do
  let (writer, count) ← writer.call (coapApplClientPrepareEnvHistory format values prec)
  let writer := writer.move (writer.index + count)
  writer.print unit

/-- `values`: the history, or what the sensor has now. -/
def valuesOf (history : List α) (current : Option α) : List α := if history.isEmpty then current.toList else history

/-- The temperature, which is the first line. -/
def printTemperature (format : ℕ → α → Text) (values : List α) (writer : Writer) : Option Writer :=
  if values.isEmpty then some writer else printHistory format values 2 " C".toList writer

/-- The humidity and the pressure. -/
def printQuantity (format : ℕ → α → Text) (values : List α) (prec : ℕ) (unit : Text) (writer : Writer) : Option Writer :=
  if values.isEmpty then some writer
  else do
    let writer ← separate writer
    printHistory format values prec unit writer

/-- The air quality, with the bound of the loop over its values. -/
def printAirQuality (intValue : ℕ) (iaqs : List UInt16) (writer : Writer) : Option Writer :=
  match iaqs with
  | [] => some writer
  | newest :: _ => do
    let desc := environmentGetIaqDescription (iaqValue newest)
    let writer ← separate writer
    let writer ← (iaqs.take intValue).foldlM (fun writer iaq =>
      writer.print (decimal (iaqValue iaq) ++ [';'] ++ decimal (iaqAccurancy iaq) ++ [','])) writer
    let writer := writer.move (writer.index - 1)
    writer.print (" Q (".toList ++ desc ++ [')'])

/-- What the sensor of the air quality has now, for a `res` of 0. -/
def printCurrentAirQuality (res : ℕ) (iaq : Option (ℤ × ℤ)) (writer : Writer) : Option Writer :=
  match iaq with
  | none => some writer
  | some (value, accuracy) =>
    if res = 0 then do
      let desc := environmentGetIaqDescription value
      let writer ← separate writer
      writer.print (['!'] ++ decimal value ++ [';'] ++ decimal accuracy ++ " Q (".toList ++ desc ++ [')'])
    else some writer

/-- `coap_appl_client_prepare_env_info`. -/
def coapApplClientPrepareEnvInfo (format : ℕ → α → Text) (histories : Histories config α) (current : Current α)
    (writer : Writer) : Option (Writer × ℤ) := do
  let temperatures := valuesOf (environmentGetTemperatureHistory histories config.historySize) current.temperature
  let humidities := valuesOf (environmentGetHumidityHistory histories config.historySize) current.humidity
  let pressures := valuesOf (environmentGetPressureHistory histories config.historySize) current.pressure
  let iaqs := environmentGetIaqHistory histories config.historySize
  let writer ← printTemperature format temperatures writer
  let writer ← printQuantity format humidities 2 " %H".toList writer
  let writer ← printQuantity format pressures 0 " hPa".toList writer
  -- `int_value` is only set behind the loop
  let writer ← printAirQuality 0 iaqs writer
  -- without a history, `res` is that of the pressure
  let res := if config.historySize = 0 then pressures.length else iaqs.length
  let writer ← printCurrentAirQuality res current.iaq writer
  some (writer, writer.index)

end CoapsClient.CoapAppl
