import CoapsClient.Machine.Integer

/-! # The level and the regression of the battery voltage

`transform_curve`, which takes a battery voltage to its level. The points behind the first one are read through a
pointer with a countdown; here these are a list that gets shorter. All arithmetic is that of `int32_t`, without a value
where it overflows.

`reset_linear_regresion` and `calculate_linear_regresion` with their sums, and `power_manager_voltage`, which calls the
latter. The sums are those of the source's types: `sumT` and `sumV` are `uint32_t`, and so is every product that is
added to the `int64_t` sums. What is made of them is arithmetic of doubles, here a parameter.
-/

namespace CoapsClient.Transform

open Machine

/-- `struct transform_point`. -/
structure Point where
  inValue : ℤ
  outValue : ℤ
deriving DecidableEq, Repr

/-- The search from the point `pb` on; `pa` is the one in front of it. -/
def search (inValue : ℤ) (pa pb : Point) : List Point → Point × Point
  | [] => (pa, pb)
  | next :: points => if inValue < pb.inValue then search inValue pb next points else (pa, pb)

/-- The interpolation between the two points; none for a division by zero. -/
def interpolate (inValue : ℤ) (pa pb : Point) : Option ℤ := do
  let outDifference ← checked 32 (pa.outValue - pb.outValue)
  let offset ← checked 32 (inValue - pb.inValue)
  let product ← checked 32 (outDifference * offset)
  let inDifference ← checked 32 (pa.inValue - pb.inValue)
  if inDifference = 0 then none
  else do
    let quotient ← checked 32 (product.tdiv inDifference)
    checked 32 (pb.outValue + quotient)

/-- `transform_curve`; none where it reads behind the curve. -/
def transformCurve (inValue : ℤ) : List Point → Option ℤ
  | [] => none
  | first :: points =>
      if first.inValue ≤ inValue then some first.outValue
      else match points with
        | [] => none
        | second :: points =>
            let (pa, pb) := search inValue first second points
            if inValue ≤ pb.inValue then some pb.outValue
            else interpolate inValue pa pb

/-- `curve_lipo_1350`. -/
def curveLipo1350 : List Point :=
  [⟨4200, 10000⟩, ⟨3950, 8332⟩, ⟨3812, 5313⟩, ⟨3689, 1592⟩, ⟨3626, 1146⟩, ⟨3540, 700⟩, ⟨3300, 0⟩]

/-- `curve_lipo_2000`. -/
def curveLipo2000 : List Point :=
  [⟨4150, 10000⟩, ⟨3762, 6188⟩, ⟨3688, 5246⟩, ⟨3633, 3688⟩, ⟨3554, 1844⟩, ⟨3474, 656⟩, ⟨3466, 491⟩, ⟨3431, 246⟩, ⟨3300, 0⟩]

/-- `curve_lipo_2000_adc`. -/
def curveLipo2000Adc : List Point :=
  [⟨4180, 10000⟩, ⟨4136, 9900⟩, ⟨4068, 9500⟩, ⟨4022, 9000⟩, ⟨4000, 7700⟩, ⟨3800, 4500⟩, ⟨3420, 500⟩, ⟨3350, 0⟩]

/-- `curve_nimh_2000`. -/
def curveNimh2000 : List Point :=
  [⟨4300, 10000⟩, ⟨4029, 9144⟩, ⟨3939, 8558⟩, ⟨3903, 8063⟩, ⟨3877, 6982⟩, ⟨3802, 4820⟩, ⟨3445, 765⟩, ⟨3398, 315⟩, ⟨3300, 0⟩]

/-- `curve_nimh_2000_adc`. -/
def curveNimh2000Adc : List Point :=
  [⟨4350, 10000⟩, ⟨4024, 9265⟩, ⟨3886, 7746⟩, ⟨3784, 3380⟩, ⟨3696, 1830⟩, ⟨3540, 845⟩, ⟨3430, 422⟩, ⟨3300, 0⟩]

/-- `curve_nimh_4_2000`. -/
def curveNimh42000 : List Point :=
  [⟨5800, 10000⟩, ⟨5365, 9265⟩, ⟨5181, 7746⟩, ⟨5045, 3380⟩, ⟨4928, 1830⟩, ⟨4720, 845⟩, ⟨4573, 422⟩, ⟨4400, 0⟩]

/-- `curve_supcap_lihy`. -/
def curveSupcapLihy : List Point :=
  [⟨3950, 10000⟩, ⟨3550, 1682⟩, ⟨3472, 412⟩, ⟨3415, 0⟩]

/-- The curves of the batteries. -/
def profiles : List (List Point) :=
  [curveLipo1350, curveLipo2000, curveLipo2000Adc, curveNimh2000, curveNimh2000Adc, curveNimh42000, curveSupcapLihy]

end CoapsClient.Transform

namespace CoapsClient.Power

open Machine

/-- `LINREG_SIZE`. -/
def linregSize : ℕ := 5

/-- An item of `calc_lr_times` and that of `calc_lr_values`. -/
structure Sample where
  seconds : ℤ
  value : UInt16
deriving DecidableEq, Repr

/-- `calc_lr_times` with `calc_lr_values`, `calc_lr_count` and `calc_lr_index`. -/
structure Regression where
  slots : List Sample := List.replicate linregSize ⟨0, 0⟩
  count : ℕ := 0
  index : ℕ := 0
deriving DecidableEq, Repr

structure Sums where
  count : ℕ
  sumT : ℤ := 0
  sumV : ℤ := 0
  sumVT : ℤ := 0
  sumTT : ℤ := 0
deriving DecidableEq, Repr

/-- A conversion to `uint32_t`. -/
def uint32 (value : ℤ) : ℤ := value % 4294967296

/-- The body of the loop. -/
def Sums.add (seconds : ℤ) (sums : Sums) (sample : Sample) : Sums :=
  let rT := uint32 (seconds - sample.seconds)
  { sums with
    sumT := uint32 (sums.sumT + rT)
    sumV := uint32 (sums.sumV + sample.value.toNat)
    sumVT := sums.sumVT + uint32 (rT * sample.value.toNat)
    sumTT := sums.sumTT + uint32 (rT * rT) }

/-- The divisor of the slope; none where it overflows. -/
def Sums.divisor (sums : Sums) : Option ℤ := do
  let left ← checked 64 (sums.count * sums.sumTT)
  let right ← checked 64 (sums.sumT * sums.sumT)
  checked 64 (left - right)

/-- `reset_linear_regresion`. -/
def resetLinearRegresion (regression : Regression) : Regression := { regression with count := 0 }

/-- `calculate_linear_regresion` up to its sums; none where it only takes the first value. -/
def calculateLinearRegresion (now : ℤ) (value : UInt16) (regression : Regression) : Option Sums × Regression :=
  let seconds := now.tdiv 1000
  let index := if regression.count = 0 then 0 else regression.index
  let slots := regression.slots.set index ⟨seconds, value⟩
  let index := index + 1
  if regression.count = 0 then (none, { slots, count := 1, index })
  else
    let count := if regression.count < index then index else regression.count
    let index := if linregSize = index then 0 else index
    (some ((slots.take count).foldl (Sums.add seconds) { count }), { slots, count, index })

/-- `VOLTAGE_MIN_INTERVAL_MILLIS`. -/
def voltageMinIntervalMillis : ℤ := 10000

/-- `PM_INVALID_VOLTAGE`. -/
def pmInvalidVoltage : UInt16 := 0xffff

/-- The variables of `power_manager_voltage`. -/
structure Voltage where
  lastVoltageUptime : ℤ := 0
  lastVoltage : UInt16 := pmInvalidVoltage
  lastVoltageCharger : Bool := false
  regression : Regression := {}
deriving DecidableEq, Repr

/-- What `power_manager_voltage` reads: the uptime when it begins and when it has a voltage, the voltage of a charger that
charges, and a measured one if there is no error. -/
structure Reading where
  now : ℤ
  later : ℤ
  raw : Bool := false
  charger : Option UInt16 := none
  measured : Option UInt16 := none
deriving DecidableEq, Repr

/-- `time` of `power_manager_voltage`. -/
def Reading.time (reading : Reading) (voltage : Voltage) : ℤ :=
  if reading.raw = false ∧ reading.charger = none ∧ voltage.lastVoltageCharger = false ∧ voltage.lastVoltageUptime ≠ 0 then
    reading.now - voltage.lastVoltageUptime
  else voltageMinIntervalMillis

/-- The voltage that is read, if the last one is too old. -/
def Reading.fresh (reading : Reading) : Option UInt16 := reading.charger.or reading.measured

/-- `power_manager_voltage`, with the voltage if it returns 0; `estimate` is what the regression makes of its sums. -/
def powerManagerVoltage (estimate : Sums → UInt16) (reading : Reading) (voltage : Voltage) : Option UInt16 × Voltage :=
  if reading.time voltage < voltageMinIntervalMillis then (some voltage.lastVoltage, voltage)
  else match reading.fresh with
    | none => (none, voltage)
    | some internal =>
        if 1000 < internal then
          let (sums, regression) :=
            if reading.raw then (none, voltage.regression) else calculateLinearRegresion reading.now internal voltage.regression
          let internal := (sums.map estimate).getD internal
          (some internal,
            { lastVoltageUptime := reading.later
              lastVoltage := internal
              lastVoltageCharger := reading.charger.isSome
              regression })
        else (some voltage.lastVoltage, voltage)

/-- `sh_cmd_battery_forecast_reset`, with the reset that `calculate_forecast` makes for it. -/
def shCmdBatteryForecastReset (voltage : Voltage) : Voltage :=
  { voltage with
    lastVoltageUptime := 0
    lastVoltage := pmInvalidVoltage
    regression := resetLinearRegresion voltage.regression }

end CoapsClient.Power
