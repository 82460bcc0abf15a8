import CoapsClient.Machine.Separated
import CoapsClient.Model.Coap.EnvInfo
import Mathlib.Data.List.ReduceOption

/-! # The histories in a report

A history keeps the newest of the values that it has accepted, and the report prints them: each quantity on its own line,
with commas between the values. The loop over the air quality has a bound that is always 0, so that its values are
missing, and what takes back the last comma moves the index in front of the line.
-/

namespace CoapsClient.Environment

variable {config : Config} {α : Type}

/-- The values that a history has accepted, the newest first. -/
structure Accepted (α : Type) where
  nextTime : ℤ := 0
  values : List α := []

/-- A value is accepted by force, or when its time has come. -/
def Accepted.add (accepted : Accepted α) (interval : ℤ) (now : ℤ) (value : α) (force : Bool) : Accepted α :=
  if force ∨ accepted.nextTime ≤ now then { nextTime := now + interval, values := value :: accepted.values } else accepted

/-- A history holds the newest of the accepted values. -/
structure Keeps (history : SensorHistory config α) (accepted : Accepted α) : Prop where
  nextTime : history.nextTime = accepted.nextTime
  size : history.size = min accepted.values.length config.historySize
  values : history.history.take history.size = accepted.values.take config.historySize

private theorem keeps_init [Zero α] : Keeps (environmentInitSensorHistory : SensorHistory config α) {} where
  nextTime := rfl
  size := (Nat.zero_min _).symm
  values := by simp [environmentInitSensorHistory]

/-- Adding a value keeps the newest. -/
theorem Keeps.add {history : SensorHistory config α} {accepted : Accepted α} (keeps : Keeps history accepted) (now : ℤ)
    (value : α) (force : Bool) :
    Keeps (environmentAddSensorHistory history now value force)
      (accepted.add (config.historyIntervalS * 1000) now value force) := by
  have gate : (force = true ∨ 0 ≤ now - history.nextTime) ↔ (force = true ∨ accepted.nextTime ≤ now) := by
    rw [keeps.nextTime, Int.sub_nonneg]
  unfold environmentAddSensorHistory Accepted.add
  by_cases taken : force = true ∨ accepted.nextTime ≤ now
  · rw [if_pos (gate.mpr taken), if_pos taken]
    have counts := keeps.size
    have length := history.length_eq
    have shorter := congrArg (List.take (config.historySize - 1)) keeps.values
    rw [List.take_take, List.take_take] at shorter
    refine ⟨rfl, ?_, ?_⟩
    · simp only [List.length_cons]
      split <;> omega
    · dsimp only
      rcases Nat.eq_zero_or_pos config.historySize with none | some'
      · have empty : ¬ history.size < config.historySize := by omega
        have zero : history.size = 0 := by omega
        rw [if_neg empty, zero, none, List.take_zero, List.take_zero]
      · set size := if history.size < config.historySize then history.size + 1 else history.size with sizeEq
        obtain ⟨index, same⟩ : ∃ index, size = index + 1 := ⟨size - 1, by rw [sizeEq]; split <;> omega⟩
        have less : min (config.historySize - 1) history.size = index := by
          rw [sizeEq] at same
          split at same <;> omega
        rw [same, Nat.add_sub_cancel, set_shift (by omega), List.take_succ_cons]
        obtain ⟨others, positive⟩ : ∃ others, config.historySize = others + 1 := ⟨config.historySize - 1, by omega⟩
        rw [positive, List.take_succ_cons]
        rw [less, positive, Nat.add_sub_cancel, Nat.min_eq_left (Nat.le_succ others)] at shorter
        rw [← shorter, List.take_append_of_le_length (by rw [List.length_take]; omega), List.take_take, Nat.min_self]
  · rw [if_neg (fun open' => taken (gate.mp open')), if_neg taken]
    exact keeps

/-- The accepted values of the quantities. -/
structure Records (α : Type) where
  temperature : Accepted α := {}
  humidity : Accepted α := {}
  pressure : Accepted α := {}
  iaq : Accepted UInt16 := {}

/-- The values of the air quality are only accepted in a build with its sensor. -/
def Records.add (config : Config) (records : Records α) : Sample α → Records α
  | .temperature now value force =>
    { records with temperature := records.temperature.add (config.historyIntervalS * 1000) now value force }
  | .humidity now value force =>
    { records with humidity := records.humidity.add (config.historyIntervalS * 1000) now value force }
  | .pressure now value force =>
    { records with pressure := records.pressure.add (config.historyIntervalS * 1000) now value force }
  | .iaq now value force =>
    if config.bme680Bsec then { records with iaq := records.iaq.add (config.historyIntervalS * 1000) now value force }
    else records

/-- What is accepted of some samples. -/
def Records.of (config : Config) (samples : List (Sample α)) : Records α := samples.foldl (Records.add config) {}

/-- The histories behind some samples. -/
def Histories.of [Zero α] (config : Config) (samples : List (Sample α)) : Histories config α :=
  samples.foldl Histories.add environmentInitHistory

structure KeepsAll (histories : Histories config α) (records : Records α) : Prop where
  temperature : Keeps histories.temperature records.temperature
  humidity : Keeps histories.humidity records.humidity
  pressure : Keeps histories.pressure records.pressure
  iaq : Keeps histories.iaq records.iaq

section Runs

variable {histories : Histories config α} {records : Records α}

/-- One sample. -/
theorem KeepsAll.add (keeps : KeepsAll histories records) (sample : Sample α) :
    KeepsAll (histories.add sample) (records.add config sample) := by
  cases sample with
  | temperature now value force => exact { keeps with temperature := keeps.temperature.add now value force }
  | humidity now value force => exact { keeps with humidity := keeps.humidity.add now value force }
  | pressure now value force => exact { keeps with pressure := keeps.pressure.add now value force }
  | iaq now value force =>
    cases bsec : config.bme680Bsec with
    | true =>
      simp only [Histories.add, Records.add, bsec, ↓reduceIte]
      exact { keeps with iaq := keeps.iaq.add now value force }
    | false =>
      simp only [Histories.add, Records.add, bsec, Bool.false_eq_true, ↓reduceIte]
      exact keeps

/-- Some samples. -/
theorem KeepsAll.run (keeps : KeepsAll histories records) (samples : List (Sample α)) :
    KeepsAll (samples.foldl Histories.add histories) (samples.foldl (Records.add config) records) := by
  induction samples generalizing histories records with
  | nil => exact keeps
  | cons sample samples ih => exact ih (keeps.add sample)

private theorem keepsAll_of [Zero α] (samples : List (Sample α)) :
    KeepsAll (Histories.of config samples) (Records.of config samples) :=
  KeepsAll.run ⟨keeps_init, keeps_init, keeps_init, keeps_init⟩ samples

/-- What is read of a history are the newest of the accepted values. -/
theorem Keeps.get {history : SensorHistory config α} {accepted : Accepted α} (keeps : Keeps history accepted) :
    environmentGetSensorHistory history config.historySize = accepted.values.take config.historySize := by
  have bound := history.size_le
  rw [environmentGetSensorHistory, ← keeps.values]
  congr 1
  split <;> omega

/-- Without its sensor nothing of the air quality is accepted. -/
theorem Records.iaq_of_not_bsec {samples : List (Sample α)} (noBsec : config.bme680Bsec = false) :
    (Records.of config samples).iaq.values = [] := by
  have step : ∀ records : Records α, records.iaq.values = [] →
      (samples.foldl (Records.add config) records).iaq.values = [] := by
    induction samples with
    | nil => exact fun _ empty => empty
    | cons sample samples ih =>
      intro records empty
      refine ih _ ?_
      cases sample <;> simp [Records.add, noBsec, empty]
  exact step {} rfl

private theorem get_iaq [Zero α] (samples : List (Sample α)) :
    environmentGetIaqHistory (Histories.of config samples) config.historySize =
      (Records.of config samples).iaq.values.take config.historySize := by
  unfold environmentGetIaqHistory
  cases bsec : config.bme680Bsec with
  | true => exact (keepsAll_of samples).iaq.get
  | false =>
    rw [Records.iaq_of_not_bsec bsec, List.take_nil]
    rfl

end Runs

end CoapsClient.Environment

namespace CoapsClient.CoapAppl

open Machine (Writer Holds)
open Environment
open ShCmd (Text)

/-- Lines that are there, with a line end between them. -/
def joined (lines : List (Option Text)) : Text := ['\n'].intercalate (lines.reduceOption)

/-- The values of a quantity with commas between them, and their unit; no line without values. -/
def valuesLine {α : Type} (format : α → Text) (unit : Text) (values : List α) : Option Text :=
  if values.isEmpty then none else some ([','].intercalate (values.map format) ++ unit)

/-- The values of the air quality with their accuracies, described by the newest. -/
def iaqLine (values : List UInt16) : Option Text :=
  match values with
  | [] => none
  | newest :: _ => valuesLine (fun iaq => decimal (iaqValue iaq) ++ [';'] ++ decimal (iaqAccurancy iaq))
      (" Q (".toList ++ environmentGetIaqDescription (iaqValue newest) ++ [')']) values

/-- What the sensor of the air quality has now. -/
def currentIaqLine (iaq : ℤ × ℤ) : Text :=
  ['!'] ++ decimal iaq.1 ++ [';'] ++ decimal iaq.2 ++ " Q (".toList ++ environmentGetIaqDescription iaq.1 ++ [')']

section Printing

variable {α : Type} {writer : Writer} {size : ℕ} {lines : List (Option Text)} {format : ℕ → α → Text} {values : List α}
variable {prec : ℕ} {unit line : Text}

/-- What is in front of a further line. -/
def ahead (lines : List (Option Text)) : Text := Machine.ended '\n' (lines.reduceOption)

private theorem joined_append : joined (lines ++ [some line]) = ahead lines ++ line := by
  rw [joined, List.reduceOption_append, List.reduceOption_singleton, Option.toList_some,
    Machine.intercalate_append (List.cons_ne_nil _ _), List.intercalate_singleton, ahead]

private theorem joined_append_none : joined (lines ++ [none]) = joined lines := by
  rw [joined, List.reduceOption_append, List.reduceOption_singleton, Option.toList_none, List.append_nil, joined]

/-- A line end is put behind lines that are there. -/
private theorem separate_holds (some' : ∀ line ∈ lines.reduceOption, line ≠ []) (holds : Holds writer size (joined lines))
    (fits : (ahead lines).length < size) :
    ∃ next, separate writer = some next ∧ Holds next size (ahead lines) ∧ next.start = (ahead lines).length := by
  have index := holds.index
  by_cases first : lines.reduceOption = []
  · have nothing : joined lines = [] ∧ ahead lines = [] := by rw [joined, ahead, first]; exact ⟨rfl, rfl⟩
    rw [nothing.1] at holds index
    rw [nothing.2]
    refine ⟨writer.mark, ?_, holds.mark, index⟩
    have zero : ¬ writer.index ≠ 0 := not_not.mpr index
    rw [separate, if_neg zero]
    rfl
  · have split : ahead lines = joined lines ++ ['\n'] := Machine.ended_eq first
    rw [split] at fits ⊢
    have nonzero : writer.index ≠ 0 := by
      obtain ⟨line, others, same⟩ := List.exists_cons_of_ne_nil first
      have long := List.length_pos_iff.mpr (some' line (by rw [same]; exact List.mem_cons_self))
      have whole : (joined lines).length ≠ 0 := by
        rw [joined, same]
        cases others with
        | nil => simpa using long.ne'
        | cons next others =>
          rw [List.intercalate_cons_cons, List.length_append, List.length_append]
          omega
      rw [index]
      omega
    obtain ⟨next, run, appended, _⟩ := @Holds.append writer size _ '\n' holds
      (by rw [List.length_append, List.length_singleton] at fits; omega)
    refine ⟨next.mark, ?_, appended.mark, appended.index⟩
    rw [separate, if_pos nonzero, run]
    rfl

/-- The values with a comma behind each. -/
theorem foldlM_print {β : Type} {print : β → Text} {values : List β} {text : Text} (holds : Holds writer size text)
    (fits : text.length + (Machine.ended ',' (values.map print)).length < size) :
    ∃ next, values.foldlM (fun (writer : Writer) value => writer.print (print value ++ [','])) writer = some next ∧
      Holds next size (text ++ Machine.ended ',' (values.map print)) ∧ next.start = writer.start := by
  induction values generalizing writer text with
  | nil => exact ⟨writer, rfl, by simpa using holds, rfl⟩
  | cons value values ih =>
    rw [List.map_cons, Machine.ended_cons, List.length_append, List.length_cons] at fits
    obtain ⟨next, run, printed, start⟩ := @Machine.Holds.print _ _ _ (print value ++ [',']) holds
      (by rw [List.length_append, List.length_singleton]; omega)
    obtain ⟨last, runs, all, start'⟩ := ih printed
      (by rw [List.length_append, List.length_append, List.length_singleton]; omega)
    refine ⟨last, ?_, by simpa using all, start'.trans start⟩
    rw [List.foldlM_cons, run]
    exact runs

/-- The values of a line are printed without the last comma. -/
private theorem prepareEnvHistory_holds (some' : values ≠ []) (holds : Holds writer size []) (start : writer.start = 0)
    (fits : ([','].intercalate (values.map (format prec))).length + 1 < size) :
    ∃ next, coapApplClientPrepareEnvHistory format values prec writer =
        some (next, (([','].intercalate (values.map (format prec))).length : ℤ)) ∧
      Holds next size ([','].intercalate (values.map (format prec))) := by
  have split := @Machine.ended_eq _ ',' (values.map (format prec)) (by simpa using some')
  obtain ⟨next, run, printed, start'⟩ := @foldlM_print _ _ _ (format prec) values _ holds (by
    rw [split, List.length_append, List.length_singleton, List.length_nil]
    omega)
  rw [split, List.nil_append] at printed
  have back := printed.back (by rw [start', start]; omega)
  refine ⟨_, ?_, back⟩
  rw [coapApplClientPrepareEnvHistory, run, Option.bind_eq_bind, Option.bind_some]
  exact congrArg (fun index => some (next.move (next.index - 1), index)) back.index

/-- A line of values is printed behind what is in front of it. -/
private theorem printHistory_holds {text : Text} (some' : values ≠ []) (holds : Holds writer size text)
    (spaced : 1 < unit.length)
    (fits : (text ++ ([','].intercalate (values.map (format prec)) ++ unit)).length < size) :
    ∃ next, printHistory format values prec unit writer = some next ∧
      Holds next size (text ++ ([','].intercalate (values.map (format prec)) ++ unit)) := by
  rw [List.length_append, List.length_append] at fits
  obtain ⟨middle, called, built, start⟩ := @Machine.Holds.call _ _ _ ([','].intercalate (values.map (format prec)))
    (coapApplClientPrepareEnvHistory format values prec) holds (by omega)
    fun inner start held => prepareEnvHistory_holds some' held start (by omega)
  obtain ⟨next, run, printed, _⟩ := @Machine.Holds.print _ _ _ unit built (by rw [List.length_append]; omega)
  refine ⟨next, ?_, by rw [← List.append_assoc]; exact printed⟩
  rw [printHistory, called, Option.bind_eq_bind, Option.bind_some]
  exact run

/-- A line is not shorter than nothing. -/
private theorem length_joined_le (next : Option Text) : (joined lines).length ≤ (joined (lines ++ [next])).length := by
  cases next with
  | none => rw [joined_append_none]
  | some line =>
    rw [joined_append, List.length_append]
    by_cases first : lines.reduceOption = []
    · rw [joined, first]
      exact Nat.zero_le _
    · rw [ahead, Machine.ended_eq first, List.length_append]
      exact (Nat.le_add_right _ _).trans (Nat.le_add_right _ _)

/-- The part of a quantity: its line, when it has values. -/
private theorem quantity_holds (some' : ∀ line ∈ lines.reduceOption, line ≠ []) (spaced : 1 < unit.length)
    (holds : Holds writer size (joined lines))
    (fits : (joined (lines ++ [valuesLine (format prec) unit values])).length < size) :
    ∃ next, printQuantity format values prec unit writer = some next ∧
      Holds next size (joined (lines ++ [valuesLine (format prec) unit values])) := by
  cases values with
  | nil => exact ⟨writer, rfl, by rwa [valuesLine, List.isEmpty_nil, if_pos rfl, joined_append_none]⟩
  | cons value values =>
    have present : valuesLine (format prec) unit (value :: values) =
        some ([','].intercalate ((value :: values).map (format prec)) ++ unit) := if_neg (by simp)
    rw [present, joined_append] at fits ⊢
    obtain ⟨middle, separated, front, _⟩ := separate_holds some' holds (by rw [List.length_append] at fits; omega)
    obtain ⟨next, run, printed⟩ := printHistory_holds (List.cons_ne_nil value values) front spaced fits
    refine ⟨next, ?_, printed⟩
    rw [printQuantity, if_neg (by simp), separated]
    exact run

/-- The temperature is the first line. -/
private theorem temperature_holds (holds : Holds writer size [])
    (fits : (joined [valuesLine (format 2) " C".toList values]).length < size) :
    ∃ next, printTemperature format values writer = some next ∧
      Holds next size (joined [valuesLine (format 2) " C".toList values]) := by
  cases values with
  | nil => exact ⟨writer, rfl, holds⟩
  | cons value values =>
    have present : joined [valuesLine (format 2) " C".toList (value :: values)] =
        [','].intercalate ((value :: values).map (format 2)) ++ " C".toList := by
      rw [valuesLine, if_neg (by simp)]
      exact List.intercalate_singleton
    rw [present] at fits ⊢
    obtain ⟨next, run, printed⟩ := printHistory_holds (List.cons_ne_nil value values) holds (by decide) fits
    exact ⟨next, by rw [printTemperature, if_neg (by simp)]; exact run, printed⟩

private theorem valuesLine_ne_nil {format : α → Text} (some' : unit ≠ []) : valuesLine format unit values ≠ some [] := by
  intro empty
  rw [valuesLine] at empty
  split at empty
  · cases empty
  · exact some' (List.append_eq_nil_iff.mp (Option.some_inj.mp empty)).2

section Three

variable {temperatures humidities pressures : List α}

/-- The lines of the temperature, the humidity and the pressure. -/
def threeLines (format : ℕ → α → Text) (temperatures humidities pressures : List α) : List (Option Text) :=
  [valuesLine (format 2) " C".toList temperatures, valuesLine (format 2) " %H".toList humidities,
    valuesLine (format 0) " hPa".toList pressures]

private theorem threeLines_ne_nil :
    ∀ line ∈ (threeLines format temperatures humidities pressures).reduceOption, line ≠ [] := by
  intro line member empty
  subst empty
  rw [List.reduceOption_mem_iff, threeLines] at member
  simp only [List.mem_cons, List.not_mem_nil, or_false] at member
  rcases member with same | same | same
  all_goals exact valuesLine_ne_nil (by decide) same.symm

/-- The three quantities are printed. -/
private theorem threeLines_hold (holds : Holds writer size [])
    (fits : (joined (threeLines format temperatures humidities pressures)).length < size) :
    ∃ first second third, printTemperature format temperatures writer = some first ∧
      printQuantity format humidities 2 " %H".toList first = some second ∧
      printQuantity format pressures 0 " hPa".toList second = some third ∧
      Holds third size (joined (threeLines format temperatures humidities pressures)) := by
  have some' := @threeLines_ne_nil α format temperatures humidities pressures
  have sub : ∀ {front behind : List (Option Text)}, front ++ behind = threeLines format temperatures humidities pressures →
      ∀ line ∈ front.reduceOption, line ≠ [] := by
    intro front behind same line member
    refine some' line ?_
    rw [← same, List.reduceOption_append]
    exact List.mem_append_left _ member
  have two := @length_joined_le [valuesLine (format 2) " C".toList temperatures, valuesLine (format 2) " %H".toList humidities]
    (valuesLine (format 0) " hPa".toList pressures)
  have one := @length_joined_le [valuesLine (format 2) " C".toList temperatures] (valuesLine (format 2) " %H".toList humidities)
  have oneTwo := one.trans two
  obtain ⟨first, run₁, held₁⟩ := temperature_holds holds (oneTwo.trans_lt fits)
  obtain ⟨second, run₂, held₂⟩ := quantity_holds (@sub _ [_, _] rfl) (by decide) held₁ (two.trans_lt fits)
  obtain ⟨third, run₃, held₃⟩ := quantity_holds (@sub _ [_] rfl) (by decide) held₂ fits
  exact ⟨first, second, third, run₁, run₂, run₃, held₃⟩

end Three

/-- What the sensor of the air quality has now. -/
private theorem currentAirQuality_holds {res : ℕ} {iaq : Option (ℤ × ℤ)} (some' : ∀ line ∈ lines.reduceOption, line ≠ [])
    (holds : Holds writer size (joined lines))
    (fits : (joined (lines ++ [if res = 0 then iaq.map currentIaqLine else none])).length < size) :
    ∃ next, printCurrentAirQuality res iaq writer = some next ∧
      Holds next size (joined (lines ++ [if res = 0 then iaq.map currentIaqLine else none])) := by
  cases iaq with
  | none =>
    rw [Option.map_none, ite_self, joined_append_none]
    exact ⟨writer, rfl, holds⟩
  | some iaq =>
    by_cases zero : res = 0
    · rw [if_pos zero, Option.map_some, joined_append] at fits ⊢
      rw [List.length_append] at fits
      obtain ⟨middle, separated, front, _⟩ := separate_holds some' holds (by omega)
      obtain ⟨next, run, printed, _⟩ := front.print fits
      refine ⟨next, ?_, printed⟩
      rw [printCurrentAirQuality, if_pos zero, separated]
      exact run
    · rw [if_neg zero, joined_append_none]
      exact ⟨writer, if_neg zero, holds⟩

private theorem printCurrentAirQuality_of_ne {res : ℕ} {iaq : Option (ℤ × ℤ)} (nonzero : res ≠ 0) :
    printCurrentAirQuality res iaq writer = some writer := by
  cases iaq with
  | none => rfl
  | some iaq => exact if_neg nonzero

/-- The values of the air quality are not printed, and the index moves in front of the line. -/
private theorem airQuality_astray {newest : UInt16} {iaqs : List UInt16} {next : Writer}
    (some' : ∀ line ∈ lines.reduceOption, line ≠ []) (holds : Holds writer size (joined lines))
    (fits : (ahead lines).length < size) (run : printAirQuality 0 (newest :: iaqs) writer = some next) :
    next.astray = true := by
  obtain ⟨middle, separated, front, start⟩ := separate_holds some' holds fits
  rw [printAirQuality, separated] at run
  refine Writer.print_astray run ?_
  have before : middle.index - 1 < middle.start := by
    rw [front.index, start]
    omega
  simp [Writer.move, before]

end Printing

section Reports

variable {config : Config} {α : Type} (format : ℕ → α → Text)

/-- The lines of the three quantities: the newest accepted values, or what the sensor has now. -/
def quantityLines (config : Config) (records : Records α) (current : Current α) : List (Option Text) :=
  threeLines format (valuesOf (records.temperature.values.take config.historySize) current.temperature)
    (valuesOf (records.humidity.values.take config.historySize) current.humidity)
    (valuesOf (records.pressure.values.take config.historySize) current.pressure)

/-- The line of the air quality. In a build without a history, what the sensor has now is only printed without a
pressure. -/
def airQualityLine (config : Config) (records : Records α) (current : Current α) : Option Text :=
  (iaqLine (records.iaq.values.take config.historySize)).or
    (if config.historySize = 0 ∧ current.pressure.isSome then none else current.iaq.map currentIaqLine)

/-- The text of a report. -/
def reportText (config : Config) (records : Records α) (current : Current α) : Text :=
  joined (quantityLines format config records current ++ [airQualityLine config records current])

/-- In a buffer that is large enough, the newest accepted values are printed, each quantity on its own line, and the
index stays behind the start of its line. -/
def PrintsHistory [Zero α] (config : Config) (samples : List (Sample α)) (current : Current α) : Prop :=
  ∃ bound, ∀ cells : Text, bound ≤ cells.length → ∃ writer,
    coapApplClientPrepareEnvInfo format (Histories.of config samples) current (.new cells) =
        some (writer, ((reportText format config (Records.of config samples) current).length : ℤ)) ∧
      reportText format config (Records.of config samples) current <+: writer.cells ∧ writer.astray = false

variable {format} {records : Records α} {current : Current α}

private theorem quantityLines_ne_nil : ∀ line ∈ (quantityLines format config records current).reduceOption, line ≠ [] :=
  threeLines_ne_nil

/-- The lines of the quantities are printed. -/
private theorem quantities_hold [Zero α] (samples : List (Sample α)) {writer : Writer} {size : ℕ}
    (holds : Holds writer size [])
    (fits : (joined (quantityLines format config (Records.of config samples) current)).length < size) :
    ∃ third, Holds third size (joined (quantityLines format config (Records.of config samples) current)) ∧
      coapApplClientPrepareEnvInfo format (Histories.of config samples) current writer =
        (printAirQuality 0 ((Records.of config samples).iaq.values.take config.historySize) third).bind fun writer =>
          (printCurrentAirQuality (if config.historySize = 0 then current.pressure.toList.length
            else ((Records.of config samples).iaq.values.take config.historySize).length) current.iaq writer).bind
            fun writer => some (writer, writer.index) := by
  have keeps := @keepsAll_of config _ _ samples
  obtain ⟨first, second, third, run₁, run₂, run₃, held⟩ := threeLines_hold holds fits
  refine ⟨third, held, ?_⟩
  rw [← keeps.temperature.get] at run₁
  rw [← keeps.humidity.get] at run₂
  rw [← keeps.pressure.get] at run₃
  simp only [coapApplClientPrepareEnvInfo, environmentGetTemperatureHistory, environmentGetHumidityHistory,
    environmentGetPressureHistory, run₁, run₂, run₃, Option.bind_eq_bind, Option.bind_some, get_iaq]
  by_cases none : config.historySize = 0
  · have empty : environmentGetSensorHistory (Histories.of config samples).pressure config.historySize = [] := by
      rw [keeps.pressure.get, none, List.take_zero]
    rw [empty]
    rfl
  · rw [if_neg none, if_neg none]

/-- Values of the air quality that are kept are not printed. -/
private theorem not_printsHistory [Zero α] {samples : List (Sample α)}
    (kept : (Records.of config samples).iaq.values.take config.historySize ≠ []) :
    ¬ PrintsHistory format config samples current := by
  have some' := @quantityLines_ne_nil config α format (Records.of config samples) current
  rintro ⟨bound, prints⟩
  obtain ⟨newest, iaqs, same⟩ := List.exists_cons_of_ne_nil kept
  have positive : config.historySize ≠ 0 := fun none => kept (by rw [none, List.take_zero])
  -- a buffer with room for the lines and for a line end behind them
  set lines := quantityLines format config (Records.of config samples) current with linesEq
  have room := (Nat.le_max_left bound ((joined lines).length + (ahead lines).length + 1)).trans_eq
    (@List.length_replicate _ (max bound ((joined lines).length + (ahead lines).length + 1)) 'x').symm
  obtain ⟨writer, run, _, steady⟩ := prints _ room
  have large := Nat.le_max_right bound ((joined lines).length + (ahead lines).length + 1)
  obtain ⟨third, held, rest⟩ := @quantities_hold _ _ format current _ samples _ _ (Holds.new (List.replicate
    (max bound ((joined lines).length + (ahead lines).length + 1)) 'x')) (by rw [List.length_replicate, ← linesEq]; omega)
  rw [rest, same] at run
  obtain ⟨behind, air, run⟩ := Option.bind_eq_some_iff.mp run
  have stray := airQuality_astray some' held (by rw [List.length_replicate]; omega) air
  rw [if_neg positive, printCurrentAirQuality_of_ne (by simp), Option.bind_some] at run
  obtain ⟨rfl, _⟩ := Prod.mk.inj (Option.some_inj.mp run)
  exact absurd stray (by rw [steady]; decide)

/-- Without them everything is printed. -/
private theorem prints_of_empty [Zero α] {samples : List (Sample α)}
    (empty : (Records.of config samples).iaq.values.take config.historySize = []) :
    PrintsHistory format config samples current := by
  have some' := @quantityLines_ne_nil config α format (Records.of config samples) current
  refine ⟨(reportText format config (Records.of config samples) current).length + 1, fun cells room => ?_⟩
  have air : airQualityLine config (Records.of config samples) current =
      if (if config.historySize = 0 then current.pressure.toList.length else ([] : List UInt16).length) = 0 then
        current.iaq.map currentIaqLine else none := by
    have other : iaqLine [] = none := rfl
    rw [airQualityLine, empty, other, Option.none_or]
    by_cases none : config.historySize = 0
    · cases current.pressure <;> simp [none]
    · simp [none]
  have shorter := @length_joined_le (quantityLines format config (Records.of config samples) current)
    (airQualityLine config (Records.of config samples) current)
  rw [reportText] at room ⊢
  have few : (joined (quantityLines format config (Records.of config samples) current)).length < cells.length := by omega
  obtain ⟨third, held, rest⟩ := quantities_hold samples (Holds.new cells) few
  rw [air] at room ⊢
  obtain ⟨next, run, printed⟩ := currentAirQuality_holds some' held room
  refine ⟨next, ?_, printed.front, printed.steady⟩
  rw [rest, empty]
  simp only [printAirQuality, Option.bind_some]
  rw [run, Option.bind_some, printed.index]

/-- For all samples and everything the sensors have now: the histories are printed exactly if that of the air quality is
empty. -/
theorem printsHistory_iff [Zero α] (format : ℕ → α → Text) (config : Config) (samples : List (Sample α)) (current : Current α) :
    PrintsHistory format config samples current ↔ (Records.of config samples).iaq.values.take config.historySize = [] :=
  ⟨fun prints => by_contra fun kept => not_printsHistory kept prints, prints_of_empty⟩

end Reports

/-- A build with a history of three values. -/
def smallBuild : Config := ⟨3, by decide, 30, true⟩

/-- Two temperatures, the second one behind the interval, and an air quality. -/
def airSamples : List (Sample ℕ) := [.temperature 0 20 false, .temperature 30000 21 false, .iaq 0 (51 + 3 * 16384) false]

/-- The value of the air quality is missing, and what describes it stands in the line of the temperatures. -/
theorem air_quality_missing :
    (coapApplClientPrepareEnvInfo (fun _ value => Nat.toDigits 10 value) (Histories.of smallBuild airSamples) {}
        (.new (List.replicate 40 'x'))).map (fun result => (result.1.cells.take result.2.toNat, result.1.astray)) =
          some ("21,20 C Q (good)".toList, true) ∧
      ¬ PrintsHistory (fun _ value => Nat.toDigits 10 value) smallBuild airSamples {} :=
  ⟨by decide +kernel, not_printsHistory (by decide +kernel)⟩

end CoapsClient.CoapAppl
