import CoapsClient.Soundness.NetworkSections

/-! # The length of the environment section

The values of a quantity are printed with a comma behind each, and the last comma is taken back. For the air quality it is
the line end in front that is taken back, so its description needs a line in front of it. In a build without sensors the
section is the answer of the modem.
-/

namespace CoapsClient.CoapAppl

open Machine
open Environment
open ShCmd (Text strstart)

variable {config : Config} {α : Type}

/-- The values, with a comma behind each. -/
def valueTexts (format : α → Text) (values : List α) : List Text := values.map fun value => format value ++ [',']

/-- The values of a line with their unit. -/
def quantityText (format : α → Text) (values : List α) (unit : Text) : Text :=
  (valueTexts format values).flatten.dropLast ++ unit

section Values

variable {size room start : ℕ} {front line : Text} {values : List α} {writer next : Writer} {texts : List Text}

private theorem foldlM_values (format : α → Text) (values : List α) (writer : Writer) :
    values.foldlM (fun writer value => writer.print (format value ++ [','])) writer =
      (valueTexts format values).foldlM Writer.print writer := by
  rw [valueTexts, List.foldlM_map]

theorem Writer.print_index {text : Text} (run : writer.print text = some next) :
    next.index = writer.index + text.length := by
  unfold Writer.print at run
  split at run
  · obtain rfl := Option.some_inj.mp run
    rfl
  split at run
  · cases run
  · obtain ⟨cells, -, rfl⟩ := Option.map_eq_some_iff.mp run
    rfl

/-- Behind the end of the buffer the texts move the index only. -/
private theorem printAll_lost (lost : writer.Lost) (run : texts.foldlM Writer.print writer = some next) :
    next.Lost ∧ next.cells.length = writer.cells.length ∧ next.index = writer.index + texts.flatten.length := by
  induction texts generalizing writer with
  | nil =>
    obtain rfl := Option.some_inj.mp run
    exact ⟨lost, rfl, by simp⟩
  | cons text texts ih =>
    rw [List.foldlM_cons] at run
    obtain ⟨middle, run₁, run₂⟩ := Option.bind_eq_some_iff.mp run
    obtain ⟨lost₁, length₁, -⟩ := lost.print middle run₁
    obtain ⟨lost₂, length₂, index₂⟩ := ih lost₁ run₂
    refine ⟨lost₂, length₂.trans length₁, ?_⟩
    rw [index₂, Writer.print_index run₁, List.flatten_cons, List.length_append]
    push_cast
    omega

/-- The last value has its comma at least. -/
private theorem length_dropLast_lt (format : α → Text) (some' : values ≠ []) :
    (valueTexts format values).dropLast.flatten.length < (valueTexts format values).flatten.length := by
  obtain ⟨front, last, rfl⟩ := List.eq_nil_or_concat values |>.resolve_left some'
  simp [valueTexts]

private theorem prepareEnvHistory_builds (format : ℕ → α → Text) (prec : ℕ) (some' : values ≠ []) (room : ℕ) :
    Builds room (coapApplClientPrepareEnvHistory format values prec)
      (valueTexts (format prec) values).flatten.dropLast.length
      ((valueTexts (format prec) values).flatten.dropLast.length ≤ room) := by
  have shorter := length_dropLast_lt (format prec) some'
  have run (writer : Writer) : coapApplClientPrepareEnvHistory format values prec writer =
      ((valueTexts (format prec) values).foldlM Writer.print writer).bind fun writer =>
        some (writer.move (writer.index - 1), writer.index - 1) := by
    rw [← foldlM_values]
    rfl
  generalize valueTexts (format prec) values = texts at shorter run ⊢
  rw [List.length_dropLast]
  refine ⟨?_, ?_, id⟩
  · intro fits writer at'
    obtain ⟨next, printed, next'⟩ := @Writer.At.printAll _ _ _ _ texts at' (by omega)
    have index : next.index - 1 = ((texts.flatten.length - 1 : ℕ) : ℤ) := by
      rw [next'.index]
      dsimp only
      omega
    refine ⟨next.move (next.index - 1), ?_, next'.length⟩
    rw [run, printed, Option.bind_some, ← index]
  · intro not' writer at' last result printed
    rw [run] at printed
    by_cases inside : texts.dropLast.flatten.length ≤ room
    · obtain ⟨next, printed', next'⟩ := @Writer.At.printAll _ _ _ _ texts at' (by omega)
      rw [printed'] at printed
      obtain ⟨rfl, rfl⟩ := Prod.mk.inj (Option.some_inj.mp printed)
      refine ⟨?_, next'.length⟩
      rw [next'.index]
      dsimp only
      omega
    · rw [@Writer.At.printAll_none _ _ _ _ texts at' (Nat.zero_le _) (by omega)] at printed
      cases printed

private theorem prepareEnvHistory_advances (format : ℕ → α → Text) (prec : ℕ) (some' : values ≠ []) :
    Advances (coapApplClientPrepareEnvHistory format values prec) := by
  intro writer lost last result run
  have shorter := length_dropLast_lt (format prec) some'
  obtain ⟨next, run₁, same⟩ := Option.bind_eq_some_iff.mp run
  obtain ⟨rfl, rfl⟩ := Prod.mk.inj (Option.some_inj.mp same)
  rw [foldlM_values] at run₁
  obtain ⟨-, length, index⟩ := printAll_lost lost run₁
  have behind := lost.behind
  refine ⟨?_, length⟩
  change 0 ≤ next.index - 1
  omega

/-- The values of a line. -/
private theorem printHistory_prints (format : ℕ → α → Text) (prec : ℕ) (unit : Text) (some' : values ≠ []) :
    Prints (printHistory format values prec unit) (quantityText (format prec) values unit) := by
  have eq : printHistory format values prec unit = fun writer =>
      (writer.advance (coapApplClientPrepareEnvHistory format values prec)).bind fun writer => writer.print unit := by
    funext writer
    simp only [Writer.advance, Option.bind_eq_bind, Option.bind_assoc, Option.bind_some]
    rfl
  rw [eq]
  have history := Prints.advance (prepareEnvHistory_builds format prec some') (prepareEnvHistory_advances format prec some')
  exact history.bind .print

end Values

/-- A line behind a front, if it has values. -/
def quantityLine (format : α → Text) (unit : Text) (values : List α) (front : Text) : Text :=
  if values = [] then front else separated front ++ quantityText format values unit

/-- The lines of the temperature, the humidity and the pressure. -/
def quantitiesText (format : ℕ → α → Text) (temperatures humidities pressures : List α) : Text :=
  quantityLine (format 0) " hPa".toList pressures
    (quantityLine (format 2) " %H".toList humidities (quantityLine (format 2) " C".toList temperatures []))

def descriptionText (newest : UInt16) : Text :=
  " Q (".toList ++ environmentGetIaqDescription (iaqValue newest) ++ [')']

def currentText (value accuracy : ℤ) : Text :=
  ['!'] ++ decimal value ++ [';'] ++ decimal accuracy ++ " Q (".toList ++ environmentGetIaqDescription value ++ [')']

/-- The description of the air quality stands in the line in front of it. -/
def airText (iaqs : List UInt16) (front : Text) : Text :=
  match iaqs with
  | [] => front
  | newest :: _ => front ++ descriptionText newest

def currentAirText (res : ℕ) (iaq : Option (ℤ × ℤ)) (front : Text) : Text :=
  match iaq with
  | none => front
  | some (value, accuracy) => if res = 0 then separated front ++ currentText value accuracy else front

section Lines

variable {size start : ℕ} {front : Text}

private theorem printQuantity_grows (format : ℕ → α → Text) (values : List α) (prec : ℕ) (unit : Text) :
    ∃ start', Grows size (printQuantity format values prec unit) (.of start front)
      (.of start' (quantityLine (format prec) unit values front)) := by
  by_cases empty : values = []
  · subst empty
    exact ⟨start, .skip⟩
  · have quantity : printQuantity format values prec unit = fun writer =>
        (separate writer).bind (printHistory format values prec unit) :=
      funext fun _ => if_neg (by simpa using empty)
    rw [quantity, quantityLine, if_neg empty]
    exact ⟨_, separate_grows.bind ((printHistory_prints format prec unit empty).grows size _ _)⟩

private theorem printTemperature_grows (format : ℕ → α → Text) (values : List α) :
    Grows size (printTemperature format values) (.of 0 []) (.of 0 (quantityLine (format 2) " C".toList values [])) := by
  by_cases empty : values = []
  · subst empty
    exact .skip
  · have temperature : printTemperature format values = printHistory format values 2 " C".toList :=
      funext fun _ => if_neg (by simpa using empty)
    rw [temperature, quantityLine, if_neg empty]
    exact (printHistory_prints format 2 " C".toList empty).grows size 0 []

private theorem printCurrentAirQuality_grows (res : ℕ) (iaq : Option (ℤ × ℤ)) :
    ∃ start', Grows size (printCurrentAirQuality res iaq) (.of start front) (.of start' (currentAirText res iaq front)) := by
  match iaq with
  | none => exact ⟨start, .skip⟩
  | some (value, accuracy) =>
    by_cases zero : res = 0
    · subst zero
      exact ⟨_, separate_grows.bind .print⟩
    · have skip : printCurrentAirQuality res (some (value, accuracy)) = some := funext fun _ => if_neg zero
      rw [skip, currentAirText, if_neg zero]
      exact ⟨start, .skip⟩

/-- The line of the air quality: behind a front the description takes the place of the line end, and without one it begins in
front of the buffer. -/
private theorem printAirQuality_leads (iaqs : List UInt16) :
    ∃ start', Leads size (printAirQuality 0 iaqs) (.of start front) (.of start' (airText iaqs front))
      ((airText iaqs front).length ≤ size ∧ (iaqs ≠ [] → front ≠ [])) := by
  cases iaqs with
  | nil =>
    refine ⟨start, (@Grows.skip size (.of start front)).moves.toLeads.congr rfl ?_⟩
    simp [airText, Place.of]
  | cons newest iaqs =>
    have run (writer : Writer) : printAirQuality 0 (newest :: iaqs) writer = (separate writer).bind fun writer =>
        (writer.move (writer.index - 1)).print (descriptionText newest) := rfl
    by_cases empty : front = []
    · subst empty
      refine ⟨start, ⟨fun _ _ _ fits => absurd rfl (fits.2 (List.cons_ne_nil _ _)), ?_, fun _ fits => fits.1⟩⟩
      intro writer at' _ _ last printed
      have zero : writer.index = 0 := at'.index
      have separated : separate writer = some writer.mark := by
        rw [separate_eq, if_neg (not_not.mpr zero), Option.map_some]
      have before : (writer.mark.move (writer.mark.index - 1)).index = -1 := by
        simp [Writer.move, Writer.mark, zero]
      have size' : (0 : ℤ) ≤ (writer.mark.move (writer.mark.index - 1)).size := Int.natCast_nonneg _
      rw [run, separated, Option.bind_some, Writer.print, if_neg (by omega), if_pos (by omega)] at printed
      cases printed
    have separates := @separate_grows size start front
    rw [separated_of_ne_nil empty] at separates
    have length : (front ++ ['\n']).length = front.length + 1 := by simp
    have some' : 0 < (descriptionText newest).length := by simp [descriptionText]
    have total : (airText (newest :: iaqs) front).length = front.length + (descriptionText newest).length :=
      List.length_append
    have prints := (@Prints.print (descriptionText newest)).grows size (front.length + 1) front
    have back {middle : Writer} (at₁ : middle.At size (.of (front ++ ['\n']).length (front ++ ['\n']))) :
        (middle.move (middle.index - 1)).At size (.of (front.length + 1) front) := by
      have index : middle.index - 1 = front.length := by
        rw [at₁.index, Place.of, length]
        dsimp only
        omega
      rw [index]
      exact ⟨at₁.length, at₁.size, by rw [← length]; exact at₁.start, rfl⟩
    refine ⟨front.length + 1, ?_, ?_, fun _ fits => fits.1⟩
    · rintro writer at' room ⟨fits, -⟩
      obtain ⟨middle, run₁, at₁⟩ := separates.moves.inside writer at' room (length.trans_le (by omega))
      obtain ⟨last, run₂, at₂⟩ := prints.moves.inside _ (back at₁) room fits
      exact ⟨last, by rw [run, run₁, Option.bind_some, run₂], at₂⟩
    · intro writer at' room not' last printed
      rw [run] at printed
      obtain ⟨middle, run₁, run₂⟩ := Option.bind_eq_some_iff.mp printed
      have long : ¬ (airText (newest :: iaqs) front).length ≤ size := fun fits => not' ⟨fits, fun _ => empty⟩
      by_cases inside : front.length < size
      · obtain ⟨_, same, at₁⟩ := separates.moves.inside writer at' room (length.trans_le inside)
        obtain rfl := Option.some_inj.mp (run₁.symm.trans same)
        obtain ⟨lost, cells, size'⟩ := prints.moves.outside _ (back at₁) room long last run₂
        exact ⟨lost, cells.trans (at₁.length.trans at'.length.symm), size'.trans (at₁.size.trans at'.size.symm)⟩
      · rw [separate_full at' empty (by omega)] at run₁
        cases run₁

private theorem printAirQuality_strays (iaqs : List UInt16) : Strays size (printAirQuality 0 iaqs) := by
  intro writer lost length size'
  cases iaqs with
  | nil => exact .refl lost
  | cons newest iaqs =>
    have run : printAirQuality 0 (newest :: iaqs) writer = (separate writer).bind fun writer =>
        (writer.move (writer.index - 1)).print (descriptionText newest) := rfl
    rw [run, separate_none lost length size', Option.bind_none]
    exact Writer.outside_none

end Lines

/-- The section of the sensors. -/
def envText (format : ℕ → α → Text) (histories : Histories config α) (current : Current α) : Text :=
  let pressures := valuesOf (environmentGetPressureHistory histories config.historySize) current.pressure
  let iaqs := environmentGetIaqHistory histories config.historySize
  let front := quantitiesText format
    (valuesOf (environmentGetTemperatureHistory histories config.historySize) current.temperature)
    (valuesOf (environmentGetHumidityHistory histories config.historySize) current.humidity) pressures
  currentAirText (if config.historySize = 0 then pressures.length else iaqs.length) current.iaq (airText iaqs front)

/-- The section fits; the description of the air quality needs a line in front of it. -/
def EnvFits (format : ℕ → α → Text) (histories : Histories config α) (current : Current α) (room : ℕ) : Prop :=
  (envText format histories current).length ≤ room ∧
    (environmentGetIaqHistory histories config.historySize ≠ [] →
      valuesOf (environmentGetTemperatureHistory histories config.historySize) current.temperature ≠ [] ∨
        valuesOf (environmentGetHumidityHistory histories config.historySize) current.humidity ≠ [] ∨
        valuesOf (environmentGetPressureHistory histories config.historySize) current.pressure ≠ [])

section Environments

variable {values : List α} {front : Text}

private theorem quantityLine_eq_nil {format : α → Text} {unit : Text} (some' : unit ≠ []) :
    quantityLine format unit values front = [] ↔ values = [] ∧ front = [] := by
  by_cases empty : values = []
  · simp [quantityLine, empty]
  · simp [quantityLine, empty, quantityText, some']

private theorem quantitiesText_eq_nil {format : ℕ → α → Text} {temperatures humidities pressures : List α} :
    quantitiesText format temperatures humidities pressures = [] ↔ temperatures = [] ∧ humidities = [] ∧ pressures = [] := by
  rw [quantitiesText, quantityLine_eq_nil (by decide), quantityLine_eq_nil (by decide), quantityLine_eq_nil (by decide)]
  tauto

private theorem length_le_airText (iaqs : List UInt16) : front.length ≤ (airText iaqs front).length := by
  cases iaqs with
  | nil => exact Nat.le_refl _
  | cons newest iaqs =>
    rw [airText, List.length_append]
    exact Nat.le_add_right _ _

/-- The section of the sensors. -/
theorem env_builds (format : ℕ → α → Text) (histories : Histories config α) (current : Current α) (room : ℕ) :
    Builds room (coapApplClientPrepareEnvInfo format histories current) (envText format histories current).length
      (EnvFits format histories current room) := by
  unfold EnvFits envText
  set temperatures := valuesOf (environmentGetTemperatureHistory histories config.historySize) current.temperature
    with temperaturesEq
  set humidities := valuesOf (environmentGetHumidityHistory histories config.historySize) current.humidity with humiditiesEq
  set pressures := valuesOf (environmentGetPressureHistory histories config.historySize) current.pressure with pressuresEq
  set iaqs := environmentGetIaqHistory histories config.historySize with iaqsEq
  set res := if config.historySize = 0 then pressures.length else iaqs.length with resEq
  have first := @printTemperature_grows α room format temperatures
  obtain ⟨second, humidity⟩ := @printQuantity_grows α room 0 _ format humidities 2 " %H".toList
  obtain ⟨third, pressure⟩ := @printQuantity_grows α room second _ format pressures 0 " hPa".toList
  obtain ⟨fourth, air⟩ := @printAirQuality_leads room third
    (quantitiesText format temperatures humidities pressures) iaqs
  obtain ⟨fifth, now⟩ := @printCurrentAirQuality_grows room fourth
    (airText iaqs (quantitiesText format temperatures humidities pressures)) res current.iaq
  have quantities := (first.bind humidity).bind pressure
  have leads := quantities.moves.toLeads.then (air.then now.moves.toLeads now.moves.strays)
    ((printAirQuality_strays iaqs).bind now.moves.strays)
  have eq : coapApplClientPrepareEnvInfo format histories current = fun writer =>
      ((((printTemperature format temperatures writer).bind (printQuantity format humidities 2 " %H".toList)).bind
        (printQuantity format pressures 0 " hPa".toList)).bind fun writer =>
          (printAirQuality 0 iaqs writer).bind (printCurrentAirQuality res current.iaq)).bind fun writer =>
            some (writer, writer.index) := by
    funext writer
    simp only [Option.bind_assoc]
    rfl
  rw [eq]
  refine (leads.congr rfl ?_).builds
  have airLonger := @length_le_airText (quantitiesText format temperatures humidities pressures) iaqs
  have some' : quantitiesText format temperatures humidities pressures ≠ [] ↔
      temperatures ≠ [] ∨ humidities ≠ [] ∨ pressures ≠ [] := by
    rw [ne_eq, quantitiesText_eq_nil]
    tauto
  have nowLonger := now.le
  rw [← some']
  simp only [Place.of] at nowLonger ⊢
  constructor
  · rintro ⟨_, ⟨_, line⟩, all⟩
    exact ⟨all, line⟩
  · rintro ⟨all, line⟩
    exact ⟨airLonger.trans (nowLonger.trans all), ⟨nowLonger.trans all, line⟩, all⟩

end Environments

/-- What the modem answers, as far as there is room. -/
def temperatureText (answer : Except ℕ Text) (room : ℕ) : Text :=
  match answer with
  | .error _ => []
  | .ok answer =>
    let shown := (answer.drop (strstart answer "%XTEMP: ".toList true)).take (room - 1)
    if shown = [] then [] else shown ++ " C".toList

/-- The section fits; without any room the length of an answer is not that of what was copied. -/
def TemperatureFits (answer : Except ℕ Text) (room : ℕ) : Prop :=
  (temperatureText answer room).length ≤ room ∧ (room = 0 → ∀ text, answer = .ok text → text = [])

section Modem

variable {room : ℕ} {writer : Writer} {chars : Text}

/-- Characters with a zero behind them are copied if there is room for all of them. -/
theorem copy_inside (at' : writer.At room ⟨0, 0⟩) (short : chars.length < room) :
    ∃ next, copy chars writer = some (next, (chars.length : ℤ)) ∧ next.cells.length = room := by
  have length : (chars ++ [textEnd]).length ≤ writer.cells.length := by
    rw [List.length_append, List.length_singleton, at'.length]
    exact short
  refine ⟨{ writer with cells := chars ++ [textEnd] ++ writer.cells.drop (chars ++ [textEnd]).length }, ?_, ?_⟩
  · rw [copy, putAll_zero length, Option.map_some]
  · rw [at'.length] at length
    rw [List.length_append, List.length_drop, at'.length]
    omega

theorem copy_outside (at' : writer.At 0 ⟨0, 0⟩) : copy chars writer = none := by
  rw [copy, putAll_outside (by rw [at'.length]) (by simp), Option.map_none]

/-- The section from the answer: a result that is not positive leaves it empty. -/
private theorem temperature_run {answer : Except ℕ Text} {called : Writer} {result : ℤ} (at' : called.At room ⟨0, 0⟩)
    (run : writer.call (modemAtCmd answer "%XTEMP: ".toList) = some (called, result)) :
    (result ≤ 0 → ∃ next, prepareModemTemperature answer writer = some (next, 0) ∧ next.cells.length = room) ∧
    (0 < result → prepareModemTemperature answer writer =
      ((called.move result).print " C".toList).bind fun writer => some (writer, writer.index)) := by
  have index : called.index = 0 := at'.index
  rw [prepareModemTemperature, run]
  constructor
  · intro none
    refine ⟨called.move 0, ?_, at'.length⟩
    exact if_neg (not_lt.mpr none)
  · intro some'
    have place : called.index + result = result := by omega
    simp only [Option.bind_eq_bind, Option.bind_some, if_pos some', place]

/-- The section without sensors. -/
theorem temperature_builds (answer : Except ℕ Text) (room : ℕ) :
    Builds room (prepareModemTemperature answer) (temperatureText answer room).length (TemperatureFits answer room) := by
  cases answer with
  | error err =>
    refine ⟨?_, fun not' => absurd ⟨Nat.zero_le _, fun _ _ same => absurd same nofun⟩ not', And.left⟩
    intro _ writer at'
    obtain ⟨inner, inner', -, called⟩ := at'.call (Nat.zero_le _) (modemAtCmd (.error err) "%XTEMP: ".toList)
    obtain ⟨middle, run, at₁⟩ := called inner (-err) rfl inner'.length
    exact (temperature_run at₁ run).1 (by omega)
  | ok answer =>
    rcases Nat.eq_zero_or_pos room with rfl | positive
    · have run {writer : Writer} (at' : writer.At 0 ⟨0, 0⟩) : ∃ middle,
          writer.call (modemAtCmd (.ok answer) "%XTEMP: ".toList) = some (middle, (answer.length : ℤ)) ∧
            middle.At 0 ⟨0, 0⟩ := by
        obtain ⟨inner, inner', -, called⟩ := at'.call (Nat.zero_le _) (modemAtCmd (.ok answer) "%XTEMP: ".toList)
        exact called inner answer.length (if_pos inner'.size) inner'.length
      refine ⟨?_, ?_, And.left⟩
      · rintro ⟨-, none⟩ writer at'
        obtain rfl := none rfl answer rfl
        obtain ⟨middle, run, at₁⟩ := run at'
        exact (temperature_run at₁ run).1 (Int.le_refl _)
      · intro not' writer at' next result built
        have some' : answer ≠ [] := by
          rintro rfl
          exact not' ⟨Nat.zero_le _, fun _ _ same => (Except.ok.inj same).symm⟩
        have long : (0 : ℤ) < answer.length := Int.natCast_pos.mpr (List.length_pos_of_ne_nil some')
        obtain ⟨middle, run, at₁⟩ := run at'
        have outside := @Writer.At.print_none _ _ " C".toList _ _ (at₁.move answer.length) (List.length_pos_of_ne_nil some')
        rw [(temperature_run at₁ run).2 long, outside] at built
        cases built
    · have run {writer : Writer} (at' : writer.At room ⟨0, 0⟩) : ∃ middle,
          writer.call (modemAtCmd (.ok answer) "%XTEMP: ".toList) =
            some (middle, (((answer.drop (strstart answer "%XTEMP: ".toList true)).take (room - 1)).length : ℤ)) ∧
            middle.At room ⟨0, 0⟩ := by
        obtain ⟨inner, inner', -, called⟩ := at'.call (Nat.zero_le _) (modemAtCmd (.ok answer) "%XTEMP: ".toList)
        have size : inner.size = room := inner'.size
        obtain ⟨next, copied, length⟩ := @copy_inside room inner
          ((answer.drop (strstart answer "%XTEMP: ".toList true)).take (room - 1)) inner' (by rw [List.length_take]; omega)
        refine called next _ ?_ length
        rw [modemAtCmd, if_neg (by omega), size]
        exact copied
      have short : ((answer.drop (strstart answer "%XTEMP: ".toList true)).take (room - 1)).length < room := by
        rw [List.length_take]
        omega
      unfold TemperatureFits temperatureText
      dsimp only
      generalize (answer.drop (strstart answer "%XTEMP: ".toList true)).take (room - 1) = shown at run short ⊢
      by_cases empty : shown = []
      · subst empty
        refine ⟨?_, fun not' => absurd ⟨Nat.zero_le _, fun none => absurd none positive.ne'⟩ not', And.left⟩
        intro _ writer at'
        obtain ⟨middle, run, at₁⟩ := run at'
        exact (temperature_run at₁ run).1 (Int.le_refl _)
      · have long : (0 : ℤ) < shown.length := Int.natCast_pos.mpr (List.length_pos_of_ne_nil empty)
        have total : (shown ++ " C".toList).length = shown.length + 2 := List.length_append
        have printed {writer : Writer} (at' : writer.At room ⟨0, 0⟩) : ∃ next,
            prepareModemTemperature (.ok answer) writer = some (next, ((shown ++ " C".toList).length : ℤ)) ∧
              next.cells.length = room := by
          obtain ⟨middle, run, at₁⟩ := run at'
          obtain ⟨next, print, at₂⟩ := @Writer.At.print _ _ " C".toList _ _ (at₁.move shown.length) short.le
          refine ⟨next, ?_, at₂.length⟩
          rw [(temperature_run at₁ run).2 long, print, Option.bind_some, at₂.index, total]
          rfl
        rw [if_neg empty]
        refine ⟨fun _ writer at' => printed at', ?_, And.left⟩
        intro not' writer at' last result built
        obtain ⟨next, run, length⟩ := printed at'
        obtain ⟨rfl, rfl⟩ := Prod.mk.inj (Option.some_inj.mp (built.symm.trans run))
        have long' : ¬ (shown ++ " C".toList).length ≤ room := fun fits =>
          not' ⟨fits, fun none => absurd none positive.ne'⟩
        exact ⟨by omega, length⟩

end Modem

end CoapsClient.CoapAppl
