import CoapsClient.Soundness.EnvironmentSection

/-! # The length of the other sections

The first lines of a location are written over, and a calibration that no channel has is taken back, so neither needs room.
The cells of the last scan need no room but that of their zero.
-/

namespace CoapsClient.CoapAppl

open Machine
open ShCmd (Text)

variable {α : Type}

def locationText (format : ℕ → α → Text) (gnss : Gnss α) : Text :=
  if gnss.valid then positionText format gnss ++ positionTimeText gnss
  else "GNSS.1=".toList ++ gnss.result.text ++ if gnss.pending then ",pending".toList else []

/-- The lines that are written over. -/
def printOver (times : GnssTimes) (gnss : Gnss α) (writer : Writer) : Option Writer :=
  (writer.print (visibilityText times gnss)).bind fun writer =>
    (printExecution times gnss (writer.move 0)).bind fun writer =>
      some (if writer.start < writer.index then writer.move 0 else writer)

section Location

variable {room : ℕ} {writer : Writer} (times : GnssTimes) (gnss : Gnss α)

private theorem printExecution_run (at' : writer.At room ⟨0, 0⟩) :
    ∃ next index, printExecution times gnss writer = some next ∧ next.At room ⟨0, index⟩ := by
  have prints (text : Text) : ∃ next index, writer.print text = some next ∧ next.At room ⟨0, index⟩ := by
    obtain ⟨next, run, next'⟩ := @Writer.At.print _ _ text _ _ at' (Nat.zero_le _)
    exact ⟨next, _, run, next'⟩
  unfold printExecution printIf
  split
  · split
    · exact prints _
    · exact prints _
  · split
    · exact prints _
    · exact ⟨writer, 0, rfl, at'⟩

/-- However long these lines are, the next one begins at the start. -/
private theorem printOver_leads : Leads room (printOver times gnss) ⟨0, 0⟩ ⟨0, 0⟩ True := by
  refine ⟨?_, fun _ _ _ not' => absurd trivial not', fun room _ => room⟩
  intro writer at' _ _
  obtain ⟨first, run₁, at₁⟩ := @Writer.At.print _ _ (visibilityText times gnss) _ _ at' (Nat.zero_le _)
  have moved : (first.move 0).At room ⟨0, 0⟩ := at₁.move 0
  obtain ⟨second, index, run₂, at₂⟩ := printExecution_run times gnss moved
  refine ⟨if second.start < second.index then second.move 0 else second, ?_, ?_⟩
  · rw [printOver, run₁, Option.bind_some]
    rw [run₂]
    rfl
  · split
    · exact at₂.move 0
    · next here =>
      rw [at₂.start, at₂.index] at here
      have zero : index = 0 := by
        dsimp only at here
        omega
      rw [zero] at at₂
      exact at₂

/-- The section of the location. -/
theorem location_builds (format : ℕ → α → Text) (room : ℕ) :
    Builds room (coapApplClientPrepareLocationInfo format times gnss) (locationText format gnss).length
      ((locationText format gnss).length ≤ room) := by
  unfold locationText
  by_cases valid : gnss.valid = true
  · have position := (@Prints.print (positionText format gnss)).bind (@Prints.print (positionTimeText gnss))
    have grows := position.grows room 0 []
    rw [List.nil_append] at grows
    have leads := (printOver_leads times gnss).then grows.moves.toLeads grows.moves.strays
    have eq : coapApplClientPrepareLocationInfo format times gnss = fun writer =>
        ((printOver times gnss writer).bind fun writer =>
          (writer.print (positionText format gnss)).bind fun writer => writer.print (positionTimeText gnss)).bind fun writer =>
            some (writer, writer.index) := by
      funext writer
      rw [coapApplClientPrepareLocationInfo, printLocation, if_pos valid]
      simp only [printOver, Option.bind_eq_bind, Option.bind_assoc, Option.bind_some]
    rw [eq, if_pos valid]
    exact (leads.congr rfl ⟨And.right, fun fits => ⟨trivial, fits⟩⟩).builds
  · have eq : ∀ writer, coapApplClientPrepareLocationInfo format times gnss writer =
        (writer.print ("GNSS.1=".toList ++ gnss.result.text ++ if gnss.pending then ",pending".toList else [])).bind
          fun writer => some (writer, writer.index) := by
      intro writer
      rw [coapApplClientPrepareLocationInfo, printLocation, if_neg valid]
      rfl
    rw [if_neg valid]
    exact (Prints.print.grows room 0 []).builds eq

end Location

def measText (meas : Text) (room : ℕ) : Text := meas.take (sizeT (room - 1))

/-- The section of the scan. -/
theorem meas_builds (meas : Text) (room : ℕ) :
    Builds room (modemGetLastNeighborCellMeas meas) (measText meas room).length (0 < room) := by
  have short (positive : 0 < room) : (measText meas room).length < room := by
    have least : sizeT ((room : ℤ) - 1) ≤ room - 1 := by
      rw [sizeT]
      omega
    rw [measText, List.length_take]
    omega
  refine ⟨?_, ?_, fun positive => (short positive).le⟩
  · intro positive writer at'
    have size : writer.size = room := at'.size
    rw [modemGetLastNeighborCellMeas, size]
    exact copy_inside at' (short positive)
  · intro none writer at' next result run
    obtain rfl : room = 0 := Nat.eq_zero_of_not_pos none
    rw [modemGetLastNeighborCellMeas, copy_outside at'] at run
    cases run

def calibrationKindText (channel : ScaleChannel α) : Text :=
  if channel.divider = 0 then " (disabled)".toList
  else if channel.divider = 100 ∧ channel.offset = 0 then " (dummy)".toList else []

/-- The calibration of a channel. -/
def calibrationText (date : ℤ → Text) (name : Text) (channel : ScaleChannel α) (room : ℕ) : Text :=
  match channel.calibration with
  | none => []
  | some time => name ++ stampText date time (room - name.length) ++ calibrationKindText channel

/-- A channel has a calibration. -/
def Scale.calibrated (scale : Scale α) : Prop := scale.a.calibration.isSome ∨ scale.b.calibration.isSome

instance (scale : Scale α) : Decidable scale.calibrated := inferInstanceAs (Decidable (_ ∨ _))

/-- The calibration of the first channel, with what separates it from the second one. -/
def firstCalibrationText (date : ℤ → Text) (scale : Scale α) (room : ℕ) : Text :=
  "Last calibration: ".toList ++ calibrationText date "A ".toList scale.a (room - "Last calibration: ".toList.length) ++
    if scale.a.calibration.isSome ∧ scale.b.calibration.isSome then ", ".toList else []

def calibrationsText (date : ℤ → Text) (scale : Scale α) (room : ℕ) : Text :=
  if scale.calibrated then
    firstCalibrationText date scale room ++
      calibrationText date "B ".toList scale.b (room - (firstCalibrationText date scale room).length) ++ ['\n']
  else []

def channelText (name : Text) (text : Option Text) : Text :=
  match text with
  | none => []
  | some text => name ++ text

/-- The values of the channels. -/
def channelsText (a b : Option Text) : Text :=
  channelText "CHA ".toList a ++ (if channelText "CHA ".toList a = [] then [] else ", ".toList) ++
    channelText "CHB ".toList b

def dummiesText (format : ℕ → α → Text) (scale : Scale α) : Text :=
  if scale.dummy ∧ (scale.a.raw.isSome ∨ scale.b.raw.isSome) then
    ['\n'] ++ (['!'] ++ channelsText (scale.a.raw.map (scale.a.dummyText format))
      (scale.b.raw.map (scale.b.dummyText format)))
  else []

def scaleText (format : ℕ → α → Text) (date : ℤ → Text) (scale : Scale α) (room : ℕ) : Text :=
  if 0 < scale.res then
    calibrationsText date scale room ++
      (['!'] ++ channelsText (if scale.res % 2 = 1 then some (scale.a.text format) else none)
        (if scale.res / 2 % 2 = 1 then some (scale.b.text format) else none)) ++ dummiesText format scale
  else []

section Scales

variable {size start : ℕ} {front : Text} (format : ℕ → α → Text) (date : ℤ → Text) (scale : Scale α)

private theorem printCalibrationKind_prints (channel : ScaleChannel α) :
    Prints (printCalibrationKind channel) (calibrationKindText channel) := by
  unfold printCalibrationKind calibrationKindText
  exact .ite .print (printIf_prints _ _)

private theorem printCalibration_grows (name : Text) (channel : ScaleChannel α) :
    Grows size (printCalibration date name channel) (.of start front)
      (.of start (front ++ calibrationText date name channel (size - front.length))) := by
  unfold printCalibration calibrationText
  cases channel.calibration with
  | none =>
    simp only [List.append_nil]
    exact .skip
  | some time =>
    have stamps := @stamp_grows size start (front ++ name) date time
    rw [List.length_append, ← Nat.sub_sub] at stamps
    have kind := (printCalibrationKind_prints channel).grows size start
      (front ++ name ++ stampText date time (size - front.length - name.length))
    simp only [← List.append_assoc]
    exact Grows.print.bind (stamps.bind kind)

private theorem endLine_grows : Grows size endLine (.of start front) (.of (front ++ ['\n']).length (front ++ ['\n'])) :=
  Grows.append.mark

/-- A calibration that no channel has is taken back. -/
private theorem printCalibrations_leads : ∃ start', Leads size (printCalibrations date scale) ⟨0, 0⟩
    (.of start' (calibrationsText date scale size)) ((calibrationsText date scale size).length ≤ size) := by
  unfold calibrationsText
  by_cases calibrated : scale.calibrated
  · have first := @printCalibration_grows α size 0 "Last calibration: ".toList date "A ".toList scale.a
    have separates := (printIf_prints (scale.a.calibration.isSome ∧ scale.b.calibration.isSome) ", ".toList).grows size 0
      ("Last calibration: ".toList ++ calibrationText date "A ".toList scale.a (size - "Last calibration: ".toList.length))
    have second := @printCalibration_grows α size 0 (firstCalibrationText date scale size) date "B ".toList scale.b
    have begins : Grows size (fun writer => writer.print "Last calibration: ".toList) (.of 0 [])
        (.of 0 "Last calibration: ".toList) := .print
    have eq : printCalibrations date scale = fun writer => (writer.print "Last calibration: ".toList).bind fun writer =>
        (printCalibration date "A ".toList scale.a writer).bind fun writer =>
          (printIf (scale.a.calibration.isSome ∧ scale.b.calibration.isSome) ", ".toList writer).bind fun writer =>
            (printCalibration date "B ".toList scale.b writer).bind endLine := by
      funext writer
      have ends : ∀ writer : Writer, (if scale.a.calibration.isSome ∨ scale.b.calibration.isSome then endLine writer
          else some (writer.move 0)) = endLine writer := fun writer => if_pos calibrated
      simp only [printCalibrations, ends]
      rfl
    rw [eq, if_pos calibrated]
    exact ⟨_, (begins.bind (first.bind (separates.bind (second.bind endLine_grows)))).moves.toLeads⟩
  · have none : scale.a.calibration = none ∧ scale.b.calibration = none := by
      rw [Scale.calibrated, not_or] at calibrated
      simpa using calibrated
    rw [if_neg calibrated]
    refine ⟨0, ?_, fun _ _ _ not' => absurd (Nat.zero_le _) not', fun _ fits => fits⟩
    intro writer at' _ _
    obtain ⟨next, run, at₁⟩ := @Writer.At.print _ _ "Last calibration: ".toList _ _ at' (Nat.zero_le _)
    refine ⟨next.move 0, ?_, at₁.move 0⟩
    rw [printCalibrations, run]
    simp [printCalibration, printIf, none]

private theorem printChannel_prints (name : Text) (text : Option Text) :
    Prints (printChannel name text) (channelText name text) := by
  cases text with
  | none => exact .skip
  | some text => exact .print

/-- The values of the channels, behind the mark of a series. -/
private theorem printChannels_grows (a b : Option Text) :
    Grows size (printChannels true a b) (.of start front)
      (.of (front ++ ['!']).length (front ++ (['!'] ++ channelsText a b))) := by
  have marks : Grows size (printMark true) (.of start front) (.of (front ++ ['!']).length (front ++ ['!'])) :=
    Grows.print.mark
  have first := (printChannel_prints "CHA ".toList a).grows size (front ++ ['!']).length (front ++ ['!'])
  have comma := @printComma_grows size (front ++ ['!']) (channelText "CHA ".toList a)
  have second := (printChannel_prints "CHB ".toList b).grows size (front ++ ['!']).length
    (front ++ ['!'] ++ channelText "CHA ".toList a ++ if channelText "CHA ".toList a = [] then [] else ", ".toList)
  rw [channelsText]
  simp only [← List.append_assoc]
  exact marks.bind (first.bind (comma.bind second))

private theorem printDummy_grows : ∃ start', Grows size (printDummy format scale true) (.of start front)
    (.of start' (front ++ dummiesText format scale)) := by
  unfold printDummy dummiesText
  by_cases shown : scale.dummy ∧ (scale.a.raw.isSome ∨ scale.b.raw.isSome)
  · simp only [shown, and_self, ↓reduceIte]
    rw [← List.append_assoc]
    exact ⟨_, endLine_grows.bind (printChannels_grows _ _)⟩
  · simp only [shown, ↓reduceIte, List.append_nil]
    exact ⟨start, .skip⟩

/-- The section of the scale. -/
theorem scale_builds (room : ℕ) :
    Builds room (scaleSampleDesc format date scale true) (scaleText format date scale room).length
      ((scaleText format date scale room).length ≤ room) := by
  unfold scaleText
  by_cases sampled : 0 < scale.res
  · obtain ⟨start₁, calibrations⟩ := @printCalibrations_leads α room date scale
    have channels := @printChannels_grows room start₁ (calibrationsText date scale room)
      (if scale.res % 2 = 1 then some (scale.a.text format) else none)
      (if scale.res / 2 % 2 = 1 then some (scale.b.text format) else none)
    obtain ⟨start₂, dummy⟩ := @printDummy_grows α room _ _ format scale
    have behind := channels.bind dummy
    have leads := (calibrations.then behind.moves.toLeads behind.moves.strays).congr rfl
      ⟨And.right, fun fits => ⟨Nat.le_trans behind.le fits, fits⟩⟩
    have eq : scaleSampleDesc format date scale true = fun writer => ((printCalibrations date scale writer).bind
        fun writer => (printChannels true (if scale.res % 2 = 1 then some (scale.a.text format) else none)
          (if scale.res / 2 % 2 = 1 then some (scale.b.text format) else none) writer).bind
            (printDummy format scale true)).bind fun writer => some (writer, writer.index) := by
      funext writer
      rw [scaleSampleDesc, printScale, if_pos sampled]
      rfl
    rw [eq, if_pos sampled]
    exact leads.builds
  · have eq : ∀ writer, scaleSampleDesc format date scale true writer =
        (some writer).bind fun writer => some (writer, writer.index) := by
      intro writer
      rw [scaleSampleDesc, printScale, if_neg sampled]
      rfl
    rw [if_neg sampled]
    exact (Grows.skip.builds eq : Builds room _ ([] : Text).length _)

end Scales

end CoapsClient.CoapAppl
