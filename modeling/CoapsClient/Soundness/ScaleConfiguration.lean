import CoapsClient.Soundness.ScaleCalibration

/-! # The configuration of a channel in a calibration

No phase writes the gain. A restart of the sensor that gets to `scale_avdd` reads temperatures from then on
exactly where the supply is the internal one, and a sensor that is initialised anew may bring the reference of
a dummy calibration. Everything else leaves the configuration alone, with the temperature that is switched off
for a weight put back for channel A.
-/

namespace CoapsClient.Nau7802

/-- `read_temperature`, `gain` and `avref` of a channel. -/
structure Configuration where
  readTemperature : Bool
  gain : ℕ
  avref : ℕ
deriving DecidableEq, Repr

/-- The configuration of a channel. -/
def Channel.configuration (channel : Channel) : Configuration :=
  ⟨channel.readTemperature, channel.gain, channel.externalCalibration.avref⟩

/-- The restart of a channel resumes its sensor; otherwise it is initialised. -/
def resumes (answers : Answers) (channel : Channel) : Bool := channel.i2cOk ∧ sameSensor answers channel

/-- The restart of a channel gets to `scale_avdd`. -/
def switchesAvdd (answers : Answers) (channel : Channel) : Bool :=
  answers.ready ∧
    if resumes answers channel then
      channel.externalCalibration.divider ≠ 0 ∧ answers.resumeAvdd ∧ channel.source ≠ .unknown
    else answers.initAvdd

/-- The supply the restart of a channel switches to. -/
def avddBehind (answers : Answers) (channel : Channel) : AvddSource :=
  if resumes answers channel then channel.source else answers.initSource

/-- The reference of a stored calibration with the dummy divider. -/
def dummyAvref : Except Int (List UInt8) → Option ℕ
  | .error _ => none
  | .ok bytes =>
    if bytes.length = valueSize ∧ (Calibration.ofBytes bytes).divider = dummyAdcDivider then
      some (Calibration.ofBytes bytes).avref
    else none

/-- The configuration of a channel behind its restart. -/
def Channel.configurationBehind (answers : Answers) (channel : Channel) : Configuration where
  readTemperature :=
    if switchesAvdd answers channel then avddBehind answers channel = .internal else channel.readTemperature
  gain := channel.gain
  avref :=
    if reloads answers channel then (dummyAvref answers.stored).getD channel.externalCalibration.avref
    else channel.externalCalibration.avref

/-- The configuration of a channel behind a phase, where the one with its weight is its `own`. -/
def Channel.configurationIn (answers : Answers) (own : Phase) (channel : Channel) : Option Phase → Configuration
  | some .start => channel.configurationBehind answers
  | some .zero => if channel.i2cOk then channel.configurationBehind answers else channel.configuration
  | some phase =>
    if phase = own then
      { channel.configurationBehind answers with readTemperature := channel.readTemperature }
    else channel.configuration
  | none => channel.configuration

/-- The phase a call asks for: there is nothing done without a calibration. -/
def Scale.asked (scale : Scale) (phase : Phase) : Phase :=
  if phase = .done ∧ scale.current = .none then .none else phase

/-- The phase a call runs, if it is not the current one. -/
def Scale.runs (scale : Scale) (phase : Phase) : Option Phase :=
  if scale.current = scale.asked phase then none else some (scale.phaseFor (scale.asked phase))

section Channels

variable {answers : Answers} {channel : Channel}

/-- A calibration that is read keeps the reference, but for a dummy one. -/
private theorem read_avref (calibration : Calibration) (stored : Except Int (List UInt8)) :
    (calibration.read stored).avref = (dummyAvref stored).getD calibration.avref := by
  cases stored with
  | error _ => rfl
  | ok bytes =>
    simp only [Calibration.read, dummyAvref]
    by_cases size : bytes.length = valueSize
    · rw [if_neg (not_not.mpr size)]
      by_cases dummy : (Calibration.ofBytes bytes).divider = dummyAdcDivider
      · have positive : 0 < (Calibration.ofBytes bytes).divider := by
          rw [dummy]
          decide
        rw [if_pos ⟨positive, .inl dummy⟩, if_pos ⟨size, dummy⟩]
        rfl
      · rw [if_neg fun both : _ ∧ _ = dummyAdcDivider => dummy both.2]
        split
        · next loaded => exact loaded.2.resolve_left dummy
        · rfl
    · rw [if_pos size, if_neg fun both => size both.1]
      rfl

@[simp] theorem restarted_configuration (rc : Int) :
    (restarted rc channel).2.configuration = channel.configuration := by
  simp only [restarted]
  split <;> rfl

private theorem scaleRestartChannel_configuration :
    (scaleRestartChannel answers channel).2.configuration = channel.configurationBehind answers := by
  simp only [scaleRestartChannel]
  split
  · next missing =>
    simp [Channel.configurationBehind, Channel.configuration, switchesAvdd, reloads, missing]
  · next ready =>
    rw [Bool.not_eq_false] at ready
    split
    · next same =>
      have same : channel.i2cOk = true ∧ sameSensor answers channel = true := same
      have resumed : resumes answers channel = true := by simpa [resumes] using same
      have kept : reloads answers channel = false := by simp [reloads, same]
      split
      · next uncalibrated =>
        simp [Channel.configurationBehind, Channel.configuration, switchesAvdd, kept, resumed, uncalibrated]
      · next calibrated =>
        rw [restarted_configuration]
        simp [Channel.configurationBehind, Channel.configuration, switchesAvdd, avddBehind, kept, ready,
          resumed, calibrated, scaleResume]
    · next other =>
      have other : ¬ (channel.i2cOk = true ∧ sameSensor answers channel = true) := other
      have initialised : resumes answers channel = false := by simpa [resumes] using other
      have reload : reloads answers channel = (answers.init = 0) := by simp [reloads, ready, other]
      rw [restarted_configuration]
      simp only [scaleInitChannel, Channel.configurationBehind, switchesAvdd, avddBehind, ready,
        initialised]
      split
      · next zero =>
        simp [Channel.configuration, scaleReadExternalCalibration, read_avref, reload, zero]
      · next failed =>
        simp [Channel.configuration, reload, failed]

private theorem readChannel_configuration : (readChannel answers channel).2.configuration = channel.configuration := by
  have read : (scaleReadChannelValue answers channel).2.configuration = channel.configuration := by
    simp only [scaleReadChannelValue]
    split <;> rfl
  simp only [readChannel]
  split
  · split
    · simp only [scaleReadTemperature]
      split <;> exact read
    · exact read
  · exact read

private theorem scaleSampleChannel_configuration (phase : Phase) :
    (scaleSampleChannel phase answers channel).2.configuration = channel.configurationBehind answers := by
  simp only [scaleSampleChannel]
  split
  · split
    · exact scaleRestartChannel_configuration
    · exact readChannel_configuration.trans scaleRestartChannel_configuration
  · exact scaleRestartChannel_configuration

@[simp] theorem zeroed_configuration (ok : Bool) : (channel.zeroed ok).configuration = channel.configuration := by
  cases ok <;> rfl

end Channels

section Phases

variable {env : Env} {scale : Scale} {rc : Int} {phase : Phase}

private theorem zeroA_configuration :
    (zeroA env scale.a).configuration = scale.a.configurationIn env.a .cha10kg (some .zero) := by
  simp only [zeroA, Channel.configurationIn]
  split
  · rw [zeroed_configuration, scaleSampleChannel_configuration]
  · rw [zeroed_configuration]

private theorem zeroB_configuration :
    (zeroB env scale.b).configuration = scale.b.configurationIn env.b .chb10kg (some .zero) := by
  simp only [zeroB, Channel.configurationIn, zeroed_configuration]
  split
  · rw [scaleSampleChannel_configuration]
  · rfl

/-- What a weight leaves of a configuration; the temperature is switched off for it. -/
private theorem sampleWeight_configuration (answers : Answers) (channel : Channel) :
    (sampleWeight phase answers channel).2.gain = channel.gain ∧
      (sampleWeight phase answers channel).2.externalCalibration.avref =
        (channel.configurationBehind answers).avref := by
  have sampled := @scaleSampleChannel_configuration answers { channel with readTemperature := false } phase
  exact ⟨congrArg Configuration.gain sampled, congrArg Configuration.avref sampled⟩

/-- The configurations behind a phase, with the temperature of channel B left open behind its weight. -/
structure Configured (env : Env) (scale : Scale) (run : Option Phase) (next : Scale) : Prop where
  a : next.a.configuration = scale.a.configurationIn env.a .cha10kg run
  b : next.b.configuration = scale.b.configurationIn env.b .chb10kg run ∨ run = some .chb10kg
  gain : next.b.gain = scale.b.gain
  avref : next.b.externalCalibration.avref = (scale.b.configurationIn env.b .chb10kg run).avref

/-- Where the whole configuration of channel B is known, its parts are. -/
theorem Configured.of_both {run : Option Phase} {next : Scale}
    (a : next.a.configuration = scale.a.configurationIn env.a .cha10kg run)
    (b : next.b.configuration = scale.b.configurationIn env.b .chb10kg run)
    (gain : (scale.b.configurationIn env.b .chb10kg run).gain = scale.b.gain) :
    Configured env scale run next where
  a := a
  b := .inl b
  gain := (congrArg Configuration.gain b).trans gain
  avref := congrArg Configuration.avref b

/-- No phase changes the gain. -/
private theorem configurationIn_gain (answers : Answers) (own : Phase) (channel : Channel) (run : Option Phase) :
    (channel.configurationIn answers own run).gain = channel.gain := by
  cases run with
  | none => rfl
  | some phase =>
    simp only [Channel.configurationIn]
    split
    · rfl
    · split <;> rfl
    · split <;> rfl
    · rfl

private theorem chaPhase_configured : Configured env scale (some .cha10kg) (chaPhase env scale).2.2 := by
  have sampled := @sampleWeight_configuration .cha10kg env.a scale.a
  have restored : (chaPhase env scale).2.2.a.configuration =
      { scale.a.configurationBehind env.a with readTemperature := scale.a.readTemperature } := by
    simp only [chaPhase]
    split_ifs <;> simp [Channel.configuration, scaleCalcCalibration, sampled, Channel.configurationBehind]
  have other : (chaPhase env scale).2.2.b = scale.b := by
    simp only [chaPhase]
    split_ifs <;> rfl
  exact .of_both restored (congrArg Channel.configuration other) (configurationIn_gain ..)

private theorem chbPhase_configured : Configured env scale (some .chb10kg) (chbPhase env scale).2.2 where
  a := rfl
  b := .inr rfl
  gain := by
    have sampled := (@sampleWeight_configuration .chb10kg env.b scale.b).1
    simp only [chbPhase]
    split <;> exact sampled
  avref := by
    have sampled := (@sampleWeight_configuration .chb10kg env.b scale.b).2
    simp only [chbPhase]
    split <;> exact sampled

private theorem zeroPhase_configured : Configured env scale (some .zero) (zeroPhase env rc scale).2.2 := by
  simp only [zeroPhase]
  split_ifs <;> exact .of_both zeroA_configuration zeroB_configuration (configurationIn_gain ..)

private theorem donePhase_configured : Configured env scale (some .done) (donePhase rc scale).2.2 := by
  simp only [donePhase]
  split_ifs <;> exact .of_both rfl rfl rfl

private theorem startPhase_configured : Configured env scale (some .start) (startPhase env scale).2.2 :=
  .of_both scaleRestartChannel_configuration scaleRestartChannel_configuration (configurationIn_gain ..)

private theorem runPhase_configured : Configured env scale (some phase) (runPhase env rc scale phase).2.2 := by
  cases phase with
  | none => exact .of_both rfl rfl rfl
  | start => exact startPhase_configured
  | zero => exact zeroPhase_configured
  | cha10kg => exact chaPhase_configured
  | chb10kg => exact chbPhase_configured
  | done => exact donePhase_configured

private theorem endPhase_configured {run : Option Phase} {ended : Ending × Int × Scale}
    (configured : Configured env scale run ended.2.2) :
    Configured env scale run (endPhase phase ended).2 := by
  obtain ⟨ending, rc, next⟩ := ended
  cases ending <;> exact ⟨configured.a, configured.b, configured.gain, configured.avref⟩

end Phases

/-- A calibration changes the configuration of a channel only where it restarts the sensor: the gain never, the
reference where the sensor is initialised anew and a dummy calibration is read, the temperature where the
restart gets to `scale_avdd`. Behind the weight of channel A its temperature is the one before; the one of
channel B behind its own weight is left open. -/
theorem scaleCalibrate_configured (env : Env) (scale : Scale) (phase : Phase) :
    Configured env scale (scale.runs phase) (scaleCalibrate env scale phase).2 := by
  simp only [scaleCalibrate, ← Scale.asked.eq_def, Scale.runs]
  split_ifs
  all_goals first
    | exact .of_both rfl rfl rfl
    | exact endPhase_configured runPhase_configured

/-- A calibration that starts on a sensor with the internal supply switches the temperature on. -/
theorem start_reads_temperature :
    (scaleCalibrate { a := { initSource := .internal } } {} .start).2.a.readTemperature = true ∧
      ({} : Scale).a.readTemperature = false := by
  decide

end CoapsClient.Nau7802
