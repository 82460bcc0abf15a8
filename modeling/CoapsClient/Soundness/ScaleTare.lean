import CoapsClient.Model.Scale.Saving
import CoapsClient.Soundness.ScaleCalibration

/-! # The tare

A calibration that is done behind its zero keeps the dividers and takes new offsets. `CALIBRATE_DONE` brings
only the dividers back, for both channels, so a channel whose zero was not sampled ends with the offset that
the preparation has left, and this is saved.
-/

namespace CoapsClient.Nau7802

/-- The sample of a channel in `CALIBRATE_ZERO`, and whether it succeeds. A channel without a sensor is not
sampled. -/
def zeroSample (answers : Answers) (channel : Channel) : Bool × Channel :=
  if channel.i2cOk then
    ((scaleSampleChannel .zero answers channel).1 = 0, (scaleSampleChannel .zero answers channel).2)
  else (false, channel)

/-- The raw value says that the channel has been sampled. -/
def Channel.taken (channel : Channel) : Bool := channel.i2cOk ∧ channel.raw ≠ noneAdcValue

/-- The calibration of a channel behind its sample: the sensor may be initialised anew. -/
def Channel.reloaded (answers : Answers) (channel : Channel) : Calibration :=
  if channel.i2cOk ∧ reloads answers channel then channel.externalCalibration.read answers.stored
  else channel.externalCalibration

section Samples

variable {answers : Answers} {channel : Channel} {env : Env}

private theorem zeroA_sample :
    zeroA env channel = (zeroSample env.a channel).2.zeroed (zeroSample env.a channel).1 := by
  simp only [zeroA, zeroSample]
  split <;> rfl

private theorem zeroB_sample :
    zeroB env channel = (zeroSample env.b channel).2.zeroed (zeroSample env.b channel).2.taken := by
  simp only [zeroB, zeroSample]
  split <;> rfl

private theorem restarted_ok {rc : Int} (ok : (restarted rc channel).1 = 0) :
    (restarted rc channel).2.i2cOk = channel.i2cOk := by
  simp only [restarted] at ok ⊢
  split at ok
  · next zero => rw [if_pos zero]
  · next failed => exact absurd ok failed

/-- A channel that restarts has a sensor. -/
private theorem scaleRestartChannel_ok (ok : (scaleRestartChannel answers channel).1 = 0) :
    (scaleRestartChannel answers channel).2.i2cOk = true := by
  simp only [scaleRestartChannel] at ok ⊢
  split at ok
  · contradiction
  · next ready =>
    rw [if_neg ready]
    split at ok
    · next same =>
      rw [if_pos same]
      split at ok
      · contradiction
      · next calibrated =>
        rw [if_neg calibrated, restarted_ok ok]
        exact same.1
    · next other =>
      rw [if_neg other, restarted_ok ok, scaleInitChannel]
      split <;> rfl

@[simp] theorem scaleReadChannelValue_i2cOk :
    (scaleReadChannelValue answers channel).2.i2cOk = channel.i2cOk := by
  simp only [scaleReadChannelValue]
  split <;> rfl

@[simp] theorem scaleReadTemperature_i2cOk :
    (scaleReadTemperature answers channel).2.i2cOk = channel.i2cOk := by
  simp only [scaleReadTemperature]
  split <;> rfl

private theorem readChannel_i2cOk : (readChannel answers channel).2.i2cOk = channel.i2cOk := by
  simp only [readChannel]
  split
  · split
    · simp
    · simp
  · simp

/-- A sample that succeeds has a raw value. -/
private theorem zeroSample_taken (ok : (zeroSample answers channel).1 = true) :
    (zeroSample answers channel).2.taken = true := by
  simp only [zeroSample] at ok ⊢
  split at ok
  · next sensor =>
    rw [if_pos sensor]
    simp only [scaleSampleChannel, decide_eq_true_eq] at ok ⊢
    split at ok
    · next restart =>
      simp only [restart, if_true, reduceCtorEq, or_self, if_false] at ok ⊢
      split at ok
      · contradiction
      · next valid =>
        have raw : (readChannel answers (scaleRestartChannel answers channel).2).2.raw ≠ noneAdcValue :=
          fun none => valid ⟨ok, none⟩
        simp [Channel.taken, readChannel_i2cOk, scaleRestartChannel_ok restart, raw]
    · next failed => exact absurd ok failed
  · contradiction

/-- A channel that is initialised anew has the stored calibration. -/
private theorem scaleRestartChannel_reloads (reload : reloads answers channel = true) :
    (scaleRestartChannel answers channel).2.externalCalibration =
      channel.externalCalibration.read answers.stored := by
  simp only [reloads, decide_eq_true_eq] at reload
  obtain ⟨ready, other, initialised⟩ := reload
  simp only [scaleRestartChannel, ready, Bool.true_eq_false, if_false]
  split
  · next same => exact absurd same other
  · simp only [scaleInitChannel, initialised, if_true, restarted]
    rfl

/-- The sample leaves the calibration, or the stored one of a sensor that is initialised anew. -/
private theorem zeroSample_reloaded :
    (zeroSample answers channel).2.externalCalibration = channel.reloaded answers := by
  have sampled : (scaleSampleChannel .zero answers channel).2.externalCalibration =
      (scaleRestartChannel answers channel).2.externalCalibration := by
    simp only [scaleSampleChannel, reduceCtorEq, or_self, if_false]
    split
    · exact readChannel_same.1
    · rfl
  simp only [zeroSample, Channel.reloaded]
  split
  · next sensor =>
    rw [sampled]
    split
    · next reload => exact scaleRestartChannel_reloads reload.2
    · next kept => exact scaleRestartChannel_same (by simpa [sensor] using kept)
  · next missing => rw [if_neg fun both => missing both.1]

private theorem zeroSample_previous : (zeroSample answers channel).2.previous = channel.previous := by
  simp only [zeroSample]
  split
  · exact (scaleSampleChannel_loaded .zero).1
  · rfl

private theorem zeroed_calibrates (ok : Bool) :
    (channel.zeroed ok).calibrates = true ↔
      ok = true ∧ channel.i2cOk = true ∧ 0 < channel.externalCalibration.divider := by
  cases ok with
  | true => simp [Channel.zeroed, Channel.calibrates]
  | false => simp [Channel.zeroed, Channel.calibrates]

private theorem zeroA_calibrates :
    (zeroA env channel).calibrates = true ↔
      (zeroSample env.a channel).1 = true ∧ 0 < (channel.reloaded env.a).divider := by
  rw [zeroA_sample, zeroed_calibrates, zeroSample_reloaded]
  constructor
  · rintro ⟨ok, _, divider⟩
    exact ⟨ok, divider⟩
  · rintro ⟨ok, divider⟩
    have taken := zeroSample_taken ok
    simp only [Channel.taken, decide_eq_true_eq] at taken
    exact ⟨ok, taken.1, divider⟩

private theorem zeroB_calibrates :
    (zeroB env channel).calibrates = true ↔
      (zeroSample env.b channel).2.taken = true ∧ 0 < (channel.reloaded env.b).divider := by
  rw [zeroB_sample, zeroed_calibrates, zeroSample_reloaded]
  constructor
  · rintro ⟨taken, _, divider⟩
    exact ⟨taken, divider⟩
  · rintro ⟨taken, divider⟩
    have sensor := taken
    simp only [Channel.taken, decide_eq_true_eq] at sensor
    exact ⟨taken, sensor.1, divider⟩

/-- What a restore without the offset leaves of a sampled zero, or of a failed one. -/
private theorem restored_zeroed_values (ok : Bool) :
    (scaleRestoreCalibration (channel.zeroed ok) false).normalize.values =
      (if ok then channel.weight else channel.externalCalibration.offset,
        normalizeDivider channel.previousDivider) := by
  cases ok with
  | true => rfl
  | false => rfl

private theorem cleared_values : channel.clear.normalize.values = (0, 0) := rfl

private theorem normalizeDivider_eq_iff {divider : Int} : normalizeDivider divider = divider ↔ Normal divider := by
  constructor
  · intro same
    exact same ▸ normalizeDivider_normal divider
  · rintro (rfl | rfl | large)
    · rfl
    · rfl
    · exact if_pos (.inl large)

end Samples

/-- The calls `CALIBRATE_START`, `CALIBRATE_ZERO` and `CALIBRATE_DONE` on an idle scale, with what the
sensors answer to each. The zero of at least one channel is sampled. -/
structure Tare where
  scale : Scale
  start : Env
  zero : Env
  done : Env
  idle : scale.current = .none
  first : scale.next = .start
  succeeds : (zeroSample zero.a (step scale ⟨.calibrate .start, start⟩).a).1 = true ∨
    (zeroSample zero.b (step scale ⟨.calibrate .start, start⟩).b).1 = true

/-- Offset and divider of a channel behind a tare: a sampled zero is the new offset. -/
def tared (sample : Bool × Channel) (previous : Int × Int) : Int × Int :=
  if sample.1 then (sample.2.weight, previous.2) else previous

namespace Tare

section Run

variable (tare : Tare)

def started : Scale := step tare.scale ⟨.calibrate .start, tare.start⟩

def zeroed : Scale := step tare.started ⟨.calibrate .zero, tare.zero⟩

def reached : Scale := step tare.zeroed ⟨.calibrate .done, tare.done⟩

/-- All that the three calls save. -/
def saves : List (Option (List UInt8) × Option (List UInt8)) :=
  scaleCalibrateSaves tare.start tare.scale .start ++ scaleCalibrateSaves tare.zero tare.started .zero ++
    scaleCalibrateSaves tare.done tare.zeroed .done

def sampleA : Bool × Channel := zeroSample tare.zero.a tare.started.a

def sampleB : Bool × Channel := zeroSample tare.zero.b tare.started.b

/-- The values that a tare is for; the previous ones are those the start keeps aside. -/
def expected : (Int × Int) × (Int × Int) :=
  (tared tare.sampleA tare.started.a.previous, tared tare.sampleB tare.started.b.previous)

/-- The tare ends with the values it is for, and saves just them. -/
structure Holds : Prop where
  values : tare.reached.values = tare.expected
  saves : tare.saves =
    [(scaleSaveExternalCalibration (tare.reached.a.holding tare.expected.1),
      scaleSaveExternalCalibration (tare.reached.b.holding tare.expected.2))]

/-- A channel with a sampled zero has a divider left to go on with. -/
def GoesOn : Prop :=
  (tare.sampleA.1 = true ∧ 0 < (tare.started.a.reloaded tare.zero.a).divider) ∨
    (tare.sampleB.2.taken = true ∧ 0 < (tare.started.b.reloaded tare.zero.b).divider)

instance : Decidable tare.GoesOn := inferInstanceAs (Decidable (_ ∨ _))

/-- The offset that a failed zero of channel A leaves. -/
def leftA : Int := (tare.started.a.reloaded tare.zero.a).offset

/-- The offset that a failed zero of channel B leaves: its raw value may be there nevertheless. -/
def leftB : Int :=
  if tare.sampleB.2.taken then tare.sampleB.2.weight else (tare.started.b.reloaded tare.zero.b).offset

/-- What brings the previous values back although `CALIBRATE_DONE` restores the dividers only. -/
structure Restores : Prop where
  goesOn : tare.GoesOn
  normalA : Normal tare.started.a.previousDivider
  normalB : Normal tare.started.b.previousDivider
  offsetA : tare.sampleA.1 = false → tare.leftA = tare.started.a.previousOffset
  offsetB : tare.sampleB.1 = false → tare.leftB = tare.started.b.previousOffset

end Run

section Calls

variable {tare : Tare}

private theorem started_eq : tare.started = (startPhase tare.start tare.scale).2.2 := by
  rcases @scaleCalibrate_idle tare.start tare.scale .start tare.idle tare.first with
    ⟨_, moved⟩ | ⟨other, _⟩ | ⟨rejected, _⟩
  · exact moved
  · contradiction
  · exact absurd (by decide) rejected

private theorem started_current : tare.started.current = .start := started_eq ▸ rfl

private theorem started_next : tare.started.next = .zero := started_eq ▸ rfl

private theorem started_saves : tare.started.saves = tare.scale.saves := started_eq ▸ rfl

/-- The start keeps the values aside that the scale has, unless its check reads other ones. -/
private theorem started_previous (a : FindsValues tare.start.a tare.scale.a)
    (b : FindsValues tare.start.b tare.scale.b) : tare.started.previous = tare.scale.values := by
  rw [started_eq]
  exact Prod.ext (scaleCheckChannel_values a) (scaleCheckChannel_values b)

private theorem scaleCalibrate_zero {env : Env} {scale : Scale} (current : scale.current = .start)
    (next : scale.next = .zero) :
    scaleCalibrate env scale .zero = endPhase .zero (zeroPhase env Phase.zero.code scale) := by
  simp [scaleCalibrate, Scale.phaseFor, current, next, runPhase]

private theorem scaleCalibrate_done {env : Env} {scale : Scale} (current : scale.current = .zero) :
    (scaleCalibrate env scale .done).2 =
      { scale with
        a := scaleRestoreCalibration scale.a false
        b := scaleRestoreCalibration scale.b false }.idle.save := by
  simp [scaleCalibrate, Scale.phaseFor, current, runPhase, donePhase, endPhase]

private theorem scaleCalibrate_over {env : Env} {scale : Scale} (current : scale.current = .none) :
    (scaleCalibrate env scale .done).2 = scale := by
  simp [scaleCalibrate, current]

/-- The channels behind a zero that goes on. -/
structure Sampled (scale next : Scale) (env : Env) : Prop where
  a : next.a = zeroA env scale.a
  b : next.b = zeroB env scale.b
  current : next.current = .zero
  saves : next.saves = scale.saves

private theorem zeroed_eq : tare.zeroed = (endPhase .zero (zeroPhase tare.zero Phase.zero.code tare.started)).2 :=
  congrArg Prod.snd (scaleCalibrate_zero started_current started_next)

private theorem zeroed_goesOn (goesOn : tare.GoesOn) : Sampled tare.started tare.zeroed tare.zero := by
  rw [zeroed_eq]
  simp only [zeroPhase]
  split
  · exact ⟨rfl, rfl, rfl, rfl⟩
  · next failedA =>
    split
    · exact ⟨rfl, rfl, rfl, rfl⟩
    · next failedB =>
      rcases goesOn with a | b
      · exact absurd (zeroA_calibrates.mpr a) failedA
      · exact absurd (zeroB_calibrates.mpr b) failedB

/-- A zero without a channel to go on with clears both calibrations and saves. -/
private theorem zeroed_gives_up (givesUp : ¬ tare.GoesOn) :
    tare.zeroed =
      { tare.started with
        a := (zeroA tare.zero tare.started.a).clear
        b := (zeroB tare.zero tare.started.b).clear
        current := .zero }.idle.save := by
  have failedA : ¬ (zeroA tare.zero tare.started.a).calibrates = true :=
    fun a => givesUp (.inl (zeroA_calibrates.mp a))
  have failedB : ¬ (zeroB tare.zero tare.started.b).calibrates = true :=
    fun b => givesUp (.inr (zeroB_calibrates.mp b))
  rw [zeroed_eq]
  simp only [zeroPhase, failedA, failedB, Bool.false_eq_true, if_false]
  rfl

private theorem scaleCalibrateSaves_nil {env : Env} {scale : Scale} {phase : Phase}
    (same : (scaleCalibrate env scale phase).2.saves = scale.saves) :
    scaleCalibrateSaves env scale phase = [] :=
  if_pos same

private theorem scaleCalibrateSaves_one {env : Env} {scale : Scale} {phase : Phase}
    (more : (scaleCalibrate env scale phase).2.saves = scale.saves + 1) :
    scaleCalibrateSaves env scale phase =
      [(scaleSaveExternalCalibration (scaleCalibrate env scale phase).2.a,
        scaleSaveExternalCalibration (scaleCalibrate env scale phase).2.b)] :=
  if_neg (more ▸ Nat.succ_ne_self _)

/-- A tare that goes on ends with the dividers of the start, and saves once. -/
private theorem reached_goesOn (goesOn : tare.GoesOn) :
    tare.reached.values =
        ((if tare.sampleA.1 then tare.sampleA.2.weight else tare.leftA,
          normalizeDivider tare.started.a.previousDivider),
        (if tare.sampleB.1 then tare.sampleB.2.weight else tare.leftB,
          normalizeDivider tare.started.b.previousDivider)) ∧
      tare.saves =
        [(scaleSaveExternalCalibration tare.reached.a, scaleSaveExternalCalibration tare.reached.b)] := by
  have sampled := zeroed_goesOn goesOn
  have done : tare.reached = { tare.zeroed with
      a := scaleRestoreCalibration tare.zeroed.a false
      b := scaleRestoreCalibration tare.zeroed.b false }.idle.save := scaleCalibrate_done sampled.current
  have dividerA : tare.sampleA.2.previousDivider = tare.started.a.previousDivider :=
    congrArg Prod.snd zeroSample_previous
  have dividerB : tare.sampleB.2.previousDivider = tare.started.b.previousDivider :=
    congrArg Prod.snd zeroSample_previous
  have a : tare.reached.a.values = (if tare.sampleA.1 then tare.sampleA.2.weight else tare.leftA,
      normalizeDivider tare.started.a.previousDivider) := by
    rw [done, ← dividerA, leftA, ← zeroSample_reloaded]
    show (scaleRestoreCalibration tare.zeroed.a false).normalize.values = _
    rw [sampled.a, zeroA_sample]
    exact restored_zeroed_values _
  have b : tare.reached.b.values = (if tare.sampleB.1 then tare.sampleB.2.weight else tare.leftB,
      normalizeDivider tare.started.b.previousDivider) := by
    have offset : (if tare.sampleB.1 then tare.sampleB.2.weight else tare.leftB) =
        if tare.sampleB.2.taken then tare.sampleB.2.weight else tare.sampleB.2.externalCalibration.offset := by
      rw [leftB, ← zeroSample_reloaded]
      split
      · next ok =>
        have taken : tare.sampleB.2.taken = true := zeroSample_taken ok
        rw [if_pos taken]
      · rfl
    rw [done, ← dividerB, offset]
    show (scaleRestoreCalibration tare.zeroed.b false).normalize.values = _
    rw [sampled.b, zeroB_sample]
    exact restored_zeroed_values _
  refine ⟨Prod.ext a b, ?_⟩
  rw [saves, scaleCalibrateSaves_nil started_saves, scaleCalibrateSaves_nil sampled.saves]
  exact scaleCalibrateSaves_one (congrArg Scale.saves done)

/-- A tare that gives up ends without any values, and has saved this. -/
private theorem reached_gives_up (givesUp : ¬ tare.GoesOn) :
    tare.reached.values = ((0, 0), (0, 0)) ∧
      tare.saves =
        [(scaleSaveExternalCalibration tare.reached.a, scaleSaveExternalCalibration tare.reached.b)] := by
  have cleared := zeroed_gives_up givesUp
  have same : tare.reached = tare.zeroed := scaleCalibrate_over (cleared ▸ rfl)
  have values : tare.zeroed.values = ((0, 0), (0, 0)) := by
    rw [cleared]
    exact Prod.ext cleared_values cleared_values
  refine ⟨same ▸ values, ?_⟩
  have ended : scaleCalibrateSaves tare.done tare.zeroed .done = [] :=
    scaleCalibrateSaves_nil (congrArg Scale.saves same)
  rw [saves, scaleCalibrateSaves_nil started_saves, ended, same, List.nil_append, List.append_nil]
  exact scaleCalibrateSaves_one (congrArg Scale.saves cleared)

/-- The values decide: what a tare saves are the values it ends with. -/
private theorem holds_iff_values : tare.Holds ↔ tare.reached.values = tare.expected := by
  constructor
  · exact Holds.values
  · intro values
    have saved : tare.saves =
        [(scaleSaveExternalCalibration tare.reached.a, scaleSaveExternalCalibration tare.reached.b)] := by
      by_cases goesOn : tare.GoesOn
      · exact (reached_goesOn goesOn).2
      · exact (reached_gives_up goesOn).2
    refine ⟨values, saved.trans ?_⟩
    simp only [← values, Scale.values, holding_values]

/-- A channel has the values a tare is for just if its divider is normal, and a failed zero leaves its
previous offset. -/
private theorem tared_iff {sample : Bool × Channel} {previous : Int × Int} {left : Int} :
    (if sample.1 then sample.2.weight else left, normalizeDivider previous.2) = tared sample previous ↔
      Normal previous.2 ∧ (sample.1 = false → left = previous.1) := by
  rw [← normalizeDivider_eq_iff, tared]
  cases sample.1 with
  | true => simp
  | false => simp [Prod.ext_iff, and_comm]

end Calls

end Tare

/-- The start keeps the values of the scale aside, unless its check reads other ones. From there on the tare
holds exactly if it goes on, the dividers kept are normal, and the zero of each channel that fails leaves
just the offset that was kept; or if it gives up where all values are zero anyway. -/
theorem tare_holds_iff (tare : Tare) :
    (FindsValues tare.start.a tare.scale.a → FindsValues tare.start.b tare.scale.b →
      tare.started.previous = tare.scale.values) ∧
    (tare.Holds ↔ tare.Restores ∨ (¬ tare.GoesOn ∧ tare.expected = ((0, 0), (0, 0)))) := by
  refine ⟨Tare.started_previous, ?_⟩
  rw [Tare.holds_iff_values]
  by_cases goesOn : tare.GoesOn
  · rw [(Tare.reached_goesOn goesOn).1, Tare.expected, Prod.mk.injEq]
    have a := @Tare.tared_iff tare.sampleA tare.started.a.previous tare.leftA
    have b := @Tare.tared_iff tare.sampleB tare.started.b.previous tare.leftB
    constructor
    · rintro ⟨valuesA, valuesB⟩
      obtain ⟨normalA, offsetA⟩ := a.mp valuesA
      obtain ⟨normalB, offsetB⟩ := b.mp valuesB
      exact .inl ⟨goesOn, normalA, normalB, offsetA, offsetB⟩
    · rintro (restores | ⟨givesUp, _⟩)
      · exact ⟨a.mpr ⟨restores.normalA, restores.offsetA⟩, b.mpr ⟨restores.normalB, restores.offsetB⟩⟩
      · exact absurd goesOn givesUp
  · rw [(Tare.reached_gives_up goesOn).1]
    constructor
    · intro zero
      exact .inr ⟨goesOn, zero.symm⟩
    · rintro (restores | ⟨_, zero⟩)
      · exact absurd restores.goesOn goesOn
      · exact zero.symm

/-- Two calibrated channels. -/
private def twoChannels : Scale where
  a := { externalCalibration := { offset := 7, divider := 5000 }, i2cOk := true, internalOffset := 1 }
  b := { externalCalibration := { offset := 9, divider := 6000 }, i2cOk := true, internalOffset := 1 }

/-- The zero of both channels is sampled. -/
private def bothSampled : Tare where
  scale := twoChannels
  start := {}
  zero := { a := { value := .ok 40 }, b := { value := .ok 50 } }
  done := {}
  idle := rfl
  first := rfl
  succeeds := by decide

theorem both_zeros_taken :
    bothSampled.Holds ∧ bothSampled.started.previous = ((7, 5000), (9, 6000)) ∧
      bothSampled.expected = ((40, 5000), (50, 6000)) := by
  have tare := tare_holds_iff bothSampled
  have restores : bothSampled.Restores :=
    ⟨by decide, by decide, by decide, by decide, by decide⟩
  exact ⟨tare.2.mpr (.inl restores), tare.1 (by decide) (by decide), by decide⟩

/-- Sensor B does not answer any more when the zero is sampled. -/
private def failingB : Tare where
  scale := twoChannels
  start := {}
  zero := { a := { value := .ok 40 }, b := { value := .error (-5) } }
  done := {}
  idle := rfl
  first := rfl
  succeeds := by decide

/-- Channel B, whose zero fails, ends with its divider and the offset 0, and this is saved. -/
theorem failed_zero_loses_offset :
    failingB.scale.values = ((7, 5000), (9, 6000)) ∧ failingB.started.previous = failingB.scale.values ∧
      failingB.expected = ((40, 5000), (9, 6000)) ∧ failingB.reached.values = ((40, 5000), (0, 6000)) ∧
      failingB.saves.map Prod.snd =
        [some [0, 0, 0, 0, 23, 112, 0, 0, 0, 9, 96, 0, 0, 0, 0, 0, 0, 0, 0, 0, 0, 0, 0, 0, 0, 0]] ∧
      ¬ failingB.Holds := by
  have values : failingB.reached.values = ((40, 5000), (0, 6000)) := by decide
  have expected : failingB.expected = ((40, 5000), (9, 6000)) := by decide
  refine ⟨by decide, by decide, expected, values, by decide, fun holds => ?_⟩
  have same := holds.values
  rw [values, expected] at same
  exact absurd same (by decide)

end CoapsClient.Nau7802
