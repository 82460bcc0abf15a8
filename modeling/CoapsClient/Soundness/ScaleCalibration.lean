import CoapsClient.Model.Scale.Calibration

/-! # The scale between two calibrations

A running calibration works with the placeholder 1 as divider and keeps the values before it aside. All ways
out of it either save normalized values or put the ones before back, but `CALIBRATE_DONE` directly behind
`CALIBRATE_START`, which leaves the placeholder. A phase out of order is answered by the same restore when no
calibration is running, and brings back what the last one has left aside.
-/

namespace CoapsClient.Nau7802

open Machine

/-- A divider outside of a calibration: 0, 100, or at least 2000. -/
def Normal (divider : Int) : Prop := divider = 0 ∨ divider = 100 ∨ 2000 ≤ divider

instance (divider : Int) : Decidable (Normal divider) := inferInstanceAs (Decidable (_ ∨ _))

/-- The dividers of both channels are normal. -/
def Scale.Normal (scale : Scale) : Prop := Nau7802.Normal scale.values.1.2 ∧ Nau7802.Normal scale.values.2.2

instance (scale : Scale) : Decidable scale.Normal := inferInstanceAs (Decidable (_ ∧ _))

/-- The channel is initialised anew and reads the stored calibration. -/
def reloads (answers : Answers) (channel : Channel) : Bool :=
  answers.ready ∧ ¬ (channel.i2cOk ∧ sameSensor answers channel) ∧ answers.init = 0

/-- A channel that reads the stored calibration finds the values it has. -/
def FindsValues (answers : Answers) (channel : Channel) : Prop :=
  reloads answers channel →
    ((channel.externalCalibration.read answers.stored).offset,
      (channel.externalCalibration.read answers.stored).divider) = channel.values

instance (answers : Answers) (channel : Channel) : Decidable (FindsValues answers channel) :=
  inferInstanceAs (Decidable (_ → _))

/-- The calls that go right: a phase out of order without a calibration finds nothing else to restore, a
started calibration is not done before its zero, and the start of it loads no other calibration. -/
def InOrder (scale : Scale) (label : Label) : Prop :=
  match label.call with
  | .sample => True
  | .calibrate phase =>
    (scale.current = .none ∧ phase ∉ [.none, .start, .done] → scale.previous = scale.values) ∧
      ¬ (scale.current = .start ∧ phase = .done) ∧
      (scale.current = .none ∧ phase = .start →
        FindsValues label.env.a scale.a ∧ FindsValues label.env.b scale.b)

instance (scale : Scale) : (label : Label) → Decidable (InOrder scale label)
  | ⟨.sample, _⟩ => isTrue trivial
  | ⟨.calibrate _, _⟩ => inferInstanceAs (Decidable (_ ∧ _ ∧ _))

section Channels

variable {answers : Answers} {channel next : Channel} {phase : Phase}

theorem normalizeDivider_normal (divider : Int) : Normal (normalizeDivider divider) := by
  by_cases normal : minAdcDivider ≤ divider ∨ divider = dummyAdcDivider
  · rw [normalizeDivider, if_pos normal]
    exact .inr normal.symm
  · rw [normalizeDivider, if_neg normal]
    exact .inl rfl

theorem Calibration.read_normal (calibration : Calibration) (stored : Except Int (List UInt8)) :
    Normal (calibration.read stored).divider := by
  have disabled : Normal calibration.disabled.divider := .inl rfl
  cases stored with
  | error rc => exact disabled
  | ok bytes =>
    simp only [Calibration.read]
    split
    · exact disabled
    · split
      · exact normalizeDivider_normal _
      · exact disabled

/-- What the checks and samples do to a calibration: they keep it, or read the stored one. -/
def Loaded (answers : Answers) (channel next : Channel) : Prop :=
  next.previous = channel.previous ∧
    (next.externalCalibration = channel.externalCalibration ∨
      next.externalCalibration = channel.externalCalibration.read answers.stored)

theorem Loaded.normal (loaded : Loaded answers channel next) (normal : Normal channel.values.2) :
    Normal next.values.2 := by
  obtain ⟨_, same | read⟩ := loaded
  · rw [Channel.values, same]
    exact normal
  · rw [Channel.values, read]
    exact Calibration.read_normal _ _

private theorem restarted_loaded (rc : Int) (loaded : Loaded answers channel next) :
    Loaded answers channel (restarted rc next).2 := by
  simp only [restarted]
  split
  · exact loaded
  · exact loaded

private theorem scaleInitChannel_loaded : Loaded answers channel (scaleInitChannel answers channel).2 := by
  simp only [scaleInitChannel]
  split
  · exact ⟨rfl, .inr rfl⟩
  · exact ⟨rfl, .inl rfl⟩

private theorem scaleRestartChannel_loaded : Loaded answers channel (scaleRestartChannel answers channel).2 := by
  simp only [scaleRestartChannel]
  split
  · exact ⟨rfl, .inl rfl⟩
  · split
    · split
      · exact ⟨rfl, .inl rfl⟩
      · exact restarted_loaded _ ⟨rfl, .inl rfl⟩
    · exact restarted_loaded _ scaleInitChannel_loaded

/-- A channel that is not initialised anew keeps its calibration. -/
theorem scaleRestartChannel_same (kept : reloads answers channel = false) :
    (scaleRestartChannel answers channel).2.externalCalibration = channel.externalCalibration := by
  have ended (rc : Int) (next : Channel) :
      (restarted rc next).2.externalCalibration = next.externalCalibration := by
    simp only [restarted]
    split <;> rfl
  simp only [scaleRestartChannel]
  split
  · rfl
  · next ready =>
    split
    · split
      · rfl
      · rw [ended]
        rfl
    · next other =>
      have failed : answers.init ≠ 0 := by
        intro initialised
        simp only [Bool.not_eq_false] at ready
        simp only [reloads, decide_eq_false_iff_not] at kept
        exact kept ⟨ready, other, initialised⟩
      rw [ended, scaleInitChannel, if_neg failed]

theorem scaleCheckChannel_values (finds : FindsValues answers channel) :
    (scaleCheckChannel answers channel).values = channel.values := by
  by_cases reload : reloads answers channel = true
  · obtain ⟨_, same | read⟩ := @scaleRestartChannel_loaded answers channel
    · rw [Channel.values, scaleCheckChannel, same]
      rfl
    · rw [Channel.values, scaleCheckChannel, read]
      exact finds reload
  · rw [Channel.values, scaleCheckChannel, scaleRestartChannel_same (Bool.eq_false_iff.mpr reload)]
    rfl

/-- Reading a channel changes neither its calibration nor what is kept aside. -/
def Unchanged (channel next : Channel) : Prop :=
  next.externalCalibration = channel.externalCalibration ∧ next.previous = channel.previous

private theorem scaleReadChannelValue_same : Unchanged channel (scaleReadChannelValue answers channel).2 := by
  simp only [scaleReadChannelValue]
  split <;> exact ⟨rfl, rfl⟩

private theorem scaleReadTemperature_same : Unchanged channel (scaleReadTemperature answers channel).2 := by
  simp only [scaleReadTemperature]
  split <;> exact ⟨rfl, rfl⟩

theorem readChannel_same : Unchanged channel (readChannel answers channel).2 := by
  have read : Unchanged channel (scaleReadChannelValue answers channel).2 := scaleReadChannelValue_same
  simp only [readChannel]
  split
  · split
    · have temperature := @scaleReadTemperature_same answers { (scaleReadChannelValue answers channel).2 with
        weight := (scaleReadChannelValue answers channel).2.raw }
      exact ⟨temperature.1.trans read.1, temperature.2.trans read.2⟩
    · exact read
  · exact read

theorem scaleSampleChannel_loaded (phase : Phase) :
    Loaded answers channel (scaleSampleChannel phase answers channel).2 := by
  have restart : Loaded answers channel (scaleRestartChannel answers channel).2 := scaleRestartChannel_loaded
  simp only [scaleSampleChannel]
  split
  · split
    · exact restart
    · obtain ⟨same, previous⟩ := @readChannel_same answers (scaleRestartChannel answers channel).2
      simp only [Loaded, same, previous]
      exact restart
  · exact restart

end Channels

section Previous

variable {env : Env} {channel : Channel} {scale : Scale} {rc : Int} {phase : Phase}

private theorem zeroed_previous (ok : Bool) : (channel.zeroed ok).previous = channel.previous := by
  simp only [Channel.zeroed]
  split <;> rfl

private theorem zeroA_previous : (zeroA env channel).previous = channel.previous := by
  simp only [zeroA]
  split
  · rw [zeroed_previous]
    exact (scaleSampleChannel_loaded .zero).1
  · exact zeroed_previous false

private theorem zeroB_previous : (zeroB env channel).previous = channel.previous := by
  simp only [zeroB]
  rw [zeroed_previous]
  split
  · exact (scaleSampleChannel_loaded .zero).1
  · rfl

/-- A phase behind the first one leaves what is kept aside, and there is a phase to come. -/
structure Ahead (scale : Scale) (phase : Phase) (next : Scale) : Prop where
  current : next.current = phase
  ahead : next.next ≠ .start
  previous : next.previous = scale.previous
  before : next.before = scale.before

private theorem zeroPhase_ahead (goesOn : (zeroPhase env rc scale).1 = .goesOn) :
    Ahead scale .zero (zeroPhase env rc scale).2.2 := by
  have a : (zeroA env scale.a).previous = scale.a.previous := zeroA_previous
  have b : (zeroB env scale.b).previous = scale.b.previous := zeroB_previous
  simp only [zeroPhase] at goesOn ⊢
  split at goesOn
  · next calibrates =>
    rw [if_pos calibrates]
    exact ⟨rfl, nofun, Prod.ext a b, rfl⟩
  · next failed =>
    rw [if_neg failed]
    split at goesOn
    · next calibrates =>
      rw [if_pos calibrates]
      exact ⟨rfl, nofun, Prod.ext a b, rfl⟩
    · contradiction

private theorem chaPhase_ahead (goesOn : (chaPhase env scale).1 = .goesOn) :
    Ahead scale .cha10kg (chaPhase env scale).2.2 := by
  have sampled := (@scaleSampleChannel_loaded env.a { scale.a with readTemperature := false } .cha10kg).1
  simp only [chaPhase] at goesOn ⊢
  split at goesOn
  · next calibrates =>
    rw [if_pos calibrates]
    refine ⟨rfl, nofun, Prod.ext ?_ rfl, rfl⟩
    simp only [Scale.previous]
    split <;> exact sampled
  · contradiction

/-- A phase that goes on is the first one, or leaves what is kept aside. -/
private theorem runPhase_goesOn (goesOn : (runPhase env rc scale phase).1 = .goesOn) :
    phase = .start ∨
      ((phase = .zero ∨ phase = .cha10kg) ∧ Ahead scale phase (runPhase env rc scale phase).2.2) := by
  cases phase with
  | start => exact .inl rfl
  | zero => exact .inr ⟨.inl rfl, zeroPhase_ahead goesOn⟩
  | cha10kg => exact .inr ⟨.inr rfl, chaPhase_ahead goesOn⟩
  | none => simp [runPhase, nonePhase] at goesOn
  | chb10kg => simp [runPhase, chbPhase] at goesOn
  | done =>
    simp only [runPhase, donePhase] at goesOn
    split at goesOn
    · contradiction
    · split at goesOn <;> contradiction

/-- Only a cancel and a `CALIBRATE_DONE` before the zero stop without saving. -/
private theorem runPhase_stop (stop : (runPhase env rc scale phase).1 = .stop) :
    phase = .none ∨ (phase = .done ∧ scale.current ≠ .zero ∧ scale.current ≠ .cha10kg) := by
  cases phase with
  | none => exact .inl rfl
  | done =>
    refine .inr ⟨rfl, ?_⟩
    simp only [runPhase, donePhase] at stop
    split at stop
    · contradiction
    · next zero =>
      split at stop
      · contradiction
      · next cha => exact ⟨zero, cha⟩
  | start => simp [runPhase, startPhase] at stop
  | zero =>
    simp only [runPhase, zeroPhase] at stop
    split at stop
    · contradiction
    · split at stop <;> contradiction
  | cha10kg =>
    simp only [runPhase, chaPhase] at stop
    split at stop <;> contradiction
  | chb10kg => simp [runPhase, chbPhase] at stop

end Previous

section Calls

variable {env : Env} {scale next : Scale} {phase : Phase} {label : Label}

/-- Both channels get back what is kept aside, and no calibration is running. -/
def Scale.restored (scale : Scale) : Scale := (nonePhase 0 scale).2.2.idle

private theorem restored_values : scale.restored.values = scale.previous := rfl

/-- The calibration has ended by saving. -/
structure Saved (scale next : Scale) : Prop where
  idle : next.current = .none
  first : next.next = .start
  normal : next.Normal
  saves : next.saves = scale.saves + 1

/-- The calibration goes on with the given phase. -/
structure GoesOn (scale : Scale) (phase : Phase) (next : Scale) : Prop extends Ahead scale phase next where
  which : phase = .zero ∨ phase = .cha10kg

private theorem save_saved (scale : Scale) : Saved scale scale.idle.save :=
  ⟨rfl, rfl, ⟨normalizeDivider_normal _, normalizeDivider_normal _⟩, rfl⟩

private theorem runPhase_saves (rc : Int) : (runPhase env rc scale phase).2.2.saves = scale.saves := by
  cases phase with
  | none => rfl
  | start => rfl
  | chb10kg => rfl
  | zero =>
    simp only [runPhase, zeroPhase]
    split
    · rfl
    · split <;> rfl
  | cha10kg =>
    simp only [runPhase, chaPhase]
    split <;> rfl
  | done =>
    simp only [runPhase, donePhase]
    split
    · rfl
    · split <;> rfl

private theorem phaseFor_eq (runs : scale.phaseFor phase ≠ .none) : scale.phaseFor phase = phase := by
  simp only [Scale.phaseFor] at runs ⊢
  split
  · next cancel => exact absurd (if_pos cancel) runs
  · rfl

private theorem phaseFor_ne_start (ahead : scale.next ≠ .start) : scale.phaseFor phase ≠ .start := by
  intro start
  have same : scale.phaseFor phase = phase := phaseFor_eq (start ▸ nofun)
  obtain rfl := same.symm.trans start
  simp [Scale.phaseFor, ahead] at start

/-- A call without a running calibration starts one, does nothing, or restores. -/
theorem scaleCalibrate_idle (idle : scale.current = .none) (first : scale.next = .start) :
    (phase = .start ∧ (scaleCalibrate env scale phase).2 = (startPhase env scale).2.2) ∨
      (phase ≠ .start ∧ (scaleCalibrate env scale phase).2 = scale) ∨
      (phase ∉ [.none, .start, .done] ∧ (scaleCalibrate env scale phase).2 = scale.restored) := by
  cases phase with
  | start =>
    refine .inl ⟨rfl, ?_⟩
    simp [scaleCalibrate, Scale.phaseFor, idle, first, runPhase, startPhase, endPhase]
  | none => exact .inr (.inl ⟨nofun, by simp [scaleCalibrate, idle]⟩)
  | done => exact .inr (.inl ⟨nofun, by simp [scaleCalibrate, idle]⟩)
  | zero | cha10kg | chb10kg =>
    refine .inr (.inr ⟨by decide, ?_⟩)
    simp [scaleCalibrate, Scale.phaseFor, idle, first, runPhase, nonePhase, endPhase, Scale.restored]

/-- A call in a running calibration does nothing, goes on, cancels, or ends it by saving. -/
private theorem scaleCalibrate_running (running : scale.current ≠ .none) (ahead : scale.next ≠ .start)
    (place : scale.current ∈ [.start, .zero, .cha10kg])
    (inOrder : ¬ (scale.current = .start ∧ phase = .done)) :
    (scaleCalibrate env scale phase).2 = scale ∨ GoesOn scale phase (scaleCalibrate env scale phase).2 ∨
      (scaleCalibrate env scale phase).2 = scale.restored ∨
      Saved scale (scaleCalibrate env scale phase).2 := by
  have goes : ¬ (phase = .done ∧ scale.current = .none) := fun ended => running ended.2
  simp only [scaleCalibrate, if_neg goes]
  split
  · exact .inl rfl
  · next other =>
    right
    generalize (if scale.phaseFor phase = phase then scale.next.code else enoent) = rc
    have saves := @runPhase_saves env scale (scale.phaseFor phase) rc
    rcases run : runPhase env rc scale (scale.phaseFor phase) with ⟨ending, result, next⟩
    rw [run] at saves
    cases ending with
    | goesOn =>
      have goesOn := runPhase_goesOn (congrArg Prod.fst run)
      rw [run] at goesOn
      rcases goesOn with start | ⟨which, ahead⟩
      · exact absurd start (phaseFor_ne_start ahead)
      · have same : scale.phaseFor phase = phase := phaseFor_eq (which.elim (· ▸ nofun) (· ▸ nofun))
        rw [same] at which ahead
        exact .inl ⟨ahead, which⟩
    | stop =>
      rcases runPhase_stop (congrArg Prod.fst run) with cancel | ⟨done, zero, cha⟩
      · rw [cancel] at run
        obtain ⟨_, _, rfl⟩ := run
        exact .inr (.inl rfl)
      · have same : scale.phaseFor phase = phase := phaseFor_eq (done ▸ nofun)
        have start : scale.current = .start := by simpa [zero, cha] using place
        exact absurd ⟨start, same ▸ done⟩ inOrder
    | save =>
      have saved := save_saved next
      exact .inr (.inr ⟨saved.idle, saved.first, saved.normal, saved.saves.trans (congrArg (· + 1) saves)⟩)
    | error =>
      have saved := save_saved { next with a := next.a.clear, b := next.b.clear }
      exact .inr (.inr ⟨saved.idle, saved.first, saved.normal, saved.saves.trans (congrArg (· + 1) saves)⟩)

/-- What every call keeps: an idle scale has normal dividers and starts with the first phase, a running
calibration keeps the values before it aside. -/
structure Kept (scale : Scale) : Prop where
  idle : scale.current = .none → scale.next = .start ∧ scale.Normal
  running : scale.current ≠ .none → scale.next ≠ .start ∧ scale.current ∈ [.start, .zero, .cha10kg] ∧
    scale.previous = scale.before ∧ Normal scale.before.1.2 ∧ Normal scale.before.2.2

theorem Kept.of_idle (current : scale.current = .none) (first : scale.next = .start) (normal : scale.Normal) :
    Kept scale :=
  ⟨fun _ => ⟨first, normal⟩, fun running => absurd current running⟩

/-- A call that starts a calibration keeps the values aside that the check has found again. -/
private theorem startPhase_kept (normal : scale.Normal) (a : FindsValues env.a scale.a)
    (b : FindsValues env.b scale.b) :
    Kept (startPhase env scale).2.2 where
  idle := nofun
  running := fun _ =>
    ⟨nofun, .head _, Prod.ext (scaleCheckChannel_values a) (scaleCheckChannel_values b), normal⟩

private theorem scaleSample_kept (kept : Kept scale) : Kept (scaleSample env scale).2 := by
  simp only [scaleSample]
  split
  · next current =>
    obtain ⟨first, a, b⟩ := kept.idle current
    exact .of_idle current first
      ⟨(scaleSampleChannel_loaded .none).normal a, (scaleSampleChannel_loaded .none).normal b⟩
  · exact kept

private theorem scaleCalibrate_kept (kept : Kept scale) (inOrder : InOrder scale ⟨.calibrate phase, env⟩) :
    Kept (scaleCalibrate env scale phase).2 := by
  obtain ⟨finds, zeroed, loads⟩ := inOrder
  by_cases current : scale.current = .none
  · obtain ⟨first, normal⟩ := kept.idle current
    rcases @scaleCalibrate_idle env scale phase current first with
      ⟨start, moved⟩ | ⟨_, moved⟩ | ⟨rejected, moved⟩ <;> rw [moved]
    · exact startPhase_kept normal (loads ⟨current, start⟩).1 (loads ⟨current, start⟩).2
    · exact kept
    · refine .of_idle rfl rfl ?_
      rw [Scale.Normal, restored_values, finds ⟨current, rejected⟩]
      exact normal
  · obtain ⟨ahead, place, previous, normal⟩ := kept.running current
    rcases @scaleCalibrate_running env scale phase current ahead place zeroed with
      moved | goesOn | moved | saved
    · rw [moved]
      exact kept
    · refine ⟨fun idle => ?_, fun _ => ⟨goesOn.ahead, ?_, ?_, ?_⟩⟩
      · rw [goesOn.current] at idle
        rcases goesOn.which with rfl | rfl <;> contradiction
      · rw [goesOn.current]
        rcases goesOn.which with rfl | rfl <;> decide
      · rw [goesOn.previous, goesOn.before, previous]
      · rw [goesOn.before]
        exact normal
    · rw [moved]
      refine .of_idle rfl rfl ?_
      rw [Scale.Normal, restored_values, previous]
      exact normal
    · exact .of_idle saved.idle saved.first saved.normal

theorem step_kept (kept : Kept scale) (moved : guarded Step InOrder scale label next) : Kept next := by
  obtain ⟨inOrder, rfl⟩ := moved
  obtain ⟨call, env⟩ := label
  cases call with
  | calibrate phase => exact scaleCalibrate_kept kept inOrder
  | sample => exact scaleSample_kept kept

/-- A calibration that ends without saving has put the values before it back. -/
private theorem step_ends (kept : Kept scale) (moved : guarded Step InOrder scale label next)
    (running : scale.current ≠ .none) (idle : next.current = .none) (unsaved : next.saves = scale.saves) :
    next.values = scale.before := by
  obtain ⟨inOrder, rfl⟩ := moved
  obtain ⟨call, env⟩ := label
  obtain ⟨ahead, place, previous, _⟩ := kept.running running
  cases call with
  | sample =>
    have busy : step scale ⟨.sample, env⟩ = scale := by simp only [step, scaleSample, if_neg running]
    exact absurd (busy ▸ idle) running
  | calibrate phase =>
    rcases @scaleCalibrate_running env scale phase running ahead place inOrder.2.1 with
      moved | goesOn | moved | saved
    · exact absurd (congrArg Scale.current moved ▸ idle) running
    · have current := goesOn.current.symm.trans idle
      rcases goesOn.which with rfl | rfl <;> contradiction
    · exact (congrArg Scale.values moved).trans previous
    · exact absurd (unsaved.symm.trans saved.saves) (by omega)

/-- A call that starts nothing leaves the values of an idle scale. -/
private theorem step_rejects (kept : Kept scale) (inOrder : InOrder scale ⟨.calibrate phase, env⟩)
    (idle : scale.current = .none) (other : phase ≠ .start) :
    (step scale ⟨.calibrate phase, env⟩).values = scale.values := by
  rcases @scaleCalibrate_idle env scale phase idle (kept.idle idle).1 with
    ⟨start, _⟩ | ⟨_, moved⟩ | ⟨rejected, moved⟩
  · exact absurd start other
  · exact congrArg Scale.values moved
  · exact (congrArg Scale.values moved).trans (inOrder.1 ⟨idle, rejected⟩)

end Calls

/-- From normal dividers, in every run whose calls are in order: an idle scale has normal dividers, a
calibration that ends without saving has put back the values before its start, and a call that starts
nothing leaves the values of an idle scale. -/
theorem calibration_kept {scale reached : Scale} {labels : List Label} (idle : scale.current = .none)
    (first : scale.next = .start) (normal : scale.Normal)
    (run : Path (guarded Step InOrder) scale labels reached) :
    (reached.current = .none → reached.Normal) ∧
      ∀ label next, guarded Step InOrder reached label next →
        (reached.current ≠ .none → next.current = .none → next.saves = reached.saves →
          next.values = reached.before) ∧
        (reached.current = .none → ∀ phase, label.call = .calibrate phase → phase ≠ .start →
          next.values = reached.values) := by
  have kept : Kept reached :=
    run.invariant Kept (fun _ _ _ kept moved => step_kept kept moved) (.of_idle idle first normal)
  refine ⟨fun current => (kept.idle current).2, fun label next moved => ⟨step_ends kept moved, ?_⟩⟩
  intro current phase called other
  obtain ⟨inOrder, rfl⟩ := moved
  obtain ⟨call, env⟩ := label
  obtain rfl : call = .calibrate phase := called
  exact step_rejects kept inOrder current other

/-- Two calibrated channels. -/
private def calibrated : Scale where
  a := { externalCalibration := { offset := 7, divider := 5000 }, i2cOk := true, internalOffset := 1 }
  b := { externalCalibration := { offset := 9, divider := 6000 }, i2cOk := true, internalOffset := 1 }

/-- What two sensors answer to the sample of the zero. -/
private def zeroEnv : Env where
  a := { value := .ok 40 }
  b := { value := .ok 50 }

/-- A calibration is started and has sampled its zero. -/
private def zeroed : Scale := step (step calibrated ⟨.calibrate .start, {}⟩) ⟨.calibrate .zero, zeroEnv⟩

/-- The zero of a calibration changes the offsets, and the cancel puts the ones before back. -/
theorem canceled_calibration_restores :
    ∃ reached next, Path (guarded Step InOrder) calibrated
        [⟨.calibrate .start, {}⟩, ⟨.calibrate .zero, zeroEnv⟩] reached ∧
      reached.values = ((40, 1), (50, 1)) ∧ guarded Step InOrder reached ⟨.calibrate .none, {}⟩ next ∧
      next.values = reached.before ∧ reached.before = ((7, 5000), (9, 6000)) := by
  have run : Path (guarded Step InOrder) calibrated
      [⟨.calibrate .start, {}⟩, ⟨.calibrate .zero, zeroEnv⟩] zeroed :=
    .cons ⟨by decide, rfl⟩ (.cons ⟨by decide, rfl⟩ (.nil _))
  have cancel : guarded Step InOrder zeroed ⟨.calibrate .none, {}⟩ (step zeroed ⟨.calibrate .none, {}⟩) :=
    ⟨by decide, rfl⟩
  have kept := (calibration_kept (by decide) (by decide) (by decide) run).2 _ _ cancel
  exact ⟨zeroed, _, run, by decide, cancel, kept.1 (by decide) (by decide) (by decide), by decide⟩

/-- A calibration that is done before its zero leaves the placeholder as divider, and a weight without a
calibration disables both channels. -/
theorem done_behind_start_keeps_placeholder :
    (∃ reached, Path Step calibrated [⟨.calibrate .start, {}⟩, ⟨.calibrate .done, {}⟩] reached ∧
      reached.current = .none ∧ reached.saves = calibrated.saves ∧
      reached.values = ((0, 1), (0, 1)) ∧ ¬ reached.Normal) ∧
    ∃ reached, Path Step calibrated [⟨.calibrate .cha10kg, {}⟩] reached ∧
      calibrated.values = ((7, 5000), (9, 6000)) ∧
      reached.values = ((noneAdcValue, 0), (noneAdcValue, 0)) := by
  refine ⟨⟨_, .cons rfl (.cons rfl (.nil _)), ?_⟩, ⟨_, .cons rfl (.nil _), ?_⟩⟩
  · decide
  · decide

end CoapsClient.Nau7802
