import CoapsClient.Model.Location.Gnss

/-! # Scanning goes on

While scanning is enabled a next step is always scheduled, or the modem's sleep is awaited. A GNSS that
does not start ends in `location_event_handler`, which cancels all works and schedules the next start. If
the start itself runs, it is canceled from inside its own handler, and the schedule has no effect.
-/

namespace CoapsClient.GnssClient

open Machine

/-- Something is left that goes on with the scan. -/
def Location.Alive (location : Location) : Prop :=
  (location.state = .pending ∧ location.works.isPending .gnssStart = true) ∨
    location.state = .waitingForSleeping ∨
    (location.state = .gnssRunning ∧ location.works.isPending .gnssTimeout = true)

/-- With scanning enabled and no restart pending the scan goes on. -/
def Location.GoesOn (location : Location) : Prop :=
  location.start = true → location.works.isPending .scanStart = false → location.Alive

/-- A call to start the GNSS fails. -/
def gnssFails (config : Config) (env : Env) : Bool :=
  !gnssContinues config env && (env.fixIntervalSet != 0 || env.useCaseSet != 0 || env.gnssStart != 0)

/-- The GNSS does not fail when the start work starts it. -/
def startCondition (config : Config) (location : Location) (label : Label) : Bool :=
  match label.event with
  | .run .gnssStart =>
      !(location.start && location.state == .pending && location.modemSleeping && gnssFails config label.env)
  | _ => true

/-- The timeout of a request is positive, and small enough to be doubled. -/
def Location.TimeoutFits (location : Location) : Prop :=
  0 < location.gnssTimeout ∧ location.gnssTimeout ≤ timeoutMaximum

/-- What the steps keep. Between two steps no item is running. -/
structure Location.Scanning (location : Location) : Prop where
  goesOn : location.GoesOn
  timeout : location.TimeoutFits
  idle : location.works.running = none

/-- What a handler leaves that goes on with the scan itself. -/
structure Location.Continues (location : Location) : Prop where
  alive : location.start = true → location.Alive
  timeout : location.TimeoutFits

variable {config : Config} {env : Env} {location next : Location} {label : Label} {work : Work}

theorem Location.Continues.goesOn (continues : location.Continues) : location.GoesOn :=
  fun start _ => continues.alive start

private theorem backoff_fits {time : ℕ} (range : 0 < time ∧ time ≤ timeoutMaximum) :
    0 < backoff time timeoutMaximum ∧ backoff time timeoutMaximum ≤ timeoutMaximum := by
  have maximum : timeoutMaximum = 300 := rfl
  simp only [backoff]
  by_cases above : timeoutMaximum < time * 2 % 65536
  · rw [if_pos above]
    omega
  · rw [if_neg above]
    omega

/-- A result changes the times of the next request only. -/
private theorem nextRequest_spec (result : Result) (fits : location.TimeoutFits) :
    (nextRequest config env location result).1.works = location.works ∧
      (nextRequest config env location result).1.TimeoutFits := by
  have scan : 0 < timeoutScan config ∧ timeoutScan config ≤ timeoutMaximum := by
    cases mode : config.continuesMode <;> simp [timeoutScan, mode, timeoutMaximum]
  have initial : 0 < timeoutInitial ∧ timeoutInitial ≤ timeoutMaximum := by decide
  simp only [nextRequest]
  split
  · split
    · exact ⟨rfl, scan⟩
    · split
      · exact ⟨rfl, initial⟩
      · exact ⟨rfl, fits⟩
  · split
    · exact ⟨rfl, scan⟩
    · exact ⟨rfl, backoff_fits fits⟩

/-- Behind a result the next start is scheduled, unless the start itself is running. -/
private theorem eventHandler_continues (result : Result) (fits : location.TimeoutFits)
    (other : location.works.running ≠ some .gnssStart) :
    (eventHandler config env location result).Continues := by
  simp only [eventHandler]
  split
  · obtain ⟨works, nextFits⟩ := @nextRequest_spec config env { stopWorks location with
      state := .none
      lastPosition := if result = .position then env.now else (stopWorks location).lastPosition } result fits
    refine ⟨fun _ => .inl ⟨rfl, ?_⟩, nextFits⟩
    rw [works, Works.isPending_schedule, Works.marked_of_ne (by simpa [stopWorks] using other)]
    simp
  · next disabled => exact ⟨fun enabled => absurd enabled disabled, fits⟩

/-- A request that is started runs with a timeout; one that fails is scheduled again, if it was not the
start work itself. -/
private theorem locationGnssStart_continues (fits : location.TimeoutFits)
    (waits : location.state = .waitingForSleeping)
    (running : location.works.running ≠ some .gnssTimeout)
    (starts : location.start = true → gnssFails config env = true →
      location.works.running ≠ some .gnssStart) :
    (locationGnssStart config env location).Continues := by
  have positive : 0 < location.gnssTimeout := fits.1
  have started : Location.Continues { location with
      lastRequest := env.now
      maxSatellites := 0
      executionTime := 0
      state := .gnssRunning
      works := location.works.reschedule .gnssTimeout (location.gnssTimeout * 1000) } := by
    refine ⟨fun _ => .inr (.inr ⟨rfl, ?_⟩), fits⟩
    rw [Works.isPending_reschedule, Works.marked_of_ne running]
    simp
  simp only [locationGnssStart, positive, if_true]
  split
  · next disabled => exact ⟨fun enabled => by simp [enabled] at disabled, fits⟩
  · next enabled =>
    have enabled : location.start = true := by simpa using enabled
    rw [if_neg (by simp [waits])]
    split
    · exact started
    · next fresh =>
      have failed (error : gnssFails config env = true) : location.works.running ≠ some .gnssStart :=
        starts enabled error
      split
      · next error => exact eventHandler_continues .error fits (failed (by simp [gnssFails, fresh, error]))
      · split
        · next error => exact eventHandler_continues .error fits (failed (by simp [gnssFails, fresh, error]))
        · split
          · next error =>
            exact eventHandler_continues .error fits (failed (by simp [gnssFails, fresh, error]))
          · exact started

/-- An item whose handler does nothing leaves the scan to what goes on with it. -/
private theorem begin_goesOn (goesOn : location.GoesOn) (scan : work ≠ .scanStart)
    (start : work = .gnssStart → location.state ≠ .pending)
    (timeout : work = .gnssTimeout → location.state ≠ .gnssRunning) :
    Location.GoesOn { location with works := location.works.begin work } := by
  intro enabled noScan
  rw [Works.isPending_begin] at noScan
  have noScan : location.works.isPending .scanStart = false := by simpa [Ne.symm scan] using noScan
  rcases goesOn enabled noScan with ⟨state, scheduled⟩ | waits | ⟨state, scheduled⟩
  · refine .inl ⟨state, ?_⟩
    rw [Works.isPending_begin, scheduled]
    simpa using fun same => start same.symm state
  · exact .inr (.inl waits)
  · refine .inr (.inr ⟨state, ?_⟩)
    rw [Works.isPending_begin, scheduled]
    simpa using fun same => timeout same.symm state

/-- The handlers of the works, with the works they find. -/
private theorem workFn_goesOn (scanning : location.Scanning)
    (condition : startCondition config location ⟨.run work, env⟩ = true) :
    (workFn config env { location with works := location.works.begin work } work).GoesOn ∧
      (workFn config env { location with works := location.works.begin work } work).TimeoutFits := by
  obtain ⟨goesOn, fits, _⟩ := scanning
  have finish {result : Location} (continues : result.Continues) : result.GoesOn ∧ result.TimeoutFits :=
    ⟨continues.goesOn, continues.timeout⟩
  cases work with
  | lteStart =>
    simp only [workFn, lteStartWorkFn]
    split
    · next waits => exact finish (locationGnssStart_continues fits waits (by simp) (by simp))
    · exact ⟨begin_goesOn goesOn (by simp) (by simp) (by simp), fits⟩
  | gnssPvt =>
    have kept : Location.GoesOn { location with works := location.works.begin .gnssPvt } :=
      begin_goesOn goesOn (by simp) (by simp) (by simp)
    simp only [workFn, gnssPvtWorkFn]
    split
    · exact ⟨kept, fits⟩
    · split
      · exact ⟨kept, fits⟩
      · split
        · exact finish (eventHandler_continues .position fits (by simp))
        · split
          · split
            · exact finish (eventHandler_continues .invisible fits (by simp))
            · exact ⟨kept, fits⟩
          · exact ⟨kept, fits⟩
  | scanStart =>
    have initial : 0 < timeoutInitial ∧ timeoutInitial ≤ timeoutMaximum := by decide
    simp only [workFn, scanStartWorkFn]
    split
    · split
      · next runs =>
        refine finish ⟨fun _ => .inr (.inr ⟨runs, ?_⟩), initial⟩
        rw [Works.isPending_reschedule, Works.marked_of_ne (by simp)]
        simp
      · refine finish ⟨fun _ => .inl ⟨rfl, ?_⟩, initial⟩
        rw [Works.isPending_reschedule, Works.marked_of_ne (by simp)]
        simp
    · next disabled => exact finish ⟨fun enabled => absurd enabled disabled, fits⟩
  | gnssTimeout =>
    simp only [workFn, gnssTimeoutWorkFn]
    split
    · next other => exact ⟨begin_goesOn goesOn (by simp) (by simp) fun _ => other, fits⟩
    · exact finish (eventHandler_continues .timeout fits (by simp))
  | gnssStart =>
    simp only [workFn, gnssStartWorkFn]
    split
    · next other => exact ⟨begin_goesOn goesOn (by simp) (fun _ => other) (by simp), fits⟩
    · next pending =>
      split
      · exact finish ⟨fun _ => .inr (.inl rfl), fits⟩
      · next sleeping =>
        refine finish (locationGnssStart_continues fits rfl (by simp) ?_)
        intro enabled fails
        have enabled : location.start = true := enabled
        simp only [not_not, Bool.not_eq_true, Bool.not_eq_false'] at pending sleeping
        simp [startCondition, enabled, pending, sleeping, fails] at condition

/-- What does not touch the state, the timeout and the works that go on with a scan. -/
theorem Location.Scanning.of_same (scanning : location.Scanning) (start : next.start = location.start)
    (state : next.state = location.state) (timeout : next.gnssTimeout = location.gnssTimeout)
    (works : ∀ work, location.works.isPending work = true → next.works.isPending work = true)
    (idle : next.works.running = location.works.running) : next.Scanning := by
  obtain ⟨goesOn, fits, noItem⟩ := scanning
  refine ⟨?_, by simpa [Location.TimeoutFits, timeout] using fits, idle.trans noItem⟩
  intro enabled noScan
  have before : location.works.isPending .scanStart = false := by
    cases pending : location.works.isPending .scanStart with
    | false => rfl
    | true => simp [works _ pending] at noScan
  simp only [Location.Alive, state]
  rcases goesOn (start ▸ enabled) before with ⟨same, scheduled⟩ | waits | ⟨same, scheduled⟩
  · exact .inl ⟨same, works _ scheduled⟩
  · exact .inr (.inl waits)
  · exact .inr (.inr ⟨same, works _ scheduled⟩)

theorem Location.Scanning.submit (scanning : location.Scanning) (work : Work) :
    (location.submit work).Scanning :=
  scanning.of_same rfl rfl rfl (fun _ pending => by simp [Location.submit, pending])
    (by simp [Location.submit])

private theorem modemSleeps_scanning (scanning : location.Scanning) : (modemSleeps location).Scanning := by
  have sleeps : Location.Scanning { location with modemSleeping := true } :=
    scanning.of_same rfl rfl rfl (fun _ pending => pending) rfl
  exact sleeps.submit .lteStart

/-- Every step that meets the condition keeps the scan going. -/
private theorem step_scanning (scanning : location.Scanning) (moved : Step config location label next)
    (condition : startCondition config location label = true) : next.Scanning := by
  obtain ⟨event, env⟩ := label
  have awake : Location.Scanning { location with modemSleeping := false } :=
    scanning.of_same rfl rfl rfl (fun _ pending => pending) rfl
  cases event with
  | start force =>
    obtain rfl := Option.some.inj moved
    simp only [locationStart]
    split
    · refine ⟨fun _ noScan => ?_, scanning.timeout, by simpa using scanning.idle⟩
      rw [Works.isPending_submit, Works.marked_of_ne (by simp [scanning.idle])] at noScan
      simp at noScan
    · exact scanning
  | stop =>
    obtain rfl := Option.some.inj moved
    exact ⟨fun enabled => by simp [locationStop, stopWorks] at enabled, scanning.timeout,
      by simpa [locationStop, stopWorks] using scanning.idle⟩
  | sleepEnter flightMode =>
    obtain rfl := Option.some.inj moved
    split
    · exact scanning
    · exact modemSleeps_scanning scanning
  | sleepExit =>
    obtain rfl := Option.some.inj moved
    exact awake
  | rrcUpdate connected =>
    simp only [Step, step] at moved
    split at moved
    · obtain rfl := Option.some.inj moved
      split
      · exact awake
      · exact modemSleeps_scanning scanning
    · obtain rfl := Option.some.inj moved
      exact scanning
  | gnssPvt =>
    obtain rfl := Option.some.inj moved
    exact scanning.submit .gnssPvt
  | run work =>
    obtain ⟨_, moved⟩ := Option.ite_none_right_eq_some.mp moved
    obtain rfl := Option.some.inj moved
    obtain ⟨goesOn, fits⟩ := workFn_goesOn scanning condition
    exact ⟨goesOn, fits, rfl⟩

/-- In every state of every run in which the GNSS does not fail when the start work starts it: with
scanning enabled and no restart pending the next start is scheduled, the sleep of the modem is awaited,
or the GNSS runs and its timeout is scheduled. -/
theorem gnss_scanning_goes_on (config : Config) {labels : List Label} {location : Location}
    (run : Path (guarded (Step config) fun location label => startCondition config location label)
      initial labels location) : location.GoesOn := by
  have scanning : location.Scanning := by
    refine run.invariant Location.Scanning
      (fun _ _ _ scanning moved => step_scanning scanning moved.2 moved.1) ?_
    exact ⟨fun enabled => by simp [initial] at enabled, by simp [Location.TimeoutFits, initial]; decide, rfl⟩
  exact scanning.goesOn

/-- Scanning is enabled, and the modem sleeps before the first request. -/
private def firstRequest : List Label := [⟨.start false, {}⟩, ⟨.run .scanStart, {}⟩, ⟨.sleepEnter false, {}⟩]

/-- The modem wakes up, so the request waits; the GNSS then fails to start, and the request is repeated. -/
private def failsLate : List Label :=
  firstRequest ++ [⟨.sleepExit, {}⟩, ⟨.run .gnssStart, {}⟩, ⟨.run .lteStart, { gnssStart := -1 }⟩]

theorem gnss_scanning_repeats :
    ∃ location, Path (guarded (Step {}) fun location label => startCondition {} location label)
        initial failsLate location ∧
      location.start = true ∧ location.works.isPending .scanStart = false ∧ location.state = .pending ∧
      location.Alive := by
  have ends : (failsLate.foldlM (fun location label =>
      if startCondition {} location label then step {} location label else none) initial).map
      (fun location => (location.start, location.works.isPending .scanStart, location.state)) =
      some (true, false, .pending) := by decide +kernel
  obtain ⟨location, ran, shown⟩ := Option.map_eq_some_iff.mp ends
  simp only [Prod.mk.injEq] at shown
  obtain ⟨enabled, noScan, state⟩ := shown
  have run := Path.guarded_of_foldlM ran
  exact ⟨location, run, enabled, noScan, state, gnss_scanning_goes_on {} run enabled noScan⟩

/-- The GNSS fails when the start work starts it. -/
private def failsEarly : List Label := firstRequest ++ [⟨.run .gnssStart, { gnssStart := -1 }⟩]

/-- The next start is then not scheduled, and the scan is stuck. -/
theorem gnss_scanning_stuck :
    ∃ location, Path (Step {}) initial failsEarly location ∧
      location.start = true ∧ location.works.isPending .scanStart = false ∧ location.state = .pending ∧
      location.works.isPending .gnssStart = false ∧ ¬ location.GoesOn := by
  have ends : (failsEarly.foldlM (step {}) initial).map
      (fun location => (location.start, location.works.isPending .scanStart, location.state,
        location.works.isPending .gnssStart)) = some (true, false, .pending, false) := by decide +kernel
  obtain ⟨location, ran, shown⟩ := Option.map_eq_some_iff.mp ends
  simp only [Prod.mk.injEq] at shown
  obtain ⟨enabled, noScan, state, noStart⟩ := shown
  refine ⟨location, Path.of_foldlM ran, enabled, noScan, state, noStart, ?_⟩
  intro goesOn
  have alive := goesOn enabled noScan
  simp [Location.Alive, state, noStart] at alive

end CoapsClient.GnssClient
