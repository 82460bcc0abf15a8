import CoapsClient.Machine.WorkQueue
import CoapsClient.Machine.Path
import CoapsClient.Model.Shell.Text

/-! # GNSS scanning and its command

`location.c` as a state machine. A step is a call of `location_start` or `location_stop`, an event of
the modem or of the GNSS, or the handler of one of the five work items. What the GNSS driver answers in a
step, and the time, is its `Env`.

The reported position and its times, the logs, the LEDs and the handler that is told about a position are
left out; the result of `nrf_modem_gnss_stop` changes nothing.

`sh_cmd_loc`, which takes the first word of its parameter. What it shows without one changes nothing.
-/

namespace CoapsClient.GnssClient

open Machine (Works)
open ShCmd (Text parseNextText stricmp)

/-- `location_state_t`. -/
inductive State where
  | none
  | pending
  | waitingForSleeping
  | gnssRunning
  | done
deriving DecidableEq, Repr

/-- The work items. -/
inductive Work where
  | lteStart
  | gnssPvt
  | scanStart
  | gnssTimeout
  | gnssStart
deriving DecidableEq, Repr

/-- The results a location ends with. -/
inductive Result where
  | timeout
  | error
  | invisible
  | position
deriving DecidableEq, Repr

/-- The options of the build. -/
structure Config where
  /-- `CONFIG_LOCATION_ENABLE_CONTINUES_MODE`. -/
  continuesMode : Bool := false
  /-- `-NRF_RUNNING`, which depends on the version of the SDK. -/
  nrfRunning : Int := -22
deriving DecidableEq, Repr

/-- `GNSS_TIMEOUT_INITIAL`. -/
def timeoutInitial : ℕ := 180
/-- `GNSS_TIMEOUT_MAXIMUM`. -/
def timeoutMaximum : ℕ := 300
/-- `GNSS_TIMEOUT_SCAN`. -/
def timeoutScan (config : Config) : ℕ := if config.continuesMode then 180 else 30
/-- `GNSS_INTERVAL_INITIAL_PROBE`. -/
def intervalInitialProbe : ℕ := 300
/-- `GNSS_INTERVAL_MAXIMUM_PROBE`. -/
def intervalMaximumProbe : ℕ := 3600
/-- `GNSS_INTERVAL_SCAN`. -/
def intervalScan : ℕ := 60
/-- `GNSS_INTERVAL_MAXIMUM_SCAN`. -/
def intervalMaximumScan : ℕ := 300
/-- `GNSS_MAXIMUM_NO_POSITION`. -/
def maximumNoPosition : Int := 30 * 60
/-- `GNSS_TIME_PER_INTERVAL`. -/
def timePerInterval : ℕ := 3
/-- `GNSS_VISIBILITY_DETECTION_EXEC_TIME`. -/
def visibilityDetectionExecTime : ℕ := 15000
/-- `GNSS_VISIBILITY_DETECTION_SAT_LIMIT`. -/
def visibilityDetectionSatLimit : ℕ := 3

structure Location where
  /-- `s_location_start`. -/
  start : Bool := false
  /-- `s_location_init`. -/
  init : Bool := false
  state : State := .none
  modemSleeping : Bool := false
  visibilityDetection : Bool := false
  gnssTimeout : ℕ := timeoutInitial
  interval : ℕ := intervalInitialProbe
  lastPosition : Int := 0
  lastRequest : Int := 0
  /-- `s_location_gnss_result.max_satellites`. -/
  maxSatellites : ℕ := 0
  /-- `s_location_gnss_result.execution_time`. -/
  executionTime : ℕ := 0
  works : Works Work := {}

/-- The module behind `location_init`. -/
def initial : Location := {}

/-- What the GNSS driver answers in a step. -/
structure Env where
  /-- `k_uptime_get`. -/
  now : Int := 0
  /-- `nrf_modem_gnss_fix_interval_set`. -/
  fixIntervalSet : Int := 0
  /-- `nrf_modem_gnss_use_case_set`. -/
  useCaseSet : Int := 0
  /-- `nrf_modem_gnss_start`. -/
  gnssStart : Int := 0
  /-- `nrf_modem_gnss_read`. -/
  gnssRead : Int := 0
  /-- The tracked satellites, the flag of a valid fix and the execution time of the data that was read. -/
  tracked : ℕ := 0
  fixValid : Bool := false
  readExecutionTime : ℕ := 0
deriving Repr

/-- `backoff`, on `uint16_t`. -/
def backoff (time max : ℕ) : ℕ := if max < time * 2 % 65536 then max else time * 2 % 65536

/-- `location_stop_works`. -/
def stopWorks (location : Location) : Location :=
  { location with
    state := .done
    works := ((((location.works.cancel .gnssPvt).cancel .lteStart).cancel .scanStart).cancel .gnssStart).cancel
      .gnssTimeout }

/-- The interval of a scan in milliseconds. -/
def scanInterval (executionTime : ℕ) : ℕ :=
  let interval := intervalScan * executionTime % 4294967296 / timePerInterval
  if intervalMaximumScan * 1000 < interval then intervalMaximumScan * 1000
  else if interval < intervalScan * 1000 then intervalScan * 1000
  else interval

/-- What a result changes for the next request: the location and the milliseconds added to its time. -/
def nextRequest (config : Config) (env : Env) (location : Location) (result : Result) : Location × ℕ :=
  if location.init then
    let next :=
      if result = .position then
        { location with gnssTimeout := timeoutScan config, visibilityDetection := true }
      else if maximumNoPosition < (env.now - location.lastPosition).tdiv 1000 then
        { location with visibilityDetection := false, gnssTimeout := timeoutInitial }
      else location
    (next, scanInterval location.executionTime)
  else if result = .position then
    ({ location with
      init := true
      visibilityDetection := true
      gnssTimeout := timeoutScan config
      interval := intervalScan }, intervalScan * 1000)
  else
    ({ location with
      gnssTimeout := backoff location.gnssTimeout timeoutMaximum
      interval := backoff location.interval intervalMaximumProbe }, location.interval * 1000)

/-- `location_event_handler`. -/
def eventHandler (config : Config) (env : Env) (location : Location) (result : Result) : Location :=
  let location := stopWorks location
  let location := { location with
    state := .none
    lastPosition := if result = .position then env.now else location.lastPosition }
  if location.start then
    let (location, added) := nextRequest config env location result
    let time := max 1 (location.lastRequest - env.now + added)
    { location with
      state := .pending
      works := location.works.schedule .gnssStart (if config.continuesMode then 0 else time.toNat) }
  else location

/-- `location_gnss_timeout_work_fn`. -/
def gnssTimeoutWorkFn (config : Config) (env : Env) (location : Location) : Location :=
  if location.state ≠ .gnssRunning then location
  else
    eventHandler config env { location with
      executionTime := ((env.now - location.lastRequest) % 4294967296).toNat } .timeout

/-- `location_gnss_pvt_work_fn`. -/
def gnssPvtWorkFn (config : Config) (env : Env) (location : Location) : Location :=
  if location.state ≠ .gnssRunning then location
  else if env.gnssRead ≠ 0 then location
  else
    let location := { location with
      executionTime := ((env.now - location.lastRequest) % 4294967296).toNat
      maxSatellites := max location.maxSatellites env.tracked }
    if env.fixValid then eventHandler config env location .position
    else if location.visibilityDetection then
      if visibilityDetectionExecTime ≤ env.readExecutionTime
          ∧ location.maxSatellites < visibilityDetectionSatLimit then
        eventHandler config env location .invisible
      else location
    else location

/-- The GNSS is already running, which the continues mode takes for a success. -/
def gnssContinues (config : Config) (env : Env) : Bool :=
  config.continuesMode && decide (env.fixIntervalSet = config.nrfRunning)

/-- `location_gnss_start`. -/
def locationGnssStart (config : Config) (env : Env) (location : Location) : Location :=
  let timeout := location.gnssTimeout
  let started (location : Location) : Location :=
    if 0 < timeout then
      { location with works := location.works.reschedule .gnssTimeout (timeout * 1000) }
    else location
  if !location.start then location
  else if location.state = .gnssRunning then location
  else
    let location := { location with lastRequest := env.now, maxSatellites := 0, executionTime := 0 }
    if gnssContinues config env then started { location with state := .gnssRunning }
    else if env.fixIntervalSet ≠ 0 then eventHandler config env location .error
    else if env.useCaseSet ≠ 0 then eventHandler config env location .error
    else
      let location := { location with state := .gnssRunning }
      if env.gnssStart ≠ 0 then eventHandler config env location .error
      else started location

/-- `location_gnss_start_work_fn`. -/
def gnssStartWorkFn (config : Config) (env : Env) (location : Location) : Location :=
  if location.state ≠ .pending then location
  else
    let location := { location with state := .waitingForSleeping }
    if !location.modemSleeping then location else locationGnssStart config env location

/-- `location_lte_start_work_fn`. -/
def lteStartWorkFn (config : Config) (env : Env) (location : Location) : Location :=
  if location.state = .waitingForSleeping then locationGnssStart config env location else location

/-- `location_scan_start_work_fn`. -/
def scanStartWorkFn (location : Location) : Location :=
  if location.start then
    let location := { location with
      init := false, gnssTimeout := timeoutInitial, interval := intervalInitialProbe }
    if location.state = .gnssRunning then
      { location with works := location.works.reschedule .gnssTimeout (location.gnssTimeout * 1000) }
    else
      { location with state := .pending, works := location.works.reschedule .gnssStart 0 }
  else location

/-- `location_start`. -/
def locationStart (location : Location) (force : Bool) : Location :=
  if !location.start || (force && !location.init) then
    { location with start := true, works := location.works.submit .scanStart }
  else location

/-- `location_stop`. -/
def locationStop (location : Location) : Location :=
  let location := stopWorks { location with start := false, init := false, state := .none }
  { location with works := location.works.cancel .scanStart }

inductive Event where
  /-- `location_start`. -/
  | start (force : Bool)
  /-- `location_stop`. -/
  | stop
  /-- `LTE_LC_EVT_MODEM_SLEEP_ENTER`. -/
  | sleepEnter (flightMode : Bool)
  /-- `LTE_LC_EVT_MODEM_SLEEP_EXIT`. -/
  | sleepExit
  /-- `LTE_LC_EVT_RRC_UPDATE`. -/
  | rrcUpdate (connected : Bool)
  /-- `NRF_MODEM_GNSS_EVT_PVT` and `NRF_MODEM_GNSS_EVT_FIX`. -/
  | gnssPvt
  /-- The queue runs an item. -/
  | run (work : Work)
deriving DecidableEq, Repr

structure Label where
  event : Event
  env : Env := {}

/-- The handler of a work item. -/
def workFn (config : Config) (env : Env) (location : Location) : Work → Location
  | .lteStart => lteStartWorkFn config env location
  | .gnssPvt => gnssPvtWorkFn config env location
  | .scanStart => scanStartWorkFn location
  | .gnssTimeout => gnssTimeoutWorkFn config env location
  | .gnssStart => gnssStartWorkFn config env location

/-- `work_submit_to_io_queue`. -/
def Location.submit (location : Location) (work : Work) : Location :=
  { location with works := location.works.submit work }

/-- The modem sleeps: a GNSS request that waits for it may start. -/
def modemSleeps (location : Location) : Location := { location with modemSleeping := true }.submit .lteStart

/-- Run the handler of a pending item as a whole. -/
def runWork (config : Config) (env : Env) (location : Location) (work : Work) : Location :=
  let location := workFn config env { location with works := location.works.begin work } work
  { location with works := location.works.finish }

/-- One step of the module. -/
def step (config : Config) (location : Location) (label : Label) : Option Location :=
  match label.event with
  | .start force => some (locationStart location force)
  | .stop => some (locationStop location)
  | .sleepEnter flightMode => some (if flightMode then location else modemSleeps location)
  | .sleepExit => some { location with modemSleeping := false }
  | .rrcUpdate connected =>
      if config.continuesMode then
        some (if connected then { location with modemSleeping := false } else modemSleeps location)
      else some location
  | .gnssPvt => some (location.submit .gnssPvt)
  | .run work =>
      if location.works.isPending work then some (runWork config label.env location work) else none

/-- The steps as a relation. -/
def Step (config : Config) (location : Location) (label : Label) (next : Location) : Prop :=
  step config location label = some next

/-- `location_enabled`. -/
def locationEnabled (location : Location) : Bool := location.start

/-- `value` of `sh_cmd_loc`, an array of 10 characters. -/
def locValue (parameter : Text) : Text := (parseNextText parameter ' ' 10).1

/-- `sh_cmd_loc`. -/
def shCmdLoc (location : Location) (parameter : Text) : Location :=
  let value := locValue parameter
  if value ≠ [] then
    if stricmp "start".toList value ≠ 0 then locationStart location false
    else if stricmp "stop".toList value ≠ 0 then locationStop location
    else if stricmp "force".toList value ≠ 0 then locationStart location true
    else location
  else location

end CoapsClient.GnssClient
