import CoapsClient.Machine.Notices

/-! # The states of the modem and of the network

What `modem.c` keeps of the network, and how the application learns of it. A change submits the job of its state to the io
queue, where `modem_state_change_callback_work_fn` calls the handler of the application; there is one job for a state that
begins and one for its end. The modem is ready when it is registered and has a PDN, and one second later
`modem_ready_work` tells so. A run starts behind `modem_init` and the first `modem_start`. A later `modem_start` clears
`network_info` without computing the status or telling anything, until the modem is read again; it is left out here. The
LEDs, the jobs that read from the modem, the statistics, and everything after `appl_reboots`, when neither `modem.c` calls
the handler nor the handler does anything, are left out as well.
-/

namespace CoapsClient.ModemState

open Machine (Notices.submit Notices.lost)

/-- `lte_network_state_type`. -/
inductive NetworkState where
  | init | off | on
deriving DecidableEq, Repr

/-- `x ? LTE_NETWORK_STATE_ON : LTE_NETWORK_STATE_OFF`. -/
def NetworkState.ofBool (on : Bool) : NetworkState := if on then .on else .off

/-- `lte_state_type`. -/
inductive StateType where
  | on | registration | ready | ready1s | connected | sleeping | lowVoltage | psmActive
deriving DecidableEq, Repr

/-- `lte_lc_nw_reg_status`. -/
inductive RegStatus where
  | notRegistered | registeredHome | searching | registrationDenied | unknown | registeredRoaming | uiccFail
deriving DecidableEq, Repr

/-- The jobs of the io queue: the `modem_state_change_callback`s and `modem_ready_work`. -/
inductive Job where
  | change (type : StateType) (active : Bool)
  | ready
deriving DecidableEq, Repr

/-- The state a job is about. -/
def Job.type : Job → Option StateType
  | change type _ => some type
  | ready => none

/-- The fields of `network_info`. -/
structure NetworkInfo where
  registered : NetworkState := .init
  pdnActive : NetworkState := .init
  rrcActive : NetworkState := .init
  sleeping : NetworkState := .init
  psmActive : NetworkState := .init
deriving DecidableEq, Repr

/-- What `modem_read_network_info` has read. -/
structure Reading where
  status : RegStatus
  registered : NetworkState
  rrcActive : NetworkState
  pdnActive : NetworkState
deriving DecidableEq, Repr

/-- The variables of `modem.c`. -/
structure Modem where
  networkInfo : NetworkInfo := {}
  /-- `psm_status.active_time`. -/
  activeTime : Int := -1
  /-- `MODEM_ON_OFF`. -/
  onOff : Bool := false
  ready : Bool := false
  signalReady : Bool := false
  connected : Bool := false
  lowPower : Bool := false
  /-- `modem_ready_work` waits for its delay. -/
  readyDelay : Bool := false
  /-- `modem_ready_work_fn` has called the handler and not yet set `MODEM_SIGNAL_READY`. -/
  signaling : Bool := false
  queue : List Job := []
  /-- A job was submitted while it waited together with the one for the opposite. -/
  lost : Bool := false
deriving DecidableEq, Repr

namespace Modem

/-- `MODEM_STATE_CHANGE_CALLBACK`. -/
def stateChange (modem : Modem) (type : StateType) (active : Bool) : Modem :=
  { modem with
    queue := Notices.submit modem.queue (.change type active)
    lost := modem.lost || Notices.lost Job.type modem.queue (.change type active) }

/-- The first part of `lte_connection_status`. -/
def disconnect (modem : Modem) (connected : Bool) : Modem :=
  if ¬ connected ∧ modem.connected then { modem with connected := false }.stateChange .connected false else modem

/-- The part of `lte_connection_status` for `MODEM_READY`. -/
def changeReady (modem : Modem) (ready : Bool) : Modem :=
  if modem.ready ≠ ready then
    let modem := { modem with ready, signalReady := false }
    if ready then { modem.stateChange .ready true with readyDelay := true }
    else
      { modem with readyDelay := false, queue := modem.queue.filter (·.type ≠ none) }.stateChange .ready false
  else modem

/-- The last part of `lte_connection_status`. -/
def connect (modem : Modem) (connected : Bool) : Modem :=
  if connected ∧ ¬ modem.connected then { modem with connected := true }.stateChange .connected true else modem

/-- `lte_connection_status`. -/
def lteConnectionStatus (modem : Modem) : Modem :=
  let ready := decide (modem.networkInfo.registered = .on ∧ modem.networkInfo.pdnActive = .on)
  let connected := ready && decide (modem.networkInfo.rrcActive = .on)
  ((modem.disconnect connected).changeReady ready).connect connected

/-- `lte_registration_set`. -/
def lteRegistrationSet (modem : Modem) (registered : Bool) : Modem :=
  if modem.networkInfo.registered ≠ .ofBool registered then
    { modem with networkInfo := { modem.networkInfo with registered := .ofBool registered } }.lteConnectionStatus
  else modem

/-- `lte_connection_status_set`. -/
def lteConnectionStatusSet (modem : Modem) (connect : Bool) : Modem :=
  if modem.networkInfo.rrcActive ≠ .ofBool connect then
    { modem with networkInfo := { modem.networkInfo with rrcActive := .ofBool connect } }.lteConnectionStatus
  else modem

/-- `lte_pdn_status_set`. -/
def ltePdnStatusSet (modem : Modem) (pdnActive : Bool) : Modem :=
  if modem.networkInfo.pdnActive ≠ .ofBool pdnActive then
    { modem with networkInfo := { modem.networkInfo with pdnActive := .ofBool pdnActive } }.lteConnectionStatus
  else modem

/-- `lte_network_sleeping_set`. -/
def lteNetworkSleepingSet (modem : Modem) (sleep : Bool) : Modem :=
  if modem.networkInfo.sleeping ≠ .ofBool sleep then
    { modem with networkInfo := { modem.networkInfo with sleeping := .ofBool sleep } }.stateChange .sleeping sleep
  else modem

/-- `lte_set_psm_status`. -/
def lteSetPsmStatus (modem : Modem) (activeTime : Int) : Modem :=
  let active := decide (0 ≤ activeTime)
  let modem := { modem with activeTime }
  if modem.networkInfo.psmActive ≠ .ofBool active then
    { modem with networkInfo := { modem.networkInfo with psmActive := .ofBool active } }.stateChange .psmActive active
  else modem

/-- `modem_set_low_power`. -/
def modemSetLowPower (modem : Modem) : Modem := { modem.stateChange .lowVoltage true with lowPower := true }

/-- `registered` of `lte_registration`. -/
def registeredStatus (status : RegStatus) : Bool := decide (status = .registeredHome ∨ status = .registeredRoaming)

/-- `lte_registration`. -/
def lteRegistration (modem : Modem) (status : RegStatus) : Modem :=
  (modem.stateChange .registration (registeredStatus status)).lteRegistrationSet (registeredStatus status)

/-- `network_info = temp`, which keeps `sleeping`. -/
def overwrite (modem : Modem) (reading : Reading) : Modem :=
  { modem with
    networkInfo := {
      registered := reading.registered
      pdnActive := reading.pdnActive
      rrcActive := reading.rrcActive
      sleeping := modem.networkInfo.sleeping } }

/-- The last part of `modem_read_network_info`. -/
def modemReadNetworkInfo (modem : Modem) (reading : Reading) (callbacks : Bool) : Modem :=
  let modem := modem.overwrite reading
  if callbacks then
    let modem := { modem with networkInfo := { modem.networkInfo with registered := .init, rrcActive := .init } }
    (modem.lteRegistration reading.status).lteConnectionStatusSet (decide (reading.rrcActive = .on))
  else modem

/-- `modem_on_cfun` for a modem that is switched on, with what it reads. -/
def modemOnCfunOn (modem : Modem) (reading : Option Reading) : Modem :=
  let modem := { modem with lowPower := false }
  let modem : Modem := reading.elim modem fun reading => modem.modemReadNetworkInfo reading true
  if ¬ modem.onOff then { modem with onOff := true }.stateChange .on true else modem

/-- `modem_on_cfun` for a modem that is switched off. -/
def modemOnCfunOff (modem : Modem) : Modem :=
  if modem.onOff then { modem with onOff := false }.stateChange .on false else modem

end Modem

/-- The bits of `general_states` that are about LTE. -/
@[ext] structure Lte where
  on : Bool := false
  registered : Bool := false
  ready : Bool := false
  connected : Bool := false
  sleeping : Bool := false
  ready1s : Bool := false
  psmActive : Bool := false
  lowVoltage : Bool := false
deriving DecidableEq, Repr

/-- `dtls_lte_state_handler`. -/
def dtlsLteStateHandler (type : StateType) (active : Bool) (lte : Lte) : Lte :=
  match type with
  | .on => { lte with on := active }
  | .registration =>
      if active then { lte with registered := true }
      else { lte with registered := false, ready := false, ready1s := false, connected := false }
  | .ready =>
      if lte.ready ≠ active ∧ ¬ active then { lte with ready := false, ready1s := false, connected := false }
      else { lte with ready := active }
  | .ready1s => { lte with ready1s := active }
  | .connected => { lte with connected := active }
  | .sleeping => { lte with sleeping := active }
  | .lowVoltage => { lte with lowVoltage := active }
  | .psmActive => { lte with psmActive := active }

/-- What the application gets of a job. -/
def Job.handle : Job → Lte → Lte
  | change type active => dtlsLteStateHandler type active
  | ready => dtlsLteStateHandler .ready1s true

/-- The modem and the application. -/
structure System where
  modem : Modem := {}
  lte : Lte := {}
deriving DecidableEq, Repr

inductive Event where
  /-- `LTE_LC_EVT_NW_REG_STATUS`. -/
  | registration (status : RegStatus)
  /-- `LTE_LC_EVT_RRC_UPDATE`. -/
  | rrc (connected : Bool)
  /-- `PDN_EVENT_ACTIVATED`, or one of those that end it. -/
  | pdn (active : Bool)
  /-- `LTE_LC_EVT_MODEM_SLEEP_ENTER` or `LTE_LC_EVT_MODEM_SLEEP_EXIT`. -/
  | sleep (enter : Bool)
  /-- `LTE_LC_EVT_PSM_UPDATE`, or the times that `modem_read_network_info` has read. -/
  | psm (activeTime : Int)
  /-- `LTE_LC_MODEM_EVT_BATTERY_LOW`. -/
  | batteryLow
  | cfunOn (reading : Option Reading)
  | cfunOff
  /-- `modem_cmd_state`, which reads with callbacks. -/
  | cmdState (reading : Reading)
  /-- `modem_read_network_info` without callbacks. -/
  | read (reading : Reading)
  /-- `modem_read_pdn_info`. -/
  | readPdn (pdnActive : NetworkState)
  /-- The delay of `modem_ready_work` is over. -/
  | delay
  /-- The io queue runs its next job. -/
  | run
  /-- The last part of `modem_ready_work_fn`. -/
  | signal
deriving DecidableEq

namespace System

/-- The io queue runs a job. -/
def runJob (system : System) (queue : List Job) : Job → System
  | .change type active =>
      { modem := { system.modem with queue }, lte := dtlsLteStateHandler type active system.lte }
  | .ready =>
      if system.modem.ready then
        { modem := { system.modem with queue, signaling := true }, lte := dtlsLteStateHandler .ready1s true system.lte }
      else { system with modem := { system.modem with queue } }

/-- An event. A job runs when none else does. -/
def next (system : System) : Event → Option System
  | .registration status => some { system with modem := system.modem.lteRegistration status }
  | .rrc connected =>
      let modem := system.modem.lteConnectionStatusSet connected
      some { system with modem := if connected then modem.lteNetworkSleepingSet false else modem }
  | .pdn active => some { system with modem := system.modem.ltePdnStatusSet active }
  | .sleep enter => some { system with modem := system.modem.lteNetworkSleepingSet enter }
  | .psm activeTime => some { system with modem := system.modem.lteSetPsmStatus activeTime }
  | .batteryLow => some { system with modem := system.modem.modemSetLowPower }
  | .cfunOn reading => some { system with modem := system.modem.modemOnCfunOn reading }
  | .cfunOff => some { system with modem := system.modem.modemOnCfunOff }
  | .cmdState reading => some { system with modem := system.modem.modemReadNetworkInfo reading true }
  | .read reading => some { system with modem := system.modem.modemReadNetworkInfo reading false }
  | .readPdn pdnActive =>
      some { system with
        modem := { system.modem with networkInfo := { system.modem.networkInfo with pdnActive } } }
  | .delay =>
      if system.modem.readyDelay then
        some { system with
          modem := { system.modem with readyDelay := false, queue := Notices.submit system.modem.queue .ready } }
      else none
  | .run =>
      if system.modem.signaling then none
      else match system.modem.queue with
        | [] => none
        | job :: queue => some (system.runJob queue job)
  | .signal =>
      if system.modem.signaling then
        some { system with modem := { system.modem with signaling := false, signalReady := true } }
      else none

end System

end CoapsClient.ModemState
