import Mathlib.Data.Int.Order.Basic
import CoapsClient.Model.Modem.Status

/-! # The statistic of the network

What `lte_handler` and `lte_registration` count and how long the modem needs. The handler keeps the phase of a wake-up and
the time it began; a phase is only added to its time by the event that it ends with. What the events mean for the state of
the network is left out here, and so are the events that change no phase and no counter, and those after `appl_reboots`.
-/

namespace CoapsClient.ModemState

/-- `phase` of `lte_handler`. -/
inductive Phase where
  /-- 0. -/
  | asleep
  /-- 1, the modem has woken up. -/
  | wakeup
  /-- 2. -/
  | connected
  /-- 3. -/
  | idle
deriving DecidableEq, Repr

/-- `lte_lc_modem_sleep_type`. -/
inductive SleepType where
  | psm | rfInactivity | limitedService | flightMode | proprietaryPsm
deriving DecidableEq, Repr

/-- The variables of `lte_handler` and the counters of `modem.c`; times are in milliseconds. -/
structure Statistic where
  phase : Phase := .asleep
  phaseStartTime : ℤ := 0
  /-- `active_time` of the handler, in seconds. -/
  activeTime : ℤ := -1
  tac : UInt16 := 0
  cell : UInt32 := 0
  transmissionTime : ℤ := 0
  raiTime : ℤ := -1
  networkSearchTime : ℤ := 0
  lteStarts : UInt32 := 0
  lteSearchs : UInt32 := 0
  ltePsmDelays : UInt32 := 0
  lteCellUpdates : UInt32 := 0
  lteWakeups : UInt32 := 0
  lteLowVoltage : UInt32 := 0
  lteSearchTime : ℤ := 0
  lteWakeupTime : ℤ := 0
  lteConnectedTime : ℤ := 0
  lteAsleepTime : ℤ := 0
  ltePsmDelayTime : ℤ := 0
deriving DecidableEq, Repr

/-- An event, for `lte_handler` if nothing else is said. -/
inductive Happening where
  /-- `lte_registration`, also of `modem_read_network_info`. -/
  | registration (status : RegStatus)
  | psm (activeTime : ℤ)
  | rrc (connected : Bool)
  | cell (tac : UInt16) (id : UInt32)
  | sleepEnter (type : SleepType)
  | sleepExit
  | batteryLow
  /-- `modem_set_transmission_time`. -/
  | transmission
  /-- `modem_on_cfun` of a modem that is switched on. -/
  | start
  /-- `modem_start` saves the configuration, and searches again. -/
  | save
deriving DecidableEq, Repr

namespace Statistic

/-- `lte_start_search`. -/
def lteStartSearch (statistic : Statistic) (now : ℤ) : Statistic :=
  let statistic := { statistic with lteSearchs := statistic.lteSearchs + 1 }
  let statistic := if statistic.networkSearchTime ≠ 0 then
      { statistic with lteSearchTime := statistic.lteSearchTime + (now - statistic.networkSearchTime) }
    else statistic
  { statistic with networkSearchTime := now }

/-- `lte_end_search`. -/
def lteEndSearch (statistic : Statistic) (now : ℤ) : Statistic :=
  if statistic.networkSearchTime ≠ 0 then
    { statistic with
      lteSearchTime := statistic.lteSearchTime + (now - statistic.networkSearchTime)
      networkSearchTime := 0 }
  else statistic

/-- The part of `lte_registration` that is about the search. -/
def lteRegistration (statistic : Statistic) (now : ℤ) (status : RegStatus) : Statistic :=
  if status = .searching then statistic.lteStartSearch now else statistic.lteEndSearch now

/-- `lte_inc_wakeups`. -/
def lteIncWakeups (statistic : Statistic) (time : ℤ) : Statistic :=
  { statistic with lteWakeups := statistic.lteWakeups + 1, lteWakeupTime := statistic.lteWakeupTime + time }

/-- `lte_add_connected`. -/
def lteAddConnected (statistic : Statistic) (time : ℤ) : Statistic :=
  { statistic with lteConnectedTime := statistic.lteConnectedTime + time }

/-- `lte_add_asleep`. -/
def lteAddAsleep (statistic : Statistic) (time : ℤ) : Statistic :=
  { statistic with lteAsleepTime := statistic.lteAsleepTime + time }

/-- `lte_inc_psm_delays`. -/
def lteIncPsmDelays (statistic : Statistic) (time : ℤ) : Statistic :=
  { statistic with ltePsmDelays := statistic.ltePsmDelays + 1, ltePsmDelayTime := statistic.ltePsmDelayTime + time }

/-- `lte_update_cell`. -/
def lteUpdateCell (statistic : Statistic) (tac : UInt16) (id : UInt32) : Statistic :=
  if statistic.cell ≠ id ∨ statistic.tac ≠ tac then
    { statistic with lteCellUpdates := statistic.lteCellUpdates + 1, tac, cell := id }
  else statistic

/-- A phase begins. -/
def enters (statistic : Statistic) (phase : Phase) (now : ℤ) : Statistic := { statistic with phase, phaseStartTime := now }

/-- `LTE_LC_EVT_RRC_UPDATE`. -/
def rrcUpdate (statistic : Statistic) (now : ℤ) (connected : Bool) : Statistic :=
  if connected then
    let statistic :=
      if statistic.phase = .wakeup then statistic.lteIncWakeups (now - statistic.phaseStartTime) else statistic
    statistic.enters .connected now
  else
    let statistic :=
      if statistic.phase = .connected then
        let statistic := statistic.lteAddConnected (now - statistic.phaseStartTime)
        { statistic with
          raiTime :=
            if statistic.transmissionTime - statistic.phaseStartTime > 0 then now - statistic.transmissionTime else -1 }
      else statistic
    statistic.enters .idle now

/-- `MSEC_TO_SEC`. -/
def msecToSec (time : ℤ) : ℤ := (time + 500).tdiv 1000

/-- `delayed`: the phase is more than five seconds longer than the active time. -/
def delayed (activeTime time : ℤ) : Bool := decide (0 ≤ activeTime ∧ activeTime + 5 < msecToSec time)

/-- `LTE_LC_EVT_MODEM_SLEEP_ENTER`. -/
def modemSleepEnter (statistic : Statistic) (now : ℤ) (type : SleepType) : Statistic :=
  let statistic := if type = .psm then statistic else { statistic with phase := .asleep }
  let statistic :=
    if statistic.phase = .idle then
      let time := now - statistic.phaseStartTime
      let statistic := statistic.lteAddAsleep time
      if delayed statistic.activeTime time then statistic.lteIncPsmDelays time else statistic
    else statistic
  { statistic with phase := .asleep }

/-- An event at a time. -/
def next (statistic : Statistic) (now : ℤ) : Happening → Statistic
  | .registration status => statistic.lteRegistration now status
  | .psm activeTime => { statistic with activeTime }
  | .rrc connected => statistic.rrcUpdate now connected
  | .cell tac id => statistic.lteUpdateCell tac id
  | .sleepEnter type => statistic.modemSleepEnter now type
  | .sleepExit => statistic.enters .wakeup now
  | .batteryLow => { statistic with lteLowVoltage := statistic.lteLowVoltage + 1 }
  | .transmission => { statistic with transmissionTime := now }
  | .start => { statistic with lteStarts := statistic.lteStarts + 1 }
  | .save => { statistic with lteSearchs := statistic.lteSearchs - 1 }

/-- The events of a run, with their times. -/
def run (statistic : Statistic) (history : List (ℤ × Happening)) : Statistic :=
  history.foldl (fun statistic event => statistic.next event.1 event.2) statistic

end Statistic

end CoapsClient.ModemState
