import CoapsClient.Model.Shell.Parameters

/-! # PSM requests

`modem_set_psm` and `modem_lock_psm` with what they remember of the requests, and the command `psm`. A time is requested
from the network as three digits for a unit and five for a count of it. An `int` has 32 bits, and a sum or product
that it does not have is undefined. The texts that are logged, the end of PSM on the network side and the wait for it
are left out.
-/

namespace CoapsClient.ModemPsm

open ShCmd (Text stricmp parseNextText)
open Parameters (scanUnsigned int32 einval)
open Machine (checked)

/-- The loop of `print_bin_groups`: the bits that are left, and whether there are digits before them. -/
def printBinGroups (groups : ℕ) (value : Int) : ℕ → Bool → Text
  | 0, _ => []
  | bits + 1, behind =>
      let digit := if value / 2 ^ bits % 2 = 1 then '1' else '0'
      if behind ∧ (bits + 1) % groups = 0 then ' ' :: digit :: printBinGroups groups value bits true
      else digit :: printBinGroups groups value bits true

/-- `print_bin`. -/
def printBin (bits : ℕ) (value : Int) : Text := printBinGroups bits value bits false

/-- A unit: what a count of the unit before is divided by, and the digits of the unit. -/
structure UnitStep where
  divisor : ℕ
  digits : Text
deriving DecidableEq

/-- The count of a time in the first unit that has room for it, else in the last one, with the digits of the unit. -/
def countUnits (divide : Int → ℕ → Option Int) : List UnitStep → Int → Option (Int × Text)
  | [], _ => none
  | step :: coarser, time => (divide time step.divisor).bind fun time =>
      if 31 < time ∧ coarser ≠ [] then countUnits divide coarser time else some (time, step.digits)

/-- A timer as it is written. -/
def timer (divide : Int → ℕ → Option Int) (steps : List UnitStep) (time : Int) : Option Text :=
  (countUnits divide steps time).map fun (count, digits) => digits ++ printBin 5 count

/-- The units of `rat`: 2 s, 60 s and 360 s. -/
def ratSteps : List UnitStep := [⟨2, "000".toList⟩, ⟨30, "001".toList⟩, ⟨6, "010".toList⟩]

/-- The units of `tau`: 2 s, 30 s, 60 s, 600 s, 1 h, 10 h and 320 h. -/
def tauSteps : List UnitStep :=
  [⟨2, printBin 3 3⟩, ⟨15, printBin 3 4⟩, ⟨2, printBin 3 5⟩, ⟨10, printBin 3 0⟩, ⟨6, printBin 3 1⟩, ⟨10, printBin 3 2⟩,
    ⟨32, printBin 3 6⟩]

/-- `active_time_s /= D`. -/
def roundDownTime (time : Int) (divisor : ℕ) : Option Int := some (time.tdiv divisor)

/-- `ROUND_UP_TIME`. -/
def roundUpTime (time : Int) (divisor : ℕ) : Option Int := (checked 32 (time + (divisor - 1))).map (·.tdiv divisor)

/-- What is remembered of the requests. -/
structure Psm where
  psmRat : Int := -1
  /-- What `lte_lc_psm_param_set` got: the tracking area update time and the active time. -/
  param : Option (Text × Text) := none
deriving DecidableEq

/-- What a call returns and leaves behind. -/
structure Outcome where
  result : Int
  psm : Psm
  /-- The call of `lte_lc_psm_req`, and whether it enables PSM. -/
  request : Option Bool := none
deriving DecidableEq

/-- What the modem returns for a request. -/
structure Answer where
  /-- `modem_at_lock`. -/
  lock : Int := 0
  /-- `lte_lc_psm_req`. -/
  request : Int := 0
deriving DecidableEq

/-- `modem_at_psm_req`. -/
def modemAtPsmReq (answer : Answer) (enable : Bool) (psm : Psm) : Outcome :=
  if answer.lock ≠ 0 then { result := answer.lock, psm }
  else { result := answer.request, psm, request := some enable }

/-- The lower limit of `active_time_s`. -/
def activeTime (activeTimeS : Int16) : Int := if activeTimeS.toInt < -1 then -1 else activeTimeS.toInt

/-- `modem_set_psm`, with `CONFIG_LTE_PSM_REQ_RPTAU`. -/
def modemSetPsm (rptau : Text) (answer : Answer) (activeTimeS : Int16) (psm : Psm) : Outcome :=
  let activeTimeS := activeTime activeTimeS
  let current := psm.psmRat
  let psm := if -2 ≤ psm.psmRat then { psm with psmRat := activeTimeS } else psm
  if current < -2 then { result := 0, psm }
  else if current = activeTimeS then { result := 0, psm }
  else if activeTimeS < 0 then modemAtPsmReq answer false psm
  else modemAtPsmReq answer true { psm with param := (timer roundDownTime ratSteps activeTimeS).map fun rat => (rptau, rat) }

/-- `modem_lock_psm`. -/
def modemLockPsm (on : Bool) (psm : Psm) : Psm := { psm with psmRat := if on then -3 else -2 }

/-- What the parameter of `modem_cmd_psm` asks for. -/
inductive PsmCommand where
  | show
  | normal
  | off
  /-- The numbers of `%u %u%c`, and the character. -/
  | times (activeTime tauTime : ℕ) (tauUnit : Char)
  | invalid
deriving DecidableEq

def parsePsm (config : Text) : PsmCommand :=
  let value := (parseNextText config ' ' 8).1
  if value.isEmpty then .show
  else if stricmp "normal".toList value = 0 then .normal
  else if stricmp "off".toList value = 0 then .off
  else match scanUnsigned config with
    | none => .invalid
    | some (activeTime, rest) => match scanUnsigned rest with
        | none => .invalid
        | some (tauTime, rest) => .times activeTime tauTime (rest.headD 's')

/-- The seconds of a unit. -/
def unitSeconds : Char → ℕ
  | 'd' => 3600 * 24
  | 'h' => 3600
  | 'm' => 60
  | _ => 1

/-- `rat` of `modem_cmd_psm`. -/
def ratTimer (activeTime : ℕ) : Option Text := timer roundUpTime ratSteps (int32 activeTime)

/-- `tau` of `modem_cmd_psm`. -/
def tauTimer (tauTime : ℕ) (tauUnit : Char) : Option Text :=
  (checked 32 (int32 tauTime * unitSeconds tauUnit)).bind (timer roundUpTime tauSteps)

/-- What the modem returns, and the settings of the build. -/
structure Setup where
  /-- `modem_at_lock` and `lte_lc_psm_get`. -/
  status : Int := 0
  answer : Answer := {}
  /-- `CONFIG_LTE_PSM_REQ_RPTAU`. -/
  rptau : Text := "00111000".toList
  /-- `CONFIG_UDP_PSM_CONNECT_RAT`. -/
  connectRat : Int16 := 16
deriving DecidableEq

/-- `modem_cmd_psm`, none if it is undefined. -/
def modemCmdPsm (setup : Setup) (config : Text) (psm : Psm) : Option Outcome :=
  match parsePsm config with
  | .show => some { result := setup.status, psm }
  | .normal => some (modemSetPsm setup.rptau setup.answer setup.connectRat (modemLockPsm false psm))
  | .off => some (modemAtPsmReq setup.answer false (modemLockPsm true psm))
  | .times activeTime tauTime tauUnit => do
      let rat ← ratTimer activeTime
      let tau ← tauTimer tauTime tauUnit
      some (modemAtPsmReq setup.answer true { modemLockPsm true psm with param := some (tau, rat) })
  | .invalid => some { result := einval, psm }

end CoapsClient.ModemPsm
