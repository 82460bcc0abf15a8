import CoapsClient.Model.Shell.Parameters
import CoapsClient.Machine.Integer

/-! # Switching the modem off for a while, and the lock of the modem

`modem_at_push_off`, `modem_at_restore` and `modem_at_system_mode_set`. What the modem returns is given for each of its
calls; a call of `lte_lc_func_mode_set` that returns zero brings the modem into the mode, any other leaves it in the
mode that it has. The work that logs a slow switching off is left out.

`modem_at_lock`, `modem_at_lock_no_warn` and `modem_at_unlock` of `modem_at.c`, as the owner of `lte_at_mutex` calls them.
The counter is an `int`, which has no value beyond its range.
-/

namespace CoapsClient.ModemAt

open Parameters (einval)

/-- `enum lte_lc_func_mode`. -/
inductive FuncMode where
  | powerOff
  | normal
  | offline
  | deactivateLte
  | activateLte
  | deactivateGnss
  | activateGnss
  | deactivateUicc
  | activateUicc
  | offlineUiccOn
deriving DecidableEq, Repr

/-- The mode of the modem, and the variables of `modem_at.c`, where none stands for -1. -/
structure Modem where
  mode : FuncMode
  modemMode : Option FuncMode := none
  pushsCounter : Int := 0
  previousMode : Option FuncMode := none
deriving DecidableEq

/-- `-EBUSY`. -/
def ebusy : Int := -16

/-- `lte_lc_func_mode_set`. -/
def lteLcFuncModeSet (answer : Int) (mode : FuncMode) (modem : Modem) : Modem :=
  if answer = 0 then { modem with mode } else modem

/-- What `modem_at_lock` and `lte_lc_func_mode_set` return. -/
structure SetAnswers where
  lock : Int := 0
  set : Int := 0
deriving DecidableEq

/-- `modem_at_set_func_mode`. -/
def modemAtSetFuncMode (answers : SetAnswers) (mode : FuncMode) (modem : Modem) : Int × Modem :=
  if answers.lock ≠ 0 then (answers.lock, modem)
  else
    let previous := modem.modemMode
    let modem := lteLcFuncModeSet answers.set mode { modem with modemMode := some mode }
    -- restore on failure
    if 0 > answers.set then (answers.set, { modem with modemMode := previous }) else (answers.set, modem)

/-- What `modem_at_lock`, `lte_lc_func_mode_get` and the calls of `modem_at_set_func_mode` return. -/
structure PushAnswers where
  lock : Int := 0
  get : Int := 0
  set : SetAnswers := {}
deriving DecidableEq

/-- `modem_at_push_off`. -/
def modemAtPushOff (answers : PushAnswers) (modem : Modem) : Int × Modem :=
  if answers.lock ≠ 0 then (answers.lock, modem)
  else if answers.get ≠ 0 then (answers.get, modem)
  else
    let mode := modem.mode
    let push := modem.previousMode = none
    let modem := if push then { modem with previousMode := some mode } else modem
    if push ∨ mode = .powerOff then
      let modem := { modem with pushsCounter := modem.pushsCounter + 1 }
      if push ∧ mode ≠ .powerOff then
        let (res, modem) := modemAtSetFuncMode answers.set .powerOff modem
        if res ≠ 0 ∧ push then
          (res, { modem with previousMode := none, pushsCounter := modem.pushsCounter - 1 })
        else (res, modem)
      else (0, modem)
    else (ebusy, modem)

/-- `modem_at_restore`. -/
def modemAtRestore (answers : SetAnswers) (modem : Modem) : Int × Modem :=
  if answers.lock ≠ 0 then (answers.lock, modem)
  else if 0 < modem.pushsCounter then
    let modem := { modem with pushsCounter := modem.pushsCounter - 1 }
    match modem.previousMode with
    | none => (einval, modem)
    | some previous =>
        if modem.pushsCounter = 0 then
          if previous ≠ .powerOff then
            let modem := lteLcFuncModeSet answers.set previous modem
            if answers.set ≠ 0 then (answers.set, { modem with pushsCounter := modem.pushsCounter + 1 })
            else (answers.set, { modem with previousMode := none })
          else (0, { modem with previousMode := none })
        else (einval, modem)
  else (einval, modem)

/-- What the calls of `modem_at_system_mode_set` return. -/
structure SystemAnswers where
  lock : Int := 0
  push : PushAnswers := {}
  /-- `lte_lc_system_mode_set`. -/
  system : Int := 0
  restore : SetAnswers := {}
deriving DecidableEq

/-- `modem_at_system_mode_set`: what it returns, and what `lte_lc_system_mode_set` returned, if it was called. -/
def modemAtSystemModeSet (answers : SystemAnswers) (modem : Modem) : Int × Option Int × Modem :=
  if answers.lock ≠ 0 then (answers.lock, none, modem)
  else
    let (pushed, modem) := modemAtPushOff answers.push modem
    if pushed = 0 then (answers.system, some answers.system, (modemAtRestore answers.restore modem).2)
    else (answers.lock, none, modem)

end CoapsClient.ModemAt

namespace CoapsClient.ModemAtLock

open Machine (checked)
open ModemAt (ebusy)
open Parameters (einval)

/-- The locks of the owner on `lte_at_mutex`, `lte_at_counter` and `lte_at_warn`. -/
structure AtLock where
  lockCount : ℕ := 0
  counter : ℤ := 0
  warn : Bool := true
deriving DecidableEq, Repr

/-- What `k_mutex_lock` returns, and whether there is an `lte_at_response_handler`. -/
structure Answer where
  mutex : ℤ := 0
  handler : Bool := false
deriving DecidableEq, Repr

/-- `k_mutex_lock`. -/
def kMutexLock (answer : Answer) (lock : AtLock) : ℤ × AtLock :=
  if answer.mutex = 0 then (0, { lock with lockCount := lock.lockCount + 1 }) else (answer.mutex, lock)

/-- `k_mutex_unlock`. -/
def kMutexUnlock (lock : AtLock) : ℤ × AtLock :=
  if lock.lockCount = 0 then (einval, lock) else (0, { lock with lockCount := lock.lockCount - 1 })

/-- `modem_at_lock`. -/
def modemAtLock (answer : Answer) (lock : AtLock) : Option (ℤ × AtLock) :=
  let (res, lock) := kMutexLock answer lock
  if res = 0 then
    if answer.handler then some (ebusy, (kMutexUnlock lock).2)
    else if lock.counter ≠ 0 then (checked 32 (lock.counter + 1)).map fun counter => (res, { lock with counter })
    else some (res, lock)
  else some (res, lock)

/-- `modem_at_lock_no_warn`. -/
def modemAtLockNoWarn (answer : Answer) (lock : AtLock) : Option (ℤ × AtLock) :=
  let (res, lock) := kMutexLock answer lock
  if res = 0 then
    if answer.handler then some (ebusy, (kMutexUnlock lock).2)
    else (checked 32 (lock.counter + 1)).map fun counter => (res, { lock with counter, warn := false })
  else some (res, lock)

/-- `modem_at_unlock`. -/
def modemAtUnlock (lock : AtLock) : Option (ℤ × AtLock) :=
  let (res, lock) := kMutexUnlock lock
  if res = 0 ∧ lock.counter ≠ 0 then
    (checked 32 (lock.counter - 1)).map fun counter => (res, { lock with counter, warn := lock.warn || counter = 0 })
  else some (res, lock)

end CoapsClient.ModemAtLock
