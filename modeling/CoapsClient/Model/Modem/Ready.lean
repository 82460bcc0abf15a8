import CoapsClient.Machine.Linked

/-! # Jobs for a modem that is ready

`modem_on_ready` and `modem_ready_work_fn`. A job has one link, which the list of the jobs and the pending list of the io
queue share. The queue is given by what it does to the links: `work_submit_to_io_queue` and `k_work_cancel`. The callback
for the state, the condition variable and the messages of the log are left out.
-/

namespace CoapsClient.ModemReady

open Machine (Links SList)

/-- The io queue, with the links and its own state. -/
structure IoQueue (Job σ : Type*) where
  /-- `work_submit_to_io_queue`. -/
  submit : Job → Links Job → σ → Links Job × σ
  /-- `k_work_cancel`. -/
  cancel : Job → Links Job → σ → Links Job × σ

/-- The variables of `modem.c`, and the io queue. -/
structure Modem (Job σ : Type*) where
  /-- `MODEM_READY`. -/
  ready : Bool := false
  /-- `MODEM_SIGNAL_READY`. -/
  signalReady : Bool := false
  lteReadyList : SList Job := {}
  links : Links Job
  queue : σ

variable {Job σ : Type*} [DecidableEq Job] (io : IoQueue Job σ)

/-- `modem_on_ready`. -/
def modemOnReady (job : Job) (modem : Modem Job σ) : Bool × Modem Job σ :=
  if modem.signalReady then
    let (links, queue) := io.submit job modem.links modem.queue
    (true, { modem with links, queue })
  else
    let (links, queue) := io.cancel job modem.links modem.queue
    let (lteReadyList, links) := modem.lteReadyList.append job links
    (false, { modem with lteReadyList, links, queue })

/-- The loop of `modem_ready_work_fn`: the submitted jobs, none if it has not ended. -/
def submitAll : ℕ → Modem Job σ → Option (List Job × Modem Job σ)
  | 0, _ => none
  | fuel + 1, modem =>
      match modem.lteReadyList.get modem.links with
      | none => some ([], modem)
      | some (job, lteReadyList) =>
          let (links, queue) := io.submit job modem.links modem.queue
          (submitAll fuel { modem with lteReadyList, links, queue }).map fun (jobs, modem) => (job :: jobs, modem)

/-- `modem_ready_work_fn`. -/
def modemReadyWorkFn (fuel : ℕ) (modem : Modem Job σ) : Option (List Job × Modem Job σ) :=
  if modem.ready then submitAll io fuel { modem with signalReady := true } else some ([], modem)

/-- The part of `lte_connection_status` for `MODEM_READY`. -/
def lteConnectionStatus (ready : Bool) (modem : Modem Job σ) : Modem Job σ :=
  if modem.ready = ready then modem else { modem with ready, signalReady := false }

/-- The part of `modem_init` for `MODEM_READY`. -/
def modemInit (modem : Modem Job σ) : Modem Job σ := { modem with ready := false, signalReady := false }

end CoapsClient.ModemReady
