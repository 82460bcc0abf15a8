import CoapsClient.Machine.Path
import CoapsClient.Model.Modem.Ready

/-! # The jobs that wait for the modem

A job that waits is a node of the list. Appended again, it becomes the last node where it is, and the list is cut behind
it or leads back to it. As long as no job is registered while it waits, each is submitted once when the modem is ready.
-/

namespace CoapsClient.ModemReady

open Machine (Path guarded Links SList)

variable {Job σ : Type*} [DecidableEq Job] {io : IoQueue Job σ} {pending : σ → Job → Prop}

/-- The queue touches the links of the job that it is given and of those that are pending in it. A job that is submitted
may become pending, and one that is canceled is not. -/
structure IoQueue.Lawful (io : IoQueue Job σ) (pending : σ → Job → Prop) : Prop where
  submit_links : ∀ job links queue other, other ≠ job → ¬ pending queue other →
    (io.submit job links queue).1 other = links other
  submit_pending : ∀ job links queue other, pending (io.submit job links queue).2 other →
    other = job ∨ pending queue other
  cancel_links : ∀ job links queue other, other ≠ job → ¬ pending queue other →
    (io.cancel job links queue).1 other = links other
  cancel_pending : ∀ job links queue other, pending (io.cancel job links queue).2 other →
    other ≠ job ∧ pending queue other

/-- A queue with a list of pending jobs: one more is appended unless it is pending, and a canceled one is taken out. -/
def fifo : IoQueue Job (List Job) where
  submit job links queue :=
    if job ∈ queue then (links, queue)
    else
      let links := Function.update links job none
      (queue.getLast?.elim links fun last => Function.update links last (some job), queue ++ [job])
  cancel job links queue :=
    if job ∈ queue then
      (fun other => if other = job then none
        else if other ∈ queue ∧ links other = some job then links job else links other, queue.filter (· ≠ job))
    else (links, queue)

private theorem fifo_lawful : (fifo : IoQueue Job (List Job)).Lawful fun queue job => job ∈ queue where
  submit_links job links queue other apart idle := by
    unfold fifo
    dsimp only
    split
    · rfl
    · cases behind : queue.getLast? with
      | none => exact Function.update_of_ne apart _ _
      | some last =>
        have apart' : other ≠ last := fun same => idle (same ▸ List.mem_of_getLast? behind)
        exact (Function.update_of_ne apart' _ _).trans (Function.update_of_ne apart _ _)
  submit_pending job links queue other busy := by
    unfold fifo at busy
    dsimp only at busy
    split at busy
    · exact Or.inr busy
    · rcases List.mem_append.mp busy with before | same
      · exact Or.inr before
      · exact Or.inl (List.mem_singleton.mp same)
  cancel_links job links queue other apart idle := by
    unfold fifo
    dsimp only
    split
    · exact (if_neg apart).trans (if_neg fun found => idle found.1)
    · rfl
  cancel_pending job links queue other busy := by
    unfold fifo at busy
    dsimp only at busy
    split at busy
    · obtain ⟨before, apart⟩ := List.mem_filter.mp busy
      exact ⟨of_decide_eq_true apart, before⟩
    · next idle => exact ⟨fun same => idle (same ▸ busy), busy⟩

/-- What happens to the modem. -/
inductive Event (Job σ : Type*) where
  /-- `modem_on_ready`. -/
  | onReady (job : Job)
  /-- `modem_ready_work_fn`. -/
  | readyWork
  | connectionStatus (ready : Bool)
  | init
  /-- The queue runs jobs, and gets other ones. -/
  | run (links : Links Job) (queue : σ)

/-- The modem, and the jobs that were registered but not submitted. -/
structure Record (Job σ : Type*) where
  modem : Modem Job σ
  waiting : List Job := []

/-- What an event does. The queue touches the links of its jobs only, and gets no job that waits for the modem. -/
inductive Step (io : IoQueue Job σ) (pending : σ → Job → Prop) :
    Record Job σ → Event Job σ → Record Job σ → Prop
  | onReady (record : Record Job σ) (job : Job) : Step io pending record (.onReady job)
      ⟨(modemOnReady io job record.modem).2,
        if record.modem.signalReady then record.waiting else record.waiting ++ [job]⟩
  | readyWork (record : Record Job σ) (fuel : ℕ) (jobs : List Job) (modem : Modem Job σ)
      (ready : record.modem.ready = true) (ran : modemReadyWorkFn io fuel record.modem = some (jobs, modem)) :
      Step io pending record .readyWork ⟨modem, []⟩
  | notReady (record : Record Job σ) (ready : record.modem.ready = false) : Step io pending record .readyWork record
  | connectionStatus (record : Record Job σ) (ready : Bool) :
      Step io pending record (.connectionStatus ready) { record with modem := lteConnectionStatus ready record.modem }
  | init (record : Record Job σ) : Step io pending record .init { record with modem := modemInit record.modem }
  | run (record : Record Job σ) (links : Links Job) (queue : σ)
      (frame : ∀ job, ¬ pending record.modem.queue job → ¬ pending queue job → links job = record.modem.links job)
      (other : ∀ job ∈ record.waiting, ¬ pending queue job) :
      Step io pending record (.run links queue) { record with modem := { record.modem with links, queue } }

/-- No job is registered while it waits. -/
def Fresh (record : Record Job σ) (event : Event Job σ) : Prop :=
  ∀ job, event = .onReady job → record.modem.signalReady = false → job ∉ record.waiting

/-- The list holds the waiting jobs, and the queue none of them. -/
structure Record.Keeps (record : Record Job σ) (pending : σ → Job → Prop) : Prop where
  holds : record.modem.lteReadyList.Holds record.modem.links record.waiting
  apart : ∀ job ∈ record.waiting, ¬ pending record.modem.queue job
  submitted : record.modem.signalReady = true → record.waiting = []

section Runs

variable {record next : Record Job σ} {event : Event Job σ} {modem after : Modem Job σ}
variable {jobs waiting : List Job} {job : Job} {fuel : ℕ}

/-- The loop submits the jobs of the list, one after the other. -/
private theorem submitAll_holds (modem : Modem Job σ) (lawful : io.Lawful pending)
    (holds : modem.lteReadyList.Holds modem.links waiting) (apart : ∀ job ∈ waiting, ¬ pending modem.queue job) :
    ∃ links queue, ∀ fuel, waiting.length < fuel →
      submitAll io fuel modem = some (waiting, { modem with lteReadyList := {}, links, queue }) := by
  induction waiting generalizing modem with
  | nil =>
    refine ⟨modem.links, modem.queue, fun fuel enough => ?_⟩
    obtain ⟨fuel, rfl⟩ : ∃ rest, fuel = rest + 1 := ⟨fuel - 1, by omega⟩
    obtain ⟨ready, signalReady, list, links, queue⟩ := modem
    obtain rfl := holds.get_nil
    rfl
  | cons job waiting ih =>
    obtain ⟨rest, got, behind⟩ := holds.get
    obtain ⟨new, once⟩ := List.nodup_cons.mp holds.nodup
    have same : ∀ other ∈ waiting, (io.submit job modem.links modem.queue).1 other = modem.links other := fun other found =>
      lawful.submit_links _ _ _ _ (fun equal => new (equal ▸ found)) (apart other (List.mem_cons_of_mem job found))
    have later : ∀ other ∈ waiting, ¬ pending (io.submit job modem.links modem.queue).2 other := by
      intro other found other'
      rcases lawful.submit_pending _ _ _ _ other' with equal | before
      · exact new (equal ▸ found)
      · exact apart other (List.mem_cons_of_mem job found) before
    obtain ⟨links, queue, all⟩ := ih { modem with
      lteReadyList := rest
      links := (io.submit job modem.links modem.queue).1
      queue := (io.submit job modem.links modem.queue).2 } (behind.congr same) later
    refine ⟨links, queue, fun fuel enough => ?_⟩
    obtain ⟨fuel, rfl⟩ : ∃ rest, fuel = rest + 1 := ⟨fuel - 1, by omega⟩
    rw [submitAll, got]
    dsimp only
    rw [all fuel (by rw [List.length_cons] at enough; omega)]
    rfl

/-- A loop that has ended does the same with more time. -/
private theorem submitAll_add (ran : submitAll io fuel modem = some (jobs, after)) (more : ℕ) :
    submitAll io (fuel + more) modem = some (jobs, after) := by
  induction fuel generalizing modem jobs after with
  | zero => contradiction
  | succ fuel ih =>
    rw [Nat.succ_add]
    unfold submitAll at ran ⊢
    split
    next empty => rwa [empty] at ran
    next first rest got =>
      rw [got] at ran
      obtain ⟨⟨others, last⟩, behind, same⟩ := Option.map_eq_some_iff.mp ran
      dsimp only
      rw [ih behind]
      exact congrArg some same

/-- The loop that has ended submitted the jobs of the list. -/
private theorem submitAll_ran (modem : Modem Job σ) (lawful : io.Lawful pending)
    (holds : modem.lteReadyList.Holds modem.links waiting) (apart : ∀ job ∈ waiting, ¬ pending modem.queue job)
    (ran : submitAll io fuel modem = some (jobs, after)) :
    jobs = waiting ∧ ∃ links queue, after = { modem with lteReadyList := {}, links, queue } := by
  obtain ⟨links, queue, all⟩ := submitAll_holds modem lawful holds apart
  have long := submitAll_add ran (waiting.length + 1)
  rw [all _ (by omega)] at long
  obtain ⟨rfl, rfl⟩ := Prod.mk.inj (Option.some_inj.mp long)
  exact ⟨rfl, links, queue, rfl⟩

theorem Record.Keeps.onReady_now (keeps : record.Keeps pending) (ready : record.modem.signalReady = true) :
    Record.Keeps ⟨(modemOnReady io job record.modem).2, record.waiting⟩ pending := by
  have none := keeps.submitted ready
  have holds := keeps.holds
  unfold modemOnReady
  rw [if_pos ready]
  rw [none] at holds ⊢
  exact ⟨holds.congr (by simp), by simp, fun _ => rfl⟩

theorem Record.Keeps.onReady_later (lawful : io.Lawful pending) (keeps : record.Keeps pending)
    (ready : record.modem.signalReady = false) (new : job ∉ record.waiting) :
    Record.Keeps ⟨(modemOnReady io job record.modem).2, record.waiting ++ [job]⟩ pending := by
  unfold modemOnReady
  rw [if_neg (ready ▸ Bool.false_ne_true)]
  have same : ∀ other ∈ record.waiting,
      (io.cancel job record.modem.links record.modem.queue).1 other = record.modem.links other := fun other found =>
    lawful.cancel_links _ _ _ _ (fun equal => new (equal ▸ found)) (keeps.apart other found)
  refine ⟨(keeps.holds.congr same).append new, fun other found busy => ?_, fun now => ?_⟩
  · obtain ⟨apart, before⟩ := lawful.cancel_pending _ _ _ _ busy
    rcases List.mem_append.mp found with found | found
    · exact keeps.apart other found before
    · exact apart (List.mem_singleton.mp found)
  · rw [ready] at now
    contradiction

/-- A step keeps the list, unless a job is registered while it waits. -/
theorem Record.Keeps.step (lawful : io.Lawful pending) (keeps : record.Keeps pending) (fresh : Fresh record event)
    (step : Step io pending record event next) : next.Keeps pending := by
  cases step with
  | onReady job =>
    cases ready : record.modem.signalReady with
    | true => exact keeps.onReady_now ready
    | false => exact keeps.onReady_later lawful ready (fresh job rfl ready)
  | readyWork fuel jobs modem ready ran =>
    unfold modemReadyWorkFn at ran
    rw [if_pos ready] at ran
    obtain ⟨rfl, links, queue, rfl⟩ := submitAll_ran { record.modem with signalReady := true } lawful
      keeps.holds keeps.apart ran
    exact ⟨⟨.nil, rfl, List.nodup_nil⟩, by simp, fun _ => rfl⟩
  | notReady => exact keeps
  | connectionStatus ready =>
    unfold lteConnectionStatus
    split
    · exact keeps
    · exact ⟨keeps.holds, keeps.apart, nofun⟩
  | init => exact ⟨keeps.holds, keeps.apart, nofun⟩
  | run links queue frame other =>
    exact ⟨keeps.holds.congr fun job found => frame job (keeps.apart job found) (other job found), other, keeps.submitted⟩

/-- After a start, the list holds the jobs that wait. -/
private theorem keeps_of_path {events : List (Event Job σ)} {links : Links Job} {queue : σ} (lawful : io.Lawful pending)
    (path : Path (guarded (Step io pending) Fresh) ⟨{ links, queue }, []⟩ events record) : record.Keeps pending :=
  path.invariant (fun record => record.Keeps pending) (fun _ _ _ keeps step => keeps.step lawful step.1 step.2)
    ⟨⟨.nil, rfl, List.nodup_nil⟩, by simp, nofun⟩

/-- As long as no job is registered while it waits, the loop of `modem_ready_work_fn` ends, and it submits the jobs that
wait, each once. -/
theorem ready_jobs (io : IoQueue Job σ) (pending : σ → Job → Prop) (lawful : io.Lawful pending) (links : Links Job)
    (queue : σ) (events : List (Event Job σ)) (record : Record Job σ)
    (path : Path (guarded (Step io pending) Fresh) ⟨{ links, queue }, []⟩ events record)
    (ready : record.modem.ready = true) :
    record.waiting.Nodup ∧ ∃ modem, modem.lteReadyList = {} ∧
      ∀ fuel, record.waiting.length < fuel → modemReadyWorkFn io fuel record.modem = some (record.waiting, modem) := by
  have keeps := keeps_of_path lawful path
  obtain ⟨links, queue, all⟩ := submitAll_holds { record.modem with signalReady := true } lawful
    keeps.holds keeps.apart
  refine ⟨keeps.holds.nodup, { record.modem with signalReady := true, lteReadyList := {}, links, queue }, rfl,
    fun fuel enough => ?_⟩
  unfold modemReadyWorkFn
  rw [if_pos ready, all fuel enough]

end Runs

/-- The modem after a start, with jobs that are told apart by a number. -/
def started : Record ℕ (List ℕ) := ⟨{ links := fun _ => none, queue := [] }, []⟩

/-- Two jobs, one each. -/
theorem ready_jobs_two : ∃ modem, modem.lteReadyList = {} ∧ ∀ fuel, 2 < fuel →
    modemReadyWorkFn fifo fuel (lteConnectionStatus true (modemOnReady fifo 1 (modemOnReady fifo 0 started.modem).2).2) =
      some ([0, 1], modem) :=
  (ready_jobs fifo (fun queue job => job ∈ queue) fifo_lawful (fun _ => none) []
    [.onReady 0, .onReady 1, .connectionStatus true] ⟨_, [0, 1]⟩
    (.cons ⟨fun _ _ _ => List.not_mem_nil, .onReady started 0⟩
      (.cons ⟨fun job same _ => by cases same; decide, .onReady ⟨_, [0]⟩ 1⟩
        (.cons ⟨nofun, .connectionStatus ⟨_, [0, 1]⟩ true⟩ (.nil _)))) rfl).2

/-- A job that is registered twice is submitted twice, and with another one in between, that one is lost. -/
theorem job_submitted_twice :
    (∃ record, Path (Step fifo fun queue job => job ∈ queue) started
      [.onReady 0, .onReady 0, .connectionStatus true] record ∧
      (modemReadyWorkFn fifo 3 record.modem).map Prod.fst = some [0, 0]) ∧
    ∃ record, Path (Step fifo fun queue job => job ∈ queue) started
      [.onReady 0, .onReady 1, .onReady 0, .connectionStatus true] record ∧
      (modemReadyWorkFn fifo 3 record.modem).map Prod.fst = some [0] :=
  ⟨⟨_, .cons (.onReady _ _) (.cons (.onReady _ _) (.cons (.connectionStatus _ _) (.nil _))), by decide⟩,
    ⟨_, .cons (.onReady _ _) (.cons (.onReady _ _) (.cons (.onReady _ _) (.cons (.connectionStatus _ _) (.nil _)))),
      by decide⟩⟩

end CoapsClient.ModemReady
