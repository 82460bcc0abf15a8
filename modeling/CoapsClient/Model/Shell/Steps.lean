import CoapsClient.Model.Shell.Machine

/-! # What one step of the shell can do

A step either brings a new program, for a call, a work item or an answer of the modem, or executes one
instruction. `step_cases` says so once, with the marks of what remains to be executed; every invariant
of the module is proved from it.
-/

namespace CoapsClient.ShCmd

open Machine

/-- A program that a step brings, with what the step does to the shared state. -/
inductive Arrival : Label → Shared → Shared → List Instr → Prop
  | call (shared : Shared) (call : Call) : Arrival (.call call) shared shared call.program
  | execute {shared : Shared} (pending : shared.executeWork = true) :
      Arrival (.start .execute) shared { shared with executeWork := false } [.shCmd true]
  | schedule {shared : Shared} (pending : shared.scheduleWork = true) :
      Arrival (.start .schedule) shared { shared with scheduleWork := false } [.shCmd false]
  | response {shared : Shared} (pending : shared.responseWork = true) :
      Arrival (.start .response) shared { shared with responseWork := false }
        [.result true (responseResult shared.response), .atFinish]
  | shellAnswer {shared : Shared} (response : Text) (owed : shared.flight = .shellAnswer) :
      Arrival (.deliver response) shared { shared with flight := .answering }
        [.submitResponse response, .clearFlight]
  | handlerAnswer {shared : Shared} (response : Text) (owed : shared.flight = .handlerAnswer) :
      Arrival (.deliver response) shared { shared with flight := .answering } [.atFinish, .clearFlight]

variable {table : List Entry} {shell next : Shell} {label : Label} {shared : Shared}

/-- The work queue's thread takes a program only when it has none. -/
private theorem withWorker_spec {program : List Instr} (taken : withWorker shell shared program = some next) :
    next.shared = shared ∧
      ∀ {τ : Type} (mark : Instr → List τ), next.marks mark = shell.marks mark + program.flatMap mark := by
  obtain ⟨before, programs⟩ := shell
  cases programs with
  | nil => contradiction
  | cons worker others =>
    cases worker with
    | cons instr rest => contradiction
    | nil =>
      obtain rfl := Option.some.inj taken
      refine ⟨rfl, ?_⟩
      intro τ mark
      simp [Pool.marks, add_comm]

/-- Every step is an arrival or the execution of one instruction. -/
theorem step_cases (moved : Step table shell label next) :
    (∃ program, Arrival label shell.shared next.shared program ∧ executes shell label = none ∧
      ∀ {τ : Type} (mark : Instr → List τ), next.marks mark = shell.marks mark + program.flatMap mark) ∨
    (∃ instr choice, executes shell label = some instr ∧
      next.shared = (exec table shell.shared instr choice).1 ∧
      ∀ {τ : Type} (mark : Instr → List τ), ∃ others : Multiset τ,
        shell.marks mark = others + mark instr ∧
        next.marks mark = others + (exec table shell.shared instr choice).2.flatMap mark) := by
  cases label with
  | call call =>
    obtain rfl := Option.some.inj moved
    exact .inl ⟨_, .call _ call, rfl, fun mark => Pool.marks_spawn mark _⟩
  | start work =>
    left
    cases work with
    | execute =>
      obtain ⟨pending, moved⟩ := Option.ite_none_right_eq_some.mp moved
      obtain ⟨same, marks⟩ := withWorker_spec moved
      exact ⟨_, same ▸ .execute pending, rfl, marks⟩
    | schedule =>
      obtain ⟨pending, moved⟩ := Option.ite_none_right_eq_some.mp moved
      obtain ⟨same, marks⟩ := withWorker_spec moved
      exact ⟨_, same ▸ .schedule pending, rfl, marks⟩
    | response =>
      obtain ⟨pending, moved⟩ := Option.ite_none_right_eq_some.mp moved
      obtain ⟨same, marks⟩ := withWorker_spec moved
      exact ⟨_, same ▸ .response pending, rfl, marks⟩
  | deliver response =>
    left
    simp only [Step, step] at moved
    cases owed : shell.shared.flight with
    | idle => simp [owed] at moved
    | answering => simp [owed] at moved
    | shellAnswer =>
      rw [owed] at moved
      obtain rfl := Option.some.inj moved
      exact ⟨_, .shellAnswer response owed, rfl, fun mark => Pool.marks_spawn mark _⟩
    | handlerAnswer =>
      rw [owed] at moved
      obtain rfl := Option.some.inj moved
      exact ⟨_, .handlerAnswer response owed, rfl, fun mark => Pool.marks_spawn mark _⟩
  | turn index choice =>
    obtain ⟨instr, isNext, same, marks⟩ := Pool.turn_spec moved
    exact .inr ⟨instr, choice, isNext, same, marks⟩

/-- The instructions that hand commands on: they accept, place or dispatch one. -/
def Instr.handsOn : Instr → Bool
  | .place _ => true
  | .load _ => true
  | .enqueue _ _ => true
  | .queueGet => true
  | _ => false

theorem Instr.handsOn_cases (instr : Instr) :
    instr.handsOn = false ∨ (∃ command, instr = .place command) ∨ (∃ command, instr = .load command) ∨
      (∃ head text, instr = .enqueue head text) ∨ instr = .queueGet := by
  cases instr <;> simp [Instr.handsOn]

/-- `sh_cmd` goes on with its result or with the test of `AT_PENDING`. -/
theorem shCmdRest_cases (table : List Entry) (shared : Shared) (insecure : Bool) (choice : Choice) :
    (∃ res, (shCmdRest table shared insecure choice).2 = [.result false res]) ∨
      ∃ handler, (shCmdRest table shared insecure choice).2 = [.testAtPending handler] := by
  simp only [shCmdRest]
  split
  · exact .inl ⟨_, rfl⟩
  · exact .inl ⟨_, rfl⟩
  · exact .inr ⟨_, rfl⟩
  · exact .inl ⟨_, rfl⟩
  · split
    · exact .inr ⟨_, rfl⟩
    · exact .inl ⟨_, rfl⟩

/-- An arrival leaves the records of commands alone. -/
theorem Arrival.frame {before after : Shared} {program : List Instr}
    (arrival : Arrival label before after program) :
    after.accepted = before.accepted ∧ after.placed = before.placed ∧ after.queue = before.queue ∧
      after.dispatched = before.dispatched := by
  cases arrival <;> exact ⟨rfl, rfl, rfl, rfl⟩

/-- All other instructions leave the records of commands and the queue alone, and go on with
instructions of that kind. -/
theorem exec_frame (table : List Entry) (shared : Shared) {instr : Instr} (choice : Choice)
    (other : instr.handsOn = false) :
    (exec table shared instr choice).1.accepted = shared.accepted ∧
      (exec table shared instr choice).1.placed = shared.placed ∧
      (exec table shared instr choice).1.queue = shared.queue ∧
      (exec table shared instr choice).1.dispatched = shared.dispatched := by
  cases instr with
  | place command => contradiction
  | load command => contradiction
  | enqueue head text => contradiction
  | queueGet => contradiction
  | submit insecure => cases insecure <;> exact ⟨rfl, rfl, rfl, rfl⟩
  | waitFn =>
    simp only [exec]
    split <;> exact ⟨rfl, rfl, rfl, rfl⟩
  | testAtPending handler =>
    simp only [exec]
    split <;> exact ⟨rfl, rfl, rfl, rfl⟩
  | modemAtCmdAsync =>
    simp only [exec]
    split <;> split <;> exact ⟨rfl, rfl, rfl, rfl⟩
  | _ => exact ⟨rfl, rfl, rfl, rfl⟩

/-- What they go on with hands no command on, but for taking one from the queue. -/
private theorem exec_rest (table : List Entry) (shared : Shared) {instr : Instr} (choice : Choice)
    (other : instr.handsOn = false) :
    ∀ rest ∈ (exec table shared instr choice).2, rest.handsOn = false ∨ rest = .queueGet := by
  cases instr with
  | place command => contradiction
  | load command => contradiction
  | enqueue head text => contradiction
  | queueGet => contradiction
  | submit insecure => cases insecure <;> simp [exec]
  | shCmd insecure =>
    rcases shCmdRest_cases table shared insecure choice with ⟨res, same⟩ | ⟨handler, same⟩ <;>
      simp [exec, same, Instr.handsOn]
  | testAtPending handler =>
    simp only [exec]
    split
    · simp [Instr.handsOn]
    · cases handler <;> simp [Instr.handsOn]
  | modemAtCmdAsync =>
    simp only [exec]
    split <;> split <;> simp [Instr.handsOn]
  | waitFn =>
    simp only [exec]
    split <;> simp
  | asyncCheck =>
    simp only [exec]
    split <;> simp [Instr.handsOn]
  | result fromResponse res =>
    simp only [exec]
    split <;> simp [Instr.handsOn]
  | atFinish =>
    simp only [exec]
    split <;> simp [Instr.handsOn]
  | _ => simp [exec, Instr.handsOn]

/-- So marks on handing commands over are not brought by them. -/
theorem flatMap_exec {τ : Type} (mark : Instr → List τ) (table : List Entry) (shared : Shared)
    {instr : Instr} (choice : Choice) (other : instr.handsOn = false) (get : mark .queueGet = [])
    (plain : ∀ instr : Instr, instr.handsOn = false → mark instr = []) :
    (exec table shared instr choice).2.flatMap mark = [] := by
  rw [List.flatMap_eq_nil_iff]
  intro rest member
  rcases exec_rest table shared choice other rest member with same | rfl
  · exact plain rest same
  · exact get

/-- Commands are offered only by calls: no instruction goes on with offering one. -/
theorem flatMap_exec_offer {τ : Type} (mark : Instr → List τ) (table : List Entry) (shared : Shared)
    (instr : Instr) (choice : Choice) (get : mark .queueGet = []) (load : ∀ command, mark (.load command) = [])
    (plain : ∀ instr : Instr, instr.handsOn = false → mark instr = []) :
    (exec table shared instr choice).2.flatMap mark = [] := by
  rcases instr.handsOn_cases with other | ⟨command, rfl⟩ | ⟨command, rfl⟩ | ⟨head, text, rfl⟩ | rfl
  · exact flatMap_exec mark table shared choice other get plain
  · simp only [exec]
    split <;> simp [load]
  · simp [exec, plain (.submit _) rfl]
  · simp [exec, plain .setQueued rfl]
  · simp only [exec]
    split
    · simp [load]
    · simp [plain .clearQueued rfl, plain .clearExecuting rfl]

/-- The commands of `sh_cmd_execute` and `sh_cmd_schedule` that have not been tested yet. -/
def places : Instr → List Command
  | .place command => [command]
  | _ => []

/-- `sh_cmd_execute` and `sh_cmd_schedule` do not place commands of the queue. -/
def PlacesDirect (shell : Shell) : Prop := ∀ command ∈ shell.marks places, command.origin ≠ .queued

private theorem places_of_handsOn : ∀ instr : Instr, instr.handsOn = false → places instr = [] := by
  intro instr other
  cases instr <;> first | rfl | contradiction

theorem PlacesDirect.step (direct : PlacesDirect shell) (moved : Step table shell label next) :
    PlacesDirect next := by
  simp only [PlacesDirect] at direct ⊢
  obtain ⟨program, arrival, _, marks⟩ | ⟨instr, choice, _, _, marks⟩ := step_cases moved
  · rw [marks places]
    intro command member
    rcases Multiset.mem_add.mp member with old | new
    · exact direct command old
    · generalize next.shared = after at arrival
      cases arrival with
      | call _ call =>
        cases call with
        | execute text =>
          simp only [Call.program] at new
          split at new <;> simp [places] at new
          simp [new]
        | schedule text =>
          simp only [Call.program] at new
          split at new <;> simp [places] at new
          simp [new]
        | put head text => simp [Call.program, places] at new
      | _ => simp [places] at new
  · obtain ⟨others, before, after⟩ := marks places
    rw [flatMap_exec_offer places table _ instr choice rfl (fun _ => rfl) places_of_handsOn, Multiset.coe_nil,
      add_zero] at after
    rw [after]
    exact fun command member => direct command (by rw [before]; exact Multiset.mem_add.mpr (.inl member))

end CoapsClient.ShCmd
