import CoapsClient.Machine.Path
import CoapsClient.Model.Ui.LedTasks

/-! # The LED tasks are shown in the order of their loops

A task with a `loop` and the tasks behind it, up to the next one with a `loop` or with no time, are shown `loop` times.
`unroll` writes the repetitions out, and `Ahead` is what the pointers still lead to. Each take removes the first task of it,
whichever thread takes it, and the last task stays where it is.
-/

namespace CoapsClient.Ui

open Machine (Path guarded)

/-- The tasks that belong to the loop before an array, and the tasks behind them with their loops written out. -/
def split : List LedTask → List LedTask × List LedTask
  | [] => ([], [])
  | task :: tasks =>
      if task.timeMs = 0 then ([], [task])
      else if task.loop = 0 then (task :: (split tasks).1, (split tasks).2)
      else ([], (List.replicate task.loop.toNat (task :: (split tasks).1)).flatten ++ (split tasks).2)

/-- The tasks of an array with its loops written out. -/
def unroll (tasks : List LedTask) : List LedTask := (split tasks).1 ++ (split tasks).2

/-- An array that ends: a task without a time, and a LED for every task. -/
structure Ends (tasks : List LedTask) : Prop where
  last : ∃ task ∈ tasks, task.timeMs = 0
  shown : ∀ task ∈ tasks, task.led ≠ .none

instance (tasks : List LedTask) : Decidable (Ends tasks) :=
  decidable_of_iff ((∃ task ∈ tasks, task.timeMs = 0) ∧ ∀ task ∈ tasks, task.led ≠ .none)
    ⟨fun ⟨last, shown⟩ => ⟨last, shown⟩, fun ends => ⟨ends.last, ends.shown⟩⟩

/-- Each array of the program ends. -/
private theorem ends_arrays : ∀ tasks ∈ [ledReboot, ledNoHost, ledAll], Ends tasks := by
  decide

section Pointers

variable {tasks : List LedTask} {task head following : LedTask} {position start : ℕ} {program : LedProgram}

private theorem drop_eq_cons (found : tasks[position]? = some task) :
    tasks.drop position = task :: tasks.drop (position + 1) := by
  obtain ⟨inside, rfl⟩ := List.getElem?_eq_some_iff.mp found
  exact List.drop_eq_getElem_cons inside

private theorem split_last (zero : task.timeMs = 0) : split (task :: tasks) = ([], [task]) := by
  rw [split, if_pos zero]

private theorem split_plain (time : task.timeMs ≠ 0) (plain : task.loop = 0) :
    split (task :: tasks) = (task :: (split tasks).1, (split tasks).2) := by
  rw [split, if_neg time, if_pos plain]

private theorem split_loop (time : task.timeMs ≠ 0) (loop : task.loop ≠ 0) :
    split (task :: tasks) =
      ([], (List.replicate task.loop.toNat (task :: (split tasks).1)).flatten ++ (split tasks).2) := by
  rw [split, if_neg time, if_neg loop]

/-- A counter that is not zero is one more than the counter below it. -/
private theorem toNat_eq_succ {counter : UInt16} (positive : counter ≠ 0) : counter.toNat = (counter - 1).toNat + 1 := by
  have bound : counter.toNat ≠ 0 := fun zero => positive (UInt16.toNat_inj.mp zero)
  have one : (1 : UInt16) ≤ counter := UInt16.le_iff_toNat_le.mpr (Nat.one_le_iff_ne_zero.mpr bound)
  rw [UInt16.toNat_sub_of_le _ _ one]
  have : (1 : UInt16).toNat = 1 := rfl
  omega

/-- The pointers of a loop: the tasks behind a position belong to it, and it starts at or before them. -/
structure Loops (program : LedProgram) (position start : ℕ) (head : LedTask) : Prop where
  loop : program.loop = some start
  found : program.tasks[start]? = some head
  repeats : head.loop ≠ 0
  time : head.timeMs ≠ 0
  behind : start < position
  same : (split (program.tasks.drop (start + 1))).2 = (split (program.tasks.drop position)).2

/-- One run of a loop. -/
def block (tasks : List LedTask) (start : ℕ) (head : LedTask) : List LedTask :=
  head :: (split (tasks.drop (start + 1))).1

/-- The tasks that the pointers still lead to. -/
inductive Ahead : LedProgram → List LedTask → Prop
  /-- The last task, which was taken before. -/
  | last {program : LedProgram} {position : ℕ} {task : LedTask} (here : program.task = some position)
      (found : program.tasks[position]? = some task) (zero : task.timeMs = 0) : Ahead program [task]
  /-- No loop is repeated. -/
  | straight {program : LedProgram} {position : ℕ} (here : program.task = some position)
      (ends : ∃ task ∈ program.tasks.drop position, task.timeMs = 0) (behind : ∀ start ∈ program.loop, start < position)
      (past : program.loopCounter = 0) : Ahead program (unroll (program.tasks.drop position))
  /-- Inside of a loop that is repeated. -/
  | inside {program : LedProgram} {position start : ℕ} {head task : LedTask} (here : program.task = some position)
      (ends : ∃ task ∈ program.tasks.drop position, task.timeMs = 0) (loops : Loops program position start head)
      (found : program.tasks[position]? = some task) (time : task.timeMs ≠ 0) (plain : task.loop = 0) :
      Ahead program ((split (program.tasks.drop position)).1 ++
        ((List.replicate program.loopCounter.toNat (block program.tasks start head)).flatten ++
          (split (program.tasks.drop position)).2))
  /-- Back at the start of a loop. -/
  | again {program : LedProgram} {start : ℕ} {head : LedTask} (here : program.task = some start)
      (ends : ∃ task ∈ program.tasks.drop (start + 1), task.timeMs = 0) (loops : Loops program (start + 1) start head)
      (more : program.loopCounter ≠ 0) :
      Ahead program ((List.replicate program.loopCounter.toNat (block program.tasks start head)).flatten ++
        (split (program.tasks.drop (start + 1))).2)

/-- Behind a task the pointers lead to the rest of its loop, to the repetitions and to what follows. -/
private theorem ahead_advance (ends : ∃ task ∈ program.tasks.drop (position + 1), task.timeMs = 0)
    (found : program.tasks[position + 1]? = some following) (behind : ∀ start ∈ program.loop, start < position + 1)
    (loops : program.loopCounter ≠ 0 → Loops program (position + 1) start head) :
    Ahead (program.advance position following) ((split (program.tasks.drop (position + 1))).1 ++
      ((List.replicate program.loopCounter.toNat (block program.tasks start head)).flatten ++
        (split (program.tasks.drop (position + 1))).2)) := by
  by_cases more : program.loopCounter = 0
  · have moved : program.advance position following = { program with task := some (position + 1) } := by
      unfold LedProgram.advance
      exact if_neg fun back => back.2 more
    have none_more : (List.replicate program.loopCounter.toNat (block program.tasks start head)).flatten = [] := by
      rw [more]
      rfl
    rw [moved, none_more, List.nil_append]
    exact Ahead.straight rfl ends behind more
  have loops := loops more
  by_cases plain : following.loop = 0 ∧ following.timeMs ≠ 0
  · have moved : program.advance position following = { program with task := some (position + 1) } := by
      unfold LedProgram.advance
      exact if_neg fun back => back.1.elim (fun loop => loop plain.1) plain.2
    rw [moved]
    exact Ahead.inside rfl ends { loops with } found plain.2 plain.1
  · have back : following.loop ≠ 0 ∨ following.timeMs = 0 := by
      rw [not_and_or, not_not] at plain
      exact plain
    have moved : program.advance position following = { program with task := some start } := by
      unfold LedProgram.advance
      rw [if_pos ⟨back, more⟩, loops.loop]
    have none_inside : (split (program.tasks.drop (position + 1))).1 = [] := by
      rw [drop_eq_cons found]
      by_cases zero : following.timeMs = 0
      · rw [split_last zero]
      · rw [split_loop zero (back.resolve_right zero)]
    rw [moved, none_inside, ← loops.same]
    refine Ahead.again rfl ?_ ⟨loops.loop, loops.found, loops.repeats, loops.time, Nat.lt_succ_self start, rfl⟩ more
    obtain ⟨task, member, zero⟩ := ends
    exact ⟨task, List.drop_subset_drop_left _ loops.behind member, zero⟩

/-- A read in front of an end stays in the array. -/
private theorem exists_getElem (ends : ∃ task ∈ tasks.drop position, task.timeMs = 0) :
    ∃ task, tasks[position]? = some task := by
  obtain ⟨task, member, -⟩ := ends
  have inside : position < tasks.length := by
    by_contra outside
    rw [List.drop_eq_nil_of_le (Nat.le_of_not_lt outside)] at member
    exact List.not_mem_nil member
  exact ⟨tasks[position], List.getElem?_eq_getElem inside⟩

/-- Behind a task with a time the array ends. -/
private theorem ends_behind (ends : ∃ task ∈ tasks.drop position, task.timeMs = 0) (found : tasks[position]? = some task)
    (time : task.timeMs ≠ 0) : ∃ task ∈ tasks.drop (position + 1), task.timeMs = 0 := by
  obtain ⟨last, member, zero⟩ := ends
  rw [drop_eq_cons found] at member
  rcases List.mem_cons.mp member with rfl | member
  · exact absurd zero time
  · exact ⟨last, member, zero⟩

@[simp] theorem enter_tasks : (program.enter position task).tasks = program.tasks := by
  unfold LedProgram.enter
  split_ifs <;> rfl

@[simp] theorem enter_task : (program.enter position task).task = program.task := by
  unfold LedProgram.enter
  split_ifs <;> rfl

@[simp] theorem advance_tasks : (program.advance position task).tasks = program.tasks := by
  unfold LedProgram.advance
  split_ifs <;> rfl

private theorem enter_plain (plain : task.loop = 0) : program.enter position task = program :=
  if_neg (not_not.mpr plain)

private theorem enter_again (loop : task.loop ≠ 0) (at_start : program.loop = some position) :
    program.enter position task = { program with loopCounter := program.loopCounter - 1 } := by
  unfold LedProgram.enter
  rw [if_pos loop, if_neg (not_not.mpr at_start)]

private theorem enter_loop (loop : task.loop ≠ 0) (new : program.loop ≠ some position) :
    program.enter position task = { program with loop := some position, loopCounter := task.loop - 1 } := by
  unfold LedProgram.enter
  rw [if_pos loop, if_pos new]

/-- The last task is taken, and its pointer stays. -/
private theorem take_last (here : program.task = some position) (found : program.tasks[position]? = some task)
    (zero : task.timeMs = 0) : ∃ after, program.take = some (task, after) ∧ after.tasks = program.tasks ∧
      Ahead after [task] := by
  refine ⟨program.enter position task, ?_, enter_tasks, Ahead.last (enter_task.trans here) ?_ zero⟩
  · simp [LedProgram.take, here, found, zero]
  · rw [enter_tasks]
    exact found

/-- A task with a time is taken, and the pointer moves to the next one or back to the loop. -/
private theorem take_timed {entered : LedProgram} (start : ℕ) (head : LedTask) (here : program.task = some position)
    (found : program.tasks[position]? = some task) (time : task.timeMs ≠ 0)
    (ends : ∃ task ∈ program.tasks.drop (position + 1), task.timeMs = 0) (enters : program.enter position task = entered)
    (before : ∀ start ∈ entered.loop, start < position + 1)
    (loops : entered.loopCounter ≠ 0 → Loops entered (position + 1) start head) :
    ∃ after, program.take = some (task, after) ∧ after.tasks = program.tasks ∧
      Ahead after ((split (program.tasks.drop (position + 1))).1 ++
        ((List.replicate entered.loopCounter.toNat (block program.tasks start head)).flatten ++
          (split (program.tasks.drop (position + 1))).2)) := by
  obtain ⟨following, behind⟩ := exists_getElem ends
  have same : entered.tasks = program.tasks := enters ▸ enter_tasks
  refine ⟨entered.advance position following, ?_, advance_tasks.trans same, ?_⟩
  · simp [LedProgram.take, here, found, time, enters, behind]
  · rw [← same] at ends behind ⊢
    exact ahead_advance ends behind before loops

/-- A take gives the first task that the pointers lead to, and leaves them at the rest. The last task is left where it is. -/
theorem Ahead.take {rest : List LedTask} (ahead : Ahead program rest) :
    ∃ task later after, program.take = some (task, after) ∧ after.tasks = program.tasks ∧ rest = task :: later ∧
      (task.timeMs ≠ 0 → Ahead after later) ∧ (task.timeMs = 0 → later = [] ∧ Ahead after [task]) := by
  cases ahead with
  | @last position task here found zero =>
    obtain ⟨after, taken, same, ahead⟩ := take_last here found zero
    exact ⟨task, [], after, taken, same, rfl, fun time => absurd zero time, fun _ => ⟨rfl, ahead⟩⟩
  | @straight position here ends before past =>
    obtain ⟨task, found⟩ := exists_getElem ends
    by_cases zero : task.timeMs = 0
    · obtain ⟨after, taken, same, ahead⟩ := take_last here found zero
      refine ⟨task, [], after, taken, same, ?_, fun time => absurd zero time, fun _ => ⟨rfl, ahead⟩⟩
      rw [drop_eq_cons found, unroll, split_last zero]
      rfl
    have ends := ends_behind ends found zero
    have new : program.loop ≠ some position := fun same => Nat.lt_irrefl position (before position same)
    by_cases plain : task.loop = 0
    · obtain ⟨after, taken, same, ahead⟩ := take_timed 0 task here found zero ends (enter_plain plain)
        (fun start loop => Nat.lt_succ_of_lt (before start loop)) (fun more => absurd past more)
      refine ⟨task, _, after, taken, same, ?_, fun _ => ahead, fun last => absurd last zero⟩
      rw [drop_eq_cons found, unroll, split_plain zero plain, past]
      rfl
    · obtain ⟨after, taken, same, ahead⟩ := take_timed position task here found zero ends
        (enter_loop plain new) (fun start loop => Option.some.inj loop ▸ Nat.lt_succ_self position)
        (fun _ => ⟨rfl, found, plain, zero, Nat.lt_succ_self position, rfl⟩)
      refine ⟨task, _, after, taken, same, ?_, fun _ => ahead, fun last => absurd last zero⟩
      rw [drop_eq_cons found, unroll, split_loop zero plain, toNat_eq_succ plain, List.replicate_succ, List.flatten_cons]
      simp [block]
  | @inside position start head task here ends loops found time plain =>
    have behind := ends_behind ends found time
    have later : (split (program.tasks.drop position)).2 = (split (program.tasks.drop (position + 1))).2 := by
      rw [drop_eq_cons found, split_plain time plain]
    obtain ⟨after, taken, same, ahead⟩ := take_timed start head here found time behind (enter_plain plain)
      (fun _ loop => Nat.lt_succ_of_lt (Option.some.inj (loops.loop.symm.trans loop) ▸ loops.behind))
      (fun _ => { loops with behind := Nat.lt_succ_of_lt loops.behind, same := loops.same.trans later })
    refine ⟨task, _, after, taken, same, ?_, fun _ => ahead, fun last => absurd last time⟩
    rw [later, drop_eq_cons found, split_plain time plain]
    rfl
  | @again start head here ends loops more =>
    obtain ⟨after, taken, same, ahead⟩ := take_timed start head here loops.found loops.time ends
      (enter_again loops.repeats loops.loop) (fun _ loop => Option.some.inj (loops.loop.symm.trans loop) ▸ loops.behind)
      (fun _ => { loops with })
    refine ⟨head, _, after, taken, same, ?_, fun _ => ahead, fun last => absurd last loops.time⟩
    rw [toNat_eq_succ more, List.replicate_succ, List.flatten_cons]
    simp [block]

end Pointers

section Runs

variable {ι : Type*} [DecidableEq ι] {state after : LedTasks ι} {event : Event ι} {events : List (Event ι)}
variable {tasks : List LedTask} {task : LedTask}

/-- The repetitions hold tasks of the array. -/
private theorem mem_of_mem_split (member : task ∈ (split tasks).1 ∨ task ∈ (split tasks).2) : task ∈ tasks := by
  induction tasks with
  | nil => exact member.elim id id
  | cons first tasks ih =>
    by_cases zero : first.timeMs = 0
    · rw [split_last zero] at member
      rcases member with member | member
      · exact absurd member List.not_mem_nil
      · exact List.mem_singleton.mp member ▸ List.mem_cons_self
    by_cases plain : first.loop = 0
    · rw [split_plain zero plain, List.mem_cons] at member
      rcases member with (rfl | member) | member
      · exact List.mem_cons_self
      · exact List.mem_cons_of_mem first (ih (.inl member))
      · exact List.mem_cons_of_mem first (ih (.inr member))
    · rw [split_loop zero plain, List.mem_append, List.mem_flatten] at member
      rcases member with member | ⟨run, runs, member⟩ | member
      · exact absurd member List.not_mem_nil
      · obtain rfl := List.eq_of_mem_replicate runs
        rcases List.mem_cons.mp member with rfl | member
        · exact List.mem_cons_self
        · exact List.mem_cons_of_mem first (ih (.inl member))
      · exact List.mem_cons_of_mem first (ih (.inr member))

private theorem mem_of_mem_unroll (member : task ∈ unroll tasks) : task ∈ tasks :=
  mem_of_mem_split (List.mem_append.mp member)

/-- The array of every call ends. -/
def Shown (_ : LedTasks ι) (event : Event ι) : Prop := ∀ caller tasks, event = .tasks caller tasks → Ends tasks

/-- The thread will take a task, or schedule the work. -/
def Phase.Goes : Phase → Prop
  | .idle => False
  | .entered => True
  | .taken task => task.led ≠ .none ∧ task.timeMs ≠ 0

/-- How far the tasks are taken. -/
inductive Keeps : LedTasks ι → Prop
  | unset : Keeps {}
  | running {state : LedTasks ι} (rest : List LedTask) (ends : Ends state.program.tasks) (ahead : Ahead state.program rest)
      (order : unroll state.program.tasks = state.taken ++ rest)
      (goes : state.work.isSome ∨ ∃ thread, (state.phase thread).Goes) : Keeps state
  | past {state : LedTasks ι} {last : LedTask} (repeats : ℕ) (ends : Ends state.program.tasks)
      (ahead : Ahead state.program [last]) (zero : last.timeMs = 0)
      (finish : (unroll state.program.tasks).getLast? = some last)
      (order : state.taken = unroll state.program.tasks ++ List.replicate repeats last) : Keeps state

/-- At the start of an array the pointers lead to all of it. -/
private theorem ahead_start (ends : Ends tasks) : Ahead { tasks, task := some 0 } (unroll tasks) :=
  @Ahead.straight { tasks, task := some 0 } 0 rfl ends.last (fun _ loop => nomatch loop) rfl

/-- What an event does. -/
private theorem next_cases (moved : state.next event = some after) :
    (∃ caller tasks, event = .tasks caller tasks ∧ state.phase (some caller) = .idle ∧
      after = { state.setPhase (some caller) .entered with program := { tasks, task := some 0 }, taken := [], shown := [] }) ∨
    (event = .expire ∧ state.work.isSome ∧ state.phase none = .idle ∧
      after = { state.setPhase none .entered with work := none }) ∨
    (∃ thread task program, event = .take thread ∧ state.phase thread = .entered ∧
      state.program.take = some (task, program) ∧
      after = { state.setPhase thread (.taken task) with program, taken := state.taken ++ [task] }) ∨
    ∃ thread task, event = .op thread ∧ state.phase thread = .taken task ∧
      after = (state.setPhase thread .idle).perform task := by
  cases event with
  | tasks caller tasks =>
    obtain ⟨idle, equal⟩ := Option.ite_none_right_eq_some.mp moved
    exact .inl ⟨caller, tasks, rfl, idle, (Option.some.inj equal).symm⟩
  | expire =>
    obtain ⟨⟨pending, idle⟩, equal⟩ := Option.ite_none_right_eq_some.mp moved
    exact .inr (.inl ⟨rfl, pending, idle, (Option.some.inj equal).symm⟩)
  | take thread =>
    obtain ⟨entered, equal⟩ := Option.ite_none_right_eq_some.mp moved
    obtain ⟨⟨task, program⟩, taken, rfl⟩ := Option.map_eq_some_iff.mp equal
    exact .inr (.inr (.inl ⟨thread, task, program, rfl, entered, taken, rfl⟩))
  | op thread =>
    unfold LedTasks.next at moved
    dsimp only at moved
    split at moved
    · next task taken => exact .inr (.inr (.inr ⟨thread, task, rfl, taken, (Option.some.inj moved).symm⟩))
    · exact nomatch moved

omit [DecidableEq ι] in
private theorem perform_work (timed : state.work.isSome ∨ (task.led ≠ .none ∧ task.timeMs ≠ 0)) :
    (state.perform task).work.isSome := by
  unfold LedTasks.perform
  by_cases shows : task.led = .none
  · rw [if_neg (not_not.mpr shows)]
    exact timed.resolve_right fun timed => timed.1 shows
  · rw [if_pos shows]
    by_cases time : task.timeMs = 0
    · simpa [time] using timed.resolve_right fun timed => timed.2 time
    · simp [time]

omit [DecidableEq ι] in
@[simp] theorem perform_program : (state.perform task).program = state.program := by
  unfold LedTasks.perform
  split_ifs <;> rfl

omit [DecidableEq ι] in
@[simp] theorem perform_taken : (state.perform task).taken = state.taken := by
  unfold LedTasks.perform
  split_ifs <;> rfl

omit [DecidableEq ι] in
@[simp] theorem perform_phase : (state.perform task).phase = state.phase := by
  unfold LedTasks.perform
  split_ifs <;> rfl

/-- A thread that took a task shows it: while the array runs, another task is to come. -/
private theorem goes_op {thread : Option ι} (taken : state.phase thread = .taken task)
    (goes : state.work.isSome ∨ ∃ thread, (state.phase thread).Goes) :
    ((state.setPhase thread .idle).perform task).work.isSome ∨
      ∃ other, (((state.setPhase thread .idle).perform task).phase other).Goes := by
  rcases goes with pending | ⟨other, goes⟩
  · exact .inl (perform_work (.inl pending))
  · by_cases same : other = thread
    · subst same
      rw [taken] at goes
      exact .inl (perform_work (.inr goes))
    · refine .inr ⟨other, ?_⟩
      rw [perform_phase]
      simpa [LedTasks.setPhase, same] using goes

/-- A task that was taken from a running array is followed by another one, or it was the last one. -/
theorem keeps_step (keeps : Keeps state) (shown : Shown state event) (moved : state.next event = some after) :
    Keeps after := by
  obtain ⟨caller, tasks, rfl, idle, rfl⟩ | ⟨rfl, pending, idle, rfl⟩ | ⟨thread, task, program, rfl, entered, taken, rfl⟩ |
    ⟨thread, task, rfl, taken, rfl⟩ := next_cases moved
  · have ends := shown caller tasks rfl
    exact Keeps.running (unroll tasks) ends (ahead_start ends) rfl
      (.inr ⟨some caller, by simp [LedTasks.setPhase, Phase.Goes]⟩)
  · cases keeps with
    | unset => exact absurd pending Bool.false_ne_true
    | running rest ends ahead order _ =>
      exact Keeps.running rest ends ahead order (.inr ⟨none, by simp [LedTasks.setPhase, Phase.Goes]⟩)
    | past repeats ends ahead zero finish order => exact Keeps.past repeats ends ahead zero finish order
  · cases keeps with
    | unset => exact nomatch entered
    | running rest ends ahead order _ =>
      obtain ⟨first, later, next, took, same, split, timed, last⟩ := ahead.take
      obtain ⟨rfl, rfl⟩ := Prod.mk.inj (Option.some.inj (took.symm.trans taken))
      have member : first ∈ unroll state.program.tasks := by
        rw [order, split]
        exact List.mem_append_right _ List.mem_cons_self
      have led := ends.shown first (mem_of_mem_unroll member)
      rw [split] at order
      rw [← same] at ends order
      by_cases zero : first.timeMs = 0
      · obtain ⟨rfl, ahead⟩ := last zero
        refine Keeps.past 0 ends ahead zero ?_ ?_
        · exact (congrArg List.getLast? order).trans List.getLast?_concat
        · exact order.symm.trans (List.append_nil _).symm
      · refine Keeps.running later ends (timed zero) (order.trans (List.append_cons _ _ _)) (.inr ⟨thread, ?_⟩)
        simp [LedTasks.setPhase, Phase.Goes, led, zero]
    | past repeats ends ahead zero finish order =>
      obtain ⟨first, later, next, took, same, split, timed, last⟩ := ahead.take
      obtain ⟨rfl, rfl⟩ := Prod.mk.inj (Option.some.inj (took.symm.trans taken))
      obtain ⟨rfl, rfl⟩ := List.cons.inj split
      rw [← same] at ends finish order
      refine Keeps.past (repeats + 1) ends (last zero).2 zero finish ?_
      rw [List.replicate_succ', ← List.append_assoc, ← order]
  · cases keeps with
    | unset => exact nomatch taken
    | running rest ends ahead order goes =>
      refine Keeps.running rest ?_ ?_ ?_ (goes_op taken goes)
      · rw [perform_program]
        exact ends
      · rw [perform_program]
        exact ahead
      · rw [perform_program, perform_taken]
        exact order
    | past repeats ends ahead zero finish order =>
      refine Keeps.past repeats ?_ ?_ zero ?_ ?_
      · rw [perform_program]
        exact ends
      · rw [perform_program]
        exact ahead
      · rw [perform_program]
        exact finish
      · rw [perform_program, perform_taken]
        exact order

/-- The tasks of the array are taken in order, as far as they are taken. -/
structure InOrder (state : LedTasks ι) : Prop where
  order : state.taken <+: unroll state.program.tasks ∨
    ∃ last repeats, (unroll state.program.tasks).getLast? = some last ∧
      state.taken = unroll state.program.tasks ++ List.replicate repeats last
  coming : ¬ unroll state.program.tasks <+: state.taken → state.work.isSome ∨ ∃ thread, state.phase thread ≠ .idle
  inside : ∀ thread, state.phase thread = .entered → (state.next (.take thread)).isSome

/-- From whichever threads and whenever arrays are shown, the tasks of the last one are taken in the order of its loops, each
repetition once, and behind them only the last task again. As long as one is missing, the work is scheduled or a thread is on
its way, and a thread that is to take a task finds it inside of the array. -/
theorem tasks_taken_in_order
    (path : Path (guarded (fun state event after => LedTasks.next state event = some after) Shown) {} events state) :
    InOrder state := by
  have keeps := path.invariant Keeps (fun _ _ _ keeps moved => keeps_step keeps moved.1 moved.2) .unset
  have takes : ∀ {program : LedProgram} {rest : List LedTask}, Ahead program rest → program.take.isSome := by
    intro program rest ahead
    obtain ⟨task, later, after, taken, -⟩ := ahead.take
    exact Option.isSome_of_eq_some taken
  cases keeps with
  | unset => exact ⟨.inl List.nil_prefix, fun missing => absurd List.nil_prefix missing, fun _ entered => nomatch entered⟩
  | running rest ends ahead order goes =>
    refine ⟨.inl ⟨_, order.symm⟩, fun _ => ?_, fun thread entered => ?_⟩
    · refine goes.imp_right fun ⟨thread, goes⟩ => ⟨thread, fun idle => ?_⟩
      rw [idle] at goes
      exact goes
    · simpa [LedTasks.next, entered] using takes ahead
  | past repeats ends ahead zero finish order =>
    refine ⟨.inr ⟨_, repeats, finish, order⟩, fun missing => absurd ?_ missing, fun thread entered => ?_⟩
    · exact ⟨_, order.symm⟩
    · simpa [LedTasks.next, entered] using takes ahead

/-- `led_reboot` is shown, and two tasks of it are taken. -/
def showReboot : List (Event Unit) := [.tasks () ledReboot, .take (some ()), .op (some ()), .expire, .take none]

/-- It meets the condition. -/
theorem reboot_taken_in_order : ∃ state : LedTasks Unit,
    Path (guarded (fun state event after => LedTasks.next state event = some after) Shown) {} showReboot state ∧
      InOrder state := by
  have start : ∀ state : LedTasks Unit, Shown state (.tasks () ledReboot) := by
    rintro _ caller tasks same
    obtain ⟨-, rfl⟩ := Event.tasks.inj same
    exact ends_arrays ledReboot List.mem_cons_self
  have path : Path (guarded (fun state event after => LedTasks.next state event = some after) Shown)
      ({} : LedTasks Unit) showReboot _ :=
    .cons ⟨start _, rfl⟩ (.cons ⟨nofun, rfl⟩ (.cons ⟨nofun, rfl⟩ (.cons ⟨nofun, rfl⟩ (.cons ⟨nofun, rfl⟩ (.nil _)))))
  exact ⟨_, path, tasks_taken_in_order path⟩

/-- Every array that is shown ends, and it is shown when the one before is over. -/
def ShownAlone (state : LedTasks ι) (event : Event ι) : Prop :=
  ∀ caller tasks, event = .tasks caller tasks → Ends tasks ∧ state.work = none ∧ ∀ thread, state.phase thread = .idle

/-- Where the one task of an array is that is next. -/
inductive Alone : LedTasks ι → Prop
  | past {state : LedTasks ι} (idle : ∀ thread, state.phase thread = .idle) (work : state.work = none)
      (order : state.shown = unroll state.program.tasks) : Alone state
  | waiting {state : LedTasks ι} (shown : List LedTask) (task : LedTask) (rest : List LedTask)
      (ends : Ends state.program.tasks) (ahead : Ahead state.program rest)
      (order : unroll state.program.tasks = state.shown ++ rest) (idle : ∀ thread, state.phase thread = .idle)
      (work : state.work = some task.timeMs.toNat) (before : state.shown = shown ++ [task]) : Alone state
  | entered {state : LedTasks ι} (thread : Option ι) (rest : List LedTask)
      (ends : Ends state.program.tasks) (ahead : Ahead state.program rest)
      (order : unroll state.program.tasks = state.shown ++ rest) (work : state.work = none)
      (phase : state.phase = Function.update (fun _ => .idle) thread .entered) : Alone state
  | taken {state : LedTasks ι} (thread : Option ι) (task : LedTask) (rest : List LedTask)
      (ends : Ends state.program.tasks) (ahead : task.timeMs ≠ 0 → Ahead state.program rest)
      (last : task.timeMs = 0 → rest = []) (order : unroll state.program.tasks = state.shown ++ task :: rest)
      (work : state.work = none) (phase : state.phase = Function.update (fun _ => .idle) thread (.taken task)) : Alone state

omit [DecidableEq ι] in
private theorem phase_eq_idle {phase : Option ι → Phase} (idle : ∀ thread, phase thread = .idle) : phase = fun _ => .idle :=
  funext idle

/-- Only one thread is not idle. -/
private theorem busy_thread {phases : Option ι → Phase} {thread other : Option ι} {phase found : Phase}
    (only : phases = Function.update (fun _ => .idle) thread phase) (here : phases other = found) (busy : found ≠ .idle) :
    other = thread ∧ found = phase := by
  subst only
  by_cases same : other = thread
  · subst same
    exact ⟨rfl, here.symm.trans (Function.update_self _ _ _)⟩
  · exact absurd (here.symm.trans (Function.update_of_ne same _ _)) busy

/-- The one task of an array is taken and shown before the next one. -/
private theorem alone_step (alone : Alone state) (shown : ShownAlone state event) (moved : state.next event = some after) :
    Alone after := by
  obtain ⟨caller, tasks, rfl, idle, rfl⟩ | ⟨rfl, pending, idle, rfl⟩ | ⟨thread, task, program, rfl, entered, taken, rfl⟩ |
    ⟨thread, task, rfl, taken, rfl⟩ := next_cases moved
  · obtain ⟨ends, work, idle⟩ := shown caller tasks rfl
    refine Alone.entered (some caller) (unroll tasks) ends (ahead_start ends) rfl work ?_
    simp [LedTasks.setPhase, phase_eq_idle idle]
  · cases alone with
    | past _ work _ => exact absurd (work.symm ▸ pending : (none : Option ℕ).isSome) Bool.false_ne_true
    | waiting shown task rest ends ahead order idle _ _ =>
      refine Alone.entered none rest ends ahead order rfl ?_
      simp [LedTasks.setPhase, phase_eq_idle idle]
    | entered thread rest ends ahead order work _ =>
      exact absurd (work.symm ▸ pending : (none : Option ℕ).isSome) Bool.false_ne_true
    | taken thread task rest ends ahead last order work _ =>
      exact absurd (work.symm ▸ pending : (none : Option ℕ).isSome) Bool.false_ne_true
  · cases alone with
    | past idle _ _ => exact nomatch (idle thread).symm.trans entered
    | waiting _ _ rest ends ahead order idle _ _ => exact nomatch (idle thread).symm.trans entered
    | entered thread' rest ends ahead order work phase =>
      obtain ⟨first, later, next, took, same, split, timed, last⟩ := ahead.take
      obtain ⟨rfl, rfl⟩ := Prod.mk.inj (Option.some.inj (took.symm.trans taken))
      obtain ⟨rfl, -⟩ := busy_thread phase entered nofun
      rw [← same] at ends order
      refine Alone.taken thread first later ends timed (fun zero => (last zero).1) (order.trans (split ▸ rfl)) work ?_
      simp [LedTasks.setPhase, phase]
    | taken thread' task' rest ends ahead last order work phase =>
      exact nomatch (busy_thread phase entered nofun).2
  · cases alone with
    | past idle _ _ => exact nomatch (idle thread).symm.trans taken
    | waiting _ _ rest ends ahead order idle _ _ => exact nomatch (idle thread).symm.trans taken
    | entered thread' rest ends ahead order work phase =>
      exact nomatch (busy_thread phase taken nofun).2
    | taken thread' task' rest ends ahead last order work phase =>
      obtain ⟨rfl, same⟩ := busy_thread phase taken nofun
      obtain rfl := Phase.taken.inj same
      have member : task ∈ unroll state.program.tasks := by
        rw [order]
        exact List.mem_append_right _ List.mem_cons_self
      have led := ends.shown task (mem_of_mem_unroll member)
      have idle : ∀ other, (state.setPhase thread .idle).phase other = .idle := by
        intro other
        simp [LedTasks.setPhase, phase]
      by_cases zero : task.timeMs = 0
      · obtain rfl := last zero
        have performed : (state.setPhase thread .idle).perform task =
            { state.setPhase thread .idle with shown := state.shown ++ [task] } := by
          unfold LedTasks.perform
          rw [if_pos led, if_neg (not_not.mpr zero)]
          rfl
        rw [performed]
        exact Alone.past idle work order.symm
      · have performed : (state.setPhase thread .idle).perform task =
            { state.setPhase thread .idle with shown := state.shown ++ [task], work := some task.timeMs.toNat } := by
          unfold LedTasks.perform
          rw [if_pos led, if_pos zero]
          rfl
        rw [performed]
        exact Alone.waiting state.shown task rest ends (ahead zero) (order.trans (List.append_cons _ _ _)) idle rfl rfl

/-- Each task is shown once. -/
structure Once (state : LedTasks ι) : Prop where
  order : state.shown <+: unroll state.program.tasks
  time : ∀ delay, state.work = some delay → ∃ task, state.shown.getLast? = some task ∧ delay = task.timeMs.toNat
  all : state.work = none → (∀ thread, state.phase thread = .idle) → state.shown = unroll state.program.tasks

/-- An array that is shown when the one before is over is shown once: what was shown is the start of its tasks with the loops
written out, the work waits for as long as the task shown last says, and all is shown when nothing is to come. -/
theorem tasks_shown_once
    (path : Path (guarded (fun state event after => LedTasks.next state event = some after) ShownAlone) {} events state) :
    Once state := by
  have alone := path.invariant Alone (fun _ _ _ alone moved => alone_step alone moved.1 moved.2)
    (.past (fun _ => rfl) rfl rfl)
  cases alone with
  | past idle work order =>
    exact ⟨order ▸ List.prefix_rfl,
      fun delay later => absurd (work.symm.trans later) (Option.some_ne_none delay).symm, fun _ _ => order⟩
  | waiting shown task rest ends ahead order idle work before =>
    refine ⟨⟨rest, order.symm⟩,
      fun delay later => ⟨task, ?_, Option.some.inj (later.symm.trans work)⟩,
      fun past _ => absurd (work.symm.trans past) (Option.some_ne_none _)⟩
    rw [before]
    exact List.getLast?_concat
  | entered thread rest ends ahead order work phase =>
    refine ⟨⟨rest, order.symm⟩,
      fun delay later => absurd (work.symm.trans later) (Option.some_ne_none delay).symm, fun _ idle => ?_⟩
    have busy := idle thread
    rw [phase, Function.update_self] at busy
    exact nomatch busy
  | taken thread task rest ends ahead last order work phase =>
    refine ⟨⟨task :: rest, order.symm⟩,
      fun delay later => absurd (work.symm.trans later) (Option.some_ne_none delay).symm, fun _ idle => ?_⟩
    have busy := idle thread
    rw [phase, Function.update_self] at busy
    exact nomatch busy

/-- It meets the condition. -/
theorem reboot_shown_once : ∃ state : LedTasks Unit,
    Path (guarded (fun state event after => LedTasks.next state event = some after) ShownAlone) {} showReboot state ∧
      Once state := by
  have start : ShownAlone ({} : LedTasks Unit) (.tasks () ledReboot) := by
    rintro caller tasks same
    obtain ⟨-, rfl⟩ := Event.tasks.inj same
    exact ⟨ends_arrays ledReboot List.mem_cons_self, rfl, fun _ => rfl⟩
  have path : Path (guarded (fun state event after => LedTasks.next state event = some after) ShownAlone)
      ({} : LedTasks Unit) showReboot _ :=
    .cons ⟨start, rfl⟩ (.cons ⟨nofun, rfl⟩ (.cons ⟨nofun, rfl⟩ (.cons ⟨nofun, rfl⟩ (.cons ⟨nofun, rfl⟩ (.nil _)))))
  exact ⟨_, path, tasks_shown_once path⟩

end Runs

end CoapsClient.Ui
