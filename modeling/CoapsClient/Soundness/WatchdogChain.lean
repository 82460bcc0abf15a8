import CoapsClient.Machine.Path
import CoapsClient.Model.Diagnose.Diagnose

/-! # The watchdog of the queues

One work at a time is to come, and it is handed round by the three queues. So the watchdog is fed once in each round, and a
queue that runs nothing any more stops the rounds.
-/

namespace CoapsClient.ApplDiagnose

open Machine (Path Delayed guarded)

namespace Check

def index : Check → ℕ
  | ioQueue => 0
  | systemQueue => 1
  | feed => 2

private theorem index_inj {check other : Check} (same : check.index = other.index) : check = other := by
  revert same
  cases check <;> cases other <;> decide

private theorem next_ne (check : Check) : check.next ≠ check := by
  cases check <;> decide

end Check

namespace Watchdog

/-- The handler that comes after so many. -/
def turn : ℕ → Check
  | 0 => .ioQueue
  | count + 1 => (turn count).next

/-- So many handlers, in turn. -/
def rounds (count : ℕ) : List Check := (List.range count).map turn

private theorem index_turn (count : ℕ) : (turn count).index = count % 3 := by
  induction count with
  | zero => rfl
  | succ count ih =>
    have step : ∀ check : Check, check.next.index = (check.index + 1) % 3 := by
      intro check
      cases check <;> rfl
    rw [turn, step, ih]
    omega

private theorem turn_eq (count : ℕ) (check : Check) : turn count = check ↔ count % 3 = check.index := by
  rw [← index_turn]
  exact ⟨congrArg Check.index, Check.index_inj⟩

private theorem rounds_succ (count : ℕ) : rounds (count + 1) = rounds count ++ [turn count] := by
  simp [rounds, List.range_succ]

/-- How often a handler is among them. -/
private theorem count_rounds (count : ℕ) (check : Check) : (rounds count).count check = (count + 2 - check.index) / 3 := by
  have few : check.index ≤ 2 := by
    cases check <;> decide
  induction count with
  | zero =>
    have none : (0 + 2 - check.index) / 3 = 0 := by omega
    rw [none]
    rfl
  | succ count ih =>
    rw [rounds_succ, List.count_append, ih, List.count_singleton]
    by_cases same : turn count = check
    · have there := (turn_eq count check).mp same
      rw [if_pos (beq_iff_eq.mpr same)]
      omega
    · have other := mt (turn_eq count check).mpr same
      rw [if_neg (mt beq_iff_eq.mp same)]
      omega

/-- The work is not to come. -/
structure Rests (work : Delayed) (done : Bool) : Prop where
  unset : work.due = none
  out : work.queued = false
  past : work.running = true → done = true

/-- The work is to come, once. -/
inductive Comes (work : Delayed) (done : Bool) (dueAt : ℕ) : Prop
  | set (due : work.due = some dueAt) (out : work.queued = false) (past : work.running = true → done = true)
  | queued (unset : work.due = none) (queued : work.queued = true) (past : work.running = true → done = true)
  | runs (unset : work.due = none) (out : work.queued = false) (running : work.running = true) (todo : done = false)

/-- The invariant of the works. -/
structure Kept (state : Watchdog) : Prop where
  runs : state.runs = rounds state.runs.length
  feeds : state.feeds.length = state.runs.length / 3
  comes : state.installed = true →
    Comes (state.work (turn state.runs.length)) (state.done (turn state.runs.length)) state.dueAt
  rests : ∀ check, state.installed = true → check ≠ turn state.runs.length → Rests (state.work check) (state.done check)
  absent : state.installed = false → ∀ check, state.work check = {}

/-- The board starts. -/
def boot (installed : Bool) : Watchdog := checkInit { installed }

variable {state after : Watchdog} {installed : Bool} {check : Check} {event : Event}

theorem kept_boot (installed : Bool) : Kept (boot installed) := by
  cases installed with
  | false => exact ⟨rfl, rfl, nofun, nofun, fun _ _ => rfl⟩
  | true =>
    refine ⟨rfl, rfl, fun _ => .set rfl rfl nofun, fun check _ other => ?_, nofun⟩
    have rests : (boot true).work check = {} := Function.update_of_ne other ..
    rw [rests]
    exact ⟨rfl, rfl, nofun⟩

/-- A work that is not to come is scheduled. -/
theorem Rests.schedule {work : Delayed} {done : Bool} (rests : Rests work done) (time : ℕ) :
    Comes (work.schedule time) done time := by
  have idle : ¬(work.due.isSome || work.queued) = true := by
    rw [rests.unset, rests.out]
    decide
  rw [Delayed.schedule, if_neg idle]
  exact .set rfl rests.out rests.past

/-- One work changes, and is to come as it was. -/
theorem Kept.update (kept : Kept state) (installed : state.installed = true) (check : Check) (work : Delayed) (done : Bool)
    (comes : check = turn state.runs.length → Comes work done state.dueAt)
    (rests : check ≠ turn state.runs.length → Rests work done) :
    Kept { state with work := Function.update state.work check work, done := Function.update state.done check done } := by
  refine ⟨kept.runs, kept.feeds, fun _ => ?_, fun other _ apart => ?_, fun absent => ?_⟩
  · by_cases same : turn state.runs.length = check
    · simp only [same, Function.update_self]
      exact comes same.symm
    · simp only [Function.update_of_ne same]
      exact kept.comes installed
  · by_cases same : other = check
    · simp only [same, Function.update_self]
      exact rests (same ▸ apart)
    · simp only [Function.update_of_ne same]
      exact kept.rests other installed apart
  · exact absurd (absent.symm.trans installed) Bool.false_ne_true

/-- A work is to come when it is its turn, and else is not. -/
theorem Kept.work (kept : Kept state) (check : Check) :
    (state.installed = true ∧ check = turn state.runs.length ∧ Comes (state.work check) (state.done check) state.dueAt) ∨
      Rests (state.work check) (state.done check) := by
  cases installed : state.installed with
  | false =>
    rw [kept.absent installed check]
    exact .inr ⟨rfl, rfl, nofun⟩
  | true =>
    by_cases same : check = turn state.runs.length
    · rw [same]
      exact .inl ⟨rfl, rfl, kept.comes installed⟩
    · exact .inr (kept.rests check installed same)

/-- Who has something to do is installed. -/
theorem Kept.installed_of_running (kept : Kept state) (running : (state.work check).running = true) :
    state.installed = true := by
  rw [← Bool.not_eq_false]
  intro absent
  rw [kept.absent absent check] at running
  exact Bool.false_ne_true running

private theorem kept_expire (kept : Kept state) {work : Delayed}
    (expired : (state.work check).expire state.now = some work) :
    Kept { state with work := Function.update state.work check work } := by
  obtain ⟨⟨time, due, reached⟩, rfl⟩ := Delayed.expire_eq_some expired
  rcases kept.work check with ⟨installed, turns, comes⟩ | rests
  · have moved := kept.update installed check { state.work check with due := none, queued := true } (state.done check)
      (fun _ => ?_) (absurd turns ·)
    · rwa [Function.update_eq_self] at moved
    · cases comes with
      | set due out past => exact .queued rfl rfl past
      | queued unset queued past => exact .queued rfl rfl past
      | runs unset out running todo => exact absurd (due.symm.trans unset) (Option.some_ne_none _)
  · exact absurd (due.symm.trans rests.unset) (Option.some_ne_none _)

private theorem kept_begin (kept : Kept state) {work : Delayed} (begun : (state.work check).begin = some work) :
    Kept { state with
      work := Function.update state.work check work, done := Function.update state.done check false } := by
  obtain ⟨queued, idle, rfl⟩ := Delayed.begin_eq_some begun
  rcases kept.work check with ⟨installed, turns, comes⟩ | rests
  · refine kept.update installed check _ _ (fun _ => ?_) (absurd turns ·)
    cases comes with
    | set due out past => exact absurd (out.symm.trans queued) Bool.false_ne_true
    | queued unset queued past => exact .runs unset rfl rfl rfl
    | runs unset out running todo => exact absurd (out.symm.trans queued) Bool.false_ne_true
  · exact absurd (rests.out.symm.trans queued) Bool.false_ne_true

private theorem kept_finish (kept : Kept state) (running : (state.work check).running = true)
    (done : state.done check = true) :
    Kept { state with work := Function.update state.work check (state.work check).finish } := by
  have installed := kept.installed_of_running running
  have moved := kept.update installed check (state.work check).finish (state.done check) (fun turns => ?_) fun other => ?_
  · rwa [Function.update_eq_self] at moved
  · have comes := kept.comes installed
    rw [← turns] at comes
    cases comes with
    | set due out past => exact .set due out nofun
    | queued unset queued past => exact .queued unset queued nofun
    | runs unset out running todo => exact absurd (todo.symm.trans done) Bool.false_ne_true
  · have rests := kept.rests check installed other
    exact ⟨rests.unset, rests.out, nofun⟩

/-- What a handler leaves, whichever it is. -/
private theorem handle_eq (state : Watchdog) (check : Check) (installed : state.installed = true) :
    ∃ feeds, (feeds = if check = .feed then state.feeds ++ [state.now] else state.feeds) ∧
      state.handle check =
        { state with
          runs := state.runs ++ [check]
          done := Function.update state.done check true
          feeds := feeds
          work := Function.update state.work check.next ((state.work check.next).schedule (state.now + check.delay))
          dueAt := state.now + check.delay } := by
  cases check with
  | feed => exact ⟨_, rfl, if_pos installed⟩
  | ioQueue => exact ⟨_, rfl, rfl⟩
  | systemQueue => exact ⟨_, rfl, rfl⟩

/-- A handler does its work when it is its turn. -/
theorem Kept.turn_of (kept : Kept state) (running : (state.work check).running = true) (todo : state.done check = false) :
    check = turn state.runs.length := by
  rcases kept.work check with ⟨-, turns, -⟩ | rests
  · exact turns
  · exact absurd (todo.symm.trans (rests.past running)) Bool.false_ne_true

/-- The next one is to come then. -/
private theorem kept_handle (kept : Kept state) (running : (state.work check).running = true)
    (todo : state.done check = false) :
    Kept (state.handle check) := by
  have installed := kept.installed_of_running running
  have turns := kept.turn_of running todo
  have comes := kept.comes installed
  rw [← turns] at comes
  obtain ⟨feeds, fed, equal⟩ := handle_eq state check installed
  have length : (state.runs ++ [check]).length = state.runs.length + 1 := by
    rw [List.length_append, List.length_singleton]
  have following : turn (state.runs ++ [check]).length = check.next := by
    rw [length, turn, turns]
  have apart := check.next_ne
  rw [equal]
  refine ⟨?_, ?_, fun _ => ?_, fun other _ different => ?_, fun absent => ?_⟩
  · dsimp only
    rw [length, rounds_succ, ← kept.runs, turns]
  · have last : check = .feed ↔ state.runs.length % 3 = 2 := by
      rw [turns, turn_eq]
      rfl
    have before := kept.feeds
    dsimp only
    rw [length, fed]
    split_ifs with feed
    · have there := last.mp feed
      rw [List.length_append, List.length_singleton]
      omega
    · have there := mt last.mpr feed
      omega
  · dsimp only
    rw [following, Function.update_self, Function.update_of_ne apart]
    exact (kept.rests _ installed (turns ▸ apart)).schedule _
  · dsimp only at different ⊢
    rw [following] at different
    rw [Function.update_of_ne different]
    by_cases same : other = check
    · subst same
      rw [Function.update_self]
      cases comes with
      | set due out past => exact absurd (todo.symm.trans (past running)) Bool.false_ne_true
      | queued unset queued past => exact absurd (todo.symm.trans (past running)) Bool.false_ne_true
      | runs unset out running todo => exact ⟨unset, out, fun _ => rfl⟩
    · rw [Function.update_of_ne same]
      exact kept.rests other installed (turns ▸ same)
  · exact absurd (absent.symm.trans installed) Bool.false_ne_true

theorem kept_step (kept : Kept state) (moved : state.next event = some after) : Kept after := by
  unfold next at moved
  cases event with
  | tick =>
    obtain rfl := Option.some.inj moved
    exact ⟨kept.runs, kept.feeds, kept.comes, kept.rests, kept.absent⟩
  | expire check =>
    obtain ⟨work, expired, rfl⟩ := Option.map_eq_some_iff.mp moved
    exact kept_expire kept expired
  | begin check =>
    obtain ⟨work, begun, rfl⟩ := Option.map_eq_some_iff.mp moved
    exact kept_begin kept begun
  | handle check =>
    obtain ⟨⟨running, todo⟩, equal⟩ := Option.ite_none_right_eq_some.mp moved
    obtain rfl := Option.some.inj equal
    exact kept_handle kept running todo
  | finish check =>
    obtain ⟨⟨running, done⟩, equal⟩ := Option.ite_none_right_eq_some.mp moved
    obtain rfl := Option.some.inj equal
    exact kept_finish kept running done

/-- A step of the queues. -/
def Step (state : Watchdog) (event : Event) (after : Watchdog) : Prop := state.next event = some after

variable {events more : List Event}

theorem kept_path (path : Path Step state events after) (kept : Kept state) : Kept after :=
  path.invariant Kept (fun _ _ _ kept moved => kept_step kept moved) kept

/-- Only a handler that does its work changes what has run. -/
private theorem runs_step (moved : state.next event = some after) :
    after.runs = state.runs ∨ ∃ check, event = .handle check ∧ after.runs = state.runs ++ [check] := by
  unfold next at moved
  cases event with
  | tick =>
    obtain rfl := Option.some.inj moved
    exact .inl rfl
  | expire check =>
    obtain ⟨work, -, rfl⟩ := Option.map_eq_some_iff.mp moved
    exact .inl rfl
  | begin check =>
    obtain ⟨work, -, rfl⟩ := Option.map_eq_some_iff.mp moved
    exact .inl rfl
  | handle check =>
    obtain ⟨-, equal⟩ := Option.ite_none_right_eq_some.mp moved
    obtain rfl := Option.some.inj equal
    refine .inr ⟨check, rfl, ?_⟩
    cases check with
    | feed =>
      simp only [handle, checkInit]
      split <;> rfl
    | ioQueue => rfl
    | systemQueue => rfl
  | finish check =>
    obtain ⟨-, equal⟩ := Option.ite_none_right_eq_some.mp moved
    obtain rfl := Option.some.inj equal
    exact .inl rfl

/-- Without its handler the runs of a queue stay as they are. -/
private theorem count_path (path : Path Step state events after) (blocked : .handle check ∉ events) :
    after.runs.count check = state.runs.count check := by
  induction path with
  | nil state => rfl
  | @cons state mid after event events moved _ ih =>
    obtain ⟨other, blocked⟩ := not_or.mp (mt List.mem_cons.mpr blocked)
    rw [ih blocked]
    rcases runs_step moved with same | ⟨ran, rfl, equal⟩
    · rw [same]
    · have apart : ran ≠ check := fun same => other (congrArg Event.handle same.symm)
      rw [equal, List.count_append, List.count_singleton, if_neg (mt beq_iff_eq.mp apart), Nat.add_zero]

/-- No time passes when a work has waited so long since it was due. -/
def Prompt (latency : ℕ) (state : Watchdog) (event : Event) : Prop := event = .tick → state.now < state.dueAt + latency

instance decidablePrompt (latency : ℕ) (state : Watchdog) (event : Event) : Decidable (Prompt latency state event) :=
  inferInstanceAs (Decidable (event = .tick → state.now < state.dueAt + latency))

private theorem ticks_path {latency : ℕ} (count : ℕ) (state : Watchdog)
    (early : state.now + count ≤ state.dueAt + latency) :
    Path (guarded Step (Prompt latency)) state (List.replicate count .tick) { state with now := state.now + count } := by
  induction count generalizing state with
  | zero => exact .nil state
  | succ count ih =>
    have rest := ih { state with now := state.now + 1 } (by dsimp only; omega)
    rw [Nat.add_right_comm, Nat.add_assoc] at rest
    exact .cons ⟨fun _ => by omega, rfl⟩ rest

/-- A work that runs in time. -/
def pass (check : Check) : List Event := [.expire check, .begin check, .handle check, .finish check]

/-- The works of a round, from the first one on. -/
def passes : List Event :=
  pass .ioQueue ++ List.replicate 100 .tick ++ pass .systemQueue ++ List.replicate 100 .tick ++ pass .feed

set_option maxRecDepth 8000 in
private theorem passes_run : ∃ state,
    Path (guarded Step (Prompt 10)) (boot true) (List.replicate Check.feed.delay .tick ++ passes) state := by
  have runs : (passes.foldlM (fun state event => if Prompt 10 state event then next state event else none)
      { boot true with now := Check.feed.delay }).isSome := by decide
  obtain ⟨state, ran⟩ := Option.isSome_iff_exists.mp runs
  have ticks : Path (guarded Step (Prompt 10)) (boot true) _ _ :=
    ticks_path Check.feed.delay (boot true) (Nat.le_add_right _ _)
  exact ⟨state, ticks.append (Path.guarded_of_foldlM ran)⟩

/-- In every order in which the timers expire and the queues run their works, the handlers do their work in turn, so that
the watchdog is fed once after each of the queues has run its own, and not more often. When one of the queues does not run
its handler any more, the watchdog is fed at most once from then on. -/
theorem fed_once_a_round (path : Path Step (boot installed) events state) :
    state.runs = rounds state.runs.length ∧ state.feeds.length = state.runs.length / 3 ∧
      (∀ check, state.feeds.length ≤ state.runs.count check ∧ state.runs.count check ≤ state.feeds.length + 1) ∧
      ∀ check more after, Path Step state more after → .handle check ∉ more →
        after.feeds.length ≤ state.feeds.length + 1 := by
  have kept := kept_path path (kept_boot installed)
  have counts : ∀ {state : Watchdog} (check : Check), Kept state →
      state.feeds.length ≤ state.runs.count check ∧ state.runs.count check ≤ state.feeds.length + 1 := by
    intro state check kept
    have few : check.index ≤ 2 := by
      cases check <;> decide
    rw [kept.feeds, kept.runs, count_rounds, ← kept.runs]
    omega
  refine ⟨kept.runs, kept.feeds, fun check => counts check kept, fun check more after goes blocked => ?_⟩
  calc after.feeds.length
      ≤ after.runs.count check := (counts check (kept_path goes kept)).1
    _ = state.runs.count check := count_path goes blocked
    _ ≤ state.feeds.length + 1 := (counts check kept).2

/-- The run exists. -/
theorem passes_fed_once : ∃ state, Path Step (boot true) (List.replicate Check.feed.delay .tick ++ passes) state ∧
    (state.runs = rounds state.runs.length ∧ state.feeds.length = state.runs.length / 3 ∧
      (∀ check, state.feeds.length ≤ state.runs.count check ∧ state.runs.count check ≤ state.feeds.length + 1) ∧
      ∀ check more after, Path Step state more after → .handle check ∉ more →
        after.feeds.length ≤ state.feeds.length + 1) := by
  obtain ⟨state, path⟩ := passes_run
  have path : Path Step (boot true) _ state := path.mono fun _ _ _ moved => moved.2
  exact ⟨state, path, fed_once_a_round path⟩

/-- The time of the last feed, or of the start. -/
def lastFeed (state : Watchdog) : ℕ := state.feeds.getLast?.getD 0

/-- The invariant of the times. -/
structure InTime (latency : ℕ) (state : Watchdog) : Prop where
  due : state.dueAt ≤ state.lastFeed + Check.feed.delay + state.runs.length % 3 * (100 + latency)
  now : state.now ≤ state.dueAt + latency

private theorem inTime_handle {latency : ℕ} (kept : Kept state) (times : InTime latency state)
    (running : (state.work check).running = true) (todo : state.done check = false) :
    InTime latency (state.handle check) := by
  have turns := (turn_eq _ _).mp (kept.turn_of running todo).symm
  obtain ⟨feeds, fed, equal⟩ := handle_eq state check (kept.installed_of_running running)
  have due := times.due
  have now := times.now
  rw [equal]
  refine ⟨?_, Nat.le_trans (Nat.le_add_right ..) (Nat.le_add_right ..)⟩
  dsimp only [lastFeed]
  rw [fed, List.length_append, List.length_singleton]
  cases check with
  | feed =>
    rw [if_pos rfl, List.getLast?_append, List.getLast?_singleton]
    exact Nat.le_trans (Nat.le_refl (state.now + Check.feed.delay)) (Nat.le_add_right _ _)
  | ioQueue =>
    have position : (state.runs.length + 1) % 3 = 1 := by
      simp only [Check.index] at turns
      omega
    have delay : Check.ioQueue.delay = 100 := rfl
    rw [turns] at due
    rw [position, if_neg (by decide), delay]
    simp only [Check.index, lastFeed] at due ⊢
    omega
  | systemQueue =>
    have position : (state.runs.length + 1) % 3 = 2 := by
      simp only [Check.index] at turns
      omega
    have delay : Check.systemQueue.delay = 100 := rfl
    rw [turns] at due
    rw [position, if_neg (by decide), delay]
    simp only [Check.index, lastFeed] at due ⊢
    omega

private theorem inTime_boot (latency : ℕ) : InTime latency (boot true) := by
  have due : (boot true).dueAt = Check.feed.delay := rfl
  refine ⟨?_, Nat.zero_le _⟩
  rw [due]
  exact Nat.le_trans (Nat.le_add_left _ _) (Nat.le_add_right _ _)

private theorem inTime_step {latency : ℕ} (kept : Kept state) (times : InTime latency state)
    (moved : guarded Step (Prompt latency) state event after) : InTime latency after := by
  obtain ⟨prompt, moved⟩ := moved
  unfold Step next at moved
  cases event with
  | tick =>
    obtain rfl := Option.some.inj moved
    exact ⟨times.due, prompt rfl⟩
  | expire check =>
    obtain ⟨work, -, rfl⟩ := Option.map_eq_some_iff.mp moved
    exact ⟨times.due, times.now⟩
  | begin check =>
    obtain ⟨work, -, rfl⟩ := Option.map_eq_some_iff.mp moved
    exact ⟨times.due, times.now⟩
  | handle check =>
    obtain ⟨⟨running, todo⟩, equal⟩ := Option.ite_none_right_eq_some.mp moved
    obtain rfl := Option.some.inj equal
    exact inTime_handle kept times running todo
  | finish check =>
    obtain ⟨-, equal⟩ := Option.ite_none_right_eq_some.mp moved
    obtain rfl := Option.some.inj equal
    exact ⟨times.due, times.now⟩

/-- When each of the works runs within a time after it was due, and three times this time is less than what the window of
the watchdog leaves, the watchdog of the queues does not expire. -/
theorem fed_in_time {latency : ℕ} (path : Path (guarded Step (Prompt latency)) (boot true) events state) :
    state.now ≤ state.lastFeed + Check.feed.delay + 200 + 3 * latency ∧
      (3 * latency < 159800 → state.now < state.lastFeed + windowMax) := by
  have kept : Kept state ∧ InTime latency state :=
    path.invariant (fun state => Kept state ∧ InTime latency state)
      (fun _ _ _ kept moved => ⟨kept_step kept.1 moved.2, inTime_step kept.1 kept.2 moved⟩)
      ⟨kept_boot true, inTime_boot latency⟩
  have due := kept.2.due
  have now := kept.2.now
  have few : state.runs.length % 3 * (100 + latency) ≤ 2 * (100 + latency) :=
    Nat.mul_le_mul_right _ (Nat.le_of_lt_succ (Nat.mod_lt _ (by decide)))
  have bound : state.now ≤ state.lastFeed + Check.feed.delay + 200 + 3 * latency := by omega
  refine ⟨bound, fun small => ?_⟩
  have window : windowMax = Check.feed.delay + 160000 := rfl
  rw [window]
  omega

/-- The run exists. -/
theorem passes_fed_in_time : ∃ state,
    Path (guarded Step (Prompt 10)) (boot true) (List.replicate Check.feed.delay .tick ++ passes) state ∧
      (state.now ≤ state.lastFeed + Check.feed.delay + 200 + 3 * 10 ∧
        (3 * 10 < 159800 → state.now < state.lastFeed + windowMax)) := by
  obtain ⟨state, path⟩ := passes_run
  exact ⟨state, path, fed_in_time path⟩

end Watchdog

end CoapsClient.ApplDiagnose
