import CoapsClient.Model.Shell.Steps

/-! # The queue of remote commands does not stall

Only `sh_cmd_wait_fn` takes commands out of the queue, so while commands wait, somebody must be bound
to call it: the command that holds `EXECUTING`, the AT command that holds `AT_PENDING`, or a thread on
its way there. Two places clear `EXECUTING` without caring for the queue. `sh_cmd_result` does nothing
more for a positive result, which is right only while an AT command is pending, but `sh_cmd` returns
it for refused commands too. And `sh_cmd_wait_fn` clears the bit some time after it found the queue
empty.
-/

namespace CoapsClient.ShCmd

open Machine

/-- The instructions on the way to the test of `sh_cmd_wait_fn`. -/
def waits : Instr → List Unit
  | .setQueued => [()]
  | .waitFn => [()]
  | _ => []

/-- Somebody is bound to look into the queue, or there is nothing in it. -/
def Advances (shared : Shared) (waiting : ℕ) : Prop :=
  shared.queue = [] ∨ shared.executing = true ∨ shared.atPending = true ∨ 0 < waiting

/-- One of the two bits is set or a work item is pending. -/
def busy (shared : Shared) : Bool :=
  shared.executing || shared.atPending || shared.executeWork || shared.scheduleWork || shared.responseWork

/-- No bit is set, no work item is pending and no thread is on its way to `sh_cmd_wait_fn`. -/
structure Quiet (shell : Shell) : Prop where
  idle : busy shell.shared = false
  waiting : (shell.marks waits).card = 0

/-- `EXECUTING` may be cleared without looking into the queue. -/
def mayClear (shell : Shell) : Bool :=
  shell.shared.queue.isEmpty || shell.shared.atPending || 0 < (shell.marks waits).card

/-- What the steps of a run have to meet: a positive result, and the end of `sh_cmd_wait_fn` with an
empty queue, clear `EXECUTING` only when they may. -/
def queueCondition (shell : Shell) (label : Label) : Bool :=
  match executes shell label with
  | some (.result _ res) => res ≤ 0 || !shell.shared.executing || mayClear shell
  | some .clearExecuting => mayClear shell
  | _ => true

/-- The accepted remote commands are those taken out of the queue and those that are in it. -/
def Dispatched (shell : Shell) : Prop :=
  (shell.shared.accepted.filter fun command => command.origin = .queued : Multiset Command) =
    ((shell.shared.dispatched ++ shell.shared.queue).map remote : List Command)

variable {table : List Entry} {shell next : Shell} {label : Label} {shared after : Shared} {instr : Instr}
  {choice : Choice} {others waiting : ℕ}

theorem Advances.mono (advances : Advances shared others) (queue : after.queue = shared.queue)
    (executing : after.executing = shared.executing) (atPending : after.atPending = shared.atPending)
    (more : others ≤ waiting) : Advances after waiting := by
  simp only [Advances] at advances ⊢
  rw [queue, executing, atPending]
  rcases advances with empty | busy | pending | others
  · exact .inl empty
  · exact .inr (.inl busy)
  · exact .inr (.inr (.inl pending))
  · exact .inr (.inr (.inr (by omega)))

/-- Every instruction leaves somebody to look into the queue, if those that clear `EXECUTING` may. -/
theorem Advances.exec (table : List Entry) (choice : Choice)
    (advances : Advances shared (others + (waits instr).length))
    (positive : ∀ fromResponse res, instr = .result fromResponse res → 0 < res → shared.executing = true →
      Advances { shared with executing := false } others)
    (taken : instr = .clearExecuting → Advances { shared with executing := false } others) :
    Advances (exec table shared instr choice).1
      (others + ((exec table shared instr choice).2.flatMap waits).length) := by
  cases instr with
  | place command =>
    simp only [ShCmd.exec]
    split
    · exact advances.mono rfl rfl rfl (by simp [waits])
    · exact .inr (.inl rfl)
  | load command => exact advances.mono rfl rfl rfl (by simp [waits])
  | submit insecure => cases insecure <;> exact advances.mono rfl rfl rfl (by simp [waits])
  | enqueue head text => exact .inr (.inr (.inr (Nat.succ_pos _)))
  | setQueued => exact .inr (.inr (.inr (Nat.succ_pos _)))
  | waitFn =>
    cases busy : shared.executing with
    | true =>
      simp only [ShCmd.exec, busy, if_true]
      exact .inr (.inl busy)
    | false =>
      simp only [ShCmd.exec, busy, Bool.false_eq_true, if_false]
      exact .inr (.inl rfl)
  | queueGet =>
    cases head : shared.queue with
    | nil =>
      simp only [ShCmd.exec, head]
      exact .inl head
    | cons text rest =>
      simp only [ShCmd.exec, head]
      rcases advances with empty | busy | pending | waiting
      · simp [head] at empty
      · exact .inr (.inl busy)
      · exact .inr (.inr (.inl pending))
      · exact .inr (.inr (.inr waiting))
  | clearQueued => exact advances.mono rfl rfl rfl (by simp [waits])
  | clearExecuting => exact (taken rfl).mono rfl rfl rfl (by simp)
  | shCmd insecure => exact advances.mono rfl rfl rfl (by simp [waits])
  | testAtPending handler =>
    simp only [ShCmd.exec]
    split
    · exact advances.mono rfl rfl rfl (by simp [waits])
    · exact .inr (.inr (.inl rfl))
  | atHandler entry parameter => exact advances.mono rfl rfl rfl (by simp [waits])
  | asyncCheck => exact advances.mono rfl rfl rfl (by simp [waits])
  | modemAtCmdAsync =>
    simp only [ShCmd.exec]
    split <;> split <;> exact advances.mono rfl rfl rfl (by simp [waits])
  | result fromResponse res =>
    cases busy : shared.executing with
    | false => exact advances.mono rfl busy.symm rfl (by simp [waits])
    | true =>
      by_cases pos : 0 < res
      · exact (positive fromResponse res rfl pos busy).mono rfl rfl rfl (by simp)
      · have goesOn : (ShCmd.exec table shared (.result fromResponse res) choice).2 = [.waitFn] := by
          simp [ShCmd.exec, busy, not_lt.mp pos]
        rw [goesOn]
        exact .inr (.inr (.inr (Nat.succ_pos _)))
  | atFinish =>
    cases pending : shared.atPending with
    | false => exact advances.mono rfl rfl pending.symm (by simp [waits])
    | true =>
      simp only [ShCmd.exec, pending, if_true]
      exact .inr (.inr (.inr (Nat.succ_pos _)))
  | submitResponse response => exact advances.mono rfl rfl rfl (by simp [waits])
  | clearFlight => exact advances.mono rfl rfl rfl (by simp [waits])

private theorem advances_of_mayClear (may : mayClear shell) :
    Advances { shell.shared with executing := false } (shell.marks waits).card := by
  simp only [mayClear, Bool.or_eq_true, List.isEmpty_iff, decide_eq_true_eq] at may
  rcases may with (empty | pending) | waiting
  · exact .inl empty
  · exact .inr (.inr (.inl pending))
  · exact .inr (.inr (.inr waiting))

/-- Every step that meets the condition leaves somebody to look into the queue. -/
private theorem advances_step (advances : Advances shell.shared (shell.marks waits).card)
    (moved : Step table shell label next) (condition : queueCondition shell label) :
    Advances next.shared (next.marks waits).card := by
  obtain ⟨program, arrival, _, marks⟩ | ⟨instr, choice, isNext, same, marks⟩ := step_cases moved
  · rw [marks waits, Multiset.card_add]
    generalize next.shared = after at arrival
    cases arrival <;> exact advances.mono rfl rfl rfl (by omega)
  · obtain ⟨others, before, after⟩ := marks waits
    have count : (shell.marks waits).card = others.card + (waits instr).length := by
      rw [before, Multiset.card_add, Multiset.coe_card]
    rw [same, after, Multiset.card_add, Multiset.coe_card]
    simp only [queueCondition] at condition
    rw [isNext] at condition
    apply Advances.exec table choice (count ▸ advances)
    · rintro fromResponse res rfl pos busy
      have may : mayClear shell := by
        simpa [busy, not_le.mpr pos] using condition
      simpa [count, waits] using advances_of_mayClear may
    · rintro rfl
      simpa [count, waits] using advances_of_mayClear condition

/-- Every instruction only adds to what was dispatched, and keeps the order of what was accepted. -/
private theorem exec_line (table : List Entry) (shared : Shared) (instr : Instr) (choice : Choice) :
    shared.dispatched <+: (exec table shared instr choice).1.dispatched ∧
      (shared.dispatched ++ shared.queue).Sublist
        ((exec table shared instr choice).1.dispatched ++ (exec table shared instr choice).1.queue) := by
  rcases instr.handsOn_cases with other | ⟨command, rfl⟩ | ⟨command, rfl⟩ | ⟨head, text, rfl⟩ | rfl
  · obtain ⟨_, _, queue, dispatched⟩ := exec_frame table shared choice other
    rw [queue, dispatched]
    exact ⟨List.prefix_rfl, .refl _⟩
  · simp only [exec]
    split <;> exact ⟨List.prefix_rfl, .refl _⟩
  · exact ⟨List.prefix_rfl, .refl _⟩
  · refine ⟨List.prefix_rfl, List.Sublist.append_left ?_ _⟩
    cases head with
    | true => exact List.sublist_cons_self text _
    | false => exact List.sublist_append_left _ [text]
  · cases waiting : shared.queue with
    | nil =>
      simp only [exec, waiting]
      exact ⟨List.prefix_rfl, .refl _⟩
    | cons text rest =>
      simp only [exec, waiting, List.append_assoc, List.singleton_append]
      exact ⟨List.prefix_append _ _, .refl _⟩

/-- Along every run what was dispatched stays dispatched, and what waits keeps its order. -/
private theorem line_path {labels : List Label} (path : Path (Step table) shell labels next) :
    shell.shared.dispatched <+: next.shared.dispatched ∧
      (shell.shared.dispatched ++ shell.shared.queue).Sublist
        (next.shared.dispatched ++ next.shared.queue) := by
  induction path with
  | nil shell => exact ⟨List.prefix_rfl, .refl _⟩
  | cons moved _ ih =>
    obtain ⟨program, arrival, _, _⟩ | ⟨instr, choice, _, same, _⟩ := step_cases moved
    · obtain ⟨_, _, queue, dispatched⟩ := arrival.frame
      rw [queue, dispatched] at ih
      exact ih
    · obtain ⟨grows, keeps⟩ := exec_line table _ instr choice
      rw [same] at ih
      exact ⟨grows.trans ih.1, keeps.trans ih.2⟩

/-- Every instruction keeps the remote commands accounted for. -/
theorem Dispatched.step (dispatched : Dispatched shell) (direct : PlacesDirect shell)
    (moved : Step table shell label next) : Dispatched next := by
  simp only [Dispatched] at dispatched ⊢
  obtain ⟨program, arrival, _, _⟩ | ⟨instr, choice, _, same, marks⟩ := step_cases moved
  · obtain ⟨accepted, _, queue, taken⟩ := arrival.frame
    rw [accepted, queue, taken]
    exact dispatched
  · rw [same]
    rcases instr.handsOn_cases with other | ⟨command, rfl⟩ | ⟨command, rfl⟩ | ⟨head, text, rfl⟩ | rfl
    · obtain ⟨accepted, _, queue, taken⟩ := exec_frame table shell.shared choice other
      rw [accepted, queue, taken]
      exact dispatched
    · obtain ⟨others, before, _⟩ := marks places
      have plain : command.origin ≠ .queued := direct command (by simp [before, places])
      simp only [exec]
      split
      · exact dispatched
      · simpa [plain] using dispatched
    · exact dispatched
    · have more : ([remote text].filter fun command => command.origin = .queued) = [remote text] := rfl
      simp only [exec, List.filter_append, ← Multiset.coe_add, dispatched, more]
      cases head with
      | true =>
        simp only [if_true, List.map_append, List.map_cons, Multiset.coe_eq_coe, Multiset.coe_add]
        rw [List.append_assoc]
        exact (List.perm_append_singleton _ _).append_left _
      | false =>
        simp only [Bool.false_eq_true, if_false, List.map_append, List.map_cons, List.map_nil,
          Multiset.coe_add, List.append_assoc]
    · cases waiting : shell.shared.queue with
      | nil =>
        simp only [exec, waiting]
        rw [waiting] at dispatched
        exact dispatched
      | cons text rest =>
        simp only [exec, waiting]
        rw [waiting] at dispatched
        simpa using dispatched

/-- In every run whose steps clear `EXECUTING` only when they may: a quiet shell has an empty queue,
every accepted remote command was dispatched or is in the queue, once, and whatever happens later
leaves the dispatched commands dispatched and the waiting ones in their order. -/
theorem queue_progress (table : List Entry) {labels : List Label} {shell : Shell}
    (path : Path (guarded (Step table) fun shell label => queueCondition shell label) initial labels shell) :
    (Quiet shell → shell.shared.queue = []) ∧ Dispatched shell ∧
      ∀ laterLabels later, Path (Step table) shell laterLabels later →
        shell.shared.dispatched <+: later.shared.dispatched ∧
        (shell.shared.dispatched ++ shell.shared.queue).Sublist
          (later.shared.dispatched ++ later.shared.queue) := by
  obtain ⟨advances, dispatched, _⟩ : Advances shell.shared (shell.marks waits).card ∧ Dispatched shell ∧
      PlacesDirect shell := by
    refine path.invariant (fun shell => Advances shell.shared (shell.marks waits).card ∧
      Dispatched shell ∧ PlacesDirect shell) ?_ ⟨.inl rfl, rfl, by simp [PlacesDirect, initial, Pool.marks]⟩
    rintro source label target ⟨advances, dispatched, direct⟩ ⟨condition, moved⟩
    exact ⟨advances_step advances moved condition, dispatched.step direct moved, direct.step moved⟩
  refine ⟨?_, dispatched, fun _ _ rest => line_path rest⟩
  rintro ⟨idle, none⟩
  rcases advances with empty | executing | pending | waiting
  · exact empty
  · simp [busy, executing] at idle
  · simp [busy, pending] at idle
  · omega

/-- Two remote commands, the second of them put while the first is executed. -/
def bothDispatched : List Label :=
  .call (.put false "lock".toList) :: turns 1 6 ++ .call (.put false "unlock secret".toList) :: turns 2 3 ++
    .start .schedule :: turns 0 6 ++ .start .schedule :: turns 0 6

theorem queue_progress_both :
    ∃ shell, Path (guarded (Step smallTable) fun shell label => queueCondition shell label) initial
        bothDispatched shell ∧
      Quiet shell ∧ shell.shared.dispatched = ["lock".toList, "unlock secret".toList] ∧
      shell.shared.queue = [] ∧ Dispatched shell := by
  have facts : (bothDispatched.foldlM (fun shell label =>
      if queueCondition shell label then step smallTable shell label else none) initial).map
      (fun shell => (busy shell.shared, (shell.marks waits).card, shell.shared.dispatched)) =
      some (false, 0, ["lock".toList, "unlock secret".toList]) := by decide +kernel
  obtain ⟨shell, ran, facts⟩ := Option.map_eq_some_iff.mp facts
  simp only [Prod.mk.injEq] at facts
  obtain ⟨idle, waiting, dispatched⟩ := facts
  have quiet : Quiet shell := ⟨idle, waiting⟩
  have path := Path.guarded_of_foldlM ran
  obtain ⟨empty, accounted, _⟩ := queue_progress smallTable path
  exact ⟨shell, path, quiet, dispatched, empty quiet, accounted⟩

/-- Two remote commands, the first of them with a parameter that it does not support. -/
def unsupportedParameter : List Label :=
  .call (.put false "lock x".toList) :: turns 1 6 ++ .call (.put false "lock".toList) :: turns 2 3 ++
    .start .schedule :: turns 0 2

/-- The second command then stays in the queue of a quiet shell. -/
theorem queue_stalls :
    ∃ shell, Path (Step smallTable) initial unsupportedParameter shell ∧ Quiet shell ∧
      shell.shared.queue = ["lock".toList] ∧ shell.programs = [[], [], []] := by
  have facts : (unsupportedParameter.foldlM (step smallTable) initial).map
      (fun shell => (busy shell.shared, (shell.marks waits).card, shell.shared.queue, shell.programs)) =
      some (false, 0, ["lock".toList], [[], [], []]) := by decide +kernel
  obtain ⟨shell, ran, facts⟩ := Option.map_eq_some_iff.mp facts
  simp only [Prod.mk.injEq] at facts
  obtain ⟨idle, waiting, queue, programs⟩ := facts
  exact ⟨shell, Path.of_foldlM ran, ⟨idle, waiting⟩, queue, programs⟩

end CoapsClient.ShCmd
