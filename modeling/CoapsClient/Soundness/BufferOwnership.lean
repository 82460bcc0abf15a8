import CoapsClient.Model.Shell.Holders

/-! # Ownership of the command buffer

From the copy of a command into `sh_cmd_buf` until the work item submitted for it calls `sh_cmd`, no
other command may be copied there. Then every accepted command runs once, with its own text and as its
caller is to be run. The code keeps this as long as two things do not happen: that the response of an
AT command clears `EXECUTING` for a command that is still waiting for its work item, and that a text
which does not fit into the buffer is put into the queue.
-/

namespace CoapsClient.ShCmd

open Machine

/-- The commands about to be copied into the buffer. -/
def fills : Instr → List Command
  | .load command => [command]
  | _ => []

/-- The commands a call is about to hand over. -/
def offers : Instr → List Command
  | .place command => [command]
  | .enqueue _ text => [remote text]
  | _ => []

/-- Accepted commands were placed, are about to be, or wait in the queue. -/
def Accounted (shell : Shell) : Prop :=
  (shell.shared.accepted : Multiset Command) =
    shell.shared.placed + shell.marks fills + (shell.shared.queue.map remote : List Command)

/-- A text that the buffer holds with its terminating zero. -/
def Fits (command : Command) : Prop := command.text.length < maxLen

/-- Only texts that fit were accepted or are about to be. -/
def AllFit (shell : Shell) : Prop :=
  (∀ command ∈ shell.shared.accepted, Fits command) ∧ ∀ command ∈ shell.marks offers, Fits command

/-- The commands run so far are the earlier placed ones, each with its own text and as its caller is to
be run. The later ones, of which there is at most one, have their text in the buffer and their
submission or work item pending, and no other is. -/
def BufferOwned (shell : Shell) : Prop :=
  ∃ done waiting, shell.shared.placed = done ++ waiting ∧
    shell.shared.ran = done.map (fun command => (command.text, command.insecure)) ∧
    (∀ command ∈ waiting, shell.shared.buffer = command.text) ∧
    (holders shell).filter (fun holder => ∃ insecure, holder = .loaded insecure) =
      (waiting.map fun command => Holder.loaded command.insecure : List Holder)

/-- No text that is too long for the buffer is put into the queue. -/
def putFits : Label → Bool
  | .call (.put _ text) => text.length < maxLen
  | _ => true

/-- What the steps of a run have to meet. -/
def bufferCondition (shell : Shell) (label : Label) : Bool := responseApart shell label && putFits label

variable {table : List Entry} {shell next : Shell} {label : Label} {shared : Shared} {instr : Instr}
  {choice : Choice}

private theorem fills_of_handsOn : ∀ instr : Instr, instr.handsOn = false → fills instr = [] := by
  intro instr other
  cases instr <;> first | rfl | contradiction

private theorem offers_of_handsOn : ∀ instr : Instr, instr.handsOn = false → offers instr = [] := by
  intro instr other
  cases instr <;> first | rfl | contradiction

/-- An instruction neither loses a command nor doubles one. -/
private theorem exec_balance (table : List Entry) (shared : Shared) (instr : Instr) (choice : Choice) :
    ((exec table shared instr choice).1.accepted + shared.placed + fills instr +
        (shared.queue.map remote : List Command) : Multiset Command) =
      shared.accepted + (exec table shared instr choice).1.placed +
        (exec table shared instr choice).2.flatMap fills +
        ((exec table shared instr choice).1.queue.map remote : List Command) := by
  rcases instr.handsOn_cases with other | ⟨command, rfl⟩ | ⟨command, rfl⟩ | ⟨head, text, rfl⟩ | rfl
  · obtain ⟨accepted, placed, queue, _⟩ := exec_frame table shared choice other
    rw [accepted, placed, queue, flatMap_exec fills table shared choice other rfl fills_of_handsOn,
      fills_of_handsOn instr other]
  · simp only [exec]
    split
    · simp [fills]
    · simp only [fills, List.flatMap_cons, List.flatMap_nil, List.append_nil, ← Multiset.coe_add]
      abel
  · simp only [exec, fills, List.flatMap_cons, List.flatMap_nil, ← Multiset.coe_add]
    abel
  · cases head with
    | true =>
      simp only [exec, fills, remote, List.map_cons, List.flatMap_cons, List.flatMap_nil, if_true,
        ← Multiset.coe_add, ← Multiset.cons_coe, ← Multiset.singleton_add]
      abel
    | false =>
      simp only [exec, fills, remote, List.map_append, List.map_cons, List.map_nil, List.flatMap_cons,
        List.flatMap_nil, Bool.false_eq_true, if_false, ← Multiset.coe_add]
      abel
  · cases waiting : shared.queue with
    | nil => simp [exec, waiting, fills]
    | cons text rest =>
      simp only [exec, waiting, fills, remote, List.map_cons, List.flatMap_cons, List.flatMap_nil,
        List.append_nil, Multiset.coe_nil, ← Multiset.cons_coe, ← Multiset.singleton_add]
      abel

private theorem arrival_fills {before after : Shared} {program : List Instr}
    (arrival : Arrival label before after program) : program.flatMap fills = [] := by
  cases arrival with
  | call _ call =>
    cases call with
    | execute text =>
      simp only [Call.program]
      split <;> rfl
    | schedule text =>
      simp only [Call.program]
      split <;> rfl
    | put head text => rfl
  | _ => rfl

/-- Every step keeps the commands accounted for. -/
theorem Accounted.step (accounted : Accounted shell) (moved : Step table shell label next) :
    Accounted next := by
  simp only [Accounted] at accounted ⊢
  obtain ⟨program, arrival, _, marks⟩ | ⟨instr, choice, _, same, marks⟩ := step_cases moved
  · obtain ⟨accepted, placed, queue, _⟩ := arrival.frame
    rw [accepted, placed, queue, marks fills, arrival_fills arrival, accounted]
    simp
  · obtain ⟨others, before, after⟩ := marks fills
    have balance := exec_balance table shell.shared instr choice
    rw [accounted, before, ← same] at balance
    rw [after]
    apply add_right_cancel (b := (shell.shared.placed + fills instr +
      (shell.shared.queue.map remote : List Command) : Multiset Command))
    rw [← add_assoc, ← add_assoc, balance]
    abel

/-- An instruction accepts only what it offers. -/
private theorem exec_accepted (table : List Entry) (shared : Shared) (instr : Instr) (choice : Choice) :
    ∀ command ∈ (exec table shared instr choice).1.accepted,
      command ∈ shared.accepted ∨ command ∈ offers instr := by
  rcases instr.handsOn_cases with other | ⟨command, rfl⟩ | ⟨command, rfl⟩ | ⟨head, text, rfl⟩ | rfl
  · obtain ⟨accepted, _⟩ := exec_frame table shared choice other
    rw [accepted]
    exact fun _ member => .inl member
  · simp only [exec]
    split
    · exact fun _ member => .inl member
    · exact fun _ member => List.mem_append.mp member
  · exact fun _ member => .inl member
  · exact fun _ member => List.mem_append.mp member
  · simp only [exec]
    split <;> exact fun _ member => .inl member

/-- The calls themselves refuse what is too long, but for those that put into the queue. -/
theorem Arrival.fits {before after : Shared} {program : List Instr}
    (arrival : Arrival label before after program) (short : putFits label) :
    ∀ command ∈ program.flatMap offers, Fits command := by
  cases arrival with
  | call _ call =>
    cases call with
    | execute text =>
      simp only [Call.program]
      split
      · simp
      · next short => simpa [offers, Fits] using short
    | schedule text =>
      simp only [Call.program]
      split
      · simp
      · next short => simpa [offers, Fits] using short
    | put head text => simpa [Call.program, offers, remote, Fits, putFits] using short
  | _ => simp [offers]

theorem AllFit.step (fit : AllFit shell) (moved : Step table shell label next) (short : putFits label) :
    AllFit next := by
  obtain ⟨accepted, offered⟩ := fit
  obtain ⟨program, arrival, _, marks⟩ | ⟨instr, choice, _, same, marks⟩ := step_cases moved
  · refine ⟨by rw [arrival.frame.1]; exact accepted, ?_⟩
    rw [marks offers]
    intro command member
    rcases Multiset.mem_add.mp member with old | new
    · exact offered command old
    · exact arrival.fits short command new
  · obtain ⟨others, before, after⟩ := marks offers
    rw [before] at offered
    rw [flatMap_exec_offer offers table _ instr choice rfl (fun _ => rfl) offers_of_handsOn] at after
    refine ⟨?_, ?_⟩
    · intro command member
      rw [same] at member
      rcases exec_accepted table _ instr choice command member with old | new
      · exact accepted command old
      · exact offered command (Multiset.mem_add.mpr (.inr new))
    · rw [after, Multiset.coe_nil, add_zero]
      exact fun command member => offered command (Multiset.mem_add.mpr (.inl member))

private theorem owned_of_phase (owned : Owned shell) (fit : ∀ command ∈ shell.shared.placed, Fits command) :
    BufferOwned shell := by
  obtain ⟨holder, whole, phase⟩ := owned
  have asRun (commands : List Command) (all : ∀ command ∈ commands, Fits command) :
      commands.map Command.asRun = commands.map fun command => (command.text, command.insecure) := by
    apply List.map_congr_left
    intro command member
    rw [Command.asRun, copied_eq (all command member)]
  have settled (ran : shell.shared.ran = shell.shared.placed.map Command.asRun)
      (idle : ∀ insecure, holder ≠ some (.loaded insecure)) : BufferOwned shell := by
    refine ⟨shell.shared.placed, [], (List.append_nil _).symm, ran.trans (asRun _ fit), by simp, ?_⟩
    rw [whole]
    cases holder with
    | none => rfl
    | some which => simpa using idle
  cases holder with
  | none => exact settled phase.2 (by simp)
  | some which =>
    cases which with
    | loaded insecure =>
      obtain ⟨_, earlier, command, placed, rfl, ran, buffer⟩ := phase
      rw [placed] at fit
      refine ⟨earlier, [command], placed, ran.trans (asRun _ fun other member => fit other (by simp [member])),
        ?_, ?_⟩
      · intro other member
        obtain rfl := List.mem_singleton.mp member
        rw [buffer, copied_eq (fit _ (by simp))]
      · rw [whole]
        simp
    | _ => exact settled phase.2 (by simp)

/-- In every run in which responses stay apart and only texts that fit are put into the queue, the
buffer belongs to the command that was copied there until it runs, and accepted commands are neither
lost nor doubled. -/
theorem buffer_ownership (table : List Entry) {labels : List Label} {shell : Shell}
    (path : Path (guarded (Step table) fun shell label => bufferCondition shell label) initial labels shell) :
    BufferOwned shell ∧ Accounted shell := by
  obtain ⟨owned, accounted, fit⟩ : Owned shell ∧ Accounted shell ∧ AllFit shell := by
    refine path.invariant (fun shell => Owned shell ∧ Accounted shell ∧ AllFit shell) ?_
      ⟨owned_initial, rfl, by simp [initial], by simp [initial, Pool.marks]⟩
    rintro source label target ⟨owned, accounted, fit⟩ ⟨condition, moved⟩
    obtain ⟨apart, short⟩ := Bool.and_eq_true_iff.mp condition
    exact ⟨owned.step moved apart, accounted.step moved, fit.step moved short⟩
  refine ⟨owned_of_phase owned ?_, accounted⟩
  intro command member
  apply fit.1 command
  rw [← Multiset.mem_coe, accounted]
  simp [member]

/-- A local AT command, its response, and then a remote command. -/
def responseFirst : List Label :=
  .call (.execute "AT%CONEVAL".toList) :: turns 1 3 ++ .start .execute :: turns 0 4 ++
    .deliver "OK".toList :: turns 2 2 ++ .start .response :: turns 0 6 ++
    .call (.put false "lock".toList) :: turns 3 6

theorem buffer_ownership_response_first :
    ∃ shell, Path (guarded (Step smallTable) fun shell label => bufferCondition shell label) initial
        responseFirst shell ∧
      shell.shared.buffer = "lock".toList ∧ BufferOwned shell ∧ Accounted shell := by
  have buffer : (responseFirst.foldlM (fun shell label =>
      if bufferCondition shell label then step smallTable shell label else none) initial).map
      (fun shell => shell.shared.buffer) = some "lock".toList := by decide +kernel
  obtain ⟨shell, ran, buffer⟩ := Option.map_eq_some_iff.mp buffer
  have path := Path.guarded_of_foldlM ran
  exact ⟨shell, path, buffer, buffer_ownership smallTable path⟩

/-- A local AT command, a remote command while the modem works on it, the modem's response, and then
another local command before the delay of the remote one has expired. -/
def responseBetween : List Label :=
  .call (.execute "AT%CONEVAL".toList) :: turns 1 3 ++ .start .execute :: turns 0 4 ++
    .call (.put false "lock".toList) :: turns 2 6 ++
    .deliver "OK".toList :: turns 3 2 ++ .start .response :: turns 0 6 ++
    .call (.execute "del scope".toList) :: turns 4 3 ++ .start .schedule :: turns 0 1

/-- The work item of the remote command then runs the local text, as if it were remote. -/
theorem buffer_overwritten :
    ∃ shell, Path (Step smallTable) initial responseBetween shell ∧
      shell.shared.accepted = [⟨"AT%CONEVAL".toList, .shell⟩, ⟨"lock".toList, .queued⟩,
        ⟨"del scope".toList, .shell⟩] ∧
      shell.shared.ran = [("AT%CONEVAL".toList, true), ("del scope".toList, false)] ∧
      ¬ BufferOwned shell := by
  have facts : (responseBetween.foldlM (step smallTable) initial).map
      (fun shell => (shell.shared.accepted, shell.shared.placed, shell.shared.ran)) =
      some ([⟨"AT%CONEVAL".toList, .shell⟩, ⟨"lock".toList, .queued⟩, ⟨"del scope".toList, .shell⟩],
        [⟨"AT%CONEVAL".toList, .shell⟩, ⟨"lock".toList, .queued⟩, ⟨"del scope".toList, .shell⟩],
        [("AT%CONEVAL".toList, true), ("del scope".toList, false)]) := by decide +kernel
  obtain ⟨shell, final, facts⟩ := Option.map_eq_some_iff.mp facts
  simp only [Prod.mk.injEq] at facts
  obtain ⟨accepted, placed, ran⟩ := facts
  refine ⟨shell, Path.of_foldlM final, accepted, ran, ?_⟩
  rintro ⟨done, waiting, split, ranEq, _⟩
  have count : done.length = 2 := by
    have lengths := congrArg List.length ranEq
    simpa [ran] using lengths.symm
  have first : done = shell.shared.placed.take 2 := by rw [split, ← count, List.take_left]
  rw [first, ran, placed] at ranEq
  exact absurd ranEq (by decide)

end CoapsClient.ShCmd
