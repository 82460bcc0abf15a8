import CoapsClient.Model.Shell.Holders

/-! # Remote AT commands and a busy modem

`sh_cmd_wait_fn` takes a command out of the queue while `EXECUTING` is clear; whether the modem still
works on an AT command is tested only when the delay has expired and `sh_cmd` runs, and then the
command is dropped. Nothing is dropped in runs in which a command that needs the modem is taken only
while `AT_PENDING` is clear, since nobody else can set that bit before the command itself.
-/

namespace CoapsClient.ShCmd

open Machine

/-- A remote command needs the modem: it is an AT command or its handler may issue one. -/
def usesModem (table : List Entry) (text : Text) : Bool :=
  match (dispatch table {} 0 text false).1 with
  | .handled _ _ usesAt => usesAt
  | .modem text => 0 < strstart text "AT".toList true
  | _ => false

/-- What the steps of a run have to meet: responses stay apart, and a command that needs the modem is
taken out of the queue only while no AT command is pending. -/
def modemCondition (table : List Entry) (shell : Shell) (label : Label) : Bool :=
  responseApart shell label &&
    match executes shell label, shell.shared.queue with
    | some .queueGet, text :: _ => !(shell.shared.atPending && usesModem table (copied text))
    | _, _ => true

/-- No remote command was dropped because the modem was pending. -/
def NoneDiscarded (shell : Shell) : Prop := ∀ command ∈ shell.shared.discarded, command.origin ≠ .queued

/-- A remote command on its way from the queue to the modem finds `AT_PENDING` clear. -/
structure WayClear (table : List Entry) (shared : Shared) (holders : Multiset Holder) : Prop where
  filling : ∀ command, .filling command ∈ holders → command.origin = .queued →
    shared.atPending = true → usesModem table (copied command.text) = false
  loaded : ∀ insecure, .loaded insecure ∈ holders → ∀ command, shared.placed.getLast? = some command →
    command.origin = .queued → shared.atPending = true → usesModem table shared.buffer = false
  testing : .testing ∈ holders → ∀ command, shared.placed.getLast? = some command →
    command.origin = .queued → shared.atPending = false

variable {table : List Entry} {shell next : Shell} {label : Label} {shared after : Shared} {instr : Instr}
  {before now : Multiset Holder}

/-- The branch of a remote command does not depend on the unlock window. -/
private theorem dispatch_remote (table : List Entry) (window : Window) (now : ℕ) (text : Text) :
    (dispatch table window now text false).1 = (dispatch table {} 0 text false).1 := by
  simp only [dispatch]
  split
  · rfl
  · simp only [Bool.false_eq_true, and_false, if_false]
    split
    · rfl
    · split <;> rfl

/-- `sh_cmd` tests `AT_PENDING` only for commands that need the modem. -/
private theorem usesModem_of_test {choice : Choice} {handler : Option (Entry × Text)}
    (goesOn : (shCmdRest table shared false choice).2 = [.testAtPending handler]) :
    usesModem table shared.buffer = true := by
  simp only [usesModem]
  rw [← dispatch_remote table shared.window choice.now]
  simp only [shCmdRest] at goesOn
  generalize dispatch table shared.window choice.now shared.buffer false = outcome at goesOn ⊢
  obtain ⟨branch, window⟩ := outcome
  cases branch with
  | unsupported entry => simp at goesOn
  | refused entry => simp at goesOn
  | handled entry parameter usesAt => cases usesAt <;> simp_all
  | modem text =>
    simp only at goesOn ⊢
    split at goesOn <;> simp_all

/-- The instructions a command passes on its way, from the call to the modem. -/
def Instr.onTheWay : Instr → Bool
  | .place _ => true
  | .load _ => true
  | .submit _ => true
  | .queueGet => true
  | .shCmd _ => true
  | .testAtPending _ => true
  | _ => false

theorem WayClear.mono (clear : WayClear table shared before) (placed : after.placed = shared.placed)
    (buffer : after.buffer = shared.buffer) (pending : after.atPending = true → shared.atPending = true)
    (holders : ∀ holder ∈ now, holder ∈ before ∨ holder = .running ∨ holder = .taking) :
    WayClear table after now := by
  refine ⟨?_, ?_, ?_⟩
  · intro command member queued isPending
    have old : .filling command ∈ before := by simpa using holders _ member
    exact clear.filling command old queued (pending isPending)
  · rw [placed, buffer]
    intro insecure member command last queued isPending
    have old : .loaded insecure ∈ before := by simpa using holders _ member
    exact clear.loaded insecure old command last queued (pending isPending)
  · rw [placed]
    intro member command last queued
    have old : .testing ∈ before := by simpa using holders _ member
    have free := clear.testing old command last queued
    by_contra isPending
    simp [pending (by simpa using isPending)] at free

/-- All other instructions leave the command in the buffer alone and do not set `AT_PENDING`. -/
private theorem exec_aside (table : List Entry) (shared : Shared) (choice : Choice) (aside : instr.onTheWay = false) :
    (exec table shared instr choice).1.placed = shared.placed ∧
      (exec table shared instr choice).1.buffer = shared.buffer ∧
      (exec table shared instr choice).1.discarded = shared.discarded ∧
      works (exec table shared instr choice).1 = works shared ∧
      ((exec table shared instr choice).1.atPending = true → shared.atPending = true) ∧
      ∀ holder ∈ (exec table shared instr choice).2.flatMap token, holder = .running ∨ holder = .taking := by
  cases instr with
  | place command => contradiction
  | load command => contradiction
  | submit insecure => contradiction
  | queueGet => contradiction
  | shCmd insecure => contradiction
  | testAtPending handler => contradiction
  | waitFn =>
    simp only [exec]
    split <;> exact ⟨rfl, rfl, rfl, rfl, id, by simp [token]⟩
  | modemAtCmdAsync =>
    simp only [exec]
    split <;> split <;> exact ⟨rfl, rfl, rfl, rfl, id, by simp [token]⟩
  | asyncCheck =>
    refine ⟨rfl, rfl, rfl, rfl, id, ?_⟩
    simp only [exec]
    split <;> simp [token]
  | result fromResponse res =>
    refine ⟨rfl, rfl, rfl, rfl, id, ?_⟩
    simp only [exec]
    split <;> simp [token]
  | atFinish =>
    refine ⟨rfl, rfl, rfl, rfl, by simp [exec], ?_⟩
    simp only [exec]
    split <;> simp [token]
  | _ => exact ⟨rfl, rfl, rfl, rfl, id, by simp [exec, token]⟩

private theorem only {mine holder : Holder} {pending : List Holder} (noPending : pending = [])
    (member : holder ∈ (0 + ([mine] : List Holder) + pending : Multiset Holder)) : holder = mine := by
  simpa [noPending] using member

private theorem wayClear_idle (idle : ∀ holder ∈ now, holder = .running ∨ holder = .taking) :
    WayClear table shared now :=
  ⟨fun _ member => by simpa using idle _ member, fun _ member => by simpa using idle _ member,
    fun member => by simpa using idle _ member⟩

private theorem wayClear_filling {command : Command} (sole : ∀ holder ∈ now, holder = .filling command)
    (clear : command.origin = .queued → shared.atPending = true →
      usesModem table (copied command.text) = false) : WayClear table shared now := by
  refine ⟨?_, fun _ member => by simpa using sole _ member, fun member => by simpa using sole _ member⟩
  intro other member
  obtain rfl : other = command := by simpa using sole _ member
  exact clear

private theorem wayClear_loaded (mine : Bool) (sole : ∀ holder ∈ now, holder = .loaded mine)
    (clear : ∀ command, shared.placed.getLast? = some command → command.origin = .queued →
      shared.atPending = true → usesModem table shared.buffer = false) : WayClear table shared now :=
  ⟨fun _ member => by simpa using sole _ member, fun _ _ => clear, fun member => by simpa using sole _ member⟩

private theorem wayClear_testing (sole : ∀ holder ∈ now, holder = .testing)
    (clear : ∀ command, shared.placed.getLast? = some command → command.origin = .queued →
      shared.atPending = false) : WayClear table shared now :=
  ⟨fun _ member => by simpa using sole _ member, fun _ member => by simpa using sole _ member, fun _ => clear⟩

/-- A step on the way of the one command that owns the buffer. -/
theorem WayClear.exec {others : Multiset Holder} {holder : Option Holder} (choice : Choice)
    (onTheWay : instr.onTheWay = true)
    (clear : WayClear table shared (others + token instr + works shared))
    (whole : others + token instr + works shared = (holder.toList : Multiset Holder))
    (phase : Phase shared holder) (direct : ∀ command, instr = .place command → command.origin ≠ .queued)
    (taken : ∀ text rest, instr = .queueGet → shared.queue = text :: rest → shared.atPending = true →
      usesModem table (copied text) = false) :
    WayClear table (exec table shared instr choice).1 (others +
        (exec table shared instr choice).2.flatMap token + works (exec table shared instr choice).1) ∧
      ∀ command ∈ (exec table shared instr choice).1.discarded,
        command ∈ shared.discarded ∨ command.origin ≠ .queued := by
  cases instr with
  | place command =>
    simp only [ShCmd.exec]
    split
    · exact ⟨clear.mono rfl rfl id fun _ member => .inl member, fun _ member => .inl member⟩
    · next free =>
      obtain rfl := phase.eq_none (by simpa using free)
      have alone : others + works shared = 0 := by simpa [token] using whole
      refine ⟨wayClear_filling ?_ fun queued => absurd queued (direct command rfl), fun _ member => .inl member⟩
      intro other member
      have mine : other ∈ others + works shared ∨ other = .filling command := by
        simp only [Multiset.mem_add] at member ⊢
        rcases member with (old | new) | pending
        · exact .inl (.inl old)
        · exact .inr (by simpa [token] using new)
        · exact .inl (.inr pending)
      simpa [alone] using mine
  | load command =>
    obtain ⟨rfl, noWork, rfl⟩ := alone whole
    refine ⟨wayClear_loaded command.insecure (fun _ member => only noWork member) ?_, fun _ member => .inl member⟩
    intro other last
    obtain rfl : command = other := by simpa [ShCmd.exec] using last
    exact clear.filling command (by simp [token])
  | submit insecure =>
    obtain ⟨rfl, noWork, rfl⟩ := alone whole
    have idle : shared.executeWork = false ∧ shared.scheduleWork = false := by
      simpa [works] using noWork
    cases insecure with
    | true =>
      refine ⟨wayClear_loaded true ?_ (clear.loaded true (by simp [token])),
        fun _ member => .inl member⟩
      simp [ShCmd.exec, works, idle]
    | false =>
      refine ⟨wayClear_loaded false ?_ (clear.loaded false (by simp [token])),
        fun _ member => .inl member⟩
      simp [ShCmd.exec, works, idle]
  | queueGet =>
    obtain ⟨rfl, noWork, rfl⟩ := alone whole
    cases waiting : shared.queue with
    | nil =>
      simp only [ShCmd.exec, waiting]
      exact ⟨wayClear_idle fun _ member => .inr (only noWork member), fun _ member => .inl member⟩
    | cons text rest =>
      simp only [ShCmd.exec, waiting]
      exact ⟨wayClear_filling (fun _ member => only noWork member) fun _ => taken text rest rfl waiting,
        fun _ member => .inl member⟩
  | shCmd insecure =>
    obtain ⟨rfl, noWork, rfl⟩ := alone whole
    obtain ⟨_, earlier, command, placed, rfl, _, _⟩ := phase
    simp only [ShCmd.exec]
    rcases shCmdRest_cases table shared command.insecure choice with ⟨res, goesOn⟩ | ⟨handler, goesOn⟩
    · rw [goesOn]
      exact ⟨wayClear_idle fun _ member => .inl (only noWork member), fun _ member => .inl member⟩
    · rw [goesOn]
      refine ⟨wayClear_testing (fun _ member => only noWork member) ?_, fun _ member => .inl member⟩
      intro other last queued
      obtain rfl : command = other := by simpa [placed] using last
      have remote : command.insecure = false := by simp [Command.insecure, queued]
      rw [remote] at goesOn
      by_contra pending
      have needs := usesModem_of_test goesOn
      rw [clear.loaded command.insecure (by simp [token]) command last queued (by simpa using pending)] at needs
      contradiction
  | testAtPending handler =>
    obtain ⟨rfl, noWork, rfl⟩ := alone whole
    cases pending : shared.atPending with
    | false =>
      simp only [ShCmd.exec, pending, Bool.false_eq_true, if_false]
      refine ⟨wayClear_idle ?_, fun _ member => .inl member⟩
      cases handler <;> exact fun _ member => .inl (only noWork member)
    | true =>
      simp only [ShCmd.exec, pending, if_true]
      refine ⟨wayClear_idle fun _ member => .inl (only noWork member), ?_⟩
      intro command member
      rcases List.mem_append.mp member with old | new
      · exact .inl old
      · right
        intro queued
        have free := clear.testing (by simp [token]) command (by simpa using new) queued
        rw [pending] at free
        contradiction
  | _ => contradiction

/-- What holds in every state of a run that meets the condition. -/
structure NothingDropped (table : List Entry) (shell : Shell) : Prop where
  owned : Owned shell
  direct : PlacesDirect shell
  clear : WayClear table shell.shared (holders shell)
  kept : NoneDiscarded shell

theorem NothingDropped.step (before : NothingDropped table shell) (moved : Step table shell label next)
    (condition : modemCondition table shell label) : NothingDropped table next := by
  obtain ⟨owned, direct, clear, kept⟩ := before
  obtain ⟨apart, handOver⟩ := Bool.and_eq_true_iff.mp condition
  suffices way : WayClear table next.shared (holders next) ∧ NoneDiscarded next from
    ⟨owned.step moved apart, direct.step moved, way.1, way.2⟩
  simp only [NoneDiscarded] at kept ⊢
  obtain ⟨program, arrival, _, marks⟩ | ⟨instr, choice, isNext, same, marks⟩ := step_cases moved
  · rw [holders_arrival arrival (marks token)]
    generalize next.shared = after at arrival ⊢
    cases arrival <;> exact ⟨clear.mono rfl rfl id fun _ member => .inl member, kept⟩
  · obtain ⟨others, was, becomes⟩ := marks token
    rw [holders, becomes, same]
    rw [holders, was] at clear
    cases onTheWay : instr.onTheWay with
    | false =>
      obtain ⟨placed, buffer, discarded, pendingWorks, pending, idle⟩ :=
        exec_aside table shell.shared choice onTheWay
      rw [discarded, pendingWorks]
      refine ⟨clear.mono placed buffer pending ?_, kept⟩
      intro holder member
      simp only [Multiset.mem_add, Multiset.mem_coe] at member ⊢
      rcases member with (old | new) | work
      · exact .inl (.inl (.inl old))
      · exact .inr (idle holder new)
      · exact .inl (.inr work)
    | true =>
      obtain ⟨holder, whole, phase⟩ := owned
      rw [holders, was] at whole
      have passes := clear.exec choice onTheWay whole phase ?_ ?_
      · refine ⟨passes.1, fun command member => ?_⟩
        rcases passes.2 command member with old | new
        · exact kept command old
        · exact new
      · rintro command rfl
        obtain ⟨_, here, _⟩ := marks places
        exact direct command (by simp [here, places])
      · rintro text rest rfl waiting pending
        simpa [isNext, waiting, pending] using handOver

/-- In every run in which responses stay apart and commands that need the modem are taken out of the
queue only while no AT command is pending, no remote command is dropped for a pending modem. -/
theorem modem_pending (table : List Entry) {labels : List Label} {shell : Shell}
    (path : Path (guarded (Step table) fun shell label => modemCondition table shell label) initial labels
      shell) : NoneDiscarded shell := by
  refine NothingDropped.kept (path.invariant (NothingDropped table) ?_ ⟨owned_initial, ?_, ?_, ?_⟩)
  · rintro source label target before ⟨condition, moved⟩
    exact before.step moved condition
  · simp [PlacesDirect, initial, Pool.marks]
  · exact wayClear_idle (by simp [holders, initial, Pool.marks, works])
  · simp [NoneDiscarded, initial]

/-- Two remote AT commands, the second of them put after the response to the first. -/
def afterResponse : List Label :=
  .call (.put false "AT+CFUN?".toList) :: turns 1 6 ++ .start .schedule :: turns 0 4 ++
    .deliver "OK".toList :: turns 2 2 ++ .start .response :: turns 0 6 ++
    .call (.put false "AT+CGMR".toList) :: turns 3 6 ++ .start .schedule :: turns 0 4

theorem modem_pending_after_response :
    ∃ shell, Path (guarded (Step smallTable) fun shell label => modemCondition smallTable shell label) initial
        afterResponse shell ∧
      shell.shared.ran = [("AT+CFUN?".toList, false), ("AT+CGMR".toList, false)] ∧
      NoneDiscarded shell := by
  have facts : (afterResponse.foldlM (fun shell label =>
      if modemCondition smallTable shell label then step smallTable shell label else none) initial).map
      (fun shell => shell.shared.ran) = some [("AT+CFUN?".toList, false), ("AT+CGMR".toList, false)] := by
    decide +kernel
  obtain ⟨shell, ran, facts⟩ := Option.map_eq_some_iff.mp facts
  have path := Path.guarded_of_foldlM ran
  exact ⟨shell, path, facts, modem_pending smallTable path⟩

/-- Two remote AT commands, with the delay of the second expiring before the response to the first. -/
def beforeResponse : List Label :=
  .call (.put false "AT+CFUN?".toList) :: turns 1 6 ++ .start .schedule :: turns 0 4 ++
    .call (.put false "AT+CGMR".toList) :: turns 2 6 ++ .start .schedule :: turns 0 2

/-- The second command is dropped. -/
theorem remote_command_dropped :
    ∃ shell, Path (Step smallTable) initial beforeResponse shell ∧
      shell.shared.discarded = [remote "AT+CGMR".toList] ∧ ¬ NoneDiscarded shell := by
  have facts : (beforeResponse.foldlM (step smallTable) initial).map
      (fun shell => shell.shared.discarded) = some [remote "AT+CGMR".toList] := by decide +kernel
  obtain ⟨shell, ran, facts⟩ := Option.map_eq_some_iff.mp facts
  refine ⟨shell, Path.of_foldlM ran, facts, ?_⟩
  intro none
  exact none (remote "AT+CGMR".toList) (by simp [facts]) rfl

end CoapsClient.ShCmd
