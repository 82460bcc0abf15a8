import CoapsClient.Model.Shell.Steps

/-! # Who holds the command buffer

Whoever sets `EXECUTING` passes the right to the buffer on: to the work item it submits, to `sh_cmd`,
to the result that clears the bit. `holders` collects everybody who still has that right. As long as
no response of the modem clears the bit for another command, there is one holder exactly while the bit
is set, and what the holder is about to do tells what the buffer contains.
-/

namespace CoapsClient.ShCmd

open Machine

/-- What a thread or a work item that owns the buffer is about to do. -/
inductive Holder where
  | taking
  | filling (command : Command)
  | loaded (insecure : Bool)
  | testing
  | running
deriving DecidableEq, Repr

/-- The right to the buffer that goes with an instruction. -/
def token : Instr → List Holder
  | .queueGet => [.taking]
  | .clearExecuting => [.taking]
  | .load command => [.filling command]
  | .submit insecure => [.loaded insecure]
  | .shCmd insecure => [.loaded insecure]
  | .testAtPending _ => [.testing]
  | .atHandler _ _ => [.running]
  | .modemAtCmdAsync => [.running]
  | .result false _ => [.running]
  | _ => []

/-- The pending work items that run a command. -/
def works (shared : Shared) : List Holder :=
  (if shared.executeWork then [.loaded true] else []) ++
    if shared.scheduleWork then [.loaded false] else []

def holders (shell : Shell) : Multiset Holder := shell.marks token + works shell.shared

/-- How a command is to be run. -/
def Command.asRun (command : Command) : Text × Bool := (copied command.text, command.insecure)

/-- What the shared state looks like while a holder is about to act. -/
def Phase (shared : Shared) : Option Holder → Prop
  | none => shared.executing = false ∧ shared.ran = shared.placed.map Command.asRun
  | some (.loaded insecure) => shared.executing = true ∧
      ∃ earlier command, shared.placed = earlier ++ [command] ∧ command.insecure = insecure ∧
        shared.ran = earlier.map Command.asRun ∧ shared.buffer = copied command.text
  | some _ => shared.executing = true ∧ shared.ran = shared.placed.map Command.asRun

/-- There is at most one holder, and the shared state fits to it. -/
def Owned (shell : Shell) : Prop :=
  ∃ holder : Option Holder, holders shell = holder.toList ∧ Phase shell.shared holder

/-- The response of an AT command clears the bit only when nobody has set it. -/
def responseApart (shell : Shell) (label : Label) : Bool :=
  match executes shell label with
  | some (.result true _) => !shell.shared.executing
  | _ => true

variable {table : List Entry} {shell next : Shell} {label : Label} {shared after : Shared}
  {holder : Option Holder} {others : Multiset Holder}

theorem Phase.congr (phase : Phase shared holder) (executing : after.executing = shared.executing)
    (placed : after.placed = shared.placed) (ran : after.ran = shared.ran)
    (buffer : after.buffer = shared.buffer) : Phase after holder := by
  cases holder with
  | none => simpa only [Phase, executing, placed, ran] using phase
  | some which => cases which <;> simpa only [Phase, executing, placed, ran, buffer] using phase

/-- Whoever is about to act is the only holder, and no work item is pending. -/
theorem alone {mine : Holder} {pending : List Holder}
    (whole : others + ([mine] : List Holder) + pending = (holder.toList : Multiset Holder)) :
    others = 0 ∧ pending = [] ∧ holder = some mine := by
  have sizes := congrArg Multiset.card whole
  simp only [Multiset.card_add, Multiset.coe_card, List.length_singleton] at sizes
  have small : holder.toList.length ≤ 1 := by cases holder <;> simp
  have noOthers : others = 0 := Multiset.card_eq_zero.mp (by omega)
  have noPending : pending = [] := List.length_eq_zero_iff.mp (by omega)
  subst noOthers noPending
  cases holder with
  | none => simp at whole
  | some which => simp_all

private theorem sole (heir : Option Holder) {pending : List Holder} (noPending : pending = []) :
    (0 : Multiset Holder) + heir.toList + pending = (heir.toList : Multiset Holder) := by
  simp [noPending]

private theorem acquire {mine : Holder} {pending : List Holder}
    (whole : others + ([] : List Holder) + pending = ((none : Option Holder).toList : Multiset Holder)) :
    others + ([mine] : List Holder) + pending = ((some mine).toList : Multiset Holder) := by
  have sizes := congrArg Multiset.card whole
  simp only [Multiset.card_add, Multiset.coe_card, List.length_nil, Option.toList_none] at sizes
  have noOthers : others = 0 := Multiset.card_eq_zero.mp (by omega)
  have noPending : pending = [] := List.length_eq_zero_iff.mp (by omega)
  subst noOthers noPending
  simp

theorem Phase.eq_none (phase : Phase shared holder) (clear : shared.executing = false) : holder = none := by
  cases holder with
  | none => rfl
  | some which => cases which <;> simp [Phase, clear] at phase

/-- An instruction passes the right to the buffer on. -/
theorem Phase.exec (table : List Entry) {instr : Instr} (choice : Choice) (phase : Phase shared holder)
    (whole : others + token instr + works shared = (holder.toList : Multiset Holder))
    (apart : ∀ res, instr = .result true res → shared.executing = false) :
    ∃ heir : Option Holder,
      others + (exec table shared instr choice).2.flatMap token + works (exec table shared instr choice).1 =
        (heir.toList : Multiset Holder) ∧
      Phase (exec table shared instr choice).1 heir := by
  cases instr with
  | place command =>
    cases busy : shared.executing with
    | true =>
      simp only [ShCmd.exec, busy, if_true]
      exact ⟨holder, whole, phase⟩
    | false =>
      obtain rfl := phase.eq_none busy
      simp only [ShCmd.exec, busy, Bool.false_eq_true, if_false]
      exact ⟨some (.filling command), acquire whole, rfl, phase.2⟩
  | waitFn =>
    cases busy : shared.executing with
    | true =>
      simp only [ShCmd.exec, busy, if_true]
      exact ⟨holder, whole, phase⟩
    | false =>
      obtain rfl := phase.eq_none busy
      simp only [ShCmd.exec, busy, Bool.false_eq_true, if_false]
      exact ⟨some .taking, acquire whole, rfl, phase.2⟩
  | load command =>
    obtain ⟨rfl, noWork, rfl⟩ := alone whole
    exact ⟨_, sole (some (.loaded command.insecure)) noWork, phase.1, shared.placed, command, rfl, rfl, phase.2, rfl⟩
  | submit insecure =>
    obtain ⟨rfl, noWork, rfl⟩ := alone whole
    have idle : shared.executeWork = false ∧ shared.scheduleWork = false := by
      simpa [works] using noWork
    cases insecure with
    | true => exact ⟨some (.loaded true), by simp [ShCmd.exec, works, idle], phase⟩
    | false => exact ⟨some (.loaded false), by simp [ShCmd.exec, works, idle], phase⟩
  | enqueue head text => exact ⟨holder, whole, phase.congr rfl rfl rfl rfl⟩
  | setQueued => exact ⟨holder, whole, phase.congr rfl rfl rfl rfl⟩
  | queueGet =>
    obtain ⟨rfl, noWork, rfl⟩ := alone whole
    cases waiting : shared.queue with
    | nil =>
      simp only [ShCmd.exec, waiting]
      exact ⟨some .taking, whole, phase⟩
    | cons text rest =>
      simp only [ShCmd.exec, waiting]
      exact ⟨_, sole (some (.filling (remote text))) noWork, phase⟩
  | clearQueued => exact ⟨holder, whole, phase.congr rfl rfl rfl rfl⟩
  | clearExecuting =>
    obtain ⟨rfl, noWork, rfl⟩ := alone whole
    exact ⟨none, sole none noWork, rfl, phase.2⟩
  | shCmd insecure =>
    obtain ⟨rfl, noWork, rfl⟩ := alone whole
    obtain ⟨set, earlier, command, placed, rfl, ran, buffer⟩ := phase
    have done : shared.ran ++ [(shared.buffer, command.insecure)] = shared.placed.map Command.asRun := by
      simp [placed, ran, buffer, Command.asRun]
    simp only [ShCmd.exec]
    rcases shCmdRest_cases table shared command.insecure choice with ⟨res, goesOn⟩ | ⟨handler, goesOn⟩
    · exact ⟨some .running, by rw [goesOn]; exact sole (some .running) noWork, set, done⟩
    · exact ⟨some .testing, by rw [goesOn]; exact sole (some .testing) noWork, set, done⟩
  | testAtPending handler =>
    obtain ⟨rfl, noWork, rfl⟩ := alone whole
    refine ⟨some .running, ?_, ?_⟩
    · cases pending : shared.atPending with
      | true =>
        simp only [ShCmd.exec, pending, if_true]
        exact sole (some .running) noWork
      | false =>
        simp only [ShCmd.exec, pending, Bool.false_eq_true, if_false]
        cases handler <;> exact sole (some .running) noWork
    · simp only [ShCmd.exec]
      split <;> exact phase
  | atHandler entry parameter =>
    obtain ⟨rfl, noWork, rfl⟩ := alone whole
    exact ⟨some .running, whole, phase⟩
  | asyncCheck =>
    simp only [ShCmd.exec]
    split <;> exact ⟨holder, whole, phase⟩
  | modemAtCmdAsync =>
    obtain ⟨rfl, noWork, rfl⟩ := alone whole
    simp only [ShCmd.exec]
    split <;> split <;> exact ⟨some .running, whole, phase⟩
  | result fromResponse res =>
    cases fromResponse with
    | false =>
      obtain ⟨rfl, noWork, rfl⟩ := alone whole
      refine ⟨none, ?_, rfl, phase.2⟩
      simp only [ShCmd.exec]
      split <;> exact sole none noWork
    | true =>
      obtain rfl := phase.eq_none (apart res rfl)
      refine ⟨none, ?_, rfl, phase.2⟩
      simp only [ShCmd.exec]
      split <;> exact whole
  | atFinish =>
    refine ⟨holder, ?_, phase.congr rfl rfl rfl rfl⟩
    simp only [ShCmd.exec]
    split <;> exact whole
  | submitResponse response => exact ⟨holder, whole, phase.congr rfl rfl rfl rfl⟩
  | clearFlight => exact ⟨holder, whole, phase.congr rfl rfl rfl rfl⟩

/-- A program that arrives brings a right to the buffer only in exchange for a work item. -/
theorem Arrival.tokens {before : Shared} {program : List Instr}
    (arrival : Arrival label before after program) :
    (program.flatMap token + works after : Multiset Holder) = works before := by
  cases arrival with
  | call _ call =>
    have plain : call.program.flatMap token = [] := by
      cases call with
      | execute text =>
        simp only [Call.program]
        split <;> rfl
      | schedule text =>
        simp only [Call.program]
        split <;> rfl
      | put head text => rfl
    rw [plain, Multiset.coe_nil, zero_add]
  | execute pending => simp [works, pending, token]
  | schedule pending =>
    rw [add_comm, Multiset.coe_add]
    simp [works, pending, token]
  | response pending => exact zero_add _
  | shellAnswer response owed => exact zero_add _
  | handlerAnswer response owed => exact zero_add _

theorem Phase.arrive {before : Shared} {program : List Instr} (arrival : Arrival label before after program)
    (phase : Phase before holder) : Phase after holder := by
  cases arrival <;> exact phase.congr rfl rfl rfl rfl

theorem holders_arrival {program : List Instr} (arrival : Arrival label shell.shared next.shared program)
    (marks : next.marks token = shell.marks token + program.flatMap token) :
    holders next = holders shell := by
  rw [holders, holders, marks, add_assoc, arrival.tokens]

/-- A step that keeps responses apart keeps the buffer owned. -/
theorem Owned.step (owned : Owned shell) (moved : Step table shell label next)
    (apart : responseApart shell label) : Owned next := by
  obtain ⟨holder, whole, phase⟩ := owned
  obtain ⟨program, arrival, _, marks⟩ | ⟨instr, choice, isNext, same, marks⟩ := step_cases moved
  · exact ⟨holder, (holders_arrival arrival (marks token)).trans whole, phase.arrive arrival⟩
  · obtain ⟨others, before, after⟩ := marks token
    rw [holders, before] at whole
    obtain ⟨heir, passed, fits⟩ := phase.exec table choice whole (by
      rintro res rfl
      simpa [responseApart, isNext] using apart)
    exact ⟨heir, by rw [holders, after, same]; exact passed, same ▸ fits⟩

/-- After boot nobody holds the buffer. -/
theorem owned_initial : Owned initial := ⟨none, rfl, rfl, rfl⟩

end CoapsClient.ShCmd
