import CoapsClient.Machine.Path
import CoapsClient.Model.Diagnose.Diagnose

/-! # A reboot is recorded once and not lost

The thread records the cause of one call. It sleeps only for a delay that a call gave, and a call without delay wakes it:
the flag is set before the semaphore is given, and tested after it was taken.
-/

namespace CoapsClient.ApplDiagnose

open Machine (Path)

/-- What is recorded of a call. -/
def Call.code (call : Call) : List UInt16 := if call.error ≥ 0 then [UInt16.ofNat call.error.toNat] else []

/-- The call a thread is in. -/
def Caller.call? : Caller → Option Call
  | .idle => none
  | .setCause call | .setDelay call | .give call => some call

/-- The thread does not test the flag before it waits. -/
def Phase.blind : Phase → Bool
  | .waits | .readsDelay | .sleeps _ => true
  | .records | .testsFlag | .woken | .reboots => false

namespace Reboot

variable {ι : Type*} {state after : Reboot ι}

/-- The cause is that of a call. -/
def Caused (calls : List Call) (cause : ℤ) : Prop := ∃ call ∈ calls, cause = call.error

/-- The delay is that of a call. -/
def Delayed (calls : List Call) (delay : UInt32) : Prop := ∃ call ∈ calls, 0 < call.delayMs ∧ delay = call.delayMs

/-- The code is that of a call. -/
def Recorded (calls : List Call) (recorded : List UInt16) : Prop := ∃ call ∈ calls, recorded = call.code

/-- What holds while the thread is in a phase. -/
def Holds (now : ℕ) (calls : List Call) (recorded : List UInt16) (delay : UInt32) : Phase → Prop
  | .waits | .records => recorded = []
  | .testsFlag | .woken | .reboots => Recorded calls recorded
  | .readsDelay => Recorded calls recorded ∧ Delayed calls delay
  | .sleeps timeout =>
      Recorded calls recorded ∧ ∃ call ∈ calls, 0 < call.delayMs ∧ timeout ≤ now + call.delayMs.toNat

/-- The invariant of the reboot. -/
structure Kept (state : Reboot ι) : Prop where
  member : ∀ thread call, (state.caller thread).call? = some call → call ∈ state.calls
  caused : ∀ thread call, state.caller thread = .setDelay call ∨ state.caller thread = .give call →
    Caused state.calls state.rebootCause
  decided : ∀ thread call, state.caller thread = .give call →
    state.shutdownNow = true ∨ Delayed state.calls state.shutdownDelay
  /-- Who gave the semaphore set the cause and the delay. -/
  given : state.shutdown = true ∨ state.phase ≠ .waits →
    Caused state.calls state.rebootCause ∧ (state.shutdownNow = true ∨ Delayed state.calls state.shutdownDelay)
  holds : Holds state.now state.calls state.recorded state.shutdownDelay state.phase
  pending : state.phase = .waits → state.calls ≠ [] → state.shutdown = true ∨ ∃ thread, state.caller thread ≠ .idle
  /-- The thread is woken when it is to reboot at once. -/
  woken : state.shutdownNow = true → state.phase.blind = true →
    state.shutdown = true ∨ ∃ thread call, state.caller thread = .give call
  asked : ∀ call ∈ state.calls, call.delayMs = 0 →
    state.shutdownNow = true ∨ ∃ thread, state.caller thread = .setCause call ∨ state.caller thread = .setDelay call

theorem kept_boot : Kept ({} : Reboot ι) :=
  ⟨nofun, nofun, nofun, nofun, rfl, fun _ filled => absurd rfl filled, nofun, nofun⟩

section

variable {now later : ℕ} {calls more : List Call} {recorded : List UInt16} {delay other : UInt32} {phase : Phase}

theorem Caused.mono {cause : ℤ} (caused : Caused calls cause) (subset : calls ⊆ more) : Caused more cause :=
  let ⟨call, member, equal⟩ := caused
  ⟨call, subset member, equal⟩

theorem Delayed.mono (delayed : Delayed calls delay) (subset : calls ⊆ more) : Delayed more delay :=
  let ⟨call, member, equal⟩ := delayed
  ⟨call, subset member, equal⟩

theorem Recorded.mono (done : Recorded calls recorded) (subset : calls ⊆ more) : Recorded more recorded :=
  let ⟨call, member, equal⟩ := done
  ⟨call, subset member, equal⟩

theorem Holds.mono (holds : Holds now calls recorded delay phase) (subset : calls ⊆ more) (passes : now ≤ later)
    (delayed : Delayed calls delay → Delayed more other) : Holds later more recorded other phase := by
  cases phase with
  | waits => exact holds
  | records => exact holds
  | testsFlag => exact Recorded.mono holds subset
  | readsDelay => exact ⟨holds.1.mono subset, delayed holds.2⟩
  | sleeps timeout =>
    obtain ⟨done, call, member, positive, soon⟩ := holds
    exact ⟨done.mono subset, call, subset member, positive, Nat.le_trans soon (Nat.add_le_add_right passes _)⟩
  | woken => exact Recorded.mono holds subset
  | reboots => exact Recorded.mono holds subset

end

private theorem kept_tick (kept : Kept state) : Kept { state with now := state.now + 1 } :=
  { kept with holds := kept.holds.mono (List.Subset.refl _) (Nat.le_succ _) id }

section

variable [DecidableEq ι] {callers : ι → Caller} {thread other : ι} {caller found : Caller} {call : Call}

/-- Where another caller was, and is. -/
private theorem update_before (there : Function.update callers thread caller other = found) (apart : found ≠ caller) :
    callers other = found := by
  rwa [Function.update_of_ne] at there
  rintro rfl
  rw [Function.update_self] at there
  exact apart there.symm

private theorem update_stays (there : callers other = found) (apart : callers thread ≠ found) :
    Function.update callers thread caller other = found := by
  rw [Function.update_of_ne, there]
  rintro rfl
  exact apart there

private theorem member_update {calls : List Call} (kept : ∀ other call, (callers other).call? = some call → call ∈ calls)
    (member : ∀ call, caller.call? = some call → call ∈ calls) (other : ι) (call : Call)
    (there : (Function.update callers thread caller other).call? = some call) : call ∈ calls := by
  by_cases same : other = thread
  · rw [same, Function.update_self] at there
    exact member call there
  · rw [Function.update_of_ne same] at there
    exact kept other call there

/-- A call begins. -/
private theorem kept_call (kept : Kept state) (idle : state.caller thread = .idle) (call : Call) :
    Kept ({ state with reboots := true, calls := state.calls ++ [call] }.goes thread (.setCause call)) := by
  have subset : state.calls ⊆ state.calls ++ [call] := List.subset_append_left _ _
  have member : call ∈ state.calls ++ [call] := List.mem_append_right _ (List.mem_singleton.mpr rfl)
  refine ⟨?_, fun other found there => ?_, fun other found there => ?_, fun given => ?_, ?_, fun _ _ => ?_,
    fun now blind => ?_, fun found among zero => ?_⟩
  · refine member_update (fun other found there => subset (kept.member other found there)) fun found there => ?_
    exact Option.some.inj there ▸ member
  · have before : ∀ caller, caller ≠ .setCause call → Function.update state.caller thread (.setCause call) other = caller →
        state.caller other = caller := fun caller apart there => update_before there apart
    exact (kept.caused other found (there.imp (before _ nofun) (before _ nofun))).mono subset
  · exact (kept.decided other found (update_before there nofun)).imp_right (·.mono subset)
  · exact (kept.given given).imp (·.mono subset) (Or.imp_right (·.mono subset))
  · exact kept.holds.mono subset (Nat.le_refl _) (·.mono subset)
  · exact .inr ⟨thread, fun there => absurd (Function.update_self .. |>.symm.trans there) nofun⟩
  · refine (kept.woken now blind).imp_right fun ⟨other, found, there⟩ => ⟨other, found, update_stays there ?_⟩
    rw [idle]
    exact nofun
  · rcases List.mem_append.mp among with before | single
    · have apart : ∀ caller, caller ≠ .idle → state.caller thread ≠ caller := fun caller busy => idle ▸ busy.symm
      refine (kept.asked found before zero).imp_right fun ⟨other, there⟩ => ⟨other, ?_⟩
      exact there.imp (update_stays · (apart _ nofun)) (update_stays · (apart _ nofun))
    · obtain rfl := List.mem_singleton.mp single
      exact .inr ⟨thread, .inl (Function.update_self ..)⟩

/-- A caller sets the cause. -/
private theorem kept_setCause (kept : Kept state) (here : state.caller thread = .setCause call) :
    Kept ({ state with rebootCause := call.error }.goes thread (.setDelay call)) := by
  have member : call ∈ state.calls := kept.member thread call (by rw [here]; rfl)
  have caused : Caused state.calls call.error := ⟨call, member, rfl⟩
  refine ⟨?_, fun _ _ _ => caused, fun other found there => kept.decided other found (update_before there nofun),
    fun given => ⟨caused, (kept.given given).2⟩, kept.holds, fun _ _ => ?_, fun now blind => ?_,
    fun found among zero => ?_⟩
  · exact member_update kept.member fun found there => Option.some.inj there ▸ member
  · exact .inr ⟨thread, fun there => absurd (Function.update_self .. |>.symm.trans there) nofun⟩
  · refine (kept.woken now blind).imp_right fun ⟨other, found, there⟩ => ⟨other, found, update_stays there ?_⟩
    rw [here]
    exact nofun
  · refine (kept.asked found among zero).imp_right fun ⟨other, there⟩ => ?_
    by_cases same : other = thread
    · subst same
      rw [here] at there
      obtain rfl : call = found := there.elim (fun equal => Caller.setCause.inj equal) nofun
      exact ⟨other, .inr (Function.update_self ..)⟩
    · exact ⟨other, there.imp (Function.update_of_ne same ..).trans (Function.update_of_ne same ..).trans⟩

/-- A caller has set the delay, or the flag. -/
private theorem kept_setDelay (kept : Kept state) (here : state.caller thread = .setDelay call) {now : Bool}
    {delay : UInt32}
    (flag : state.shutdownNow = true → now = true) (zero : call.delayMs = 0 → now = true)
    (delayed : Delayed state.calls state.shutdownDelay → Delayed state.calls delay)
    (decided : now = true ∨ Delayed state.calls delay) :
    Kept ({ state with shutdownDelay := delay, shutdownNow := now }.goes thread (.give call)) := by
  have member : call ∈ state.calls := kept.member thread call (by rw [here]; rfl)
  have caused : Caused state.calls state.rebootCause := kept.caused thread call (.inl here)
  refine ⟨?_, fun _ _ _ => caused, fun _ _ _ => decided, fun _ => ⟨caused, decided⟩,
    kept.holds.mono (List.Subset.refl _) (Nat.le_refl _) delayed, fun _ _ => ?_, fun _ _ => ?_, fun found among none => ?_⟩
  · exact member_update kept.member fun found there => Option.some.inj there ▸ member
  · exact .inr ⟨thread, fun there => absurd (Function.update_self .. |>.symm.trans there) nofun⟩
  · exact .inr ⟨thread, call, Function.update_self ..⟩
  · rcases kept.asked found among none with set | ⟨other, there⟩
    · exact .inl (flag set)
    · by_cases same : other = thread
      · subst same
        rw [here] at there
        obtain rfl : call = found := there.elim nofun fun equal => Caller.setDelay.inj equal
        exact .inl (zero none)
      · exact .inr ⟨other, there.imp (Function.update_of_ne same ..).trans (Function.update_of_ne same ..).trans⟩

/-- A caller gives the semaphore. -/
private theorem kept_give (kept : Kept state) (here : state.caller thread = .give call) :
    Kept ({ state with shutdown := true }.goes thread .idle) := by
  refine ⟨?_, fun other found there => ?_, fun other found there => kept.decided other found (update_before there nofun),
    fun _ => ⟨kept.caused thread call (.inr here), kept.decided thread call here⟩, kept.holds, fun _ _ => .inl rfl,
    fun _ _ => .inl rfl, fun found among zero => ?_⟩
  · exact member_update kept.member nofun
  · have before : ∀ caller, caller ≠ .idle → Function.update state.caller thread .idle other = caller →
        state.caller other = caller := fun caller apart there => update_before there apart
    exact kept.caused other found (there.imp (before _ nofun) (before _ nofun))
  · refine (kept.asked found among zero).imp_right fun ⟨other, there⟩ => ⟨other, ?_⟩
    have apart : ∀ caller, caller ≠ .give call → state.caller thread ≠ caller := fun caller busy => here ▸ busy.symm
    exact there.imp (update_stays · (apart _ nofun)) (update_stays · (apart _ nofun))

private theorem kept_applReboot (kept : Kept state) (moved : state.applReboot thread = some after) : Kept after := by
  unfold applReboot at moved
  cases here : state.caller thread with
  | idle =>
    rw [here] at moved
    exact absurd moved.symm (Option.some_ne_none _)
  | setCause call =>
    rw [here] at moved
    obtain rfl := Option.some.inj moved
    exact kept_setCause kept here
  | setDelay call =>
    rw [here] at moved
    obtain rfl := Option.some.inj moved
    have member : call ∈ state.calls := kept.member thread call (by rw [here]; rfl)
    split_ifs with positive
    · have delayed : Delayed state.calls call.delayMs := ⟨call, member, positive, rfl⟩
      refine kept_setDelay kept here id (fun zero => ?_) (fun _ => delayed) (.inr delayed)
      exact absurd (zero ▸ positive) (by decide)
    · exact kept_setDelay kept here (fun _ => rfl) (fun _ => rfl) id (.inl rfl)
  | give call =>
    rw [here] at moved
    obtain rfl := Option.some.inj moved
    exact kept_give kept here

end

/-- The thread tests the flag. -/
private theorem kept_tests (kept : Kept state) (later : state.phase ≠ .waits)
    (recorded : Recorded state.calls state.recorded) :
    Kept { state with phase := if state.shutdownNow then .reboots else .readsDelay } := by
  have given := kept.given (.inr later)
  split_ifs with now
  · exact ⟨kept.member, kept.caused, kept.decided, fun _ => given, recorded, nofun, nofun, kept.asked⟩
  · have delayed := given.2.resolve_left now
    exact ⟨kept.member, kept.caused, kept.decided, fun _ => given, ⟨recorded, delayed⟩, nofun,
      fun set _ => absurd set now, kept.asked⟩

private theorem kept_applRebootFn (kept : Kept state) (moved : state.applRebootFn = some after) : Kept after := by
  unfold applRebootFn at moved
  have holds := kept.holds
  cases phase : state.phase with
  | waits =>
    rw [phase] at moved holds
    obtain ⟨given, equal⟩ := Option.ite_none_right_eq_some.mp moved
    obtain rfl := Option.some.inj equal
    exact ⟨kept.member, kept.caused, kept.decided, fun _ => kept.given (.inl given), holds, nofun, nofun, kept.asked⟩
  | records =>
    rw [phase] at moved holds
    obtain rfl := Option.some.inj moved
    have given := kept.given (.inr (by rw [phase]; exact nofun))
    refine ⟨kept.member, kept.caused, kept.decided, fun _ => given, ?_, nofun, nofun, kept.asked⟩
    obtain ⟨call, member, cause⟩ := given.1
    refine ⟨call, member, ?_⟩
    have none : state.recorded = [] := holds
    rw [none, cause]
    rfl
  | testsFlag =>
    rw [phase] at moved holds
    obtain rfl := Option.some.inj moved
    exact kept_tests kept (by rw [phase]; exact nofun) holds
  | readsDelay =>
    rw [phase] at moved holds
    obtain rfl := Option.some.inj moved
    have given := kept.given (.inr (by rw [phase]; exact nofun))
    obtain ⟨recorded, call, member, positive, delay⟩ := holds
    rw [if_pos (delay ▸ positive)]
    refine ⟨kept.member, kept.caused, kept.decided, fun _ => given, ⟨recorded, call, member, positive, ?_⟩, nofun,
      fun now _ => kept.woken now (by rw [phase]; rfl), kept.asked⟩
    rw [delay]
  | sleeps timeout =>
    rw [phase] at moved holds
    have given := kept.given (.inr (by rw [phase]; exact nofun))
    dsimp only at moved
    split_ifs at moved with wakes past
    all_goals
      obtain rfl := Option.some.inj moved
      exact ⟨kept.member, kept.caused, kept.decided, fun _ => given, holds.1, nofun, nofun, kept.asked⟩
  | woken =>
    rw [phase] at moved holds
    obtain rfl := Option.some.inj moved
    exact kept_tests kept (by rw [phase]; exact nofun) holds
  | reboots =>
    rw [phase] at moved
    exact absurd moved.symm (Option.some_ne_none _)

variable [DecidableEq ι]

theorem kept_step (kept : Kept state) {event : Event ι} (moved : state.next event = some after) : Kept after := by
  obtain ⟨-, moved⟩ := Option.ite_none_left_eq_some.mp moved
  cases event with
  | tick =>
    obtain rfl := Option.some.inj moved
    exact kept_tick kept
  | call thread call =>
    obtain ⟨idle, equal⟩ := Option.ite_none_right_eq_some.mp moved
    obtain rfl := Option.some.inj equal
    exact kept_call kept idle call
  | proceed thread => exact kept_applReboot kept moved
  | run => exact kept_applRebootFn kept moved

/-- A step of the threads. -/
def Step (state : Reboot ι) (event : Event ι) (after : Reboot ι) : Prop := state.next event = some after

variable {events : List (Event ι)}

theorem kept_path (path : Path Step ({} : Reboot ι) events state) : Kept state :=
  path.invariant Kept (fun _ _ _ kept moved => kept_step kept moved) kept_boot

/-- In every order in which the threads call `appl_reboot` and go on, one code is recorded at most, before the thread waits
for a delay or reboots, and it is that of a call. The thread sleeps not longer than the delay of a call, so never for the
value the delay has at the start. -/
theorem reboot_recorded_once (path : Path Step ({} : Reboot ι) events state) :
    state.recorded.length ≤ 1 ∧ (state.recorded ≠ [] → Recorded state.calls state.recorded) ∧
      (state.phase = .reboots → Recorded state.calls state.recorded) ∧
      ∀ timeout, state.phase = .sleeps timeout →
        Recorded state.calls state.recorded ∧
          ∃ call ∈ state.calls, 0 < call.delayMs ∧ timeout ≤ state.now + call.delayMs.toNat := by
  have holds := (kept_path path).holds
  have recorded : state.recorded = [] ∨ Recorded state.calls state.recorded := by
    cases phase : state.phase <;> rw [phase] at holds
    case waits => exact .inl holds
    case records => exact .inl holds
    case readsDelay => exact .inr holds.1
    case sleeps => exact .inr holds.1
    all_goals exact .inr holds
  refine ⟨?_, recorded.resolve_left, fun reboots => ?_, fun timeout sleeps => ?_⟩
  · rcases recorded with none | ⟨call, -, equal⟩
    · exact Nat.le_trans (Nat.le_of_eq (congrArg List.length none)) (Nat.zero_le 1)
    · rw [equal, Call.code]
      split_ifs
      · exact Nat.le_refl 1
      · exact Nat.zero_le 1
  · rwa [reboots] at holds
  · rwa [sleeps] at holds

/-- The calls of `restart`, and one of another thread between them. -/
def restarts : List (Event Bool) :=
  [.call false ⟨0x3000, 2⟩, .proceed false, .proceed false, .call true ⟨0x5000, 0⟩, .proceed false, .run, .proceed true,
    .run, .run, .run, .tick, .proceed true, .proceed true, .run, .run]

private theorem restarts_run : ∃ state, Path Step ({} : Reboot Bool) restarts state := by
  have runs : (restarts.foldlM next ({} : Reboot Bool)).isSome := by decide
  obtain ⟨state, ran⟩ := Option.isSome_iff_exists.mp runs
  exact ⟨state, Path.of_foldlM ran⟩

/-- The run exists. -/
theorem restarts_recorded_once : ∃ state, Path Step ({} : Reboot Bool) restarts state ∧
    (state.recorded.length ≤ 1 ∧ (state.recorded ≠ [] → Recorded state.calls state.recorded) ∧
      (state.phase = .reboots → Recorded state.calls state.recorded) ∧
      ∀ timeout, state.phase = .sleeps timeout →
        Recorded state.calls state.recorded ∧
          ∃ call ∈ state.calls, 0 < call.delayMs ∧ timeout ≤ state.now + call.delayMs.toNat) := by
  obtain ⟨state, path⟩ := restarts_run
  exact ⟨state, path, reboot_recorded_once path⟩

/-- The thread reboots when it goes on so often, without that time passes. -/
def RebootsAfter (state : Reboot ι) (count : ℕ) : Prop :=
  ∃ after : Reboot ι, (List.replicate count Event.run).foldlM next state = some after ∧ after.phase = .reboots ∧
    after.now = state.now

private theorem next_run (running : state.phase ≠ .reboots) : state.next (.run : Event ι) = state.applRebootFn :=
  if_neg running

theorem RebootsAfter.succ {mid : Reboot ι} {count : ℕ} (moved : state.next (.run : Event ι) = some mid)
    (same : mid.now = state.now) (rest : mid.RebootsAfter count) : state.RebootsAfter (count + 1) := by
  obtain ⟨after, ran, reboots, now⟩ := rest
  refine ⟨after, ?_, reboots, now.trans same⟩
  rw [List.replicate_succ, List.foldlM_cons, moved]
  exact ran

/-- The thread tests the flag next. -/
theorem RebootsAfter.tests (now : state.shutdownNow = true) (tests : state.phase = .testsFlag ∨ state.phase = .woken) :
    state.RebootsAfter 1 := by
  have moved : state.next (.run : Event ι) = some { state with phase := .reboots } := by
    rw [next_run (by rcases tests with phase | phase <;> rw [phase] <;> exact nofun), applRebootFn]
    rcases tests with phase | phase <;> rw [phase, now] <;> rfl
  exact .succ moved rfl ⟨_, rfl, rfl, rfl⟩

/-- A given semaphore wakes the thread. -/
theorem RebootsAfter.sleeps (now : state.shutdownNow = true) (given : state.shutdown = true) {timeout : ℕ}
    (phase : state.phase = .sleeps timeout) : state.RebootsAfter 2 := by
  have moved : state.next (.run : Event ι) = some { state with shutdown := false, phase := .woken } := by
    rw [next_run (by rw [phase]; exact nofun), applRebootFn, phase]
    exact if_pos given
  exact .succ moved rfl (.tests now (.inr rfl))

theorem RebootsAfter.records (now : state.shutdownNow = true) (phase : state.phase = .records) :
    state.RebootsAfter 2 := by
  have moved : ∃ recorded, state.next (.run : Event ι) = some { state with recorded, phase := .testsFlag } := by
    rw [next_run (by rw [phase]; exact nofun), applRebootFn, phase]
    exact ⟨_, rfl⟩
  obtain ⟨recorded, moved⟩ := moved
  exact .succ moved rfl (.tests now (.inl rfl))

theorem Kept.reboots (kept : Kept state) (now : state.shutdownNow = true)
    (returned : ∀ thread, state.caller thread = .idle) : ∃ count ≤ 3, state.RebootsAfter count := by
  have given : state.phase.blind = true → state.shutdown = true := fun blind =>
    (kept.woken now blind).resolve_right fun ⟨thread, call, there⟩ => absurd ((returned thread).symm.trans there) nofun
  cases phase : state.phase with
  | waits =>
    have moved : state.next (.run : Event ι) = some { state with shutdown := false, phase := .records } := by
      rw [next_run (by rw [phase]; exact nofun), applRebootFn, phase]
      exact if_pos (given (by rw [phase]; rfl))
    exact ⟨3, Nat.le_refl 3, .succ moved rfl (.records now rfl)⟩
  | records => exact ⟨2, by decide, .records now phase⟩
  | testsFlag => exact ⟨1, by decide, .tests now (.inl phase)⟩
  | readsDelay =>
    have holds := kept.holds
    rw [phase] at holds
    obtain ⟨-, call, -, positive, delay⟩ := holds
    have moved : state.next (.run : Event ι) =
        some { state with phase := .sleeps (state.now + state.shutdownDelay.toNat) } := by
      rw [next_run (by rw [phase]; exact nofun), applRebootFn, phase]
      dsimp only
      rw [if_pos (delay ▸ positive)]
    exact ⟨3, Nat.le_refl 3, .succ moved rfl (.sleeps now (given (by rw [phase]; rfl)) rfl)⟩
  | sleeps timeout => exact ⟨2, by decide, .sleeps now (given (by rw [phase]; rfl)) phase⟩
  | woken => exact ⟨1, by decide, .tests now (.inr phase)⟩
  | reboots => exact ⟨0, by decide, state, rfl, phase, rfl⟩

/-- In every order of the threads a reboot is not lost. When the calls of `appl_reboot` have returned, the thread has
rebooted, can go on, or sleeps for the delay of a call; and when one of them has no delay, the thread reboots at once,
whichever other calls there are and wherever the thread was. -/
theorem reboot_not_lost (path : Path Step ({} : Reboot ι) events state) (called : state.calls ≠ [])
    (returned : ∀ thread, state.caller thread = .idle) :
    (state.phase = .reboots ∨ (state.next (.run : Event ι)).isSome = true ∨
        ∃ timeout, state.phase = .sleeps timeout ∧
          ∃ call ∈ state.calls, 0 < call.delayMs ∧ timeout ≤ state.now + call.delayMs.toNat) ∧
      ((∃ call ∈ state.calls, call.delayMs = 0) → ∃ count ≤ 3, state.RebootsAfter count) := by
  have kept := kept_path path
  constructor
  · cases phase : state.phase with
    | waits =>
      have given : state.shutdown = true :=
        (kept.pending phase called).resolve_right fun ⟨thread, busy⟩ => busy (returned thread)
      refine .inr (.inl ?_)
      rw [next_run (by rw [phase]; exact nofun), applRebootFn, phase]
      dsimp only
      rw [if_pos given]
      rfl
    | sleeps timeout =>
      have holds := kept.holds
      rw [phase] at holds
      exact .inr (.inr ⟨timeout, rfl, holds.2⟩)
    | reboots => exact .inl rfl
    | _ =>
      refine .inr (.inl ?_)
      rw [next_run (by rw [phase]; exact nofun), applRebootFn, phase]
      rfl
  · rintro ⟨call, member, zero⟩
    refine kept.reboots ((kept.asked call member zero).resolve_right fun ⟨thread, there⟩ => ?_) returned
    rw [returned thread] at there
    exact there.elim nofun nofun

/-- The run exists. -/
theorem restarts_not_lost : ∃ state, Path Step ({} : Reboot Bool) restarts state ∧
    ((state.phase = .reboots ∨ (state.next (.run : Event Bool)).isSome = true ∨
        ∃ timeout, state.phase = .sleeps timeout ∧
          ∃ call ∈ state.calls, 0 < call.delayMs ∧ timeout ≤ state.now + call.delayMs.toNat) ∧
      ((∃ call ∈ state.calls, call.delayMs = 0) → ∃ count ≤ 3, state.RebootsAfter count)) := by
  have runs : (restarts.foldlM next ({} : Reboot Bool)).any fun state =>
      decide (state.calls ≠ []) && decide (state.caller false = .idle) && decide (state.caller true = .idle) := by decide
  obtain ⟨state, ran, checked⟩ := Option.any_eq_true _ _ |>.mp runs
  rw [Bool.and_eq_true, Bool.and_eq_true, decide_eq_true_iff, decide_eq_true_iff, decide_eq_true_iff] at checked
  obtain ⟨⟨called, no⟩, yes⟩ := checked
  have path : Path Step ({} : Reboot Bool) restarts state := Path.of_foldlM ran
  exact ⟨state, path, reboot_not_lost path called (Bool.forall_bool.mpr ⟨no, yes⟩)⟩

end Reboot

end CoapsClient.ApplDiagnose
