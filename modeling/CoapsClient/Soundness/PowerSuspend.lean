import CoapsClient.Machine.Path
import CoapsClient.Model.Power.Suspend
import Mathlib.Data.List.Nodup
import Mathlib.Data.List.Perm.Basic

/-! # A suspend is never lost

A suspend that comes during a pulse is left to the work of the pulse. The work is always set behind the end of the pulse, so
that it finds the pulse over; whichever of suspend, pulse and work is last decides as `power_manager_apply` does. The
devices, the supply and the UART follow this decision.
-/

namespace CoapsClient.PowerManager

open Machine (Path Delayed guarded)

theorem Clock.msec_pos (clock : Clock) (ms : ℕ) (some : 0 < ms) : 0 < clock.msec ms := by
  have ticks : 0 < ms * clock.ticksPerSec := Nat.mul_pos some clock.positive
  simp only [msec]
  omega

namespace Power

variable {δ : Type*} [DecidableEq δ] {clock : Clock} {state after : Power δ} {refusals : Refusals δ}

private theorem actionRun_fold (state : Power δ) (refusals : Refusals δ) (devices : List δ) (suspend : Bool) :
    ∃ asleep actions,
      devices.foldl (actionRun refusals suspend) state = { state with asleep := asleep, actions := actions } := by
  induction devices generalizing state with
  | nil => exact ⟨_, _, rfl⟩
  | cons dev devices ih =>
    obtain ⟨asleep, actions, rest⟩ := ih (actionRun refusals suspend state dev)
    refine ⟨asleep, actions, ?_⟩
    rw [List.foldl_cons, rest]
    simp only [actionRun]
    split <;> rfl

omit [DecidableEq δ] in
private theorem suspendUart_frame (clock : Clock) (state : Power δ) (refusals : Refusals δ) (suspend : Bool) :
    ∃ uartSuspend uartCounter uartWork uartOff,
    state.suspendUart clock refusals suspend =
      { state with
        uartSuspend := uartSuspend, uartCounter := uartCounter, uartWork := uartWork, uartOff := uartOff } := by
  simp only [suspendUart]
  split_ifs <;> exact ⟨_, _, _, _, rfl⟩

/-- `power_manager_apply` leaves everything but `pm_suspended` and what follows it. -/
private theorem apply_frame (clock : Clock) (state : Power δ) (refusals : Refusals δ) :
    ∃ asleep actions uartSuspend uartCounter uartWork uartOff supply,
    state.apply clock refusals =
      { state with
        suspended := state.suspends, asleep := asleep, actions := actions, uartSuspend := uartSuspend,
        uartCounter := uartCounter, uartWork := uartWork, uartOff := uartOff, supply := supply } := by
  simp only [apply]
  split_ifs with changes
  · obtain ⟨asleep, actions, devices⟩ := actionRun_fold { state with suspended := state.suspends } refusals
      (if state.suspends then state.table else state.table.reverse) state.suspends
    simp only [suspendDevices, devices]
    obtain ⟨uartSuspend, uartCounter, uartWork, uartOff, uart⟩ := suspendUart_frame clock
      { state with suspended := state.suspends, asleep := asleep, actions := actions } refusals state.suspends
    exact ⟨_, _, _, _, _, _, _, by rw [uart]⟩
  · have same := Decidable.not_not.mp changes
    exact ⟨state.asleep, state.actions, state.uartSuspend, state.uartCounter, state.uartWork, state.uartOff, state.supply,
      by rw [← same]⟩

/-- The invariant of the pulse. -/
structure Timely (now : ℕ) (pulseEnd : ℤ) (suspend suspended : Bool) (work : Delayed) : Prop where
  granted : suspended = true → suspend = true ∧ pulseEnd < now
  /-- The work finds the pulse over. -/
  timed : ∀ due, work.due = some due → pulseEnd < due
  armed : now ≤ pulseEnd → work.due.isSome = true
  waits : suspend = true → suspended = false → work.outstanding = true

/-- Without work nothing waits. -/
theorem Timely.settled {now : ℕ} {pulseEnd : ℤ} {suspend suspended : Bool} {work : Delayed}
    (kept : Timely now pulseEnd suspend suspended work) (none : work.outstanding = false) : suspended = suspend := by
  rw [Bool.eq_iff_iff]
  refine ⟨fun done => (kept.granted done).1, fun wanted => ?_⟩
  rw [← Bool.not_eq_false]
  intro awake
  exact Bool.false_ne_true (none.symm.trans (kept.waits wanted awake))

/-- The invariant of a state. -/
def timely (state : Power δ) : Prop :=
  Timely state.now state.pulseEnd state.suspend state.suspended state.work

omit [DecidableEq δ] in
private theorem suspends_iff : state.suspends = true ↔ state.suspend = true ∧ state.pulseEnd < state.now := by
  have past : state.pulseEnd - state.now < 0 ↔ state.pulseEnd < state.now := by omega
  rw [suspends, Bool.and_eq_true, decide_eq_true_iff, past]

/-- Whoever applies needs no work unless the pulse goes on. -/
private theorem timely_apply (timed : ∀ due, state.work.due = some due → state.pulseEnd < due)
    (armed : state.now ≤ state.pulseEnd → state.work.due.isSome = true) : (state.apply clock refusals).timely := by
  obtain ⟨asleep, actions, uartSuspend, uartCounter, uartWork, uartOff, supply, equal⟩ :=
    apply_frame clock state refusals
  rw [equal]
  refine ⟨suspends_iff.mp, timed, armed, fun suspend awake => ?_⟩
  have lasts : state.now ≤ state.pulseEnd := by
    by_contra past
    exact Bool.false_ne_true (awake.symm.trans (suspends_iff.mpr ⟨suspend, Int.not_le.mp past⟩))
  obtain ⟨due, set⟩ := Option.isSome_iff_exists.mp (armed lasts)
  exact Delayed.outstanding_of_due set

private theorem timely_pulse (kept : state.timely) {time read : ℕ} (earlier : read ≤ state.now) :
    (state.pulse clock time read refusals).timely := by
  simp only [pulse]
  split_ifs with longer
  · refine timely_apply (fun due set => ?_) fun _ => rfl
    -- the work is set at least the 50 ms behind the end
    obtain rfl := Option.some.inj (Delayed.due_reschedule.symm.trans set)
    have margin := clock.msec_pos 50 (by decide)
    dsimp only
    omega
  · exact timely_apply kept.timed kept.armed

omit [DecidableEq δ] in
private theorem timely_expire (kept : state.timely) {work : Delayed} (expired : state.work.expire state.now = some work) :
    { state with work }.timely := by
  obtain ⟨⟨due, set, come⟩, rfl⟩ := Delayed.expire_eq_some expired
  have past : state.pulseEnd < due := kept.timed due set
  refine Timely.mk kept.granted (fun _ unset => nomatch unset) (fun lasts => ?_) fun _ _ => rfl
  exact absurd (Int.lt_of_le_of_lt lasts past) (Int.not_lt.mpr (Int.ofNat_le.mpr come))

omit [DecidableEq δ] in
private theorem timely_begin (kept : state.timely) {work : Delayed} (begun : state.work.begin = some work) :
    { state with work }.timely := by
  obtain ⟨queued, idle, rfl⟩ := Delayed.begin_eq_some begun
  exact ⟨kept.granted, kept.timed, kept.armed, fun _ _ => Delayed.outstanding_of_running rfl⟩

omit [DecidableEq δ] in
private theorem timely_uartFn (kept : state.timely) (logDataPending : Bool) :
    (state.suspendUartFn clock logDataPending refusals).timely := by
  simp only [suspendUartFn]
  split_ifs <;> exact kept

private theorem timely_step (kept : state.timely) {event : Event δ} (moved : state.next clock event = some after) :
    after.timely := by
  unfold next at moved
  cases event with
  | tick =>
    obtain rfl := Option.some.inj moved
    refine ⟨fun suspended => ?_, kept.timed, fun lasts => kept.armed ?_, kept.waits⟩
    · obtain ⟨suspend, past⟩ := kept.granted suspended
      exact ⟨suspend, Int.lt_trans past (Int.ofNat_lt.mpr (Nat.lt_succ_self _))⟩
    · exact Int.le_trans (Int.ofNat_le.mpr (Nat.le_succ _)) lasts
  | addDevice dev =>
    obtain rfl := Option.some.inj moved
    unfold addDevice
    split_ifs <;> exact kept
  | suspend enable refusals =>
    obtain rfl := Option.some.inj moved
    exact timely_apply kept.timed kept.armed
  | pulse time read refusals =>
    obtain ⟨earlier, equal⟩ := Option.ite_none_right_eq_some.mp moved
    obtain rfl := Option.some.inj equal
    exact timely_pulse kept earlier
  | expire =>
    obtain ⟨work, expired, rfl⟩ := Option.map_eq_some_iff.mp moved
    exact timely_expire kept expired
  | begin =>
    obtain ⟨idle, equal⟩ := Option.ite_none_left_eq_some.mp moved
    obtain ⟨work, begun, rfl⟩ := Option.map_eq_some_iff.mp equal
    exact timely_begin kept begun
  | suspendFn refusals =>
    obtain ⟨running, equal⟩ := Option.ite_none_right_eq_some.mp moved
    obtain rfl := Option.some.inj equal
    exact timely_apply kept.timed kept.armed
  | uartExpire =>
    obtain ⟨work, expired, rfl⟩ := Option.map_eq_some_iff.mp moved
    exact kept
  | uartBegin =>
    obtain ⟨idle, equal⟩ := Option.ite_none_left_eq_some.mp moved
    obtain ⟨work, begun, rfl⟩ := Option.map_eq_some_iff.mp equal
    exact kept
  | uartFn logDataPending refusals =>
    obtain ⟨running, equal⟩ := Option.ite_none_right_eq_some.mp moved
    obtain rfl := Option.some.inj equal
    exact timely_uartFn kept logDataPending

/-- A step of the board. -/
def Step (clock : Clock) (state : Power δ) (event : Event δ) (after : Power δ) : Prop := state.next clock event = some after

/-- The board when `power_manager.c` is first called. -/
def boot (now : ℕ) (asleep : δ → Bool) : Power δ := { now, asleep }

omit [DecidableEq δ] in
private theorem timely_boot {now : ℕ} (later : 0 < now) (asleep : δ → Bool) : (boot now asleep).timely := by
  refine ⟨nofun, nofun, fun lasts => ?_, nofun⟩
  exact absurd lasts (Int.not_le.mpr (Int.ofNat_lt.mpr later))

private theorem timely_path {now : ℕ} (later : 0 < now) {asleep : δ → Bool} {events : List (Event δ)}
    (path : Path (Step clock) (boot now asleep) events state) : state.timely :=
  path.invariant timely (fun _ _ _ kept moved => timely_step kept moved) (timely_boot later asleep)

/-- The board is suspended only after the end of the pulse and as long as a suspend is wanted; a suspend that is wanted and
not done yet is left to the work of the pulse, which is set for after the end of the pulse. So nothing is lost: without this
work the board is as the last `power_manager_suspend` wanted. -/
theorem suspend_never_lost {now : ℕ} (later : 0 < now) {asleep : δ → Bool} {events : List (Event δ)}
    (path : Path (Step clock) (boot now asleep) events state) :
    (state.suspended = true → state.suspend = true ∧ state.pulseEnd < state.now) ∧
      (state.suspend = true → state.suspended = false → state.work.outstanding = true) ∧
      (∀ due, state.work.due = some due → state.pulseEnd < due) ∧
      (state.work.outstanding = false → state.suspended = state.suspend) := by
  have kept := timely_path later path
  exact ⟨kept.granted, kept.waits, kept.timed, kept.settled⟩

/-- A suspend, a pulse that resumes the board, and its work. -/
def blink : List (Event Bool) :=
  [.addDevice false, .addDevice true, .suspend true {}, .pulse 4 1 {}, .tick, .tick, .tick, .tick, .expire, .begin,
    .suspendFn {}, .tick, .uartExpire, .uartBegin, .uartFn false {}, .tick, .uartExpire, .uartBegin, .uartFn false {}]

/-- The run exists. -/
theorem blink_never_lost : ∃ state, Path (Step ⟨20, by decide⟩) (boot 1 fun _ : Bool => false) blink state ∧
    ((state.suspended = true → state.suspend = true ∧ state.pulseEnd < state.now) ∧
      (state.suspend = true → state.suspended = false → state.work.outstanding = true) ∧
      (∀ due, state.work.due = some due → state.pulseEnd < due) ∧
      (state.work.outstanding = false → state.suspended = state.suspend)) := by
  have runs : (blink.foldlM (next ⟨20, by decide⟩) (boot 1 fun _ : Bool => false)).isSome := by decide
  obtain ⟨state, ran⟩ := Option.isSome_iff_exists.mp runs
  have path : Path (Step ⟨20, by decide⟩) (boot 1 fun _ : Bool => false) blink state := Path.of_foldlM ran
  exact ⟨state, path, suspend_never_lost (by decide) path⟩

/-- The devices that are suspended, the last one first. A device is suspended once and resumed as the last one. -/
def replay (stack : List δ) : δ × Bool → Option (List δ)
  | (dev, true) => if dev ∈ stack then none else some (dev :: stack)
  | (dev, false) =>
      match stack with
      | [] => none
      | last :: rest => if last = dev then some rest else none

private theorem replay_suspends {devices stack : List δ} (distinct : devices.Nodup) (apart : ∀ dev ∈ devices, dev ∉ stack) :
    (devices.map (·, true)).foldlM replay stack = some (devices.reverse ++ stack) := by
  induction devices generalizing stack with
  | nil => rfl
  | cons dev devices ih =>
    obtain ⟨fresh, distinct⟩ := List.nodup_cons.mp distinct
    have outside : dev ∉ stack := apart dev List.mem_cons_self
    have others : ∀ other ∈ devices, other ∉ dev :: stack := by
      intro other member there
      rcases List.mem_cons.mp there with rfl | there
      · exact fresh member
      · exact apart other (List.mem_cons_of_mem _ member) there
    rw [List.map_cons, List.foldlM_cons, replay, if_neg outside]
    simpa [List.append_assoc] using ih distinct others

private theorem replay_resumes (devices stack : List δ) :
    (devices.map (·, false)).foldlM replay (devices ++ stack) = some stack := by
  induction devices with
  | nil => rfl
  | cons dev devices ih =>
    rw [List.map_cons, List.foldlM_cons, List.cons_append, replay, if_pos rfl]
    exact ih

/-- The actions of devices that are not there yet, and do not refuse. -/
private theorem actionRun_all (state : Power δ) {devices : List δ} {suspend : Bool} (distinct : devices.Nodup)
    (there : ∀ dev ∈ devices, state.asleep dev ≠ suspend) :
    devices.foldl (actionRun {} suspend) state =
      { state with
        asleep := fun dev => if dev ∈ devices then suspend else state.asleep dev
        actions := state.actions ++ devices.map (·, suspend) } := by
  induction devices generalizing state with
  | nil => simp
  | cons dev devices ih =>
    obtain ⟨fresh, distinct⟩ := List.nodup_cons.mp distinct
    have acts : actionRun {} suspend state dev =
        { state with
          asleep := Function.update state.asleep dev suspend
          actions := state.actions ++ [(dev, suspend)] } := by
      rw [actionRun, if_neg]
      exact fun same => same.elim (there dev List.mem_cons_self) List.not_mem_nil
    rw [List.foldl_cons, acts, ih _ distinct]
    · congr 1
      · funext other
        by_cases same : other = dev
        · subst same
          simp [fresh]
        · simp [same]
      · simp
    · intro other member
      have apart : other ≠ dev := fun same => fresh (same ▸ member)
      dsimp only
      rw [Function.update_of_ne apart]
      exact there other (List.mem_cons_of_mem _ member)

/-- The invariant of what is suspended and resumed. -/
structure Follows (state : Power δ) : Prop where
  distinct : state.table.Nodup
  bounded : state.table.length ≤ maxPmDevices
  devices : ∀ dev ∈ state.table, state.asleep dev = state.suspended
  nested : state.actions.foldlM replay [] = some (if state.suspended then state.table.reverse else [])
  supply : state.supply = !state.suspended
  ready : state.uartReady = true
  uart : state.uartSuspend = state.suspended
  off : state.uartOff = true → state.suspended = true
  /-- The UART is suspended, or its work is to do it. -/
  waits : state.suspended = true → state.uartOff = true ∨ state.uartWork.outstanding = true ∧ state.uartCounter ≤ 30

/-- A step in which no device refuses its action, and a device is added once, while it and the board are not suspended. -/
def Cooperative (state : Power δ) : Event δ → Prop
  | .suspend _ refusals | .pulse _ _ refusals | .suspendFn refusals | .uartFn _ refusals => refusals = {}
  | .addDevice dev => dev ∉ state.table ∧ state.asleep dev = false ∧ state.suspended = false
  | _ => True

instance decidableCooperative (state : Power δ) : (event : Event δ) → Decidable (Cooperative state event)
  | .suspend _ refusals | .pulse _ _ refusals | .suspendFn refusals | .uartFn _ refusals =>
      inferInstanceAs (Decidable (refusals = {}))
  | .addDevice dev =>
      inferInstanceAs (Decidable (dev ∉ state.table ∧ state.asleep dev = false ∧ state.suspended = false))
  | .tick | .expire | .begin | .uartExpire | .uartBegin => inferInstanceAs (Decidable True)

private theorem apply_suspends (kept : Follows state) (awake : state.suspended = false) (suspends : state.suspends = true) :
    state.apply clock {} =
      { state with
        suspended := true
        asleep := fun dev => if dev ∈ state.table then true else state.asleep dev
        actions := state.actions ++ state.table.map (·, true)
        uartSuspend := true
        uartCounter := 0
        uartWork := state.uartWork.schedule (state.now + clock.msec 50)
        supply := false } := by
  have there : ∀ dev ∈ state.table, state.asleep dev ≠ true := fun dev member asleep =>
    Bool.false_ne_true (awake.symm.trans ((kept.devices dev member).symm.trans asleep))
  have changes : state.suspended ≠ state.suspends := by
    rw [awake, suspends]
    exact Bool.false_ne_true
  have uart : state.uartReady = true ∧ state.uartSuspend ≠ true := by
    rw [kept.uart, awake]
    exact ⟨kept.ready, Bool.false_ne_true⟩
  have devices : { state with suspended := true }.suspendDevices {} true = _ :=
    actionRun_all { state with suspended := true } kept.distinct there
  simp only [apply]
  rw [if_pos changes, suspends, devices, suspendUart, if_pos uart, if_pos rfl]
  rfl

private theorem apply_resumes (kept : Follows state) (suspended : state.suspended = true)
    (resumes : state.suspends = false) :
    state.apply clock {} =
      { state with
        suspended := false
        asleep := fun dev => if dev ∈ state.table.reverse then false else state.asleep dev
        actions := state.actions ++ state.table.reverse.map (·, false)
        uartSuspend := false
        uartOff := false
        supply := true } := by
  have there : ∀ dev ∈ state.table.reverse, state.asleep dev ≠ false := fun dev member awake =>
    Bool.false_ne_true (awake.symm.trans ((kept.devices dev (List.mem_reverse.mp member)).trans suspended))
  have changes : state.suspended ≠ state.suspends := by
    rw [suspended, resumes]
    exact Bool.false_ne_true.symm
  have uart : state.uartReady = true ∧ state.uartSuspend ≠ false := by
    rw [kept.uart, suspended]
    exact ⟨kept.ready, Bool.false_ne_true.symm⟩
  have devices : { state with suspended := false }.suspendDevices {} false = _ :=
    actionRun_all { state with suspended := false } (List.nodup_reverse.mpr kept.distinct) there
  simp only [apply]
  rw [if_pos changes, resumes, devices, suspendUart, if_pos uart, if_neg Bool.false_ne_true, Bool.and_false,
    if_neg Bool.false_ne_true]
  rfl

private theorem follows_apply (kept : Follows state) : Follows (state.apply clock {}) := by
  by_cases same : state.suspended = state.suspends
  · have stays : state.apply clock {} = state := if_neg (not_not_intro same)
    rwa [stays]
  cases suspends : state.suspends with
  | true =>
    have awake : state.suspended = false := Bool.eq_false_iff.mpr fun suspended => same (suspended.trans suspends.symm)
    rw [apply_suspends kept awake suspends]
    refine ⟨kept.distinct, kept.bounded, fun dev member => if_pos member, ?_, rfl, kept.ready, rfl, fun _ => rfl,
      fun _ => .inr ⟨Delayed.outstanding_schedule, Nat.zero_le _⟩⟩
    rw [List.foldlM_append, kept.nested, awake]
    exact (replay_suspends kept.distinct fun _ _ => List.not_mem_nil).trans (congrArg some (List.append_nil _))
  | false =>
    have suspended : state.suspended = true := Bool.not_eq_false _ ▸ fun awake => same (awake.trans suspends.symm)
    rw [apply_resumes kept suspended suspends]
    refine ⟨kept.distinct, kept.bounded, fun dev member => if_pos (List.mem_reverse.mpr member), ?_, rfl, kept.ready, rfl,
      nofun, nofun⟩
    rw [List.foldlM_append, kept.nested, suspended]
    simpa using replay_resumes state.table.reverse []

omit [DecidableEq δ] in
/-- What `suspend_uart_fn` does with a UART that does not refuse. -/
private theorem suspendUartFn_cases (clock : Clock) (state : Power δ) (logDataPending : Bool) :
    state.uartSuspend = false ∧
        state.suspendUartFn clock logDataPending {} = { state with uartWork := state.uartWork.finish } ∨
      (state.uartCounter + 1 < 30 ∧ ∃ counter ≤ 30, state.uartCounter < counter ∧
        state.suspendUartFn clock logDataPending {} =
          { state with
            uartCounter := counter, uartWork := state.uartWork.finish.schedule (state.now + clock.msec 50) }) ∨
      state.uartSuspend = true ∧ state.suspendUartFn clock logDataPending {} =
        { state with uartCounter := state.uartCounter + 1, uartWork := state.uartWork.finish, uartOff := true } := by
  cases suspends : state.uartSuspend with
  | false =>
    refine .inl ⟨rfl, ?_⟩
    simp only [suspendUartFn, suspends]
    rfl
  | true =>
    refine .inr ?_
    simp only [suspendUartFn, suspends, if_true, Bool.and_false, Bool.false_eq_true, if_false]
    split
    · next early =>
      refine .inl ⟨early, if logDataPending then state.uartCounter + 1 else 30, ?_, ?_, rfl⟩
      · split
        · exact Nat.le_of_lt early
        · exact Nat.le_refl 30
      · split
        · exact Nat.lt_succ_self _
        · omega
    · exact .inr ⟨trivial, rfl⟩

private theorem follows_uartFn (kept : Follows state) (logDataPending : Bool) :
    Follows (state.suspendUartFn clock logDataPending {}) := by
  obtain ⟨awake, equal⟩ | ⟨-, counter, few, -, equal⟩ | ⟨suspends, equal⟩ :=
    suspendUartFn_cases clock state logDataPending
  · rw [equal]
    refine { kept with waits := fun suspended => ?_ }
    exact absurd (awake.symm.trans (kept.uart.trans suspended)) Bool.false_ne_true
  · rw [equal]
    exact { kept with waits := fun _ => .inr ⟨Delayed.outstanding_schedule, few⟩ }
  · rw [equal]
    exact { kept with off := fun _ => kept.uart.symm.trans suspends, waits := fun _ => .inl rfl }

private theorem follows_addDevice (kept : Follows state) {dev : δ} (fresh : dev ∉ state.table)
    (awake : state.asleep dev = false)
    (board : state.suspended = false) : Follows (state.addDevice dev) := by
  unfold addDevice
  split_ifs with full
  · exact kept
  · refine { kept with
      distinct := List.nodup_append.mpr ⟨kept.distinct, List.nodup_singleton dev, ?_⟩
      bounded := ?_
      devices := fun other member => ?_
      nested := ?_ }
    · intro other member last single
      rw [List.mem_singleton.mp single]
      rintro rfl
      exact fresh member
    · rw [List.length_append]
      exact Nat.lt_of_not_le full
    · rcases List.mem_append.mp member with member | member
      · exact kept.devices other member
      · rw [List.mem_singleton.mp member]
        exact awake.trans board.symm
    · have nested := kept.nested
      rw [board] at nested ⊢
      exact nested

theorem follows_step (kept : Follows state) {event : Event δ}
    (moved : guarded (fun state event after => state.next clock event = some after) Cooperative state event after) :
    Follows after := by
  obtain ⟨cooperates, moved⟩ := moved
  unfold next at moved
  cases event with
  | tick =>
    obtain rfl := Option.some.inj moved
    exact { kept with }
  | addDevice dev =>
    obtain rfl := Option.some.inj moved
    exact follows_addDevice kept cooperates.1 cooperates.2.1 cooperates.2.2
  | suspend enable refusals =>
    obtain rfl := Option.some.inj moved
    obtain rfl : refusals = {} := cooperates
    exact follows_apply { kept with }
  | pulse time read refusals =>
    obtain ⟨earlier, equal⟩ := Option.ite_none_right_eq_some.mp moved
    obtain rfl := Option.some.inj equal
    obtain rfl : refusals = {} := cooperates
    simp only [pulse]
    split_ifs
    · exact follows_apply { kept with }
    · exact follows_apply kept
  | expire =>
    obtain ⟨work, expired, rfl⟩ := Option.map_eq_some_iff.mp moved
    exact { kept with }
  | begin =>
    obtain ⟨idle, equal⟩ := Option.ite_none_left_eq_some.mp moved
    obtain ⟨work, begun, rfl⟩ := Option.map_eq_some_iff.mp equal
    exact { kept with }
  | suspendFn refusals =>
    obtain ⟨running, equal⟩ := Option.ite_none_right_eq_some.mp moved
    obtain rfl := Option.some.inj equal
    obtain rfl : refusals = {} := cooperates
    exact follows_apply { kept with }
  | uartExpire =>
    obtain ⟨work, expired, rfl⟩ := Option.map_eq_some_iff.mp moved
    exact { kept with
      waits := fun suspended => (kept.waits suspended).imp_right fun waits =>
        ⟨Delayed.outstanding_expire expired, waits.2⟩ }
  | uartBegin =>
    obtain ⟨idle, equal⟩ := Option.ite_none_left_eq_some.mp moved
    obtain ⟨work, begun, rfl⟩ := Option.map_eq_some_iff.mp equal
    exact { kept with
      waits := fun suspended => (kept.waits suspended).imp_right fun waits => ⟨Delayed.outstanding_begin begun, waits.2⟩ }
  | uartFn logDataPending refusals =>
    obtain ⟨running, equal⟩ := Option.ite_none_right_eq_some.mp moved
    obtain rfl := Option.some.inj equal
    obtain rfl : refusals = {} := cooperates
    exact follows_uartFn kept logDataPending

/-- `suspend_uart_fn` runs. -/
def isUartFn : Event δ → Bool
  | .uartFn _ _ => true
  | _ => false

/-- A board that stays suspended is not changed. -/
private theorem apply_of_suspended (stays : (state.apply clock refusals).suspended = true)
    (suspended : state.suspended = true) : state.apply clock refusals = state := by
  obtain ⟨asleep, actions, uartSuspend, uartCounter, uartWork, uartOff, supply, equal⟩ :=
    apply_frame clock state refusals
  have suspends : state.suspends = true := by
    rw [equal] at stays
    exact stays
  exact if_neg (not_not_intro (suspended.trans suspends.symm))

/-- The work of the UART ran this often, and is not done yet. -/
def Tries (state : Power δ) (runs : ℕ) : Prop :=
  state.uartOff = true ∨ runs ≤ state.uartCounter ∧ runs < 30

/-- Each run of the work counts. -/
theorem Tries.step (kept : Follows state) {runs : ℕ} (tries : Tries state runs) {event : Event δ}
    (moved : guarded (Step clock) (fun state event => Cooperative state event ∧ state.suspended = true) state event after)
    (stays : after.suspended = true) : Tries after (runs + if isUartFn event then 1 else 0) := by
  obtain ⟨⟨cooperates, suspended⟩, moved⟩ := moved
  unfold Step next at moved
  cases event with
  | tick =>
    obtain rfl := Option.some.inj moved
    exact tries
  | addDevice dev =>
    obtain rfl := Option.some.inj moved
    have same : Tries (state.addDevice dev) runs := by
      unfold addDevice
      split_ifs <;> exact tries
    exact same
  | suspend enable refusals =>
    obtain rfl := Option.some.inj moved
    rw [apply_of_suspended stays suspended]
    exact tries
  | pulse time read refusals =>
    obtain ⟨earlier, equal⟩ := Option.ite_none_right_eq_some.mp moved
    obtain rfl := Option.some.inj equal
    have same : Tries (state.pulse clock time read refusals) runs := by
      simp only [pulse] at stays ⊢
      split_ifs at stays ⊢
      · rw [apply_of_suspended stays suspended]
        exact tries
      · rw [apply_of_suspended stays suspended]
        exact tries
    exact same
  | expire =>
    obtain ⟨work, expired, rfl⟩ := Option.map_eq_some_iff.mp moved
    exact tries
  | begin =>
    obtain ⟨idle, equal⟩ := Option.ite_none_left_eq_some.mp moved
    obtain ⟨work, begun, rfl⟩ := Option.map_eq_some_iff.mp equal
    exact tries
  | suspendFn refusals =>
    obtain ⟨running, equal⟩ := Option.ite_none_right_eq_some.mp moved
    obtain rfl := Option.some.inj equal
    rw [apply_of_suspended stays suspended]
    exact tries
  | uartExpire =>
    obtain ⟨work, expired, rfl⟩ := Option.map_eq_some_iff.mp moved
    exact tries
  | uartBegin =>
    obtain ⟨idle, equal⟩ := Option.ite_none_left_eq_some.mp moved
    obtain ⟨work, begun, rfl⟩ := Option.map_eq_some_iff.mp equal
    exact tries
  | uartFn logDataPending refusals =>
    obtain ⟨running, equal⟩ := Option.ite_none_right_eq_some.mp moved
    obtain rfl := Option.some.inj equal
    obtain rfl : refusals = {} := cooperates
    obtain ⟨awake, -⟩ | ⟨early, counter, -, counts, equal⟩ | ⟨-, equal⟩ :=
      suspendUartFn_cases clock state logDataPending
    · exact absurd (awake.symm.trans (kept.uart.trans suspended)) Bool.false_ne_true
    · rw [equal]
      -- the work goes on only below 30, and the counter is ahead of the runs
      refine tries.imp_right fun ⟨ran, _⟩ => ?_
      change runs + 1 ≤ counter ∧ runs + 1 < 30
      omega
    · rw [equal]
      exact .inl rfl

theorem Tries.run (kept : Follows state) {runs : ℕ} (tries : state.suspended = true → Tries state runs)
    {rest : List (Event δ)}
    (path : Path (guarded (Step clock) fun state event => Cooperative state event ∧ state.suspended = true)
      state rest after) (stays : after.suspended = true) : Tries after (runs + rest.countP isUartFn) := by
  induction path generalizing runs with
  | nil state => exact tries stays
  | @cons source mid target event rest moved _ ih =>
    have first := fun stays => (tries moved.1.2).step kept moved stays
    have further := ih (follows_step kept ⟨moved.1.1, moved.2⟩) first stays
    rwa [Nat.add_assoc, Nat.add_comm (if isUartFn event then 1 else 0), ← List.countP_cons] at further

end Power

end CoapsClient.PowerManager
