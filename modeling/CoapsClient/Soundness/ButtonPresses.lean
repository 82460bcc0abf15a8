import CoapsClient.Machine.Path
import CoapsClient.Model.Ui.Button
import Mathlib.Data.List.Basic

/-! # Presses of the button

The interrupt, the debouncing and the handler of the notifications run one after the other: at most one notification is in
the fifo, and the work that takes it waits in the queue before the next debouncing. The notifications are then pressed and
released in turn, and each press comes to one outcome.
-/

namespace CoapsClient.Ui

open Machine (Path)

namespace Button

variable {setup : ButtonSetup} {first : Bool} {state after : Button} {event : Event}

/-- The level after so many changes of a button with this level at first. -/
def levelAfter (first : Bool) (changes : ℕ) : Bool := first != decide (changes % 2 = 1)

/-- The notification of a change. -/
def note (first : Bool) (change : ℕ) : ℤ := if levelAfter first change then change else -change

def notes (first : Bool) (changes : ℕ) : List ℤ := (List.range changes).map fun change => note first (change + 1)

@[simp] theorem levelAfter_zero (first : Bool) : levelAfter first 0 = first := by
  cases first <;> rfl

@[simp] theorem levelAfter_succ (first : Bool) (changes : ℕ) :
    levelAfter first (changes + 1) = !levelAfter first changes := by
  have parity : decide ((changes + 1) % 2 = 1) = !decide (changes % 2 = 1) := by
    rw [Bool.eq_iff_iff, decide_eq_true_iff, Bool.not_eq_true', decide_eq_false_iff_not]
    omega
  simp only [levelAfter, parity]
  cases first <;> simp

private theorem notes_succ (first : Bool) (changes : ℕ) :
    notes first (changes + 1) = notes first changes ++ [note first (changes + 1)] := by
  simp [notes, List.range_succ]

private theorem note_pos (first : Bool) (changes : ℕ) :
    0 < note first (changes + 1) ↔ levelAfter first changes = false := by
  have pressed : (0 : ℤ) < ((changes + 1 : ℕ) : ℤ) := by omega
  have released : ¬ (0 : ℤ) < -((changes + 1 : ℕ) : ℤ) := by omega
  simp only [note, levelAfter_succ]
  cases levelAfter first changes with
  | false => exact iff_of_true pressed rfl
  | true => exact iff_of_false released Bool.false_ne_true.symm

/-- What is handled when one notification or none is in the fifo. -/
private theorem handled_of_notes {handled fifo : List ℤ} {changes : ℕ} (equal : handled ++ fifo = notes first changes)
    {notif : ℤ}
    (single : fifo = [notif]) :
    ∃ before, changes = before + 1 ∧ handled = notes first before ∧ notif = note first (before + 1) := by
  subst single
  cases changes with
  | zero => exact absurd equal (by simp [notes])
  | succ before =>
    rw [notes_succ] at equal
    obtain ⟨handled, last⟩ := List.append_inj' equal rfl
    exact ⟨before, rfl, handled, List.singleton_inj.mp last⟩

/-- The last notification is a press when the button is pressed after it. -/
private theorem down_of_handled {changes : ℕ} (handled : state.handled = notes first changes) :
    state.down = (decide (0 < changes) && levelAfter first changes) := by
  cases changes with
  | zero => simp [down, handled, notes]
  | succ before =>
    simp only [down, handled, notes_succ, List.getLast?_append, List.getLast?_singleton, Option.some_or, Option.any_some]
    rw [Bool.eq_iff_iff, decide_eq_true_iff, note_pos]
    simp

/-- The order of two items in the queue. -/
def Before (first second : ButtonWork) : Prop := first ≠ second ∧ (first = .enableInterrupt → second ≠ .button)

/-- Where the debouncing is: the interrupt is enabled, or the work that enables it is to come. -/
inductive Stage (armed : Option Bool) (active : Bool) (counter : ℕ) (due : Option ℕ) (queue : List ButtonWork) : Prop
  | armed (level : Bool) (enabled : armed = some level) (other : level = !active ∨ counter = 0 ∧ level = true)
      (unset : due = none) (out : ButtonWork.enableInterrupt ∉ queue)
  | bouncing (disabled : armed = none) (time : ℕ) (set : due = some time) (out : ButtonWork.enableInterrupt ∉ queue)
  | queued (disabled : armed = none) (unset : due = none) (waits : ButtonWork.enableInterrupt ∈ queue)

/-- At most one notification waits for its work. -/
inductive Waits (fifo : List ℤ) (queue : List ButtonWork) : Prop
  | one (notif : ℤ) (single : fifo = [notif]) (waits : ButtonWork.button ∈ queue)
  | none (empty : fifo = []) (out : ButtonWork.button ∉ queue)

/-- The invariant of the notifications. -/
structure Follows (first : Bool) (state : Button) : Prop where
  order : state.queue.Pairwise Before
  stage : Stage state.armed state.active state.counter state.enableDue state.queue
  waits : Waits state.fifo state.queue
  notes : state.handled ++ state.fifo = notes first state.counter
  active : state.active = levelAfter first state.counter

theorem mem_submit {queue : List ButtonWork} {work other : ButtonWork} :
    other ∈ submit queue work ↔ other ∈ queue ∨ other = work := by
  simp only [submit]
  split
  · next member =>
    refine ⟨Or.inl, fun there => there.elim id ?_⟩
    rintro rfl
    exact member
  · simp

private theorem order_submit {queue : List ButtonWork} {work : ButtonWork} (order : queue.Pairwise Before)
    (behind : work = .button → ButtonWork.enableInterrupt ∉ queue) : (submit queue work).Pairwise Before := by
  simp only [submit]
  split_ifs with member
  · exact order
  · refine List.pairwise_append.mpr ⟨order, List.pairwise_singleton _ _, fun other there last single => ?_⟩
    obtain rfl := List.mem_singleton.mp single
    refine ⟨fun same => member (same ▸ there), ?_⟩
    rintro rfl same
    exact behind same there

theorem follows_init (level : Bool) : Follows level (init level) :=
  ⟨.nil, .armed true rfl (.inr ⟨rfl, rfl⟩) rfl List.not_mem_nil, .none rfl List.not_mem_nil, rfl,
    (levelAfter_zero level).symm⟩

private theorem enableInterrupt_same (state : Button) (same : state.active = state.level) :
    state.enableInterrupt setup = { state with armed := some (!state.level) } := by
  rw [enableInterrupt, if_neg (not_not_intro same), same]

private theorem enableInterrupt_changed (state : Button) (changes : state.active ≠ state.level) (empty : state.fifo = []) :
    state.enableInterrupt setup =
      { state with
        counter := state.counter + 1
        fifo := [if state.level then ((state.counter + 1 : ℕ) : ℤ) else -((state.counter + 1 : ℕ) : ℤ)]
        queue := submit state.queue .button
        active := state.level
        armed := some (!state.level) } := by
  have alloc : state.fifo.length < setup.room := empty ▸ setup.positive
  simp only [enableInterrupt, if_pos changes, if_pos alloc]
  rw [empty]
  rfl

/-- When the interrupt is enabled again the fifo and the timer of the work are empty, and no other work is behind it. -/
theorem Follows.enabling {queue : List ButtonWork} (kept : Follows first state)
    (head : state.queue = .enableInterrupt :: queue) :
    state.fifo = [] ∧ state.enableDue = none ∧ ButtonWork.enableInterrupt ∉ queue ∧ ButtonWork.button ∉ queue := by
  have order := kept.order
  rw [head, List.pairwise_cons] at order
  obtain ⟨behind, -⟩ := order
  have alone : ButtonWork.enableInterrupt ∉ queue := fun member => (behind _ member).1 rfl
  have handled : ButtonWork.button ∉ queue := fun member => (behind _ member).2 rfl rfl
  refine ⟨?_, ?_, alone, handled⟩
  · cases kept.waits with
    | one notif single waits =>
      rw [head] at waits
      exact absurd (List.mem_of_ne_of_mem (by decide) waits) handled
    | none empty out => exact empty
  · cases kept.stage with
    | armed level enabled other unset out => exact unset
    | bouncing disabled due set out => exact absurd (head ▸ List.mem_cons_self) out
    | queued disabled unset waits => exact unset

theorem Follows.notified {queue : List ButtonWork} (kept : Follows first state) (head : state.queue = .button :: queue) :
    ∃ notif, state.fifo = [notif] := by
  cases kept.waits with
  | one notif single waits => exact ⟨notif, single⟩
  | none empty out => exact absurd (head ▸ List.mem_cons_self) out

/-- The work enables the interrupt again; what it puts into the fifo is alone there. -/
private theorem follows_enableInterrupt {queue : List ButtonWork} (kept : Follows first state)
    (head : state.queue = .enableInterrupt :: queue) :
    Follows first ({ state with queue }.enableInterrupt setup) := by
  obtain ⟨empty, unset, alone, handled⟩ := kept.enabling head
  have order := kept.order
  rw [head, List.pairwise_cons] at order
  obtain ⟨-, order⟩ := order
  have notes := kept.notes
  rw [empty, List.append_nil] at notes
  by_cases changes : state.active = state.level
  · rw [enableInterrupt_same { state with queue } changes]
    refine ⟨order, .armed _ rfl (.inl (congrArg _ changes.symm)) unset alone, .none empty handled, ?_, kept.active⟩
    rw [← notes]
    exact (congrArg _ empty).trans (List.append_nil _)
  · have behind : ButtonWork.enableInterrupt ∉ submit queue .button := fun member =>
      (mem_submit.mp member).elim alone (by decide)
    have level : state.level = levelAfter first (state.counter + 1) := by
      rw [levelAfter_succ, ← kept.active]
      exact Bool.eq_not.mpr (Ne.symm changes)
    rw [enableInterrupt_changed { state with queue } changes empty]
    refine ⟨order_submit order fun _ => alone, .armed _ rfl (.inl rfl) unset behind,
      .one _ rfl (mem_submit.mpr (.inr rfl)), ?_, level⟩
    dsimp only
    rw [notes, notes_succ, note, ← level]

/-- What `button_work` leaves of the queue and the fifo. -/
private theorem handleButton_frame (state : Button) {notif : ℤ} (single : state.fifo = [notif]) :
    ∃ queue timerDue duration last start press presses, queue.Sublist state.queue ∧
      (∀ work ∈ state.queue, work ≠ .timer → work ∈ queue) ∧
      state.handleButton setup =
        { state with
          queue := queue, timerDue := timerDue, duration := duration, last := last, start := start, press := press
          presses := presses, fifo := [], handled := state.handled ++ [notif] } := by
  simp only [handleButton, single]
  have kept : ∀ work ∈ state.queue, work ≠ .timer → work ∈ state.queue.filter (· ≠ .timer) := fun work member other =>
    List.mem_filter.mpr ⟨member, decide_eq_true other⟩
  split_ifs
  · exact ⟨_, _, _, _, _, _, _, List.Sublist.refl _, fun _ member _ => member, rfl⟩
  all_goals exact ⟨_, _, _, _, _, _, _, List.filter_sublist, kept, rfl⟩

private theorem handleTimer_frame (setup : ButtonSetup) (state : Button) :
    ∃ duration last presses,
      state.handleTimer setup = { state with duration := duration, last := last, presses := presses } := by
  simp only [handleTimer]
  split_ifs <;> exact ⟨_, _, _, rfl⟩

/-- The work of the notification is the only one, and takes it. -/
private theorem follows_handleButton {queue : List ButtonWork} (kept : Follows first state)
    (head : state.queue = .button :: queue) : Follows first ({ state with queue }.handleButton setup) := by
  have order := kept.order
  rw [head, List.pairwise_cons] at order
  obtain ⟨behind, order⟩ := order
  have alone : ButtonWork.button ∉ queue := fun member => (behind _ member).1 rfl
  obtain ⟨notif, single⟩ := kept.notified head
  obtain ⟨rest, timerDue, duration, last, start, press, presses, fewer, remain, equal⟩ :=
    handleButton_frame { state with queue } single
  have outside : ButtonWork.enableInterrupt ∉ state.queue → ButtonWork.enableInterrupt ∉ rest := fun out member =>
    out (head ▸ List.mem_cons_of_mem _ (fewer.subset member))
  rw [equal]
  refine ⟨order.sublist fewer, ?_, .none rfl fun member => alone (fewer.subset member), ?_, kept.active⟩
  · cases kept.stage with
    | armed level enabled other unset out => exact .armed level enabled other unset (outside out)
    | bouncing disabled due set out => exact .bouncing disabled due set (outside out)
    | queued disabled unset waits =>
      rw [head] at waits
      exact .queued disabled unset (remain _ (List.mem_of_ne_of_mem (by decide) waits) (by decide))
  · have notes := kept.notes
    rw [single] at notes
    exact (List.append_nil _).trans notes

private theorem follows_handleTimer {queue : List ButtonWork} (kept : Follows first state)
    (head : state.queue = .timer :: queue) : Follows first ({ state with queue }.handleTimer setup) := by
  have order := kept.order
  rw [head, List.pairwise_cons] at order
  have outside : ∀ work, work ∉ state.queue → work ∉ queue := fun work out member =>
    out (head ▸ List.mem_cons_of_mem _ member)
  have inside : ∀ work ∈ state.queue, work ≠ .timer → work ∈ queue := fun work member other => by
    rw [head] at member
    exact List.mem_of_ne_of_mem other member
  obtain ⟨duration, last, presses, equal⟩ := handleTimer_frame setup { state with queue }
  rw [equal]
  refine ⟨order.2, ?_, ?_, kept.notes, kept.active⟩
  · cases kept.stage with
    | armed level enabled other unset out => exact .armed level enabled other unset (outside _ out)
    | bouncing disabled due set out => exact .bouncing disabled due set (outside _ out)
    | queued disabled unset waits => exact .queued disabled unset (inside _ waits (by decide))
  · cases kept.waits with
    | one notif single waits => exact .one notif single (inside _ waits (by decide))
    | none empty out => exact .none empty (outside _ out)

private theorem clearInput_frame (setup : ButtonSetup) (state : Button) :
    ∃ presses, state.clearInput setup = { state with duration := 0, presses := presses } := by
  simp only [clearInput]
  split_ifs <;> exact ⟨_, rfl⟩

/-- A time that has come was set. -/
private theorem exists_of_come {due : Option ℕ} {now : ℕ} (past : come due now = true) :
    ∃ time, due = some time ∧ time ≤ now := by
  obtain ⟨time, set, reached⟩ := Option.any_eq_true _ _ |>.mp past
  exact ⟨time, set, of_decide_eq_true reached⟩

private theorem follows_expireTimer (kept : Follows first state) :
    Follows first { state with timerDue := none, queue := submit state.queue .timer } := by
  have outside : ∀ work ≠ .timer, work ∉ state.queue → work ∉ submit state.queue .timer := fun work other out member =>
    (mem_submit.mp member).elim out other
  refine ⟨order_submit kept.order nofun, ?_, ?_, kept.notes, kept.active⟩
  · cases kept.stage with
    | armed level enabled other unset out => exact .armed level enabled other unset (outside _ (by decide) out)
    | bouncing disabled due set out => exact .bouncing disabled due set (outside _ (by decide) out)
    | queued disabled unset waits => exact .queued disabled unset (mem_submit.mpr (.inl waits))
  · cases kept.waits with
    | one notif single waits => exact .one notif single (mem_submit.mpr (.inl waits))
    | none empty out => exact .none empty (outside _ (by decide) out)

private theorem follows_expireEnable {due : ℕ} (kept : Follows first state) (set : state.enableDue = some due) :
    Follows first { state with enableDue := none, queue := submit state.queue .enableInterrupt } := by
  have disabled : state.armed = none := by
    cases kept.stage with
    | armed level enabled other unset out => exact absurd (set.symm.trans unset) (Option.some_ne_none _)
    | bouncing disabled due set out => exact disabled
    | queued disabled unset waits => exact disabled
  refine ⟨order_submit kept.order nofun, .queued disabled rfl (mem_submit.mpr (.inr rfl)), ?_, kept.notes, kept.active⟩
  cases kept.waits with
  | one notif single waits => exact .one notif single (mem_submit.mpr (.inl waits))
  | none empty out => exact .none empty fun member => (mem_submit.mp member).elim out (by decide)

private theorem follows_pressed {level : Bool} (kept : Follows first state) (enabled : state.armed = some level) :
    Follows first state.pressed := by
  refine ⟨kept.order, ?_, kept.waits, kept.notes, kept.active⟩
  cases kept.stage with
  | armed level enabled other unset out => exact .bouncing rfl _ rfl out
  | bouncing disabled due set out => exact .bouncing rfl _ rfl out
  | queued disabled unset waits => exact absurd (enabled.symm.trans disabled) (Option.some_ne_none _)

theorem follows_step (kept : Follows first state) (moved : state.next setup event = some after) : Follows first after := by
  unfold next at moved
  cases event with
  | tick =>
    obtain rfl := Option.some.inj moved
    exact ⟨kept.order, kept.stage, kept.waits, kept.notes, kept.active⟩
  | pin level =>
    obtain rfl := Option.some.inj moved
    exact ⟨kept.order, kept.stage, kept.waits, kept.notes, kept.active⟩
  | interrupt =>
    obtain ⟨enabled, equal⟩ := Option.ite_none_right_eq_some.mp moved
    obtain rfl := Option.some.inj equal
    exact follows_pressed kept enabled
  | expireEnable =>
    obtain ⟨past, equal⟩ := Option.ite_none_right_eq_some.mp moved
    obtain rfl := Option.some.inj equal
    obtain ⟨due, set, reached⟩ := exists_of_come past
    exact follows_expireEnable kept set
  | expireTimer =>
    obtain ⟨past, equal⟩ := Option.ite_none_right_eq_some.mp moved
    obtain rfl := Option.some.inj equal
    exact follows_expireTimer kept
  | run =>
    cases head : state.queue with
    | nil =>
      rw [head] at moved
      exact absurd moved.symm (Option.some_ne_none _)
    | cons work queue =>
      rw [head] at moved
      obtain rfl := Option.some.inj moved
      cases work with
      | enableInterrupt => exact follows_enableInterrupt kept head
      | button => exact follows_handleButton kept head
      | timer => exact follows_handleTimer kept head
  | input =>
    obtain rfl := Option.some.inj moved
    obtain ⟨presses, equal⟩ := clearInput_frame setup state
    rw [equal]
    exact ⟨kept.order, kept.stage, kept.waits, kept.notes, kept.active⟩
  | prio enable =>
    obtain rfl := Option.some.inj moved
    exact ⟨kept.order, kept.stage, kept.waits, kept.notes, kept.active⟩

/-- A step of the button. -/
def Step (setup : ButtonSetup) (state : Button) (event : Event) (after : Button) : Prop :=
  state.next setup event = some after

variable {events : List Event}

private theorem follows_path (path : Path (Step setup) (init first) events state) : Follows first state :=
  path.invariant (Follows first) (fun _ _ _ kept moved => follows_step kept moved) (follows_init first)

/-- Without items in the queue, the last notification is the level the button has. -/
theorem Follows.down (kept : Follows first state) (idle : state.queue = [])
    (enabled : state.armed = some (!state.level)) : state.down = state.level ∨ state.handled = [] ∧ first = true := by
  have empty : state.fifo = [] := by
    cases kept.waits with
    | one notif single waits => exact absurd (idle ▸ waits) List.not_mem_nil
    | none empty out => exact empty
  have handled : state.handled = Button.notes first state.counter := by
    rw [← kept.notes, empty, List.append_nil]
  have down := down_of_handled handled
  rw [← kept.active] at down
  have armed : (!state.level) = !state.active ∨ state.counter = 0 ∧ state.level = false := by
    cases kept.stage with
    | armed level set other unset out =>
      obtain rfl := Option.some.inj (enabled.symm.trans set)
      exact other.imp_right fun never => ⟨never.1, Bool.not_eq_true' _ |>.mp never.2⟩
    | bouncing disabled due set out => exact absurd (enabled.symm.trans disabled) (Option.some_ne_none _)
    | queued disabled unset waits => exact absurd (enabled.symm.trans disabled) (Option.some_ne_none _)
  rcases Nat.eq_zero_or_pos state.counter with never | changed
  · have start : state.active = first := by
      rw [kept.active, never, levelAfter_zero]
    have up : state.down = false := by
      rw [down, never]
      rfl
    cases first with
    | true => exact .inr ⟨handled.trans (by rw [never]; rfl), rfl⟩
    | false =>
      rcases armed with same | ⟨-, low⟩
      · exact .inl (up.trans (start.symm.trans (Bool.not_inj same).symm))
      · exact .inl (up.trans low.symm)
  · have same : state.level = state.active :=
      armed.elim Bool.not_inj fun never => absurd never.1 (Nat.pos_iff_ne_zero.mp changed)
    rw [down, decide_eq_true changed, Bool.true_and]
    exact .inl same.symm

/-- In every run the interrupt of the button is enabled or the work that enables it is to come, a notification in the fifo
is the only one and its work is in the queue, and the notifications are the changes of the button in turn, without one that
is lost or doubled. When nothing is in the queue and the interrupt is enabled for the level the button does not have, the
last notification handled is the level of the button; only a press that lasts since `ui_init_button` has none. -/
theorem notifications_follow_pin (path : Path (Step setup) (init first) events state) :
    (state.armed.isSome = true ∨ state.enableDue.isSome = true ∨ ButtonWork.enableInterrupt ∈ state.queue) ∧
      state.fifo.length ≤ 1 ∧ (state.fifo ≠ [] ↔ ButtonWork.button ∈ state.queue) ∧
      state.handled ++ state.fifo = notes first state.counter ∧
      (state.queue = [] → state.armed = some (!state.level) →
        state.down = state.level ∨ state.handled = [] ∧ first = true) := by
  have kept := follows_path path
  refine ⟨?_, ?_, ?_, kept.notes, kept.down⟩
  · cases kept.stage with
    | armed level enabled other unset out => exact .inl (enabled ▸ rfl)
    | bouncing disabled due set out => exact .inr (.inl (set ▸ rfl))
    | queued disabled unset waits => exact .inr (.inr waits)
  · cases kept.waits with
    | one notif single waits => exact Nat.le_of_eq (congrArg List.length single)
    | none empty out => exact Nat.le_trans (Nat.le_of_eq (congrArg List.length empty)) (Nat.zero_le 1)
  · cases kept.waits with
    | one notif single waits => exact ⟨fun _ => waits, fun _ => single ▸ List.cons_ne_nil _ _⟩
    | none empty out => exact ⟨fun filled => absurd empty filled, fun waits => absurd waits out⟩

/-- The time passes. -/
def ticks (count : ℕ) : List Event := List.replicate count .tick

/-- The button is pressed, bounces, and is released. -/
def pressOnce : List Event :=
  [.pin true, .interrupt, .pin false, .pin true] ++ ticks 50 ++ [.expireEnable, .run, .run, .pin false, .interrupt] ++
    ticks 50 ++ [.expireEnable, .run, .run]

def oneNotification : ButtonSetup := ⟨1, Nat.one_pos, true⟩

set_option maxRecDepth 4000 in
private theorem press_runs : ∃ state, Path (Step oneNotification) (init false) pressOnce state := by
  have runs : (pressOnce.foldlM (next oneNotification) (init false)).isSome := by decide
  obtain ⟨state, ran⟩ := Option.isSome_iff_exists.mp runs
  exact ⟨state, Path.of_foldlM ran⟩

/-- The run exists. -/
theorem press_follows_pin : ∃ state, Path (Step oneNotification) (init false) pressOnce state ∧
    ((state.armed.isSome = true ∨ state.enableDue.isSome = true ∨ ButtonWork.enableInterrupt ∈ state.queue) ∧
      state.fifo.length ≤ 1 ∧ (state.fifo ≠ [] ↔ ButtonWork.button ∈ state.queue) ∧
      state.handled ++ state.fifo = notes false state.counter ∧
      (state.queue = [] → state.armed = some (!state.level) →
        state.down = state.level ∨ state.handled = [] ∧ false = true)) := by
  obtain ⟨state, path⟩ := press_runs
  exact ⟨state, path, notifications_follow_pin path⟩

/-- The press that lasts and did not come to anything yet. -/
def held (state : Button) : List ℤ := if state.duration = 1 ∧ state.down = true then [(state.press : ℤ)] else []

/-- What holds of the presses that are done. -/
structure Records (now : ℕ) (presses : List Press) : Prop where
  earlier : ∀ press ∈ presses, press.time ≤ now
  long : ∀ press ∈ presses, press.outcome = .long → press.start + buttonLongMs ≤ press.time
  apart : presses.Pairwise fun first second =>
    first.time ≤ second.start ∧
      (first.outcome.isInput = true → second.outcome = .short → first.time + buttonMinPauseMs < second.time)

theorem Records.later {now later : ℕ} {presses : List Press} (records : Records now presses) (passes : now ≤ later) :
    Records later presses :=
  { records with earlier := fun press member => Nat.le_trans (records.earlier press member) passes }

/-- A further press is done. -/
theorem Records.snoc {now : ℕ} {presses : List Press} {press : Press} (records : Records now presses)
    (here : press.time = now) (start : ∀ before ∈ presses, before.time ≤ press.start)
    (long : press.outcome = .long → press.start + buttonLongMs ≤ now)
    (short : press.outcome = .short → ∀ before ∈ presses, before.outcome.isInput = true →
      before.time + buttonMinPauseMs < now) : Records now (presses ++ [press]) := by
  subst here
  refine ⟨fun other member => ?_, fun other member => ?_, ?_⟩
  · rcases List.mem_append.mp member with member | member
    · exact records.earlier other member
    · exact List.mem_singleton.mp member ▸ Nat.le_refl _
  · rcases List.mem_append.mp member with member | member
    · exact records.long other member
    · exact List.mem_singleton.mp member ▸ long
  · refine List.pairwise_append.mpr ⟨records.apart, List.pairwise_singleton _ _, fun before member other single => ?_⟩
    obtain rfl := List.mem_singleton.mp single
    exact ⟨start before member, fun input outcome => short outcome before member input⟩

/-- The invariant of the presses. -/
structure Answers (state : Button) : Prop where
  /-- Each press has one outcome, or is held. -/
  presses : state.presses.map (fun press => (press.number : ℤ)) ++ state.held = state.handled.filter (0 < ·)
  records : Records state.now state.presses
  begun : state.duration = 1 → state.handled ≠ []
  last : state.down = true → state.handled.getLast? = some (state.press : ℤ)
  /-- The timer belongs to the press that lasts. -/
  timer : ∀ due, state.timerDue = some due → due = state.start + buttonLongMs ∧ state.down = true
  queued : ButtonWork.timer ∈ state.queue → state.start + buttonLongMs ≤ state.now ∧ state.down = true
  start : state.duration = 1 → state.down = true → ∀ press ∈ state.presses, press.time ≤ state.start
  inputs : ∀ press ∈ state.presses, press.outcome.isInput = true → press.time ≤ state.last

private theorem held_eq (lasts : state.duration = 1) (down : state.down = true) : state.held = [(state.press : ℤ)] :=
  if_pos ⟨lasts, down⟩

private theorem held_eq_nil (past : state.duration = 1 → state.down = false) : state.held = [] :=
  if_neg fun lasts => Bool.false_ne_true ((past lasts.1).symm.trans lasts.2)

private theorem down_append {handled : List ℤ} {notif : ℤ} (equal : state.handled = handled ++ [notif]) :
    state.down = decide (0 < notif) := by
  rw [down, equal, List.getLast?_append, List.getLast?_singleton]
  rfl

/-- Pressed and released come in turn. -/
theorem Follows.turn (kept : Follows first state) {notif : ℤ} (single : state.fifo = [notif]) :
    (0 < notif → state.down = false) ∧ (¬0 < notif → state.handled ≠ [] → state.down = true) := by
  obtain ⟨before, -, handled, rfl⟩ := handled_of_notes kept.notes single
  rw [down_of_handled handled, note_pos]
  refine ⟨fun up => by rw [up, Bool.and_false], fun pressed filled => ?_⟩
  have some : before ≠ 0 := by
    rintro rfl
    exact filled handled
  rw [Bool.not_eq_false _ |>.mp pressed, decide_eq_true (Nat.pos_of_ne_zero some), Bool.true_and]

/-- The press that is held is done. -/
theorem Answers.done (setup : ButtonSetup) (kept : Answers state) (lasts : state.duration = 1)
    (down : state.down = true) (outcome : Outcome)
    (long : outcome = .long → state.start + buttonLongMs ≤ state.now)
    (short : outcome = .short → state.last + buttonMinPauseMs < state.now) :
    (state.done setup outcome).presses.map (fun press => (press.number : ℤ)) = state.handled.filter (0 < ·) ∧
      Records state.now (state.done setup outcome).presses := by
  constructor
  · rw [← kept.presses, held_eq lasts down, Button.done, List.map_append]
    rfl
  · refine kept.records.snoc rfl (kept.start lasts down) long fun soon before member input => ?_
    exact Nat.lt_of_le_of_lt (Nat.add_le_add_right (kept.inputs before member input) _) (short soon)

private theorem answers_init (level : Bool) : Answers (init level) :=
  ⟨rfl, ⟨nofun, nofun, .nil⟩, nofun, nofun, nofun, nofun, nofun, nofun⟩

/-- A press is taken from the fifo. -/
private theorem answers_pressed {queue : List ButtonWork} {notif : ℤ} (kept : Answers state) (subset : queue ⊆ state.queue)
    (up : state.down = false) (pressed : 0 < notif) :
    Answers { state with
      queue, fifo := [], handled := state.handled ++ [notif], duration := 1, start := state.now
      timerDue := some (state.now + buttonLongMs), press := notif.natAbs } := by
  have number : ((notif.natAbs : ℕ) : ℤ) = notif := Int.natAbs_of_nonneg (Int.le_of_lt pressed)
  have none : state.held = [] := held_eq_nil fun _ => up
  have presses := kept.presses
  rw [none, List.append_nil] at presses
  refine ⟨?_, kept.records, fun _ => List.append_ne_nil_of_right_ne_nil _ (List.cons_ne_nil _ _), fun _ => ?_, ?_, ?_,
    fun _ _ => kept.records.earlier, kept.inputs⟩
  · rw [held_eq rfl ((down_append rfl).trans (decide_eq_true pressed)), List.filter_append, ← presses]
    simp [pressed, number]
  · rw [List.getLast?_append, List.getLast?_singleton, number]
    rfl
  · intro due set
    obtain rfl := Option.some.inj set
    exact ⟨rfl, (down_append rfl).trans (decide_eq_true pressed)⟩
  · intro member
    exact absurd (up.symm.trans (kept.queued (subset member)).2) Bool.false_ne_true

/-- A release is taken from the fifo. What it does with the press is `presses`. -/
private theorem answers_released {queue : List ButtonWork} {notif : ℤ} {duration last : ℕ} {presses : List Press}
    (released : ¬0 < notif) (timer : ButtonWork.timer ∉ queue)
    (numbers : presses.map (fun press => (press.number : ℤ)) = state.handled.filter (0 < ·))
    (records : Records state.now presses)
    (inputs : ∀ press ∈ presses, press.outcome.isInput = true → press.time ≤ last) :
    Answers { state with
      queue, duration, last, presses, fifo := [], handled := state.handled ++ [notif], timerDue := none } := by
  have up : decide (0 < notif) = false := decide_eq_false released
  refine ⟨?_, records, fun _ => List.append_ne_nil_of_right_ne_nil _ (List.cons_ne_nil _ _), fun down => ?_, nofun,
    fun member => absurd member timer, fun _ down => ?_, inputs⟩
  · rw [held_eq_nil fun _ => (down_append rfl).trans up, List.append_nil, List.filter_append, numbers]
    simp [released]
  all_goals exact absurd (((down_append rfl).trans up).symm.trans down) Bool.false_ne_true

/-- A press that comes to no input leaves the time of the last one. -/
theorem Answers.inputs_done (kept : Answers state) {outcome : Outcome} (none : outcome.isInput = false) :
    ∀ press ∈ (state.done setup outcome).presses, press.outcome.isInput = true → press.time ≤ state.last := by
  intro press member input
  rcases List.mem_append.mp member with member | member
  · exact kept.inputs press member input
  · rw [List.mem_singleton.mp member] at input
    exact absurd (none.symm.trans input) Bool.false_ne_true

/-- The press is over before it is released. -/
private theorem answers_over {queue : List ButtonWork} {duration last : ℕ} {presses : List Press} (kept : Answers state)
    (subset : queue ⊆ state.queue) (past : duration ≠ 1)
    (numbers : presses.map (fun press => (press.number : ℤ)) = state.handled.filter (0 < ·))
    (records : Records state.now presses)
    (inputs : ∀ press ∈ presses, press.outcome.isInput = true → press.time ≤ last) :
    Answers { state with queue, duration, last, presses } := by
  refine ⟨?_, records, fun lasts => absurd lasts past, kept.last, kept.timer, fun member => kept.queued (subset member),
    fun lasts => absurd lasts past, inputs⟩
  rw [held_eq_nil fun lasts => absurd lasts past, List.append_nil]
  exact numbers

private theorem answers_handleButton {queue : List ButtonWork} {notif : ℤ} (follows : Follows first state)
    (kept : Answers state)
    (single : state.fifo = [notif]) (subset : queue ⊆ state.queue) :
    Answers ({ state with queue }.handleButton setup) := by
  have turn := follows.turn single
  have timer : ButtonWork.timer ∉ queue.filter (· ≠ .timer) := fun member =>
    of_decide_eq_true (List.mem_filter.mp member).2 rfl
  simp only [handleButton, single]
  split_ifs with pressed lasts pause
  · exact answers_pressed kept subset (turn.1 pressed) pressed
  · -- a short press
    have down := turn.2 pressed (kept.begun lasts)
    obtain ⟨numbers, records⟩ := kept.done setup lasts down .short nofun fun _ => by omega
    exact answers_released pressed timer numbers records fun press member _ => records.earlier press member
  · -- the pause was too short
    have down := turn.2 pressed (kept.begun lasts)
    obtain ⟨numbers, records⟩ := kept.done setup lasts down .ignored nofun nofun
    exact answers_released pressed timer numbers records (kept.inputs_done rfl)
  · -- the press came to something before
    have numbers := kept.presses
    rw [held_eq_nil fun same => absurd same lasts, List.append_nil] at numbers
    exact answers_released pressed timer numbers kept.records kept.inputs

private theorem answers_handleTimer {queue : List ButtonWork} (kept : Answers state)
    (head : state.queue = .timer :: queue) :
    Answers ({ state with queue }.handleTimer setup) := by
  obtain ⟨reached, down⟩ := kept.queued (head ▸ List.mem_cons_self)
  have subset : queue ⊆ state.queue := head ▸ List.subset_cons_self _ _
  simp only [handleTimer]
  split_ifs with lasts
  · obtain ⟨numbers, records⟩ := kept.done setup lasts down .long (fun _ => reached) nofun
    have past : (3 : ℕ) ≠ 1 := by decide
    have done := answers_over kept subset past numbers records fun press member _ => records.earlier press member
    exact done
  · have numbers := kept.presses
    rw [held_eq_nil fun same => absurd same lasts, List.append_nil] at numbers
    exact answers_over kept subset lasts numbers kept.records kept.inputs

private theorem answers_clearInput (kept : Answers state) : Answers (state.clearInput setup) := by
  simp only [clearInput]
  split_ifs with lasts
  · obtain ⟨numbers, records⟩ := kept.done setup lasts.1 lasts.2 .dropped nofun nofun
    have past : (0 : ℕ) ≠ 1 := by decide
    have done := answers_over kept (List.Subset.refl _) past numbers records (kept.inputs_done rfl)
    exact done
  · have numbers := kept.presses
    rw [held, if_neg lasts, List.append_nil] at numbers
    exact answers_over kept (List.Subset.refl _) (by decide) numbers kept.records kept.inputs

/-- The queue holds nothing of the timer that was not there. -/
private theorem answers_queue (kept : Answers state) {queue : List ButtonWork}
    (timer : ButtonWork.timer ∈ queue → ButtonWork.timer ∈ state.queue) {level active : Bool} {armed : Option Bool}
    {counter : ℕ} {enableDue : Option ℕ} {fifo : List ℤ} {prioMode : Bool} :
    Answers { state with queue, level, active, armed, counter, enableDue, fifo, prioMode } :=
  ⟨kept.presses, kept.records, kept.begun, kept.last, kept.timer, fun member => kept.queued (timer member), kept.start,
    kept.inputs⟩

private theorem answers_step (follows : Follows first state) (kept : Answers state)
    (moved : state.next setup event = some after) :
    Answers after := by
  unfold next at moved
  cases event with
  | tick =>
    obtain rfl := Option.some.inj moved
    exact ⟨kept.presses, kept.records.later (Nat.le_succ _), kept.begun, kept.last, kept.timer,
      fun member => (kept.queued member).imp_left Nat.le_succ_of_le, kept.start, kept.inputs⟩
  | pin level =>
    obtain rfl := Option.some.inj moved
    exact answers_queue kept id
  | interrupt =>
    obtain ⟨enabled, equal⟩ := Option.ite_none_right_eq_some.mp moved
    obtain rfl := Option.some.inj equal
    exact answers_queue kept id
  | expireEnable =>
    obtain ⟨past, equal⟩ := Option.ite_none_right_eq_some.mp moved
    obtain rfl := Option.some.inj equal
    exact answers_queue kept fun member => (mem_submit.mp member).resolve_right (by decide)
  | expireTimer =>
    obtain ⟨past, equal⟩ := Option.ite_none_right_eq_some.mp moved
    obtain rfl := Option.some.inj equal
    obtain ⟨due, set, reached⟩ := exists_of_come past
    obtain ⟨rfl, down⟩ := kept.timer due set
    exact ⟨kept.presses, kept.records, kept.begun, kept.last, nofun, fun _ => ⟨reached, down⟩, kept.start, kept.inputs⟩
  | run =>
    cases head : state.queue with
    | nil =>
      rw [head] at moved
      exact absurd moved.symm (Option.some_ne_none _)
    | cons work queue =>
      rw [head] at moved
      obtain rfl := Option.some.inj moved
      have subset : queue ⊆ state.queue := head ▸ List.subset_cons_self _ _
      cases work with
      | enableInterrupt =>
        by_cases same : state.active = state.level
        · rw [handle, enableInterrupt_same { state with queue } same]
          exact answers_queue kept (subset ·)
        · have empty : state.fifo = [] := (follows.enabling head).1
          rw [handle, enableInterrupt_changed { state with queue } same empty]
          exact answers_queue kept fun member => subset ((mem_submit.mp member).resolve_right (by decide))
      | button =>
        obtain ⟨notif, single⟩ := follows.notified head
        exact answers_handleButton follows kept single subset
      | timer => exact answers_handleTimer kept head
  | input =>
    obtain rfl := Option.some.inj moved
    exact answers_clearInput kept
  | prio enable =>
    obtain rfl := Option.some.inj moved
    exact answers_queue kept id

/-- In every run each press that is taken from the fifo comes to one outcome: it is a short or a long input, it is ignored,
or `ui_input` drops it; only the last one may still be held. Their outcomes stand in the order of the presses. A press that
lasts is an input not before `BUTTON_LONG_MS`, and a short one follows the input before it after more than
`BUTTON_MIN_PAUSE_MS`. -/
theorem presses_answered_once (path : Path (Step setup) (init first) events state) :
    state.presses.map (fun press => (press.number : ℤ)) ++ state.held = state.handled.filter (0 < ·) ∧
      (∀ press ∈ state.presses, press.outcome = .long → press.start + buttonLongMs ≤ press.time) ∧
      state.presses.Pairwise fun first second =>
        first.time ≤ second.start ∧
          (first.outcome.isInput = true → second.outcome = .short → first.time + buttonMinPauseMs < second.time) := by
  have kept : Follows first state ∧ Answers state :=
    path.invariant (fun state => Follows first state ∧ Answers state)
      (fun _ _ _ kept moved => ⟨follows_step kept.1 moved, answers_step kept.1 kept.2 moved⟩)
      ⟨follows_init first, answers_init first⟩
  exact ⟨kept.2.presses, kept.2.records.long, kept.2.records.apart⟩

/-- The run exists. -/
theorem press_answered_once : ∃ state, Path (Step oneNotification) (init false) pressOnce state ∧
    (state.presses.map (fun press => (press.number : ℤ)) ++ state.held = state.handled.filter (0 < ·) ∧
      (∀ press ∈ state.presses, press.outcome = .long → press.start + buttonLongMs ≤ press.time) ∧
      state.presses.Pairwise fun first second =>
        first.time ≤ second.start ∧
          (first.outcome.isInput = true → second.outcome = .short → first.time + buttonMinPauseMs < second.time)) := by
  obtain ⟨state, path⟩ := press_runs
  exact ⟨state, path, presses_answered_once path⟩

end Button

end CoapsClient.Ui
