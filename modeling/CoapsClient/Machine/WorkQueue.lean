import Mathlib.Tactic.Common
import Mathlib.Logic.Function.Basic
import Mathlib.Algebra.Notation.Defs

/-! # Work items of a queue, with and without a delay

A queue runs its items one after the other. An item is pending from the time it is scheduled until its
handler begins. Canceling an item that is running marks it until its handler returns, and an item that is
marked is not scheduled. A delay is kept with the item; when it is over does not matter here.

A delayable item is scheduled for a time. When the time has come its timer puts it into the queue; the queue starts the
handler, and the handler returns. The item may be scheduled again in each of these situations, also while its handler runs.
-/

namespace CoapsClient.Machine

section Queue

variable {ι : Type*} [DecidableEq ι]

/-- The items of a queue. -/
structure Works (ι : Type*) where
  /-- The delay an item is pending with. -/
  pending : ι → Option ℕ := fun _ => none
  running : Option ι := none
  /-- The running item was canceled. -/
  canceling : Bool := false

namespace Works

/-- The item takes no schedule until its handler returns. -/
def marked (works : Works ι) (item : ι) : Bool := works.canceling && decide (works.running = some item)

/-- Schedule an item, whether it is pending or not. -/
def reschedule (works : Works ι) (item : ι) (delay : ℕ) : Works ι :=
  if works.marked item then works
  else { works with pending := Function.update works.pending item (some delay) }

/-- Schedule an item that is not pending. -/
def schedule (works : Works ι) (item : ι) (delay : ℕ) : Works ι :=
  if (works.pending item).isSome then works else works.reschedule item delay

/-- Put an item into the queue. -/
def submit (works : Works ι) (item : ι) : Works ι := works.schedule item 0

def cancel (works : Works ι) (item : ι) : Works ι :=
  { works with
    pending := Function.update works.pending item none
    canceling := works.canceling || decide (works.running = some item) }

/-- The handler of an item begins. -/
def begin (works : Works ι) (item : ι) : Works ι :=
  { pending := Function.update works.pending item none, running := some item, canceling := false }

/-- The handler returns. -/
def finish (works : Works ι) : Works ι := { works with running := none, canceling := false }

/-- The item is scheduled or waits in the queue. -/
def isPending (works : Works ι) (item : ι) : Bool := (works.pending item).isSome

variable {works : Works ι} {item other : ι} {delay : ℕ}

@[simp] theorem isPending_reschedule :
    (works.reschedule item delay).isPending other =
      (works.isPending other || (decide (other = item) && !works.marked item)) := by
  simp only [reschedule, isPending]
  by_cases same : other = item
  · subst same
    cases works.marked other <;> simp
  · cases works.marked item <;> simp [same]

@[simp] theorem isPending_schedule :
    (works.schedule item delay).isPending other =
      (works.isPending other || (decide (other = item) && !works.marked item)) := by
  simp only [schedule]
  split
  · next pending =>
    by_cases same : other = item
    · subst same
      simp [isPending, pending]
    · simp [same]
  · exact isPending_reschedule

@[simp] theorem isPending_submit :
    (works.submit item).isPending other =
      (works.isPending other || (decide (other = item) && !works.marked item)) := isPending_schedule

@[simp] theorem isPending_cancel :
    (works.cancel item).isPending other = (works.isPending other && !decide (other = item)) := by
  by_cases same : other = item
  · subst same
    simp [isPending, cancel]
  · simp [isPending, cancel, same]

@[simp] theorem isPending_begin :
    (works.begin item).isPending other = (works.isPending other && !decide (other = item)) := by
  by_cases same : other = item
  · subst same
    simp [isPending, begin]
  · simp [isPending, begin, same]

omit [DecidableEq ι] in
@[simp] theorem isPending_finish : works.finish.isPending item = works.isPending item := rfl

/-- Only the running item is marked. -/
theorem marked_of_ne (different : works.running ≠ some item) : works.marked item = false := by
  simp [marked, different]

@[simp] theorem running_cancel : (works.cancel item).running = works.running := rfl
@[simp] theorem running_begin : (works.begin item).running = some item := rfl
omit [DecidableEq ι] in
@[simp] theorem running_finish : works.finish.running = none := rfl

@[simp] theorem running_reschedule : (works.reschedule item delay).running = works.running := by
  simp only [reschedule]
  split <;> rfl

@[simp] theorem running_schedule : (works.schedule item delay).running = works.running := by
  simp only [schedule]
  split
  · rfl
  · exact running_reschedule

@[simp] theorem running_submit : (works.submit item).running = works.running := running_schedule

end Works

end Queue

section Delay

/-- A delayable item. -/
structure Delayed where
  /-- The time its timer is set to. -/
  due : Option ℕ := none
  queued : Bool := false
  running : Bool := false
deriving DecidableEq

namespace Delayed

/-- The handler is to come, or has not returned. -/
def outstanding (work : Delayed) : Bool := work.due.isSome || work.queued || work.running

/-- Set the timer, whether it is set or not. -/
def reschedule (work : Delayed) (time : ℕ) : Delayed := { work with due := some time }

/-- Set the timer of an item that is not waiting. -/
def schedule (work : Delayed) (time : ℕ) : Delayed :=
  if work.due.isSome || work.queued then work else work.reschedule time

/-- Neither the timer nor the queue holds the item afterwards. -/
def cancel (work : Delayed) : Delayed := { work with due := none, queued := false }

/-- The timer expires. -/
def expire (work : Delayed) (now : ℕ) : Option Delayed :=
  work.due.bind fun due => if due ≤ now then some { work with due := none, queued := true } else none

/-- The queue starts the handler. -/
def begin (work : Delayed) : Option Delayed :=
  if work.queued = true ∧ work.running = false then some { work with queued := false, running := true } else none

/-- The handler returns. -/
def finish (work : Delayed) : Delayed := { work with running := false }

variable {work after : Delayed} {time now : ℕ}

@[simp] theorem outstanding_reschedule : (work.reschedule time).outstanding = true := rfl

@[simp] theorem outstanding_schedule : (work.schedule time).outstanding = true := by
  simp only [schedule]
  split
  · next waiting => exact Bool.or_eq_true_iff.mpr (.inl waiting)
  · exact outstanding_reschedule

@[simp] theorem due_reschedule : (work.reschedule time).due = some time := rfl

theorem outstanding_of_due {due : ℕ} (set : work.due = some due) : work.outstanding = true := by
  simp [outstanding, set]

theorem outstanding_of_running (running : work.running = true) : work.outstanding = true := by
  simp [outstanding, running]

/-- What an expired timer was set to, and where the item is then. -/
theorem expire_eq_some (expired : work.expire now = some after) :
    (∃ due, work.due = some due ∧ due ≤ now) ∧ after = { work with due := none, queued := true } := by
  obtain ⟨due, set, equal⟩ := Option.bind_eq_some_iff.mp expired
  obtain ⟨come, equal⟩ := Option.ite_none_right_eq_some.mp equal
  exact ⟨⟨due, set, come⟩, (Option.some.inj equal).symm⟩

theorem begin_eq_some (begun : work.begin = some after) :
    work.queued = true ∧ work.running = false ∧ after = { work with queued := false, running := true } := by
  obtain ⟨⟨queued, idle⟩, equal⟩ := Option.ite_none_right_eq_some.mp begun
  exact ⟨queued, idle, (Option.some.inj equal).symm⟩

/-- An item that expires or begins stays outstanding. -/
theorem outstanding_expire (expired : work.expire now = some after) : after.outstanding = true := by
  obtain ⟨-, rfl⟩ := expire_eq_some expired
  rfl

theorem outstanding_begin (begun : work.begin = some after) : after.outstanding = true := by
  obtain ⟨-, -, rfl⟩ := begin_eq_some begun
  exact outstanding_of_running rfl

end Delayed

end Delay

end CoapsClient.Machine
