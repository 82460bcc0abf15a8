import Mathlib.Tactic.Common
import Mathlib.Data.List.Basic
import Mathlib.Logic.Function.Basic

/-! # Notices that wait in a queue

A queue of notices that a receiver gets one after the other. A notice that is submitted while it waits keeps its place, so
that what it says is lost when another notice about the same topic waits behind it. As long as nothing is lost, the last
notice about a topic says what was told last, and `settled` is what the receiver will be when the queue is empty.
-/

namespace CoapsClient.Machine.Notices

variable {μ κ σ : Type*}

/-- The receiver when it has got the queue. -/
def settled (receive : μ → σ → σ) (queue : List μ) (receiver : σ) : σ :=
  queue.foldl (fun receiver notice => receive notice receiver) receiver

/-- What was told last about each topic. -/
def Latest [DecidableEq κ] (topic : μ → κ) (queue : List μ) (told : κ → μ) : Prop :=
  ∀ subject notice, (queue.filter (topic · = subject)).getLast? = some notice → notice = told subject

variable [DecidableEq μ]

/-- A notice that waits keeps its place. -/
def submit (queue : List μ) (notice : μ) : List μ := if notice ∈ queue then queue else queue ++ [notice]

/-- The notice waits with another one about its topic. -/
def lost [DecidableEq κ] (topic : μ → κ) (queue : List μ) (notice : μ) : Bool :=
  decide (notice ∈ queue) && queue.any fun other => decide (topic other = topic notice ∧ other ≠ notice)

section Settled

variable {receive : μ → σ → σ} {queue : List μ} {notice : μ} {receiver : σ}

omit [DecidableEq μ] in
@[simp] theorem settled_nil : settled receive [] receiver = receiver := rfl

omit [DecidableEq μ] in
@[simp] theorem settled_cons :
    settled receive (notice :: queue) receiver = settled receive queue (receive notice receiver) := rfl

omit [DecidableEq μ] in
@[simp] theorem settled_concat :
    settled receive (queue ++ [notice]) receiver = receive notice (settled receive queue receiver) := List.foldl_concat ..

theorem submit_of_mem (waits : notice ∈ queue) : submit queue notice = queue := if_pos waits

theorem submit_of_notMem (new : notice ∉ queue) : submit queue notice = queue ++ [notice] := if_neg new

theorem mem_submit {other : μ} : other ∈ submit queue notice ↔ other ∈ queue ∨ other = notice := by
  unfold submit
  split_ifs with waits
  · exact ⟨.inl, fun found => found.elim id fun same => same ▸ waits⟩
  · rw [List.mem_append, List.mem_singleton]

theorem settled_submit_new (new : notice ∉ queue) :
    settled receive (submit queue notice) receiver = receive notice (settled receive queue receiver) := by
  rw [submit_of_notMem new, settled_concat]

/-- A notice that says nothing new may keep its place. -/
theorem settled_submit (known : receive notice (settled receive queue receiver) = settled receive queue receiver) :
    settled receive (submit queue notice) receiver = settled receive queue receiver := by
  by_cases waits : notice ∈ queue
  · rw [submit_of_mem waits]
  · rw [settled_submit_new waits, known]

omit [DecidableEq μ] in
/-- Receivers that are related stay related when one of them misses some notices. -/
theorem settled_filter {related : σ → σ → Prop} {keep : μ → Bool} {other : σ}
    (both : ∀ notice one other, related one other → related (receive notice one) (receive notice other))
    (missed : ∀ notice one other, keep notice = false → related one other → related one (receive notice other))
    (start : related receiver other) :
    related (settled receive (queue.filter keep) receiver) (settled receive queue other) := by
  induction queue generalizing receiver other with
  | nil => exact start
  | cons notice queue ih =>
    cases kept : keep notice with
    | false =>
      rw [List.filter_cons_of_neg (by simp [kept])]
      exact ih (missed notice receiver other kept start)
    | true =>
      rw [List.filter_cons_of_pos kept]
      exact ih (both notice receiver other start)

end Settled

section Latest

variable [DecidableEq κ] {topic : μ → κ} {queue : List μ} {notice : μ} {told : κ → μ}

omit [DecidableEq μ] in
theorem latest_nil : Latest topic ([] : List μ) told := nofun

omit [DecidableEq μ] in
/-- Delivering the first notice. -/
theorem Latest.tail (latest : Latest topic (notice :: queue) told) : Latest topic queue told := by
  intro subject found last
  refine latest subject found ?_
  by_cases about : topic notice = subject
  · rw [List.filter_cons_of_pos (by simpa using about), List.getLast?_cons, last]
    rfl
  · rwa [List.filter_cons_of_neg (by simpa using about)]

theorem lost_of_mem {found : μ} (waits : notice ∈ queue) (member : found ∈ queue.filter (topic · = topic notice))
    (other : found ≠ notice) : lost topic queue notice = true := by
  obtain ⟨inside, about⟩ := List.mem_filter.mp member
  simp only [lost, Bool.and_eq_true, decide_eq_true_eq, List.any_eq_true]
  exact ⟨waits, found, inside, of_decide_eq_true about, other⟩

/-- A notice that is not lost is what was told last. -/
theorem Latest.submit (latest : Latest topic queue told) (kept : lost topic queue notice = false) :
    Latest topic (submit queue notice) (Function.update told (topic notice) notice) := by
  intro subject found last
  by_cases about : subject = topic notice
  · subst about
    rw [Function.update_self]
    by_cases waits : notice ∈ queue
    · rw [submit_of_mem waits] at last
      by_contra other
      exact Bool.false_ne_true (kept.symm.trans (lost_of_mem waits (List.mem_of_getLast? last) other))
    · rw [submit_of_notMem waits, List.filter_append, List.filter_cons_of_pos (by simp), List.filter_nil,
        List.getLast?_concat] at last
      exact (Option.some.inj last).symm
  · rw [Function.update_of_ne about]
    refine latest subject found ?_
    by_cases waits : notice ∈ queue
    · rwa [submit_of_mem waits] at last
    · rwa [submit_of_notMem waits, List.filter_append, List.filter_cons_of_neg (by simpa using Ne.symm about),
        List.filter_nil, List.append_nil] at last

/-- A notice that changes what was told, and is not lost, does not wait. -/
theorem Latest.notMem (latest : Latest topic queue told) (kept : lost topic queue notice = false)
    (change : told (topic notice) ≠ notice) : notice ∉ queue := by
  intro waits
  have inside : notice ∈ queue.filter (topic · = topic notice) := List.mem_filter.mpr ⟨waits, by simp⟩
  obtain ⟨found, last⟩ : ∃ found, (queue.filter (topic · = topic notice)).getLast? = some found :=
    Option.isSome_iff_exists.mp (List.getLast?_isSome.mpr (List.ne_nil_of_mem inside))
  have equal := latest _ found last
  exact Bool.false_ne_true (kept.symm.trans (lost_of_mem waits (List.mem_of_getLast? last) (equal ▸ change)))

omit [DecidableEq μ] in
/-- Canceling all notices about a topic. -/
theorem Latest.filter (latest : Latest topic queue told) (subject : κ) :
    Latest topic (queue.filter (topic · ≠ subject)) told := by
  intro about found last
  refine latest about found ?_
  rw [List.filter_filter] at last
  have member := List.mem_filter.mp (List.mem_of_getLast? last)
  have apart : about ≠ subject := by
    rintro rfl
    simp at member
  rw [← last]
  congr 1
  refine List.filter_congr fun notice _ => ?_
  by_cases same : topic notice = about
  · simp [same, apart]
  · simp [same]

omit [DecidableEq μ] in
/-- What was told about a topic without notices does not matter. -/
theorem Latest.update (latest : Latest topic queue told) {subject : κ} (none : ∀ notice ∈ queue, topic notice ≠ subject)
    (notice : μ) : Latest topic queue (Function.update told subject notice) := by
  intro about found last
  have member := List.mem_filter.mp (List.mem_of_getLast? last)
  have same : topic found = about := of_decide_eq_true member.2
  rw [Function.update_of_ne (same ▸ none found member.1)]
  exact latest about found last

end Latest

end CoapsClient.Machine.Notices
