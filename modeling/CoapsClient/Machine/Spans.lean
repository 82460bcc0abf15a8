import Mathlib.Algebra.BigOperators.Group.List.Basic
import Mathlib.Algebra.Ring.Int.Defs
import Mathlib.Data.Int.Order.Basic
import Mathlib.Tactic.Common

/-! # The times between events

A history of events with their times, the oldest first. What lies between two events that follow each other is a span; some
spans count, which the two events tell.
-/

namespace CoapsClient.Machine.Spans

variable {ε : Type*}

/-- The lengths of the spans that count. -/
def durations (counts : ℤ × ε → ℤ × ε → Bool) : List (ℤ × ε) → List ℤ
  | first :: next :: rest => (if counts first next then [next.1 - first.1] else []) ++ durations counts (next :: rest)
  | _ => []

variable {counts other : ℤ × ε → ℤ × ε → Bool} {first next : ℤ × ε} {rest : List (ℤ × ε)}

@[simp] theorem durations_nil : durations counts [] = [] := rfl

@[simp] theorem durations_single : durations counts [first] = [] := rfl

theorem durations_cons_cons :
    durations counts (first :: next :: rest) =
      (if counts first next then [next.1 - first.1] else []) ++ durations counts (next :: rest) := rfl

/-- A first event of which no span counts. -/
theorem durations_of_first (none : ∀ next, counts first next = false) :
    durations counts (first :: rest) = durations counts rest := by
  cases rest with
  | nil => rfl
  | cons next rest => rw [durations_cons_cons, none, if_neg Bool.false_ne_true, List.nil_append]

/-- The clock does not go back. -/
def InOrder (history : List (ℤ × ε)) : Prop := history.Pairwise fun first next => first.1 ≤ next.1

theorem durations_nonneg {history : List (ℤ × ε)} (order : InOrder history) : 0 ≤ (durations counts history).sum := by
  induction history with
  | nil => exact Int.le_refl 0
  | cons first rest ih =>
    cases rest with
    | nil => exact Int.le_refl 0
    | cons next rest =>
      obtain ⟨after, order⟩ := List.pairwise_cons.mp order
      have later := after next List.mem_cons_self
      have behind := ih order
      rw [durations_cons_cons]
      split <;> simp only [List.sum_append, List.sum_cons, List.sum_nil] <;> omega

/-- Spans that count for one thing or the other, never for both. -/
theorem durations_or (never : ∀ first next, (counts first next && other first next) = false) (history : List (ℤ × ε)) :
    (durations counts history).sum + (durations other history).sum =
      (durations (fun first next => counts first next || other first next) history).sum := by
  induction history with
  | nil => rfl
  | cons first rest ih =>
    cases rest with
    | nil => rfl
    | cons next rest =>
      have one := never first next
      simp only [durations_cons_cons]
      cases this : counts first next <;> cases that : other first next <;>
        simp_all only [Bool.or_false, Bool.or_true, Bool.and_self, Bool.and_false, Bool.false_eq_true, Bool.true_eq_false,
          if_true, if_false, List.sum_append, List.sum_cons, List.sum_nil] <;>
        omega

/-- What counts less takes no longer. -/
theorem durations_mono (less : ∀ first next, counts first next = true → other first next = true) {history : List (ℤ × ε)}
    (order : InOrder history) : (durations counts history).sum ≤ (durations other history).sum := by
  induction history with
  | nil => exact Int.le_refl 0
  | cons first rest ih =>
    cases rest with
    | nil => exact Int.le_refl 0
    | cons next rest =>
      obtain ⟨after, order⟩ := List.pairwise_cons.mp order
      have later := after next List.mem_cons_self
      have behind := ih order
      have implies := less first next
      simp only [durations_cons_cons, List.sum_append]
      split_ifs with this that
      · simp only [List.sum_cons, List.sum_nil]
        omega
      · exact absurd (implies this) that
      · simp only [List.sum_cons, List.sum_nil]
        omega
      · simp only [List.sum_nil]
        omega

/-- All spans together are no longer than the time behind the first event. -/
theorem durations_le (order : InOrder (first :: rest)) {now : ℤ} (past : ∀ event ∈ first :: rest, event.1 ≤ now) :
    (durations counts (first :: rest)).sum ≤ now - first.1 := by
  induction rest generalizing first with
  | nil => exact Int.sub_nonneg_of_le (past first List.mem_cons_self)
  | cons next rest ih =>
    obtain ⟨after, order⟩ := List.pairwise_cons.mp order
    have later := after next List.mem_cons_self
    have behind := ih order fun event member => past event (List.mem_cons_of_mem _ member)
    rw [durations_cons_cons]
    split <;> simp only [List.sum_append, List.sum_cons, List.sum_nil] <;> omega

theorem durations_le_now {history : List (ℤ × ε)} (order : InOrder history) {now : ℤ} (started : 0 ≤ now)
    (times : ∀ event ∈ history, 0 ≤ event.1 ∧ event.1 ≤ now) : (durations counts history).sum ≤ now := by
  cases history with
  | nil => exact started
  | cons first rest =>
    have all : (durations counts (first :: rest)).sum ≤ now - first.1 :=
      durations_le order fun event member => (times event member).2
    have positive := (times first List.mem_cons_self).1
    omega

section Collect

variable {σ μ : Type*} (see : σ → ε → Option μ) (after : σ → ε → σ)

/-- What is seen of each event, with a state that the events change. -/
def collect (state : σ) : List (ℤ × ε) → List (ℤ × μ)
  | [] => []
  | (now, event) :: rest => ((see state event).map fun mark => (now, mark)).toList ++ collect (after state event) rest

variable {see after} {state : σ} {history : List (ℤ × ε)}

theorem time_of_collect {mark : ℤ × μ} (member : mark ∈ collect see after state history) :
    ∃ event ∈ history, event.1 = mark.1 := by
  induction history generalizing state with
  | nil => exact absurd member List.not_mem_nil
  | cons event rest ih =>
    rcases List.mem_append.mp member with first | behind
    · obtain ⟨seen, -, rfl⟩ := Option.map_eq_some_iff.mp (Option.mem_toList.mp first)
      exact ⟨event, List.mem_cons_self, rfl⟩
    · obtain ⟨later, there, same⟩ := ih behind
      exact ⟨later, List.mem_cons_of_mem _ there, same⟩

theorem collect_inOrder (order : InOrder history) : InOrder (collect see after state history) := by
  induction history generalizing state with
  | nil => exact List.Pairwise.nil
  | cons event rest ih =>
    obtain ⟨later, order⟩ := List.pairwise_cons.mp order
    refine List.pairwise_append.mpr ⟨?_, ih order, fun first seen mark behind => ?_⟩
    · cases see state event.2 with
      | none => exact List.Pairwise.nil
      | some mark => exact List.pairwise_singleton _ _
    · obtain ⟨mark', -, rfl⟩ := Option.map_eq_some_iff.mp (Option.mem_toList.mp seen)
      obtain ⟨there, member, same⟩ := time_of_collect behind
      exact same ▸ later there member

end Collect

end CoapsClient.Machine.Spans
