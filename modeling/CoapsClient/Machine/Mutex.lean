import Mathlib.Tactic.Common

/-! # A mutex that its owner can lock again

A mutex is free, or a thread owns it and has locked it some times more than once. `level` is how often a thread has
locked it; at most one thread has a level.
-/

namespace CoapsClient.Machine

/-- The owner, and how often it has locked the mutex beyond the first time. -/
abbrev Mutex (ι : Type*) := Option (ι × ℕ)

namespace Mutex

variable {ι : Type*} [DecidableEq ι] {mutex after : Mutex ι} {thread other : ι}

/-- A thread locks the mutex, none if another thread owns it. -/
def lock (mutex : Mutex ι) (thread : ι) : Option (Mutex ι) :=
  match mutex with
  | none => some (some (thread, 0))
  | some (owner, more) => if owner = thread then some (some (owner, more + 1)) else none

/-- A thread unlocks the mutex, none if it does not own it. -/
def unlock (mutex : Mutex ι) (thread : ι) : Option (Mutex ι) :=
  match mutex with
  | none => none
  | some (owner, more) =>
      if owner = thread then
        match more with
        | 0 => some none
        | more + 1 => some (some (owner, more))
      else none

/-- How often a thread has locked the mutex. -/
def level (mutex : Mutex ι) (thread : ι) : ℕ :=
  match mutex with
  | none => 0
  | some (owner, more) => if owner = thread then more + 1 else 0

/-- Only the owner has a level. -/
theorem level_unique (one : 0 < mutex.level thread) (two : 0 < mutex.level other) : thread = other := by
  obtain _ | ⟨owner, more⟩ := mutex
  · exact absurd one (Nat.lt_irrefl 0)
  · have owns : ∀ thread, 0 < level (some (owner, more)) thread → owner = thread := by
      intro thread positive
      by_contra apart
      exact absurd positive (by simp [level, apart])
    exact (owns thread one).symm.trans (owns other two)

theorem level_lock (locked : mutex.lock thread = some after) :
    after.level thread = mutex.level thread + 1 ∧
      ∀ other, other ≠ thread → mutex.level other = 0 ∧ after.level other = 0 := by
  obtain _ | ⟨owner, more⟩ := mutex
  · obtain rfl := Option.some.inj locked
    exact ⟨by simp [level], fun other apart => by simp [level, Ne.symm apart]⟩
  · obtain ⟨rfl, equal⟩ := Option.ite_none_right_eq_some.mp locked
    obtain rfl := Option.some.inj equal
    exact ⟨by simp [level], fun other apart => by simp [level, Ne.symm apart]⟩

theorem level_unlock (unlocked : mutex.unlock thread = some after) :
    mutex.level thread = after.level thread + 1 ∧
      ∀ other, other ≠ thread → mutex.level other = 0 ∧ after.level other = 0 := by
  obtain _ | ⟨owner, more⟩ := mutex
  · exact absurd unlocked (Option.some_ne_none after).symm
  · obtain ⟨rfl, equal⟩ := Option.ite_none_right_eq_some.mp unlocked
    cases more with
    | zero =>
      obtain rfl := Option.some.inj equal
      exact ⟨by simp [level], fun other apart => by simp [level, Ne.symm apart]⟩
    | succ more =>
      obtain rfl := Option.some.inj equal
      exact ⟨by simp [level], fun other apart => by simp [level, Ne.symm apart]⟩

end Mutex

end CoapsClient.Machine
