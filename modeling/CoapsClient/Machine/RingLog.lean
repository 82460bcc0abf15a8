import Mathlib.Tactic.Common
import Mathlib.Data.List.Basic
import Mathlib.Logic.Function.Basic

/-! # Newest-first logs in a ring of slots

A ring has no stored head. Its slots are free or hold an entry, a cursor names the slot to be used
next, and the newest entries lie behind the cursor. `Holds` says which entries of a log the ring
still has; `Recoverable` adds what a scan from slot zero needs to find the cursor again: nothing
before the cursor is free. Pushing an entry and clearing a set of the oldest slots are the two
updates; clearing alone keeps `Holds` but may lose `Recoverable`.
-/

namespace CoapsClient.Machine.RingLog

variable {α : Type*}

/-- The slot written `age + 1` pushes ago. -/
def back (size cursor age : ℕ) : ℕ :=
  if age < cursor then cursor - 1 - age else size + cursor - 1 - age

/-- The slot after the cursor. -/
def advance (size cursor : ℕ) : ℕ :=
  if cursor + 1 < size then cursor + 1 else 0

/-- The slot before a position. -/
def retreat (size position : ℕ) : ℕ :=
  if position = 0 then size - 1 else position - 1

/-- Walk back from a position, entry by entry, stopping at the first free slot. -/
def readBack (size : ℕ) (slots : ℕ → Option α) : ℕ → ℕ → Option α
  | position, 0 => slots (retreat size position)
  | position, index + 1 =>
      match slots (retreat size position) with
      | none => none
      | some _ => readBack size slots (retreat size position) index

/-- The ring still has the `kept` newest entries of the log, and every other slot is free. -/
structure Holds (size cursor : ℕ) (slots : ℕ → Option α) (log : List α) (kept : ℕ) : Prop where
  cursor_lt : cursor < size
  kept_lt : kept < size
  kept_le : kept ≤ log.length
  entry : ∀ age < kept, slots (back size cursor age) = log[age]?
  free : ∀ slot < size, (∀ age < kept, slot ≠ back size cursor age) → slots slot = none

/-- A scan from slot zero meets the cursor first. -/
def Recoverable (cursor kept : ℕ) : Prop := cursor ≤ kept

variable {size cursor kept : ℕ} {slots : ℕ → Option α} {log : List α}

theorem back_lt {age : ℕ} (cursorBound : cursor < size) (ageBound : age < size) :
    back size cursor age < size := by
  simp only [back]
  split <;> omega

theorem back_injective {age other : ℕ} (ageBound : age < size) (otherBound : other < size)
    (same : back size cursor age = back size cursor other) : age = other := by
  simp only [back] at same
  split at same <;> split at same <;> omega

theorem back_ne_cursor {age : ℕ} (ageBound : age + 1 < size) :
    cursor ≠ back size cursor age := by
  simp only [back]
  split <;> omega

theorem advance_lt (cursor : ℕ) (positive : 0 < size) : advance size cursor < size := by
  simp only [advance]
  split <;> omega

theorem back_advance_zero (cursorBound : cursor < size) : back size (advance size cursor) 0 = cursor := by
  simp only [back, advance]
  split <;> split <;> omega

theorem back_advance_succ {age : ℕ} (cursorBound : cursor < size) (ageBound : age + 1 < size) :
    back size (advance size cursor) (age + 1) = back size cursor age := by
  simp only [back, advance]
  split <;> split <;> split <;> omega

theorem retreat_back {age : ℕ} (cursorBound : cursor < size) (ageBound : age + 1 < size) :
    retreat size (back size cursor age) = back size cursor (age + 1) := by
  simp only [back, retreat]
  split <;> split <;> split <;> omega

theorem retreat_cursor (cursorBound : cursor < size) : retreat size cursor = back size cursor 0 := by
  simp only [back, retreat]
  split <;> split <;> omega

namespace Holds

/-- A fresh ring holds the empty log. -/
theorem empty (positive : 0 < size) (allFree : ∀ slot < size, slots slot = none) :
    Holds size 0 slots ([] : List α) 0 where
  cursor_lt := positive
  kept_lt := positive
  kept_le := Nat.le_refl 0
  entry := by simp
  free slot bound _ := allFree slot bound

theorem entry_isSome (holds : Holds size cursor slots log kept) {age : ℕ} (bound : age < kept) :
    slots (back size cursor age) ≠ none := by
  have inside : age < log.length := Nat.lt_of_lt_of_le bound holds.kept_le
  rw [holds.entry age bound, List.getElem?_eq_getElem inside]
  exact Option.some_ne_none _

theorem free_back (holds : Holds size cursor slots log kept) {age : ℕ} (lower : kept ≤ age)
    (upper : age < size) : slots (back size cursor age) = none := by
  apply holds.free _ (back_lt holds.cursor_lt upper)
  intro other otherBound same
  have := back_injective upper (by have := holds.kept_lt; omega) same
  omega

/-- The slot under the cursor is free. -/
theorem cursor_free (holds : Holds size cursor slots log kept) : slots cursor = none := by
  apply holds.free _ holds.cursor_lt
  intro age bound
  exact back_ne_cursor (by have := holds.kept_lt; omega)

/-- In a recoverable ring every slot before the cursor is used. -/
theorem used_before (holds : Holds size cursor slots log kept) (found : Recoverable cursor kept)
    {slot : ℕ} (bound : slot < cursor) : slots slot ≠ none := by
  have position : back size cursor (cursor - 1 - slot) = slot := by
    simp only [back]
    split <;> omega
  rw [← position]
  exact holds.entry_isSome (by unfold Recoverable at found; omega)

/-- The slot after the cursor is free exactly when one more entry leaves room. -/
theorem advance_free_iff (holds : Holds size cursor slots log kept) (two : 2 ≤ size) :
    slots (advance size cursor) = none ↔ kept + 1 < size := by
  have position : advance size cursor = back size cursor (size - 2) := by
    have := holds.cursor_lt
    simp only [advance, back]
    split <;> split <;> omega
  rw [position]
  constructor
  · intro isFree
    by_contra full
    exact holds.entry_isSome (by omega) isFree
  · intro room
    exact holds.free_back (by omega) (by omega)

/-- Walking back from the cursor reads the kept entries in order and nothing else. -/
theorem readBack_eq (holds : Holds size cursor slots log kept) (index : ℕ) :
    readBack size slots cursor index = if index < kept then log[index]? else none := by
  have walk : ∀ index age, age < size → age ≤ kept → ∀ position,
      retreat size position = back size cursor age →
      readBack size slots position index = if age + index < kept then log[age + index]? else none := by
    intro index
    induction index with
    | zero =>
      intro age bound reached position atAge
      rw [readBack, atAge, Nat.add_zero]
      by_cases inside : age < kept
      · rw [if_pos inside, holds.entry age inside]
      · rw [if_neg inside, holds.free_back (by omega) bound]
    | succ index ih =>
      intro age bound reached position atAge
      rw [readBack, atAge]
      by_cases inside : age < kept
      · have next := ih (age + 1) (by have := holds.kept_lt; omega) (by omega) _
          (retreat_back holds.cursor_lt (by have := holds.kept_lt; omega))
        rw [show age + 1 + index = age + (index + 1) by omega] at next
        have used := holds.entry_isSome inside
        split
        · contradiction
        · exact next
      · rw [holds.free_back (by omega) bound, if_neg (by omega)]
  have start := walk index 0 (by have := holds.cursor_lt; omega) (Nat.zero_le _) cursor
    (retreat_cursor holds.cursor_lt)
  rwa [Nat.zero_add] at start

/-- Filling the free cursor slot logs the entry and moves on. -/
theorem push (holds : Holds size cursor slots log kept) (room : kept + 1 < size) (item : α) :
    Holds size (advance size cursor) (Function.update slots cursor (some item)) (item :: log)
      (kept + 1) where
  cursor_lt := advance_lt cursor (by omega)
  kept_lt := room
  kept_le := by simpa using holds.kept_le
  entry age bound := by
    cases age with
    | zero => rw [back_advance_zero holds.cursor_lt]; simp
    | succ age =>
      have earlier : age + 1 < size := by omega
      rw [back_advance_succ holds.cursor_lt earlier,
        Function.update_of_ne (back_ne_cursor earlier).symm,
        holds.entry age (by omega), List.getElem?_cons_succ]
  free slot bound other := by
    have notCursor : slot ≠ cursor := by
      have := other 0 (by omega)
      rwa [back_advance_zero holds.cursor_lt] at this
    rw [Function.update_of_ne notCursor]
    apply holds.free slot bound
    intro age ageBound
    have := other (age + 1) (by omega)
    rwa [back_advance_succ holds.cursor_lt (by omega)] at this

/-- A pushed ring is recoverable again: either the cursor moved by one or it wrapped to zero. -/
theorem recoverable_push (found : Recoverable cursor kept ∨ size ≤ cursor + 1) :
    Recoverable (advance size cursor) (kept + 1) := by
  unfold Recoverable advance at *
  split <;> omega

/-- Clearing exactly the entries from some age on keeps the newer ones. -/
theorem clear (holds : Holds size cursor slots log kept) {cleared : ℕ → Prop} [DecidablePred cleared]
    {left : ℕ} (fewer : left ≤ kept) (keeps : ∀ age < left, ¬ cleared (back size cursor age))
    (drops : ∀ age, left ≤ age → age < kept → cleared (back size cursor age)) :
    Holds size cursor (fun slot => if cleared slot then none else slots slot) log left where
  cursor_lt := holds.cursor_lt
  kept_lt := Nat.lt_of_le_of_lt fewer holds.kept_lt
  kept_le := Nat.le_trans fewer holds.kept_le
  entry age bound := by
    rw [if_neg (keeps age bound), holds.entry age (by omega)]
  free slot bound other := by
    by_cases gone : cleared slot
    · exact if_pos gone
    · rw [if_neg gone]
      apply holds.free slot bound
      intro age ageBound same
      by_cases newer : age < left
      · exact other age newer same
      · exact gone (same ▸ drops age (by omega) ageBound)

end Holds

end CoapsClient.Machine.RingLog
