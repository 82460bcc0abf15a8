import Mathlib.Tactic.Common
import Mathlib.Data.List.DropRight

/-! # The last items in a ring of slots

A ring is filled from its first slot on and then overwritten in turn. An index names the slot to be used next, and a
count the slots that are in use; behind the index are the oldest items. The slots in use are then the last items of a
history, in another order.
-/

namespace CoapsClient.Machine.SlidingWindow

variable {α : Type*}

/-- The slots in use are the last items of the history. -/
structure Keeps (size : ℕ) (slots : List α) (index count : ℕ) (history : List α) : Prop where
  length : slots.length = size
  index_lt : index < size
  count_le : count ≤ size
  split : ∃ recent older, slots.take count = recent ++ older ∧ history.rtake size = older ++ recent ∧ recent.length = index ∧
    (count < size → older = [])

section Keeps

variable {size index count : ℕ} {slots history recent older : List α} {item : α}

theorem Keeps.perm (keeps : Keeps size slots index count history) : (slots.take count).Perm (history.rtake size) := by
  obtain ⟨recent, older, used, kept, -⟩ := keeps.split
  rw [used, kept]
  exact List.perm_append_comm

theorem rtake_eq_self (short : (history.rtake size).length < size) : history.rtake size = history := by
  rw [List.rtake, List.length_drop] at short
  rw [List.rtake, Nat.sub_eq_zero_of_le (by omega), List.drop_zero]

/-- One item less is kept. -/
theorem rtake_of_cons {oldest : α} {rest : List α} (kept : history.rtake (size + 1) = oldest :: rest)
    (full : rest.length = size) : history.rtake size = rest := by
  have length := congrArg List.length kept
  rw [List.rtake, List.length_drop, List.length_cons, full] at length
  have next : history.length - size = history.length - (size + 1) + 1 := by omega
  rw [List.rtake, next, ← List.drop_drop, ← List.rtake, kept]
  rfl

theorem keeps_nil (length : slots.length = size) (positive : 0 < size) : Keeps size slots 0 0 [] where
  length := length
  index_lt := positive
  count_le := Nat.zero_le size
  split := ⟨[], [], by simp, by simp, rfl, fun _ => rfl⟩

/-- The next item takes the place of the oldest one, or a free one. -/
theorem Keeps.next (keeps : Keeps size slots index count history) (item : α) :
    ∃ recent older, (slots.set index item).take (max count (index + 1)) = recent ++ older ∧
      (history ++ [item]).rtake size = older ++ recent ∧ recent.length = index + 1 ∧
      (max count (index + 1) < size → older = []) := by
  obtain ⟨length, index_lt, count_le, recent, older, used, kept, rfl, filling⟩ := keeps
  obtain ⟨size, rfl⟩ := Nat.exists_eq_add_one.mpr (Nat.zero_lt_of_lt index_lt)
  have total : recent.length + older.length = count := by
    rw [← List.length_append, ← used, List.length_take, length, Nat.min_eq_left count_le]
  have slotsEq : slots = recent ++ older ++ slots.drop count := by rw [← used, List.take_append_drop]
  rw [List.rtake_concat_succ]
  cases older with
  | nil =>
    -- the slots from the index on are free
    have kept' : history.rtake size = recent := by
      have short : (history.rtake (size + 1)).length < size + 1 := by simpa [kept] using index_lt
      have whole : history = recent := by simpa [kept] using (rtake_eq_self short).symm
      rw [whole, List.rtake, Nat.sub_eq_zero_of_le (by omega), List.drop_zero]
    rw [List.length_nil, Nat.add_zero] at total
    refine ⟨recent ++ [item], [], ?_, by rw [kept', List.nil_append], by simp, fun _ => rfl⟩
    have inside : recent.length < slots.length := by omega
    rw [Nat.max_eq_right (by omega), List.append_nil, List.take_add_one, List.getElem?_set_self inside, List.take_set_of_le le_rfl,
      total, used, List.append_nil]
    rfl
  | cons oldest older =>
    have full : count = size + 1 := by
      by_contra less
      exact absurd (filling (by omega)) (List.cons_ne_nil _ _)
    rw [List.length_cons] at total
    have kept' : history.rtake size = older ++ recent := by
      refine rtake_of_cons (by simpa using kept) ?_
      rw [List.length_append]
      omega
    refine ⟨recent ++ [item], older, ?_, by rw [kept', List.append_assoc], by simp, by omega⟩
    rw [Nat.max_eq_left (by omega), List.take_set, used, List.set_append_right _ _ le_rfl, Nat.sub_self, List.set_cons_zero,
      List.append_assoc]
    rfl

/-- After the last slot comes the first one. -/
theorem Keeps.push (keeps : Keeps size slots index count history) (item : α) :
    Keeps size (slots.set index item) (if index + 1 = size then 0 else index + 1) (max count (index + 1))
      (history ++ [item]) := by
  obtain ⟨recent, older, used, kept, last, filling⟩ := keeps.next item
  have index_lt := keeps.index_lt
  have count_le := keeps.count_le
  have length : (slots.set index item).length = size := (List.length_set ..).trans keeps.length
  refine ⟨length, by split <;> omega, by omega, ?_⟩
  by_cases ends : index + 1 = size
  · have none : older = [] := by
      have total := congrArg List.length used
      rw [List.length_take, length, List.length_append] at total
      exact List.length_eq_zero_iff.mp (by omega)
    subst none
    rw [if_pos ends]
    exact ⟨[], recent, by simpa using used, by simpa using kept, rfl, by omega⟩
  · rw [if_neg ends]
    exact ⟨recent, older, used, kept, last, filling⟩

end Keeps

end CoapsClient.Machine.SlidingWindow
