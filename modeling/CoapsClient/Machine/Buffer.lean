import Mathlib.Tactic.Common
import Mathlib.Data.List.Basic

/-! # Checked access to arrays

A store outside of an array has no value. A writer that fills an array from its start keeps it in two parts: what it
has written, and the rest, which it has not touched; its stores are stores into the rest.
-/

namespace CoapsClient.Machine

variable {α : Type}

/-- An array with an item stored in it. -/
def put (array : List α) (index : ℕ) (item : α) : Option (List α) :=
  if index < array.length then some (array.set index item) else none

/-- An array with items stored one behind the other. -/
def putAll (array : List α) (index : ℕ) : List α → Option (List α)
  | [] => some array
  | item :: items => (put array index item).bind fun array => putAll array (index + 1) items

variable {array front rest items : List α} {index : ℕ} {item old : α}

theorem put_eq (inside : index < array.length) : put array index item = some (array.set index item) :=
  if_pos inside

theorem put_eq_none (outside : array.length ≤ index) : put array index item = none :=
  if_neg (by omega)

@[simp] theorem put_cons_zero : put (old :: rest) 0 item = some (item :: rest) := rfl

@[simp] theorem put_cons_succ :
    put (old :: rest) (index + 1) item = (put rest index item).map (old :: ·) := by
  simp only [put, List.length_cons, Nat.add_lt_add_iff_right, List.set_cons_succ]
  split <;> rfl

/-- A store behind what was written is a store into the rest. -/
theorem put_append : put (front ++ rest) (front.length + index) item = (put rest index item).map (front ++ ·) := by
  induction front with
  | nil => simp
  | cons first front ih =>
    rw [List.cons_append, List.length_cons, Nat.add_right_comm, put_cons_succ, ih]
    cases put rest index item <;> rfl

/-- Stores behind what was written are stores into the rest. -/
theorem putAll_append : putAll (front ++ rest) (front.length + index) items =
    (putAll rest index items).map (front ++ ·) := by
  induction items generalizing rest index with
  | nil => rfl
  | cons item items ih =>
    rw [putAll, putAll, put_append]
    cases stored : put rest index item with
    | none => rfl
    | some rest => exact @ih rest (index + 1)

/-- Items are stored in two parts. -/
theorem putAll_items {more : List α} : putAll array index (items ++ more) =
    (putAll array index items).bind fun array => putAll array (index + items.length) more := by
  induction items generalizing array index with
  | nil => rfl
  | cons item items ih =>
    rw [List.cons_append, putAll, putAll, List.length_cons, Option.bind_assoc]
    refine Option.bind_congr fun array _ => ?_
    rw [ih, Nat.add_assoc, Nat.add_comm 1]

/-- Items that fit take the place of as many. -/
theorem putAll_zero (fits : items.length ≤ rest.length) :
    putAll rest 0 items = some (items ++ rest.drop items.length) := by
  induction items generalizing rest with
  | nil => rfl
  | cons item items ih =>
    cases rest with
    | nil => exact absurd fits (Nat.not_succ_le_zero _)
    | cons old rest =>
      have later : putAll ([item] ++ rest) (1 + 0) items = (putAll rest 0 items).map ([item] ++ ·) := putAll_append
      rw [putAll, put_cons_zero, Option.bind_some]
      rw [List.singleton_append, ih (Nat.le_of_succ_le_succ fits)] at later
      simpa using later

/-- Items that do not fit have no place. -/
theorem putAll_eq_none (long : rest.length < items.length) : putAll rest 0 items = none := by
  induction items generalizing rest with
  | nil => exact absurd long (Nat.not_lt_zero _)
  | cons item items ih =>
    cases rest with
    | nil => rfl
    | cons old rest =>
      have later : putAll ([item] ++ rest) (1 + 0) items = (putAll rest 0 items).map ([item] ++ ·) := putAll_append
      rw [putAll, put_cons_zero, Option.bind_some]
      rw [List.singleton_append, ih (Nat.lt_of_succ_lt_succ long)] at later
      simpa using later

end CoapsClient.Machine
