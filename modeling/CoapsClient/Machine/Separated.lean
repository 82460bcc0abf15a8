import Mathlib.Tactic.Common
import Mathlib.Data.List.Basic
import Mathlib.Order.MinMax

/-! # Items in a text

Items of any length are written with a separator between them, or with one behind each item: where the text starts
or a separator ends, the rest of the text is that of the last items. Items of one size need no separator: they are the
pieces of the text.
-/

namespace CoapsClient.Machine

variable {α : Type} {sep : α} {item : List α} {items : List (List α)}

/-- The items, with a separator behind each. -/
def ended (sep : α) (items : List (List α)) : List α := items.flatMap (· ++ [sep])

@[simp] theorem ended_nil : ended sep [] = [] := rfl

@[simp] theorem ended_cons : ended sep (item :: items) = item ++ sep :: ended sep items := by
  simp [ended]

theorem ended_append {more : List (List α)} : ended sep (items ++ more) = ended sep items ++ ended sep more :=
  List.flatMap_append

theorem ended_ne_nil (nonempty : items ≠ []) : ended sep items ≠ [] := by
  obtain ⟨item, items, rfl⟩ := List.exists_cons_of_ne_nil nonempty
  simp

/-- The last separator is the difference. -/
theorem ended_eq (nonempty : items ≠ []) : ended sep items = [sep].intercalate items ++ [sep] := by
  induction items with
  | nil => contradiction
  | cons item items ih =>
    cases items with
    | nil => simp
    | cons next items =>
      rw [ended_cons, ih (List.cons_ne_nil _ _), List.intercalate_cons_cons]
      simp

/-- Items behind others: those in front have their separators. -/
theorem intercalate_append {more : List (List α)} (nonempty : more ≠ []) :
    [sep].intercalate (items ++ more) = ended sep items ++ [sep].intercalate more := by
  induction items with
  | nil => rfl
  | cons item items ih =>
    rw [List.cons_append, List.intercalate_cons_of_ne_nil (by simp [nonempty]), ih, ended_cons]
    simp

/-- A separator is in no part between separators. -/
theorem not_mem_of_mem_splitOn [BEq α] [LawfulBEq α] {text : List α} : ∀ part ∈ text.splitOn sep, sep ∉ part := by
  induction text with
  | nil => simp
  | cons first text ih =>
    rw [List.splitOn_cons_eq_if_modifyHead]
    split
    · simpa using ih
    · next other =>
      obtain ⟨part, parts, split⟩ := List.exists_cons_of_ne_nil (List.splitOn_ne_nil sep text)
      rw [split] at ih
      rw [split, List.modifyHead_cons]
      have notFirst : sep ≠ first := fun same => other (by simp [same])
      simpa [notFirst] using ih

/-- Behind a border, a text is that of the last items. -/
theorem drop_intercalate (free : ∀ item ∈ items, sep ∉ item) {pos : ℕ}
    (border : pos = 0 ∨ ([sep].intercalate items)[pos - 1]? = some sep) :
    ∃ rest, rest <:+ items ∧ ([sep].intercalate items).drop pos = [sep].intercalate rest := by
  induction items generalizing pos with
  | nil => exact ⟨[], List.suffix_rfl, by simp⟩
  | cons item items ih =>
    rcases Nat.eq_zero_or_pos pos with rfl | behind
    · exact ⟨item :: items, List.suffix_rfl, rfl⟩
    have found := border.resolve_left behind.ne'
    have here := free item List.mem_cons_self
    -- the separator is not in the first item
    have outside : ∀ rest : List α, (item ++ rest)[pos - 1]? = some sep → item.length ≤ pos - 1 := by
      intro rest isSep
      by_contra inside
      rw [List.getElem?_append_left (by omega)] at isSep
      exact here (List.mem_of_getElem? isSep)
    cases items with
    | nil =>
      rw [List.intercalate_singleton] at found
      exact absurd (List.mem_of_getElem? found) here
    | cons next items =>
      rw [List.intercalate_cons_cons, List.append_assoc] at found ⊢
      have long := outside _ found
      rw [List.getElem?_append_right long] at found
      rw [List.drop_append, List.drop_eq_nil_of_le (by omega), List.nil_append]
      obtain ⟨index, same⟩ : ∃ index, pos - item.length = index + 1 := ⟨pos - item.length - 1, by omega⟩
      have before : pos - 1 - item.length = index := by omega
      rw [before] at found
      have later : index = 0 ∨ ([sep].intercalate (next :: items))[index - 1]? = some sep := by
        cases index with
        | zero => exact .inl rfl
        | succ index => exact .inr found
      obtain ⟨rest, suffix, text⟩ := ih (fun item member => free item (List.mem_cons_of_mem _ member)) later
      exact ⟨rest, suffix.trans (List.suffix_cons _ _), by rw [same]; exact text⟩

/-- The whole pieces of a text. -/
def pieces (size : ℕ) (text : List α) : List (List α) :=
  (List.range (text.length / size)).map fun index => (text.drop (index * size)).take size

section Pieces

variable {size : ℕ} {text rest : List α}

theorem pieces_of_lt (short : text.length < size) : pieces size text = [] := by
  rw [pieces, Nat.div_eq_of_lt short]
  rfl

/-- The first piece, and those of the rest. -/
theorem pieces_eq_cons (positive : 0 < size) (long : size ≤ text.length) :
    pieces size text = text.take size :: pieces size (text.drop size) := by
  have count : text.length / size = (text.drop size).length / size + 1 := by
    rw [List.length_drop, ← Nat.add_div_right _ positive, Nat.sub_add_cancel long]
  rw [pieces, count, List.range_succ_eq_map, List.map_cons, List.map_map, Nat.zero_mul, List.drop_zero, pieces]
  congr 1
  refine List.map_congr_left fun index _ => ?_
  rw [Function.comp_apply, List.drop_drop, Nat.succ_mul, Nat.add_comm]

end Pieces

end CoapsClient.Machine
