import Mathlib.Tactic.Common
import Mathlib.Data.List.DropRight
import Mathlib.Data.List.Infix

/-! # Episodes of a record

A record grows at its end. A mark that satisfies `opens` begins a new episode, and `since` is the
episode that a record is in. What may happen at most once in an episode is proved along a run from the
current episode alone: no earlier one changes.
-/

namespace CoapsClient.Machine

variable {α : Type*} (opens counts : α → Bool)

/-- The marks behind the last one that opens an episode. -/
def since (record : List α) : List α := record.rtakeWhile (!opens ·)

/-- No part of the record without an opening mark holds two marks that count. -/
def AtMostOnce (record : List α) : Prop :=
  ∀ before during after, record = before ++ during ++ after →
    (∀ mark ∈ during, opens mark = false) → during.countP counts ≤ 1

variable {opens counts} {record : List α} {mark : α}

theorem since_snoc_of_opens (opened : opens mark = true) : since opens (record ++ [mark]) = [] := by
  rw [since, List.rtakeWhile_concat_neg]
  simp [opened]

theorem since_snoc (kept : opens mark = false) :
    since opens (record ++ [mark]) = since opens record ++ [mark] := by
  rw [since, List.rtakeWhile_concat_pos]
  · rfl
  · simp [kept]

/-- The end of a record without an opening mark is part of its last episode. -/
theorem suffix_since {before after : List α} (kept : ∀ mark ∈ after, opens mark = false) :
    after <:+ since opens (before ++ after) := by
  induction after using List.reverseRecOn with
  | nil => exact List.nil_suffix
  | append_singleton after mark ih =>
    rw [← List.append_assoc, since_snoc (kept mark (by simp))]
    have shorter := ih fun other member => kept other (List.mem_append_left _ member)
    obtain ⟨front, same⟩ := shorter
    exact ⟨front, by rw [← List.append_assoc, same]⟩

namespace AtMostOnce

theorem nil : AtMostOnce opens counts [] := by
  intro before during after same _
  have empty : during = [] := by
    have sizes := congrArg List.length same
    simp only [List.length_nil, List.length_append] at sizes
    exact List.eq_nil_of_length_eq_zero (by omega)
  simp [empty]

/-- The bound holds for the current episode. -/
theorem since_le (once : AtMostOnce opens counts record) : (since opens record).countP counts ≤ 1 := by
  obtain ⟨before, same⟩ := List.rtakeWhile_suffix (!opens ·) record
  refine once before (since opens record) [] (by rw [List.append_nil]; exact same.symm) ?_
  intro mark member
  simpa using List.mem_rtakeWhile_imp member

/-- A new mark keeps the bound if the episode it belongs to does. -/
theorem snoc (once : AtMostOnce opens counts record)
    (bounded : (since opens (record ++ [mark])).countP counts ≤ 1) :
    AtMostOnce opens counts (record ++ [mark]) := by
  intro before during after same kept
  rcases List.eq_nil_or_concat after with rfl | ⟨front, last, rfl⟩
  · rw [List.append_nil] at same
    rw [same] at bounded
    exact (suffix_since kept).sublist.countP_le.trans bounded
  · rw [List.concat_eq_append, ← List.append_assoc] at same
    exact once before during front (List.append_inj_left' same rfl) kept

end AtMostOnce

end CoapsClient.Machine
