import Mathlib.Algebra.BigOperators.Fin
import Mathlib.Algebra.Order.Chebyshev
import Mathlib.Tactic.Ring

/-! # The spread of values

The number of values times the sum of their squares, less the square of their sum. It is the same for values that are moved
together, never negative, and positive where two of them differ.
-/

namespace CoapsClient.Math

variable {R : Type*} [CommRing R]

/-- `n * sum(x^2) - (sum x)^2`. -/
def spread (values : List R) : R := values.length * (values.map fun value => value * value).sum - values.sum * values.sum

section Shift

variable {values : List R} {center : R}

theorem sum_shift (values : List R) (center : R) : (values.map (· - center)).sum = values.sum - values.length * center := by
  induction values with
  | nil => simp
  | cons value values ih =>
    simp only [List.map_cons, List.sum_cons, ih, List.length_cons]
    push_cast
    ring

theorem sum_squares_shift (values : List R) (center : R) :
    ((values.map (· - center)).map fun value => value * value).sum =
      (values.map fun value => value * value).sum - 2 * center * values.sum + values.length * (center * center) := by
  induction values with
  | nil => simp
  | cons value values ih =>
    simp only [List.map_cons, List.sum_cons, ih, List.length_cons]
    push_cast
    ring

theorem spread_shift (values : List R) (center : R) : spread (values.map (· - center)) = spread values := by
  simp only [spread, sum_shift, sum_squares_shift, List.length_map]
  ring

/-- With a zero among them, values have a spread if they are not all zero. -/
theorem spread_cons_zero : spread (0 :: values) = spread values + (values.map fun value => value * value).sum := by
  simp only [spread, List.length_cons, List.map_cons, List.sum_cons]
  push_cast
  ring

end Shift

section Ordered

variable [LinearOrder R] [IsStrictOrderedRing R] {values : List R}

theorem spread_nonneg (values : List R) : 0 ≤ spread values := by
  have bound := @sq_sum_le_card_mul_sum_sq (Fin values.length) R _ _ _ _ Finset.univ fun index => values[index]
  have squares : (values.map fun value => value * value).sum = ∑ index : Fin values.length, values[index] ^ 2 := by
    simp only [← Fin.sum_univ_fun_getElem, sq]
    rfl
  have sum : values.sum = ∑ index : Fin values.length, values[index] := by
    rw [← Fin.sum_univ_getElem]
    rfl
  rw [spread, squares, sum, sub_nonneg, ← sq]
  simpa using bound

theorem sum_squares_pos (different : ∃ value ∈ values, value ≠ 0) : 0 < (values.map fun value => value * value).sum := by
  obtain ⟨value, member, some'⟩ := different
  have nonneg : ∀ square ∈ values.map fun value => value * value, 0 ≤ square := by
    intro square member
    obtain ⟨value, -, rfl⟩ := List.mem_map.mp member
    exact mul_self_nonneg value
  have single := List.single_le_sum nonneg (value * value) (List.mem_map_of_mem member)
  exact (mul_self_pos.mpr some').trans_le single

theorem spread_pos_iff : 0 < spread values ↔ ∃ value ∈ values, ∃ other ∈ values, value ≠ other := by
  cases values with
  | nil => simp [spread]
  | cons center values =>
    have moved : spread (center :: values) = spread (values.map (· - center)) +
        ((values.map (· - center)).map fun value => value * value).sum := by
      rw [← spread_shift _ center, List.map_cons, sub_self, spread_cons_zero]
    constructor
    · intro positive
      by_contra none
      push Not at none
      have same : ∀ value ∈ values, value = center := fun value member =>
        none value (List.mem_cons_of_mem _ member) center List.mem_cons_self
      have zero : values.map (· - center) = List.replicate values.length 0 := by
        rw [List.eq_replicate_iff]
        refine ⟨List.length_map _, fun difference member => ?_⟩
        obtain ⟨value, own, rfl⟩ := List.mem_map.mp member
        rw [same value own, sub_self]
      rw [moved, zero] at positive
      simp [spread] at positive
    · rintro ⟨value, member, other, otherMember, different⟩
      have away : ∃ difference ∈ values.map (· - center), difference ≠ 0 := by
        by_contra none
        push Not at none
        have same : ∀ value ∈ center :: values, value = center := by
          intro value member
          rcases List.mem_cons.mp member with rfl | behind
          · rfl
          · exact sub_eq_zero.mp (none _ (List.mem_map_of_mem behind))
        exact different ((same value member).trans (same other otherMember).symm)
      rw [moved]
      exact add_pos_of_nonneg_of_pos (spread_nonneg _) (sum_squares_pos away)

end Ordered

end CoapsClient.Math
