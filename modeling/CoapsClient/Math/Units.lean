import Mathlib.Algebra.Order.BigOperators.Ring.List
import Mathlib.Algebra.Order.Floor.Div
import Mathlib.Order.Bounds.Basic
import Mathlib.Tactic.Common

/-! # Amounts counted in units

An amount is written as a unit and a count of it that is not more than some limit. The units are a chain: each of
them is a multiple of the one before. Counting up to the next whole unit, in the first unit with a count that is not over
the limit, gives the least amount with such a count that is not below the requested one.
-/

namespace CoapsClient.Math

/-- Rounding up twice is rounding up once. -/
theorem ceilDiv_ceilDiv (amount : ℕ) {first second : ℕ} (positive₁ : 0 < first) (positive₂ : 0 < second) :
    amount ⌈/⌉ first ⌈/⌉ second = amount ⌈/⌉ (first * second) := by
  refine eq_of_forall_ge_iff fun bound => ?_
  rw [ceilDiv_le_iff_le_mul positive₂, ceilDiv_le_iff_le_mul positive₁,
    ceilDiv_le_iff_le_mul (Nat.mul_pos positive₁ positive₂), Nat.mul_assoc]

/-- The units above a unit, each given by its factor. -/
def unitsAbove (unit : ℕ) : List ℕ → List ℕ
  | [] => []
  | factor :: factors => unit * factor :: unitsAbove (unit * factor) factors

/-- The amounts with a count that is not over a limit. -/
def Counted (limit : ℕ) (units : List ℕ) : Set ℕ := { amount | ∃ unit ∈ units, ∃ count ≤ limit, amount = count * unit }

/-- An amount counted up, and the unit: the first one with a count that is not over the limit, else the last one. -/
def countUp (limit amount unit : ℕ) : List ℕ → ℕ × ℕ
  | [] => (amount ⌈/⌉ unit, unit)
  | factor :: factors =>
      if limit < amount ⌈/⌉ unit then countUp limit amount (unit * factor) factors else (amount ⌈/⌉ unit, unit)

section Units

variable {limit amount unit : ℕ} {factors : List ℕ}

theorem dvd_of_mem_unitsAbove : ∀ other ∈ unitsAbove unit factors, unit ∣ other := by
  induction factors generalizing unit with
  | nil => simp [unitsAbove]
  | cons factor factors ih =>
    intro other found
    rcases List.mem_cons.mp found with rfl | later
    · exact dvd_mul_right _ _
    · exact (dvd_mul_right _ _).trans (ih other later)

/-- Each unit is part of the last one. -/
theorem dvd_last : ∀ other ∈ unit :: unitsAbove unit factors, other ∣ unit * factors.prod := by
  induction factors generalizing unit with
  | nil => simp [unitsAbove]
  | cons factor factors ih =>
    intro other found
    rcases List.mem_cons.mp found with rfl | above
    · exact dvd_mul_right _ _
    · rw [List.prod_cons, ← Nat.mul_assoc]
      exact ih other above

theorem last_mem : unit * factors.prod ∈ unit :: unitsAbove unit factors := by
  induction factors generalizing unit with
  | nil => simp
  | cons factor factors ih =>
    rw [List.prod_cons, ← Nat.mul_assoc]
    exact List.mem_cons_of_mem _ ih

/-- The greatest amount is as much as the last unit can count. -/
theorem counted_isGreatest (positive : 0 < unit * factors.prod) :
    IsGreatest (Counted limit (unit :: unitsAbove unit factors)) (limit * (unit * factors.prod)) := by
  refine ⟨⟨_, last_mem, limit, le_rfl, rfl⟩, ?_⟩
  rintro counted ⟨other, member, count, small, rfl⟩
  exact Nat.mul_le_mul small (Nat.le_of_dvd positive (dvd_last other member))

/-- The count is over the limit in the last unit only. -/
theorem countUp_over (positive : 0 < unit) (factorsPositive : ∀ factor ∈ factors, 0 < factor)
    (above : limit < (countUp limit amount unit factors).1) :
    countUp limit amount unit factors = (amount ⌈/⌉ (unit * factors.prod), unit * factors.prod) := by
  induction factors generalizing unit with
  | nil => simp [countUp]
  | cons factor factors ih =>
    rw [countUp] at above ⊢
    split at above
    · next more =>
      have later := ih (Nat.mul_pos positive (factorsPositive factor List.mem_cons_self))
        (fun other found => factorsPositive other (List.mem_cons_of_mem _ found)) above
      rw [if_pos more, later, List.prod_cons, Nat.mul_assoc]
    · next fits => exact absurd above fits

/-- There is a count that is not over the limit for what the last unit can count. -/
theorem countUp_le_iff (positive : 0 < unit) (factorsPositive : ∀ factor ∈ factors, 0 < factor) :
    (countUp limit amount unit factors).1 ≤ limit ↔ amount ≤ unit * factors.prod * limit := by
  induction factors generalizing unit with
  | nil => simpa [countUp] using ceilDiv_le_iff_le_mul positive
  | cons factor factors ih =>
    have first : 0 < factor := factorsPositive factor List.mem_cons_self
    have others : ∀ other ∈ factors, 0 < other := fun other found => factorsPositive other (List.mem_cons_of_mem _ found)
    rw [countUp, List.prod_cons, ← Nat.mul_assoc]
    split
    · exact ih (Nat.mul_pos positive first) others
    · next fits =>
      have small : amount ≤ unit * limit := (ceilDiv_le_iff_le_mul positive).mp (not_lt.mp fits)
      have larger : unit ≤ unit * factor * factors.prod := by
        rw [Nat.mul_assoc]
        exact Nat.le_mul_of_pos_right _ (Nat.mul_pos first (CanonicallyOrderedAdd.list_prod_pos.mpr others))
      exact iff_of_true (not_lt.mp fits) (small.trans (Nat.mul_le_mul_right _ larger))

/-- No whole number of units is below the count. -/
theorem ceilDiv_mul_le (positive : 0 < unit) {counted : ℕ} (whole : unit ∣ counted) (above : amount ≤ counted) :
    amount ⌈/⌉ unit * unit ≤ counted := by
  obtain ⟨count, rfl⟩ := whole
  rw [Nat.mul_comm]
  exact Nat.mul_le_mul_left _ ((ceilDiv_le_iff_le_mul positive).mpr above)

theorem le_ceilDiv_mul (positive : 0 < unit) : amount ≤ amount ⌈/⌉ unit * unit := by
  rw [Nat.mul_comm]
  exact (ceilDiv_le_iff_le_mul positive).mp le_rfl

/-- An amount counted up is the least one that is not below. -/
theorem countUp_isLeast (positive : 0 < unit) (factorsPositive : ∀ factor ∈ factors, 0 < factor)
    (fits : (countUp limit amount unit factors).1 ≤ limit) :
    IsLeast { counted ∈ Counted limit (unit :: unitsAbove unit factors) | amount ≤ counted }
      ((countUp limit amount unit factors).1 * (countUp limit amount unit factors).2) := by
  induction factors generalizing unit with
  | nil =>
    refine ⟨⟨⟨unit, List.mem_cons_self, _, fits, rfl⟩, le_ceilDiv_mul positive⟩, ?_⟩
    rintro counted ⟨⟨other, found, count, _, rfl⟩, above⟩
    obtain rfl := List.mem_singleton.mp found
    exact ceilDiv_mul_le positive (dvd_mul_left _ _) above
  | cons factor factors ih =>
    rw [countUp] at fits ⊢
    split at fits
    · next exceeded =>
      rw [if_pos exceeded]
      have later := ih (Nat.mul_pos positive (factorsPositive factor List.mem_cons_self))
        (fun other found => factorsPositive other (List.mem_cons_of_mem _ found)) fits
      obtain ⟨⟨⟨found, member, count, small, same⟩, above⟩, least⟩ := later
      refine ⟨⟨⟨found, List.mem_cons_of_mem _ member, count, small, same⟩, above⟩, ?_⟩
      rintro counted ⟨⟨other, member', count', small', rfl⟩, above'⟩
      rcases List.mem_cons.mp member' with rfl | further
      · -- what the unit itself can count is below the amount
        have reached : amount ≤ other * limit := above'.trans (by rw [Nat.mul_comm]; exact Nat.mul_le_mul_left _ small')
        exact absurd ((ceilDiv_le_iff_le_mul positive).mpr reached) (not_le.mpr exceeded)
      · exact least ⟨⟨other, further, count', small', rfl⟩, above'⟩
    · next under =>
      rw [if_neg under]
      refine ⟨⟨⟨unit, List.mem_cons_self, _, fits, rfl⟩, le_ceilDiv_mul positive⟩, ?_⟩
      rintro counted ⟨⟨other, member, count, _, rfl⟩, above⟩
      have multiple : unit ∣ other := by
        rcases List.mem_cons.mp member with rfl | further
        · exact dvd_rfl
        · exact @dvd_of_mem_unitsAbove _ (factor :: factors) other further
      exact ceilDiv_mul_le positive (multiple.trans (dvd_mul_left _ _)) above

end Units

end CoapsClient.Math
