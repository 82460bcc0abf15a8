import Mathlib.Tactic.Common
import Mathlib.Tactic.Ring

/-! # Rounded quotients and blocks

The quotient that is rounded to the nearest integer by adding half of the divisor minus one before the
division. It misses the exact quotient by at most half a divisor, so a value scaled by what it measures as is
found again whatever the rounding left over.

`blockFloor size position` is the start of the block of `size` units that contains a position.
The lemmas say when the next position stays in its block and when it opens a new one, and how
blocks of scaled and shifted units correspond.
-/

namespace CoapsClient.Math

/-- The nearest integer to a quotient, the lower one of two that are equally near. -/
def roundedDiv (value divisor : Int) : Int := (value + divisor / 2 - 1) / divisor

section Rounding

variable {value divisor scale factor : Int}

/-- What a rounded quotient leaves over. -/
theorem roundedDiv_rest (positive : 0 < divisor) :
    -(divisor / 2) < value - roundedDiv value divisor * divisor + (divisor % 2) ∧
      value - roundedDiv value divisor * divisor ≤ divisor / 2 + divisor % 2 := by
  have split := Int.emod_add_mul_ediv (value + divisor / 2 - 1) divisor
  have low := Int.emod_nonneg (value + divisor / 2 - 1) (Int.ne_of_gt positive)
  have high := Int.emod_lt_of_pos (value + divisor / 2 - 1) positive
  have whole := Int.emod_add_mul_ediv divisor 2
  have order : roundedDiv value divisor * divisor = divisor * ((value + divisor / 2 - 1) / divisor) :=
    Int.mul_comm ..
  omega

/-- A quotient is rounded to the integer that leaves less than half of the divisor over. -/
theorem roundedDiv_eq {quotient : Int} (positive : 0 < divisor)
    (low : 0 ≤ value - quotient * divisor + divisor / 2 - 1)
    (high : value - quotient * divisor + divisor / 2 - 1 < divisor) :
    roundedDiv value divisor = quotient := by
  have split : value + divisor / 2 - 1 =
      (value - quotient * divisor + divisor / 2 - 1) + quotient * divisor := by ring
  rw [roundedDiv, split, Int.add_mul_ediv_right _ _ (Int.ne_of_gt positive),
    Int.ediv_eq_zero_of_lt low high, Int.zero_add]

/-- The value a divisor was rounded from measures as the scale, if the rounding error stays small beside
the divisor. -/
theorem roundedDiv_cancel (positive : 0 < scale) (factorPositive : 0 < factor)
    (large : factor * (scale / 2 + scale % 2) + 1 ≤ roundedDiv value scale / 2) :
    roundedDiv (value * factor) (roundedDiv value scale) = scale * factor := by
  have rest := @roundedDiv_rest value scale positive
  have halves : 0 ≤ scale / 2 ∧ 0 ≤ scale % 2 := by omega
  have room : 0 ≤ factor * (scale / 2 + scale % 2) := Int.mul_nonneg (by omega) (by omega)
  have below : -(factor * (scale / 2 + scale % 2)) ≤ factor * (value - roundedDiv value scale * scale) := by
    rw [← Int.mul_neg]
    exact Int.mul_le_mul_of_nonneg_left (by omega) (by omega)
  have above : factor * (value - roundedDiv value scale * scale) ≤ factor * (scale / 2 + scale % 2) :=
    Int.mul_le_mul_of_nonneg_left (by omega) (by omega)
  have left : value * factor - scale * factor * roundedDiv value scale =
      factor * (value - roundedDiv value scale * scale) := by ring
  apply roundedDiv_eq (by omega)
  · omega
  · omega

end Rounding

/-- The first position of the block that contains a position. -/
def blockFloor (size position : ℕ) : ℕ := position / size * size

variable {size position : ℕ}

theorem blockFloor_le (size position : ℕ) : blockFloor size position ≤ position :=
  Nat.div_mul_le_self position size

theorem lt_blockFloor_add (position : ℕ) (positive : 0 < size) :
    position < blockFloor size position + size := by
  simp only [blockFloor]
  exact Nat.lt_div_mul_add positive

/-- A position between two neighbouring multiples lies in the block of the lower one. -/
theorem blockFloor_of_between (count : ℕ) (lower : count * size ≤ position)
    (upper : position < count * size + size) : blockFloor size position = count * size := by
  have quotient : position / size = count :=
    Nat.div_eq_of_lt_le lower (by rw [Nat.succ_mul]; exact upper)
  rw [blockFloor, quotient]

/-- Inside a block the next position has the same block. -/
theorem blockFloor_succ_inside (position : ℕ)
    (inside : position + 1 < blockFloor size position + size) :
    blockFloor size (position + 1) = blockFloor size position :=
  blockFloor_of_between (position / size) (Nat.le_succ_of_le (blockFloor_le size position)) inside

/-- The position behind a block opens the next one. -/
theorem blockFloor_succ_border (position : ℕ) (positive : 0 < size)
    (border : position + 1 = blockFloor size position + size) :
    blockFloor size (position + 1) = position + 1 := by
  have next : (position / size + 1) * size = position + 1 := by
    rw [Nat.succ_mul]
    exact border.symm
  have := blockFloor_of_between (position / size + 1) (Nat.le_of_eq next) (by omega)
  rw [this, next]

/-- Blocks do not straddle a multiple of their size. -/
theorem blockFloor_add_le {count : ℕ} (below : position < count * size) :
    blockFloor size position + size ≤ count * size := by
  have quotient : position / size < count := Nat.div_lt_of_lt_mul (by rwa [Nat.mul_comm])
  have := Nat.mul_le_mul_right size quotient
  rwa [Nat.succ_mul] at this

/-- Blocks of units that are `width` wide, behind a whole number of blocks. -/
theorem blockFloor_scaled {width base : ℕ} (positive : 0 < width) (sizePositive : 0 < size)
    (aligned : size * width ∣ base) :
    blockFloor (size * width) (base + position * width) = base + blockFloor size position * width := by
  obtain ⟨count, rfl⟩ := aligned
  simp only [blockFloor]
  rw [Nat.mul_add_div (Nat.mul_pos sizePositive positive), Nat.mul_div_mul_right _ _ positive]
  ring

end CoapsClient.Math
