import Mathlib.Algebra.Order.Field.Basic
import Mathlib.Data.List.Chain
import Mathlib.Tactic.FieldSimp
import Mathlib.Tactic.Ring

/-! # Piecewise linear interpolation

A line through two points, and the function that follows such lines from point to point and is constant outside of them. The
points have descending abscissas; where their ordinates do not ascend, the function is monotone.
-/

namespace CoapsClient.Math

variable {K : Type*} [Field K] [LinearOrder K]

/-- The line through two points. -/
def line (low high : K × K) (x : K) : K := low.2 + (high.2 - low.2) * (x - low.1) / (high.1 - low.1)

/-- The lines between neighbouring points. -/
def piecewise : List (K × K) → K → K
  | [], _ => 0
  | [last], _ => last.2
  | high :: low :: rest, x =>
      if high.1 ≤ x then high.2 else if low.1 ≤ x then line low high x else piecewise (low :: rest) x

/-- The first point is the upper one. -/
structure Descends (high low : K × K) : Prop where
  abscissa : low.1 < high.1
  ordinate : low.2 ≤ high.2

section Evaluating

variable {low high : K × K} {points rest : List (K × K)} {x : K}

omit [LinearOrder K] in
theorem line_low : line low high low.1 = low.2 := by
  simp [line]

theorem line_high (descends : Descends high low) : line low high high.1 = high.2 := by
  have apart : high.1 - low.1 ≠ 0 := sub_ne_zero.mpr descends.abscissa.ne'
  rw [line, mul_div_assoc, div_self apart]
  ring

theorem piecewise_above (above : high.1 ≤ x) : piecewise (high :: rest) x = high.2 := by
  cases rest with
  | nil => rfl
  | cons low rest => rw [piecewise, if_pos above]

theorem piecewise_inside (below : x < high.1) (above : low.1 ≤ x) : piecewise (high :: low :: rest) x = line low high x := by
  rw [piecewise, if_neg (not_le.mpr below), if_pos above]

theorem piecewise_below (descends : Descends high low) (below : x ≤ low.1) :
    piecewise (high :: low :: rest) x = piecewise (low :: rest) x := by
  rw [piecewise, if_neg (not_le.mpr (below.trans_lt descends.abscissa))]
  split
  · next above =>
    obtain rfl := le_antisymm below above
    rw [line_low, piecewise_above le_rfl]
  · rfl

/-- The points in front of one above the abscissa do not matter. -/
theorem piecewise_append (chain : (points ++ high :: rest).IsChain Descends) (below : x ≤ high.1) :
    piecewise (points ++ high :: rest) x = piecewise (high :: rest) x := by
  induction points with
  | nil => rfl
  | cons top points ih =>
    have pairs : (top :: points ++ high :: rest).Pairwise fun high low => low.1 < high.1 :=
      List.isChain_iff_pairwise.mp (chain.imp fun _ _ descends => descends.abscissa)
    rw [← ih chain.tail]
    cases points with
    | nil => exact piecewise_below (List.isChain_cons_cons.mp chain).1 below
    | cons next points =>
      have order : high.1 < next.1 := List.rel_of_pairwise_cons (List.Pairwise.of_cons pairs) (by simp)
      exact piecewise_below (List.isChain_cons_cons.mp chain).1 (below.trans order.le)

/-- Every point is met. -/
theorem piecewise_point {point : K × K} (chain : points.IsChain Descends) (member : point ∈ points) :
    piecewise points point.1 = point.2 := by
  obtain ⟨front, rest, rfl⟩ := List.append_of_mem member
  rw [piecewise_append chain le_rfl, piecewise_above le_rfl]

/-- Between two neighbouring points the function is the line through them. -/
theorem piecewise_segment (chain : points.IsChain Descends) (neighbours : [high, low] <:+: points) (above : low.1 ≤ x)
    (below : x ≤ high.1) : piecewise points x = line low high x := by
  obtain ⟨front, rest, rfl⟩ := neighbours
  rw [List.append_assoc] at chain ⊢
  rw [List.cons_append] at chain ⊢
  have descends := (List.isChain_cons_cons.mp chain.right_of_append).1
  rw [piecewise_append chain below]
  rcases below.lt_or_eq with inside | rfl
  · exact piecewise_inside inside above
  · rw [piecewise_above le_rfl, line_high descends]

/-- Below the last point the function is constant. -/
theorem piecewise_last {last : K × K} (chain : (points ++ [last]).IsChain Descends) (below : x ≤ last.1) :
    piecewise (points ++ [last]) x = last.2 :=
  piecewise_append chain below

end Evaluating

section Monotone

variable [IsStrictOrderedRing K] {low high : K × K} {points rest : List (K × K)} {x y : K}

theorem line_mono (descends : Descends high low) (order : x ≤ y) : line low high x ≤ line low high y := by
  have rise : 0 ≤ high.2 - low.2 := sub_nonneg.mpr descends.ordinate
  have run : 0 ≤ high.1 - low.1 := (sub_pos.mpr descends.abscissa).le
  unfold line
  gcongr

/-- No value is above the first point. -/
theorem piecewise_le (chain : (high :: rest).IsChain Descends) : piecewise (high :: rest) x ≤ high.2 := by
  induction rest generalizing high with
  | nil => exact le_rfl
  | cons low rest ih =>
    obtain ⟨descends, chain⟩ := List.isChain_cons_cons.mp chain
    rcases le_or_gt high.1 x with above | below
    · exact (piecewise_above above).le
    rcases le_or_gt low.1 x with above | under
    · rw [piecewise_inside below above]
      exact (line_mono descends below.le).trans (line_high descends).le
    · rw [piecewise_below descends under.le]
      exact (ih chain).trans descends.ordinate

theorem piecewise_mono (chain : points.IsChain Descends) (order : x ≤ y) : piecewise points x ≤ piecewise points y := by
  induction points with
  | nil => exact le_rfl
  | cons high rest ih =>
    rcases le_or_gt high.1 y with above | below
    · rw [piecewise_above above]
      exact piecewise_le chain
    cases rest with
    | nil => exact le_rfl
    | cons low rest =>
      obtain ⟨descends, chain⟩ := List.isChain_cons_cons.mp chain
      rcases le_or_gt low.1 x with aboveX | underX
      · rw [piecewise_inside (order.trans_lt below) aboveX, piecewise_inside below (aboveX.trans order)]
        exact line_mono descends order
      rw [piecewise_below descends underX.le]
      rcases le_or_gt low.1 y with aboveY | underY
      · rw [piecewise_inside below aboveY]
        exact (piecewise_le chain).trans (line_low.symm.le.trans (line_mono descends aboveY))
      · rw [piecewise_below descends underY.le]
        exact ih chain

end Monotone

end CoapsClient.Math
