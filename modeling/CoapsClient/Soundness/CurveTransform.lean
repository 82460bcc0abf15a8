import CoapsClient.Math.Interpolation
import CoapsClient.Model.Power.Voltage
import Mathlib.Data.Rat.Floor

/-! # Curves are interpolated

Between two neighbouring points `transform_curve` has the line through them, rounded down, and outside of the curve its
first and its last value. It rounds the piecewise linear function of the curve, so it is monotone as that one is. An
overflow is possible only where the values of two points are the same and their distance is none of 32 bits.
-/

namespace CoapsClient.Transform

open Machine Math

/-- A point of the abstract curve. -/
def Point.pair (point : Point) : ℚ × ℚ := (point.inValue, point.outValue)

/-- The function of the curve. -/
def interpolation (curve : List Point) (inValue : ℤ) : ℚ := piecewise (curve.map Point.pair) inValue

/-- Two neighbouring points. -/
structure Neighbours (pa pb : Point) : Prop where
  decreasing : pb.inValue < pa.inValue
  nonincreasing : pb.outValue ≤ pa.outValue
  product : (pa.outValue - pb.outValue) * (pa.inValue - pb.inValue) < 2147483648

instance (pa pb : Point) : Decidable (Neighbours pa pb) :=
  decidable_of_iff (pb.inValue < pa.inValue ∧ pb.outValue ≤ pa.outValue ∧
    (pa.outValue - pb.outValue) * (pa.inValue - pb.inValue) < 2147483648)
    ⟨fun ⟨decreasing, nonincreasing, product⟩ => ⟨decreasing, nonincreasing, product⟩,
      fun ⟨decreasing, nonincreasing, product⟩ => ⟨decreasing, nonincreasing, product⟩⟩

/-- The values of a point have 32 bits. -/
structure Point.Typed (point : Point) : Prop where
  inValue : Signed 32 point.inValue
  outValue : Signed 32 point.outValue

instance (point : Point) : Decidable point.Typed :=
  decidable_of_iff (Signed 32 point.inValue ∧ Signed 32 point.outValue)
    ⟨fun ⟨inValue, outValue⟩ => ⟨inValue, outValue⟩, fun ⟨inValue, outValue⟩ => ⟨inValue, outValue⟩⟩

/-- A curve of at least two points. -/
structure Curve (curve : List Point) : Prop where
  two : 2 ≤ curve.length
  typed : ∀ point ∈ curve, point.Typed
  neighbours : curve.IsChain Neighbours

/-- Where the value is inside of a segment, the difference of its points has 32 bits. -/
def Near (curve : List Point) (inValue : ℤ) : Prop :=
  ∀ pa pb, [pa, pb] <:+: curve → pb.inValue < inValue → inValue < pa.inValue → pa.inValue - pb.inValue < 2147483648

/-- The interpolation between two points, rounded down. -/
def between (inValue : ℤ) (pa pb : Point) : ℤ :=
  pb.outValue + (pa.outValue - pb.outValue) * (inValue - pb.inValue) / (pa.inValue - pb.inValue)

section Segment

variable {pa pb : Point} {inValue : ℤ}

theorem Neighbours.descends (neighbours : Neighbours pa pb) : Descends pa.pair pb.pair :=
  ⟨Int.cast_lt.mpr neighbours.decreasing, Int.cast_le.mpr neighbours.nonincreasing⟩

private theorem floor_line (neighbours : Neighbours pa pb) :
    ⌊line pb.pair pa.pair (inValue : ℚ)⌋ = between inValue pa pb := by
  have positive : 0 ≤ pa.inValue - pb.inValue := by
    have decreasing := neighbours.decreasing
    omega
  obtain ⟨divisor, equal⟩ := Int.eq_ofNat_of_zero_le positive
  have cast : (pa.inValue : ℚ) - pb.inValue = (divisor : ℚ) := by exact_mod_cast equal
  have exact : line pb.pair pa.pair (inValue : ℚ) = (pb.outValue : ℤ) +
      (((pa.outValue - pb.outValue) * (inValue - pb.inValue) : ℤ) : ℚ) / (divisor : ℚ) := by
    rw [← cast]
    simp [line, Point.pair]
  rw [exact, Int.floor_intCast_add, Rat.floor_intCast_div_natCast, between, equal]

/-- Nothing overflows inside of a segment. -/
private theorem interpolate_eq (neighbours : Neighbours pa pb) (distance : pa.inValue - pb.inValue < 2147483648)
    (typedPa : pa.Typed)
    (typedPb : pb.Typed) (above : pb.inValue ≤ inValue) (below : inValue < pa.inValue) :
    interpolate inValue pa pb = some (between inValue pa pb) := by
  obtain ⟨decreasing, nonincreasing, product⟩ := neighbours
  have outPa := signed_32.mp typedPa.outValue
  have outPb := signed_32.mp typedPb.outValue
  obtain ⟨rise, riseEq⟩ : ∃ rise, rise = pa.outValue - pb.outValue := ⟨_, rfl⟩
  obtain ⟨run, runEq⟩ : ∃ run, run = pa.inValue - pb.inValue := ⟨_, rfl⟩
  obtain ⟨offset, offsetEq⟩ : ∃ offset, offset = inValue - pb.inValue := ⟨_, rfl⟩
  rw [← riseEq, ← runEq] at product
  have riseBound : rise < 2147483648 := by
    refine lt_of_le_of_lt ?_ product
    exact le_mul_of_one_le_right (by omega) (by omega)
  have scaled : rise * offset ≤ rise * run := Int.mul_le_mul_of_nonneg_left (by omega) (by omega)
  have nonneg : 0 ≤ rise * offset := Int.mul_nonneg (by omega) (by omega)
  have quotientNonneg : 0 ≤ rise * offset / run := Int.ediv_nonneg nonneg (by omega)
  have quotientBound : rise * offset / run ≤ rise := by
    refine Int.ediv_le_of_le_mul (by omega) scaled
  have outDifference : Signed 32 rise := signed_32.mpr (by omega)
  have offsetFits : Signed 32 offset := signed_32.mpr (by omega)
  have productFits : Signed 32 (rise * offset) := signed_32.mpr (by omega)
  have runFits : Signed 32 run := signed_32.mpr (by omega)
  have quotientFits : Signed 32 (rise * offset / run) := signed_32.mpr (by omega)
  have sumFits : Signed 32 (pb.outValue + rise * offset / run) := signed_32.mpr (by omega)
  have divisor : run ≠ 0 := by omega
  rw [interpolate, between, ← riseEq, ← runEq, ← offsetEq]
  simp only [checked_of_signed outDifference, checked_of_signed offsetFits, checked_of_signed productFits,
    checked_of_signed runFits, Option.bind_eq_bind, Option.bind_some, if_neg divisor, Int.tdiv_eq_ediv_of_nonneg nonneg,
    checked_of_signed quotientFits, checked_of_signed sumFits]

/-- What the search returns for a segment with the value in it. -/
private theorem segment_eq (neighbours : Neighbours pa pb)
    (near : pb.inValue < inValue → inValue < pa.inValue → pa.inValue - pb.inValue < 2147483648) (typedPa : pa.Typed)
    (typedPb : pb.Typed) (above : pb.inValue ≤ inValue) (below : inValue < pa.inValue) :
    (if inValue ≤ pb.inValue then some pb.outValue else interpolate inValue pa pb) =
      some ⌊line pb.pair pa.pair (inValue : ℚ)⌋ := by
  split
  · next least =>
    obtain rfl : inValue = pb.inValue := Int.le_antisymm least above
    have exact : line pb.pair pa.pair (pb.inValue : ℚ) = (pb.outValue : ℚ) := line_low
    rw [exact, Int.floor_intCast]
  · next inside =>
    rw [interpolate_eq neighbours (near (not_le.mp inside) below) typedPa typedPb above below, floor_line neighbours]

end Segment

section Curves

variable {curve points : List Point} {pa pb first last point : Point} {inValue lower upper : ℤ}

private theorem descends_of_chain (chain : curve.IsChain Neighbours) : (curve.map Point.pair).IsChain Descends :=
  (List.isChain_map _).mpr (chain.imp fun _ _ neighbours => neighbours.descends)

/-- The search stops in the segment of the value, or in the last one if that is below the curve. -/
private theorem search_interpolates (chain : (pa :: pb :: points).IsChain Neighbours)
    (near : Near (pa :: pb :: points) inValue)
    (typed : ∀ point ∈ pa :: pb :: points, point.Typed) (below : inValue < pa.inValue) :
    (let (pa, pb) := search inValue pa pb points
      if inValue ≤ pb.inValue then some pb.outValue else interpolate inValue pa pb) =
    some ⌊interpolation (pa :: pb :: points) inValue⌋ := by
  induction points generalizing pa pb with
  | nil =>
    obtain ⟨neighbours, -⟩ := List.isChain_cons_cons.mp chain
    have close := near pa pb List.infix_rfl
    rcases lt_or_ge inValue pb.inValue with under | above
    · have value : interpolation [pa, pb] inValue = (pb.outValue : ℚ) :=
        piecewise_below neighbours.descends (Int.cast_le.mpr under.le)
      rw [value, Int.floor_intCast]
      exact if_pos under.le
    · have value : interpolation [pa, pb] inValue = line pb.pair pa.pair (inValue : ℚ) :=
        piecewise_inside (Int.cast_lt.mpr below) (Int.cast_le.mpr above)
      rw [value]
      exact segment_eq neighbours close (typed pa (by simp)) (typed pb (by simp)) above below
  | cons next points ih =>
    obtain ⟨neighbours, chain⟩ := List.isChain_cons_cons.mp chain
    have close := near pa pb ⟨[], next :: points, rfl⟩
    have later : Near (pb :: next :: points) inValue := fun high low neighbours => near high low (List.infix_cons neighbours)
    rcases lt_or_ge inValue pb.inValue with under | above
    · have value : interpolation (pa :: pb :: next :: points) inValue = interpolation (pb :: next :: points) inValue :=
        piecewise_below neighbours.descends (Int.cast_le.mpr under.le)
      rw [value, search, if_pos under]
      exact ih chain later (fun point member => typed point (List.mem_cons_of_mem _ member)) under
    · have value : interpolation (pa :: pb :: next :: points) inValue = line pb.pair pa.pair (inValue : ℚ) :=
        piecewise_inside (Int.cast_lt.mpr below) (Int.cast_le.mpr above)
      rw [value, search, if_neg (not_lt.mpr above)]
      exact segment_eq neighbours close (typed pa (by simp)) (typed pb (by simp)) above below

/-- The function of the curve, rounded down. -/
private theorem transformCurve_eq (valid : Curve curve) (near : Near curve inValue) :
    transformCurve inValue curve = some ⌊interpolation curve inValue⌋ := by
  obtain ⟨two, typed, chain⟩ := valid
  match curve with
  | [] | [_] => exact absurd two (by simp)
  | first :: second :: points =>
    rw [transformCurve]
    split
    · next above =>
      have value : interpolation (first :: second :: points) inValue = (first.outValue : ℚ) :=
        piecewise_above (Int.cast_le.mpr above)
      rw [value, Int.floor_intCast]
    · next below => exact search_interpolates chain near typed (not_le.mp below)

/-- Between neighbouring points there is a line. -/
private theorem transformCurve_segment (valid : Curve curve) (near : Near curve inValue) (neighbours : [pa, pb] <:+: curve)
    (above : pb.inValue ≤ inValue) (below : inValue ≤ pa.inValue) :
    transformCurve inValue curve = some (between inValue pa pb) := by
  have pair : pa.pair :: [pb.pair] <:+: curve.map Point.pair := neighbours.map Point.pair
  have value : interpolation curve inValue = line pb.pair pa.pair (inValue : ℚ) :=
    piecewise_segment (descends_of_chain valid.neighbours) pair (Int.cast_le.mpr above) (Int.cast_le.mpr below)
  have own : Neighbours pa pb := by
    obtain ⟨front, rest, rfl⟩ := neighbours
    exact List.isChain_pair.mp valid.neighbours.left_of_append.right_of_append
  rw [transformCurve_eq valid near, value, floor_line own]

/-- A point is not inside of a segment. -/
private theorem near_of_mem (valid : Curve curve) (member : point ∈ curve) : Near curve point.inValue := by
  rintro pa pb ⟨front, rest, rfl⟩ above below
  have pairs : (front ++ [pa, pb] ++ rest).Pairwise fun pa pb => pb.inValue < pa.inValue :=
    List.isChain_iff_pairwise.mp (valid.neighbours.imp fun _ _ neighbours => neighbours.decreasing)
  rw [List.append_assoc, List.pairwise_append] at pairs
  rw [List.append_assoc, List.mem_append] at member
  rcases member with before | behind
  · exact absurd below (pairs.2.2 point before pa (by simp)).not_gt
  rcases List.mem_cons.mp behind with rfl | behind
  · exact absurd below (lt_irrefl _)
  rcases List.mem_cons.mp behind with rfl | behind
  · exact absurd above (lt_irrefl _)
  · exact absurd above (List.rel_of_pairwise_cons pairs.2.1.of_cons behind).not_gt

/-- No distance overflows between values that are not negative. -/
private theorem near_of_nonneg (valid : Curve curve) (nonneg : ∀ point ∈ curve, 0 ≤ point.inValue) :
    Near curve inValue := by
  intro pa pb neighbours _ _
  have typed := signed_32.mp (valid.typed pa (neighbours.subset (by simp))).inValue
  have low := nonneg pb (neighbours.subset (by simp))
  omega

private theorem near_above (valid : Curve curve) (member : first ∈ curve.head?) (above : first.inValue ≤ inValue) :
    Near curve inValue := by
  intro pa pb neighbours _ below
  obtain ⟨points, rfl⟩ := List.head?_eq_some_iff.mp member
  have pairs : (first :: points).Pairwise fun pa pb => pb.inValue < pa.inValue :=
    List.isChain_iff_pairwise.mp (valid.neighbours.imp fun _ _ neighbours => neighbours.decreasing)
  rcases List.mem_cons.mp (neighbours.subset List.mem_cons_self) with rfl | behind
  · exact absurd below above.not_gt
  · exact absurd below (above.trans' (List.rel_of_pairwise_cons pairs behind).le).not_gt

private theorem near_below (valid : Curve curve) (member : last ∈ curve.getLast?) (below : inValue ≤ last.inValue) :
    Near curve inValue := by
  intro pa pb neighbours above _
  obtain ⟨points, rfl⟩ := List.getLast?_eq_some_iff.mp member
  have pairs : (points ++ [last]).Pairwise fun pa pb => pb.inValue < pa.inValue :=
    List.isChain_iff_pairwise.mp (valid.neighbours.imp fun _ _ neighbours => neighbours.decreasing)
  have order := (List.pairwise_append.mp pairs).2.2
  rcases List.mem_append.mp (neighbours.subset (show pb ∈ [pa, pb] by simp)) with before | own
  · exact absurd above (below.trans (order pb before last (by simp)).le).not_gt
  · obtain rfl := List.mem_singleton.mp own
    exact absurd above below.not_gt

private theorem transformCurve_above (valid : Curve curve) (member : first ∈ curve.head?)
    (above : first.inValue ≤ inValue) :
    transformCurve inValue curve = some first.outValue := by
  have near := near_above valid member above
  obtain ⟨points, rfl⟩ := List.head?_eq_some_iff.mp member
  have value : interpolation (first :: points) inValue = (first.outValue : ℚ) := piecewise_above (Int.cast_le.mpr above)
  rw [transformCurve_eq valid near, value, Int.floor_intCast]

private theorem transformCurve_below (valid : Curve curve) (member : last ∈ curve.getLast?)
    (below : inValue ≤ last.inValue) :
    transformCurve inValue curve = some last.outValue := by
  have near := near_below valid member below
  obtain ⟨points, rfl⟩ := List.getLast?_eq_some_iff.mp member
  have chain := descends_of_chain valid.neighbours
  have value : interpolation (points ++ [last]) inValue = (last.outValue : ℚ) := by
    rw [List.map_append] at chain
    rw [interpolation, List.map_append]
    exact piecewise_last chain (Int.cast_le.mpr below)
  rw [transformCurve_eq valid near, value, Int.floor_intCast]

private theorem transformCurve_point (valid : Curve curve) (member : point ∈ curve) :
    transformCurve point.inValue curve = some point.outValue := by
  have value : interpolation curve point.inValue = (point.outValue : ℚ) :=
    piecewise_point (descends_of_chain valid.neighbours) (List.mem_map_of_mem member)
  rw [transformCurve_eq valid (near_of_mem valid member), value, Int.floor_intCast]

private theorem transformCurve_mono (valid : Curve curve) (nearLower : Near curve lower) (nearUpper : Near curve upper)
    (order : lower ≤ upper) :
    ∃ low high, transformCurve lower curve = some low ∧ transformCurve upper curve = some high ∧ low ≤ high :=
  ⟨_, _, transformCurve_eq valid nearLower, transformCurve_eq valid nearUpper,
    Int.floor_mono (piecewise_mono (descends_of_chain valid.neighbours) (Int.cast_le.mpr order))⟩

private theorem profiles_valid : ∀ curve ∈ profiles, Curve curve ∧ ∀ point ∈ curve, 0 ≤ point.inValue := by
  have all : ∀ curve ∈ profiles, (2 ≤ curve.length ∧ (∀ point ∈ curve, point.Typed) ∧ curve.IsChain Neighbours) ∧
      ∀ point ∈ curve, 0 ≤ point.inValue := by decide
  intro curve member
  obtain ⟨⟨two, typed, neighbours⟩, nonneg⟩ := all curve member
  exact ⟨⟨two, typed, neighbours⟩, nonneg⟩

end Curves

/-- A curve meets its points and is constant outside of them. Where no distance overflows, it is interpolated and monotone. -/
theorem curve_interpolated (curve : List Point) (valid : Curve curve) :
    (∀ inValue, Near curve inValue → transformCurve inValue curve = some ⌊interpolation curve inValue⌋) ∧
    (∀ pa pb inValue, [pa, pb] <:+: curve → pb.inValue ≤ inValue → inValue ≤ pa.inValue → Near curve inValue →
      transformCurve inValue curve = some (between inValue pa pb)) ∧
    (∀ point ∈ curve, transformCurve point.inValue curve = some point.outValue) ∧
    (∀ first ∈ curve.head?, ∀ inValue, first.inValue ≤ inValue → transformCurve inValue curve = some first.outValue) ∧
    (∀ last ∈ curve.getLast?, ∀ inValue, inValue ≤ last.inValue → transformCurve inValue curve = some last.outValue) ∧
    ∀ lower upper, lower ≤ upper → Near curve lower → Near curve upper →
      ∃ low high, transformCurve lower curve = some low ∧ transformCurve upper curve = some high ∧ low ≤ high := by
  refine ⟨fun inValue near => transformCurve_eq valid near, ?_, ?_, ?_, ?_, ?_⟩
  · exact fun pa pb inValue neighbours above below near => transformCurve_segment valid near neighbours above below
  · exact fun point member => transformCurve_point valid member
  · exact fun first member inValue above => transformCurve_above valid member above
  · exact fun last member inValue below => transformCurve_below valid member below
  · exact fun lower upper order nearLower nearUpper => transformCurve_mono valid nearLower nearUpper order

/-- A voltage inside of a segment of a profile, one at a point and one below the curve. -/
theorem curve_interpolated_lipo : transformCurve 3700 curveLipo1350 = some 1924 ∧
    transformCurve 3689 curveLipo1350 = some 1592 ∧ transformCurve 3000 curveLipo1350 = some 0 := by
  obtain ⟨valid, nonneg⟩ := profiles_valid curveLipo1350 (by decide)
  obtain ⟨-, segments, points, -, below, -⟩ := curve_interpolated curveLipo1350 valid
  refine ⟨?_, points ⟨3689, 1592⟩ (by decide), below ⟨3300, 0⟩ rfl 3000 (by decide)⟩
  exact segments ⟨3812, 5313⟩ ⟨3689, 1592⟩ 3700 ⟨[⟨4200, 10000⟩, ⟨3950, 8332⟩], [⟨3626, 1146⟩, ⟨3540, 700⟩, ⟨3300, 0⟩], rfl⟩
    (by decide) (by decide) (near_of_nonneg valid nonneg)

/-- Two points of the same value that are too far from each other: their distance overflows. -/
theorem curve_interpolated_far :
    ¬ ∀ curve, Curve curve → ∀ inValue, Signed 32 inValue →
      transformCurve inValue curve = some ⌊interpolation curve inValue⌋ := by
  intro all
  have overflows : transformCurve 0 [⟨2147483647, 5⟩, ⟨-2147483648, 5⟩] = none := by decide
  have result := all [⟨2147483647, 5⟩, ⟨-2147483648, 5⟩] ⟨by decide, by decide, by decide⟩ 0 (by decide)
  rw [overflows] at result
  exact absurd result nofun

end CoapsClient.Transform
