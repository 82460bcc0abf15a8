import CoapsClient.Machine.SlidingWindow
import CoapsClient.Math.Spread
import CoapsClient.Model.Power.Voltage
import Mathlib.Algebra.Order.BigOperators.Group.List

/-! # The sums of the regression

The five slots keep the last samples since the last reset. The sums are exact as long as the oldest of these is less
than 65536 s old, since a product of 32 bits wraps from there on, and the divisor is the spread of the ages, which is
positive if the oldest sample is not of the current second.
-/

namespace CoapsClient.Power

open Machine Machine.SlidingWindow Math

namespace VoltageRegression

inductive Call where
  /-- `reset_linear_regresion`. -/
  | reset
  /-- `calculate_linear_regresion`. -/
  | calculate (now : ℤ) (value : UInt16)
deriving DecidableEq, Repr

def step (regression : Regression) : Call → Regression
  | .reset => resetLinearRegresion regression
  | .calculate now value => (calculateLinearRegresion now value regression).2

/-- Any calls from the start. -/
def runAll (calls : List Call) : Regression := calls.foldl step {}

def Call.uptime : Call → Option ℤ
  | .reset => none
  | .calculate now _ => some now

def Call.sample : Call → Option Sample
  | .reset => none
  | .calculate now value => some ⟨now.tdiv 1000, value⟩

/-- The uptimes do not decrease. -/
def Ordered (calls : List Call) : Prop := (calls.filterMap Call.uptime).Pairwise (· ≤ ·)

instance (calls : List Call) : Decidable (Ordered calls) := inferInstanceAs (Decidable (List.Pairwise ..))

def keep (history : List Sample) : Call → List Sample
  | .reset => []
  | .calculate now value => history ++ [⟨now.tdiv 1000, value⟩]

/-- The samples since the last reset. -/
def samples (calls : List Call) : List Sample := calls.foldl keep []

/-- The samples a regression is made of. -/
def retained (calls : List Call) : List Sample := (samples calls).rtake linregSize

def ages (seconds : ℤ) (samples : List Sample) : List ℤ := samples.map fun sample => seconds - sample.seconds

/-- The sums without a limit. -/
def exactSums (seconds : ℤ) (samples : List Sample) : Sums where
  count := samples.length
  sumT := (ages seconds samples).sum
  sumV := (samples.map fun sample => (sample.value.toNat : ℤ)).sum
  sumVT := (samples.map fun sample => (seconds - sample.seconds) * sample.value.toNat).sum
  sumTT := ((ages seconds samples).map fun age => age * age).sum

/-- If the call makes a regression, its sums are exact and its divisor is positive. -/
def Exact (calls : List Call) (now : ℤ) (value : UInt16) : Prop :=
  ∀ sums ∈ (calculateLinearRegresion now value (runAll calls)).1,
    sums = exactSums (now.tdiv 1000) (retained (calls ++ [.calculate now value])) ∧
      ∃ divisor ∈ sums.divisor, 0 < divisor

/-- The call only takes the first sample, or the oldest sample it retains is of another second and not too old. -/
def Covered (calls : List Call) (now : ℤ) (value : UInt16) : Prop :=
  samples calls = [] ∨ ∃ oldest ∈ (retained (calls ++ [.calculate now value])).head?,
    1 ≤ now.tdiv 1000 - oldest.seconds ∧ now.tdiv 1000 - oldest.seconds ≤ 65535

/-- The slots keep the last samples, none after a reset. -/
structure Retains (regression : Regression) (history : List Sample) : Prop where
  length : regression.slots.length = linregSize
  index_lt : regression.index < linregSize
  empty : regression.count = 0 ↔ history = []
  keeps : history ≠ [] → Keeps linregSize regression.slots regression.index regression.count history

section Slots

variable {regression : Regression} {history : List Sample} {calls : List Call} {now seconds : ℤ} {value : UInt16}

private theorem retains_initial : Retains {} [] := ⟨rfl, by decide, by simp, fun some' => absurd rfl some'⟩

private theorem retains_reset (retains : Retains regression history) : Retains (resetLinearRegresion regression) [] :=
  ⟨retains.length, retains.index_lt, by simp [resetLinearRegresion], fun some' => absurd rfl some'⟩

/-- A first sample is taken without a regression. -/
private theorem calculate_first (first : regression.count = 0) : calculateLinearRegresion now value regression =
    (none, ⟨regression.slots.set 0 ⟨now.tdiv 1000, value⟩, 1, 1⟩) := by
  simp [calculateLinearRegresion, first]

/-- Any other sample is followed by a regression of the slots. -/
private theorem calculate_next (some' : regression.count ≠ 0) : calculateLinearRegresion now value regression =
    let slots := regression.slots.set regression.index ⟨now.tdiv 1000, value⟩
    let count := max regression.count (regression.index + 1)
    (some ((slots.take count).foldl (Sums.add (now.tdiv 1000)) { count }),
      ⟨slots, count, if regression.index + 1 = linregSize then 0 else regression.index + 1⟩) := by
  have order : (if regression.count < regression.index + 1 then regression.index + 1 else regression.count) =
      max regression.count (regression.index + 1) := by
    split <;> omega
  simp only [calculateLinearRegresion, if_neg some', order, eq_comm]

private theorem retains_calculate (retains : Retains regression history) :
    Retains (calculateLinearRegresion now value regression).2 (history ++ [⟨now.tdiv 1000, value⟩]) := by
  by_cases first : regression.count = 0
  · obtain rfl := retains.empty.mp first
    have keeps := (keeps_nil retains.length (by decide)).push (⟨now.tdiv 1000, value⟩ : Sample)
    rw [calculate_first first]
    exact ⟨keeps.length, keeps.index_lt, by simp, fun _ => keeps⟩
  · have keeps := (retains.keeps (mt retains.empty.mpr first)).push (⟨now.tdiv 1000, value⟩ : Sample)
    rw [calculate_next first]
    exact ⟨keeps.length, keeps.index_lt, by simp, fun _ => keeps⟩

private theorem retains_run (retains : Retains regression history) :
    Retains (calls.foldl step regression) (calls.foldl keep history) := by
  induction calls generalizing regression history with
  | nil => exact retains
  | cons call calls ih =>
    cases call with
    | reset => exact ih (retains_reset retains)
    | calculate now value => exact ih (retains_calculate retains)

private theorem retains_runAll (calls : List Call) : Retains (runAll calls) (samples calls) := retains_run retains_initial

private theorem samples_append (calls : List Call) (now : ℤ) (value : UInt16) :
    samples (calls ++ [.calculate now value]) = samples calls ++ [⟨now.tdiv 1000, value⟩] := by
  rw [samples, List.foldl_append]
  rfl

/-- A regression is made of the retained samples, in some order. -/
private theorem calculate_perm (some' : samples calls ≠ []) :
    ∃ slots : List Sample, slots.Perm (retained (calls ++ [.calculate now value])) ∧
      (calculateLinearRegresion now value (runAll calls)).1 =
        some (slots.foldl (Sums.add (now.tdiv 1000)) { count := slots.length }) := by
  have retains := retains_runAll calls
  have keeps := (retains.keeps some').push (⟨now.tdiv 1000, value⟩ : Sample)
  have used : (((runAll calls).slots.set (runAll calls).index ⟨now.tdiv 1000, value⟩).take
      (max (runAll calls).count ((runAll calls).index + 1))).length =
        max (runAll calls).count ((runAll calls).index + 1) := by
    rw [List.length_take, keeps.length, Nat.min_eq_left keeps.count_le]
  refine ⟨((runAll calls).slots.set (runAll calls).index ⟨now.tdiv 1000, value⟩).take
    (max (runAll calls).count ((runAll calls).index + 1)), ?_, ?_⟩
  · rw [retained, samples_append]
    exact keeps.perm
  · rw [calculate_next (mt retains.empty.mp some'), used]

private theorem calculate_none (empty : samples calls = []) :
    (calculateLinearRegresion now value (runAll calls)).1 = none := by
  rw [calculate_first ((retains_runAll calls).empty.mpr empty)]

end Slots

section Sums

variable {slots kept : List Sample} {sums : Sums} {sample : Sample} {seconds age : ℤ}

private theorem uint32_of_lt {value : ℤ} (nonneg : 0 ≤ value) (small : value < 4294967296) : uint32 value = value :=
  Int.emod_eq_of_lt nonneg small

private theorem uint32_le {value : ℤ} (nonneg : 0 ≤ value) : uint32 value ≤ value := by
  rw [uint32]
  omega

private theorem uint32_nonneg (value : ℤ) : 0 ≤ uint32 value := Int.emod_nonneg value (by decide)

/-- The square of an age that is added. -/
def square (age : ℤ) : ℤ := uint32 (uint32 age * uint32 age)

private theorem square_le (nonneg : 0 ≤ age) : square age ≤ age * age :=
  (uint32_le (Int.mul_nonneg (uint32_nonneg age) (uint32_nonneg age))).trans
    (Int.mul_le_mul (uint32_le nonneg) (uint32_le nonneg) (uint32_nonneg age) nonneg)

/-- The square of a great age wraps. -/
private theorem square_lt (old : 65535 < age) : square age < age * age := by
  have small : square age < 4294967296 := Int.emod_lt_of_pos _ (by decide)
  have large : (65536 : ℤ) * 65536 ≤ age * age := Int.mul_le_mul (by omega) (by omega) (by decide) (by omega)
  omega

private theorem foldl_sumTT (slots : List Sample) (sums : Sums) :
    (slots.foldl (Sums.add seconds) sums).sumTT = sums.sumTT + ((ages seconds slots).map square).sum := by
  induction slots generalizing sums with
  | nil => simp [ages]
  | cons sample slots ih =>
    rw [List.foldl_cons, ih]
    simp only [ages, List.map_cons, List.sum_cons, ← Int.add_assoc]
    rfl

/-- The sums of squares are exact only without a great age. -/
private theorem ages_le_of_sumTT (nonneg : ∀ age ∈ ages seconds slots, 0 ≤ age)
    (exact : ((ages seconds slots).map square).sum = ((ages seconds slots).map fun age => age * age).sum) :
    ∀ age ∈ ages seconds slots, age ≤ 65535 := by
  intro age member
  by_contra old
  have less := List.sum_lt_sum square (fun age => age * age) (fun age member => square_le (nonneg age member))
    ⟨age, member, square_lt (Int.not_le.mp old)⟩
  exact absurd exact less.ne

/-- An age in the range of the regression. -/
def InRange (seconds : ℤ) (sample : Sample) : Prop := 0 ≤ seconds - sample.seconds ∧ seconds - sample.seconds ≤ 65535

/-- A sample in the range is added without a wrap. -/
private theorem add_exact (range : InRange seconds sample) (roomT : 0 ≤ sums.sumT ∧ sums.sumT < 4294901760)
    (roomV : 0 ≤ sums.sumV ∧ sums.sumV < 4294901760) :
    Sums.add seconds sums sample =
      { sums with
        sumT := sums.sumT + (seconds - sample.seconds)
        sumV := sums.sumV + sample.value.toNat
        sumVT := sums.sumVT + (seconds - sample.seconds) * sample.value.toNat
        sumTT := sums.sumTT + (seconds - sample.seconds) * (seconds - sample.seconds) } := by
  obtain ⟨nonneg, young⟩ := range
  have bound := sample.value.toNat_lt
  have product : (seconds - sample.seconds) * sample.value.toNat ≤ 65535 * 65535 :=
    Int.mul_le_mul young (by omega) (by omega) (by decide)
  have square : (seconds - sample.seconds) * (seconds - sample.seconds) ≤ 65535 * 65535 :=
    Int.mul_le_mul young young nonneg (by decide)
  have productNonneg : 0 ≤ (seconds - sample.seconds) * sample.value.toNat := Int.mul_nonneg nonneg (by omega)
  have squareNonneg : 0 ≤ (seconds - sample.seconds) * (seconds - sample.seconds) := Int.mul_nonneg nonneg nonneg
  simp only [Sums.add]
  rw [uint32_of_lt nonneg (by omega), uint32_of_lt (by omega) (by omega), uint32_of_lt (by omega) (by omega),
    uint32_of_lt productNonneg (by omega), uint32_of_lt squareNonneg (by omega)]

private theorem foldl_exact (slots : List Sample) (sums : Sums) (range : ∀ sample ∈ slots, InRange seconds sample)
    (roomT : 0 ≤ sums.sumT ∧ sums.sumT + 65535 * slots.length < 4294901760)
    (roomV : 0 ≤ sums.sumV ∧ sums.sumV + 65535 * slots.length < 4294901760) :
    slots.foldl (Sums.add seconds) sums =
      { count := sums.count
        sumT := sums.sumT + (exactSums seconds slots).sumT
        sumV := sums.sumV + (exactSums seconds slots).sumV
        sumVT := sums.sumVT + (exactSums seconds slots).sumVT
        sumTT := sums.sumTT + (exactSums seconds slots).sumTT } := by
  induction slots generalizing sums with
  | nil => simp [exactSums, ages]
  | cons sample slots ih =>
    have first := range sample List.mem_cons_self
    have bound := sample.value.toNat_lt
    rw [List.length_cons] at roomT roomV
    push_cast at roomT roomV
    obtain ⟨nonneg, young⟩ := first
    rw [List.foldl_cons, add_exact ⟨nonneg, young⟩ ⟨roomT.1, by omega⟩ ⟨roomV.1, by omega⟩,
      ih _ (fun sample member => range sample (List.mem_cons_of_mem _ member))]
    · simp only [exactSums, ages, List.map_cons, List.sum_cons, ← Int.add_assoc]
    · dsimp only
      omega
    · dsimp only
      omega

private theorem exactSums_perm (perm : slots.Perm kept) : exactSums seconds slots = exactSums seconds kept := by
  have byAge : (ages seconds slots).Perm (ages seconds kept) := perm.map _
  simp only [exactSums, perm.length_eq, byAge.sum_eq, (byAge.map _).sum_eq, (perm.map _).sum_eq]

/-- The divisor of exact sums is the spread of the ages. -/
private theorem divisor_exact (few : kept.length ≤ 5) (range : ∀ sample ∈ kept, InRange seconds sample) :
    (exactSums seconds kept).divisor = some (spread (ages seconds kept)) := by
  have young : ∀ age ∈ ages seconds kept, 0 ≤ age ∧ age ≤ 65535 := by
    intro age member
    obtain ⟨sample, own, rfl⟩ := List.mem_map.mp member
    exact range sample own
  have length : (ages seconds kept).length = kept.length := List.length_map _
  have sum : 0 ≤ (ages seconds kept).sum ∧ (ages seconds kept).sum ≤ 65535 * kept.length := by
    refine ⟨List.sum_nonneg fun age member => (young age member).1, ?_⟩
    have bound := List.sum_le_card_nsmul _ 65535 fun age member => (young age member).2
    rw [length, nsmul_eq_mul] at bound
    omega
  have squares : 0 ≤ ((ages seconds kept).map fun age => age * age).sum ∧
      ((ages seconds kept).map fun age => age * age).sum ≤ 4294836225 * kept.length := by
    have each : ∀ square ∈ (ages seconds kept).map fun age => age * age, 0 ≤ square ∧ square ≤ 4294836225 := by
      intro square member
      obtain ⟨age, own, rfl⟩ := List.mem_map.mp member
      obtain ⟨nonneg, small⟩ := young age own
      exact ⟨Int.mul_nonneg nonneg nonneg, Int.mul_le_mul small small nonneg (by decide)⟩
    refine ⟨List.sum_nonneg fun square member => (each square member).1, ?_⟩
    have bound := List.sum_le_card_nsmul _ 4294836225 fun square member => (each square member).2
    rw [List.length_map, length, nsmul_eq_mul] at bound
    omega
  have left : 0 ≤ (kept.length : ℤ) * ((ages seconds kept).map fun age => age * age).sum ∧
      (kept.length : ℤ) * ((ages seconds kept).map fun age => age * age).sum ≤ 5 * (4294836225 * 5) :=
    ⟨Int.mul_nonneg (by omega) squares.1, Int.mul_le_mul (by omega) (by omega) squares.1 (by decide)⟩
  have right : 0 ≤ (ages seconds kept).sum * (ages seconds kept).sum ∧
      (ages seconds kept).sum * (ages seconds kept).sum ≤ 327675 * 327675 :=
    ⟨Int.mul_nonneg sum.1 sum.1, Int.mul_le_mul (by omega) (by omega) sum.1 (by decide)⟩
  simp only [Sums.divisor, exactSums, Option.bind_eq_bind]
  rw [checked_of_signed (signed_64.mpr (by omega)), Option.bind_some, checked_of_signed (signed_64.mpr (by omega)),
    Option.bind_some, checked_of_signed (signed_64.mpr (by omega)), spread, length]

end Sums

section Samples

variable {calls : List Call} {oldest sample : Sample} {rest : List Sample} {now : ℤ} {value : UInt16}

private theorem samples_suffix (calls : List Call) : samples calls <:+ calls.filterMap Call.sample := by
  induction calls using List.reverseRecOn with
  | nil => exact List.suffix_rfl
  | append_singleton calls call ih =>
    cases call with
    | reset =>
      rw [samples, List.foldl_append]
      exact List.nil_suffix
    | calculate now value =>
      obtain ⟨front, split⟩ := ih
      refine ⟨front, ?_⟩
      rw [samples_append, List.filterMap_append, ← split, List.append_assoc]
      rfl

/-- Samples are in the order of their seconds. -/
private theorem samples_ordered (ordered : Ordered calls) :
    (samples calls).Pairwise fun sample other => sample.seconds ≤ other.seconds := by
  have taken : (calls.filterMap Call.sample).Pairwise fun sample other => sample.seconds ≤ other.seconds := by
    rw [Ordered, List.pairwise_filterMap] at ordered
    rw [List.pairwise_filterMap]
    refine ordered.imp fun {call other} order sample found later foundLater => ?_
    cases call with
    | reset => exact absurd found nofun
    | calculate now value =>
      cases other with
      | reset => exact absurd foundLater nofun
      | calculate late value =>
        obtain rfl := Option.some.inj found
        obtain rfl := Option.some.inj foundLater
        exact Int.tdiv_le_tdiv (by decide) (order now rfl late rfl)
  exact taken.sublist (samples_suffix calls).sublist

/-- The current sample is the last one that is retained. -/
private theorem retained_append (calls : List Call) (now : ℤ) (value : UInt16) :
    retained (calls ++ [.calculate now value]) = (samples calls).rtake 4 ++ [⟨now.tdiv 1000, value⟩] := by
  rw [retained, samples_append]
  exact List.rtake_concat_succ ..

private theorem retained_length_le (calls : List Call) : (retained calls).length ≤ 5 := by
  rw [retained, List.rtake, List.length_drop, linregSize]
  omega

/-- A retained sample is not older than the oldest one, nor younger than the current one. -/
private theorem retained_between (ordered : Ordered (calls ++ [.calculate now value]))
    (split : retained (calls ++ [.calculate now value]) = oldest :: rest)
    (member : sample ∈ retained (calls ++ [.calculate now value])) :
    oldest.seconds ≤ sample.seconds ∧ sample.seconds ≤ now.tdiv 1000 := by
  have pairs : (retained (calls ++ [.calculate now value])).Pairwise fun sample other => sample.seconds ≤ other.seconds :=
    (samples_ordered ordered).sublist (List.drop_sublist _ _)
  constructor
  · rw [split] at pairs member
    rcases List.mem_cons.mp member with rfl | behind
    · exact le_rfl
    · exact List.rel_of_pairwise_cons pairs behind
  · rw [retained_append] at pairs member
    rcases List.mem_append.mp member with before | own
    · exact (List.pairwise_append.mp pairs).2.2 sample before _ List.mem_cons_self
    · rw [List.mem_singleton.mp own]

end Samples

section Exactness

variable {slots kept : List Sample} {oldest : Sample} {seconds : ℤ}

/-- The ages of samples between the oldest and the current one have a spread if the oldest is not of the current second. -/
private theorem spread_pos_iff_oldest (first : oldest ∈ kept) (between : ∀ sample ∈ kept, oldest.seconds ≤ sample.seconds)
    (current : ∃ sample ∈ kept, sample.seconds = seconds) (past : oldest.seconds ≤ seconds)
    (now : ∀ sample ∈ kept, sample.seconds ≤ seconds) : 0 < spread (ages seconds kept) ↔ 1 ≤ seconds - oldest.seconds := by
  obtain ⟨last, lastMember, lastSeconds⟩ := current
  rw [spread_pos_iff]
  constructor
  · rintro ⟨age, member, other, otherMember, different⟩
    obtain ⟨sample, own, rfl⟩ := List.mem_map.mp member
    obtain ⟨later, laterOwn, rfl⟩ := List.mem_map.mp otherMember
    have sampleRange := between sample own
    have laterRange := between later laterOwn
    have sampleNow := now sample own
    have laterNow := now later laterOwn
    omega
  · intro old
    exact ⟨_, List.mem_map_of_mem first, _, List.mem_map_of_mem lastMember, by omega⟩

/-- The sums of the slots are exact and the divisor is positive as far as the oldest sample allows. -/
private theorem foldl_exact_iff (perm : slots.Perm kept) (few : kept.length ≤ 5) (first : oldest ∈ kept)
    (between : ∀ sample ∈ kept, oldest.seconds ≤ sample.seconds ∧ sample.seconds ≤ seconds)
    (current : ∃ sample ∈ kept, sample.seconds = seconds) :
    (slots.foldl (Sums.add seconds) { count := slots.length } = exactSums seconds kept ∧
      ∃ divisor ∈ (slots.foldl (Sums.add seconds) { count := slots.length }).divisor, 0 < divisor) ↔
    1 ≤ seconds - oldest.seconds ∧ seconds - oldest.seconds ≤ 65535 := by
  have past := (between oldest first).2
  have positive := spread_pos_iff_oldest first (fun sample own => (between sample own).1) current past fun sample own =>
    (between sample own).2
  have range (young : seconds - oldest.seconds ≤ 65535) : ∀ sample ∈ kept, InRange seconds sample := by
    intro sample own
    obtain ⟨low, high⟩ := between sample own
    exact ⟨by omega, by omega⟩
  constructor
  · rintro ⟨exact', divisor, found, some'⟩
    have young : seconds - oldest.seconds ≤ 65535 := by
      have squares := congrArg Sums.sumTT exact'
      rw [foldl_sumTT, ← exactSums_perm perm] at squares
      have nonneg : ∀ age ∈ ages seconds slots, 0 ≤ age := by
        intro age member
        obtain ⟨sample, own, rfl⟩ := List.mem_map.mp member
        have order := (between sample (perm.mem_iff.mp own)).2
        omega
      exact ages_le_of_sumTT nonneg ((Int.zero_add _).symm.trans squares) _ (List.mem_map_of_mem (perm.mem_iff.mpr first))
    rw [exact', divisor_exact few (range young), Option.mem_some_iff] at found
    subst found
    exact ⟨positive.mp some', young⟩
  · rintro ⟨old, young⟩
    have length := perm.length_eq
    have sums : slots.foldl (Sums.add seconds) { count := slots.length } = exactSums seconds kept := by
      have room : (0 : ℤ) ≤ 0 ∧ (0 : ℤ) + 65535 * slots.length < 4294901760 := by omega
      rw [foldl_exact slots _ (fun sample own => range young sample (perm.mem_iff.mp own)) room room, ← exactSums_perm perm]
      simp only [exactSums, Int.zero_add]
    refine ⟨sums, spread (ages seconds kept), ?_, positive.mpr old⟩
    rw [sums, divisor_exact few (range young)]
    rfl

end Exactness

section Calls

variable {calls rest : List Call} {now : ℤ} {value : UInt16}

/-- The calls up to one of them are in order as well. -/
theorem Ordered.upTo (ordered : Ordered (calls ++ .calculate now value :: rest)) : Ordered (calls ++ [.calculate now value]) := by
  refine ordered.sublist (List.Sublist.filterMap _ ?_)
  exact (List.Sublist.refl calls).append (List.singleton_sublist.mpr List.mem_cons_self)

private theorem exact_iff (ordered : Ordered (calls ++ [.calculate now value])) :
    Exact calls now value ↔ Covered calls now value := by
  by_cases empty : samples calls = []
  · refine iff_of_true (fun sums member => ?_) (.inl empty)
    rw [calculate_none empty] at member
    exact absurd member (Option.not_mem_none _)
  obtain ⟨slots, perm, calculated⟩ := @calculate_perm calls now value empty
  have last : retained (calls ++ [.calculate now value]) = (samples calls).rtake 4 ++ [⟨now.tdiv 1000, value⟩] :=
    retained_append ..
  obtain ⟨oldest, rest, split⟩ : ∃ oldest rest, retained (calls ++ [.calculate now value]) = oldest :: rest := by
    rw [last]
    exact List.exists_cons_of_ne_nil (List.append_ne_nil_of_right_ne_nil _ (List.cons_ne_nil _ _))
  have current : ∃ sample ∈ retained (calls ++ [.calculate now value]), sample.seconds = now.tdiv 1000 :=
    ⟨⟨now.tdiv 1000, value⟩, last ▸ List.mem_append_right _ List.mem_cons_self, rfl⟩
  have first : oldest ∈ retained (calls ++ [.calculate now value]) := split ▸ List.mem_cons_self
  have step := foldl_exact_iff perm (retained_length_le _) first (fun sample own => retained_between ordered split own) current
  rw [Exact, calculated, Covered, or_iff_right empty]
  simp only [Option.mem_some_iff, forall_eq']
  rw [step, split]
  simp only [List.head?_cons, Option.mem_some_iff, exists_eq_left']

end Calls

inductive Event where
  /-- `power_manager_voltage`. -/
  | voltage (reading : Reading)
  /-- A reset by `calculate_forecast`. -/
  | forecast
  /-- `sh_cmd_battery_forecast_reset`. -/
  | command
deriving DecidableEq, Repr

/-- The calls an event makes. -/
def callsOf (voltage : Voltage) : Event → List Call
  | .voltage reading =>
      if reading.time voltage < voltageMinIntervalMillis then []
      else match reading.fresh with
        | none => []
        | some internal => if 1000 < internal ∧ reading.raw = false then [.calculate reading.now internal] else []
  | .forecast | .command => [.reset]

section Events

variable {estimate : Sums → UInt16} {voltage : Voltage} {events : List Event}

def next (estimate : Sums → UInt16) (voltage : Voltage) : Event → Voltage
  | .voltage reading => (powerManagerVoltage estimate reading voltage).2
  | .forecast => { voltage with regression := resetLinearRegresion voltage.regression }
  | .command => shCmdBatteryForecastReset voltage

/-- The calls of any events. -/
def callsAll (estimate : Sums → UInt16) : Voltage → List Event → List Call
  | _, [] => []
  | voltage, event :: events => callsOf voltage event ++ callsAll estimate (next estimate voltage event) events

private theorem regression_next (event : Event) :
    (next estimate voltage event).regression = (callsOf voltage event).foldl step voltage.regression := by
  cases event with
  | forecast => rfl
  | command => rfl
  | voltage reading =>
    rw [next, powerManagerVoltage, callsOf]
    by_cases recent : reading.time voltage < voltageMinIntervalMillis
    · rw [if_pos recent, if_pos recent]
      rfl
    rw [if_neg recent, if_neg recent]
    cases reading.fresh with
    | none => rfl
    | some internal =>
      dsimp only
      by_cases high : 1000 < internal
      · cases raw : reading.raw <;> simp [high, step]
      · simp [high]

/-- The regression of the power manager is that of its calls. -/
private theorem regression_run (events : List Event) : (events.foldl (next estimate) voltage).regression =
    (callsAll estimate voltage events).foldl step voltage.regression := by
  induction events generalizing voltage with
  | nil => rfl
  | cons event events ih => rw [List.foldl_cons, ih, callsAll, List.foldl_append, regression_next]

def Event.uptime : Event → Option ℤ
  | .voltage reading => some reading.now
  | .forecast | .command => none

private theorem uptimes_sublist (events : List Event) :
    ((callsAll estimate voltage events).filterMap Call.uptime).Sublist (events.filterMap Event.uptime) := by
  induction events generalizing voltage with
  | nil => exact List.Sublist.refl _
  | cons event events ih =>
    rw [callsAll, List.filterMap_append, ← List.singleton_append, List.filterMap_append]
    refine List.Sublist.append ?_ ih
    cases event with
    | forecast => exact List.Sublist.refl _
    | command => exact List.Sublist.refl _
    | voltage reading =>
      rw [callsOf]
      split
      · exact List.nil_sublist _
      split
      · exact List.nil_sublist _
      split
      · exact List.Sublist.refl _
      · exact List.nil_sublist _

/-- The calls of the power manager are in the order of its readings. -/
private theorem ordered_callsAll (ordered : (events.filterMap Event.uptime).Pairwise (· ≤ ·)) :
    Ordered (callsAll estimate voltage events) :=
  ordered.sublist (uptimes_sublist events)

/-- In any events of the power manager with uptimes that do not decrease, its regression is that of the calls it makes, and
each regression is exact with a positive divisor if and only if the oldest sample is covered. -/
theorem power_manager_regression_iff (ordered : (events.filterMap Event.uptime).Pairwise (· ≤ ·)) :
    (events.foldl (next estimate) {}).regression = runAll (callsAll estimate {} events) ∧
      ∀ front now value rest, callsAll estimate {} events = front ++ .calculate now value :: rest →
        (runAll front).index < linregSize ∧ (Exact front now value ↔ Covered front now value) := by
  refine ⟨regression_run events, fun front now value rest split => ?_⟩
  have calls : Ordered (front ++ .calculate now value :: rest) := split ▸ ordered_callsAll ordered
  exact ⟨(retains_runAll front).index_lt, exact_iff calls.upTo⟩

end Events

/-- A charger is read twice in a second. -/
example : callsAll (fun _ => 0) {}
    [.voltage { now := 200, later := 210, charger := some 4000 },
      .voltage { now := 900, later := 910, charger := some 4010 }] =
    [.calculate 200 4000, .calculate 900 4010] := by decide

/-- In any calls with uptimes that do not decrease the index is one of the slots, and a regression is exact with a positive
divisor if and only if its oldest sample is of another second and less than 65536 s old. -/
theorem voltage_regression_iff (calls : List Call) (ordered : Ordered calls) :
    ∀ front now value rest, calls = front ++ .calculate now value :: rest →
      (runAll front).index < linregSize ∧ (Exact front now value ↔ Covered front now value) := by
  rintro front now value rest rfl
  exact ⟨(retains_runAll front).index_lt, exact_iff ordered.upTo⟩

/-- Two samples with ten seconds between them, the second one after a reset. -/
theorem voltage_regression_interval : Exact [.calculate 500 4100, .reset, .calculate 12000 4090] 22500 4085 :=
  ((voltage_regression_iff [.calculate 500 4100, .reset, .calculate 12000 4090, .calculate 22500 4085] (by decide)
    [.calculate 500 4100, .reset, .calculate 12000 4090] 22500 4085 [] rfl).2).mpr
    (.inr ⟨⟨12, 4090⟩, rfl, by decide, by decide⟩)

/-- Two samples in a second have the divisor 0, and the square of 65536 s is 0. -/
theorem voltage_regression_fails :
    (Ordered [.calculate 200 4000, .calculate 900 4010] ∧ ¬ Exact [.calculate 200 4000] 900 4010) ∧
    (Ordered [.calculate 0 4000, .calculate 65536000 3900] ∧ ¬ Exact [.calculate 0 4000] 65536000 3900) := by
  refine ⟨⟨by decide, fun exact' => ?_⟩, by decide, fun exact' => ?_⟩
  · obtain ⟨-, divisor, found, positive⟩ := exact' ⟨2, 0, 8010, 0, 0⟩ (by decide)
    obtain rfl : (0 : ℤ) = divisor := Option.some.inj found
    exact absurd positive (lt_irrefl 0)
  · obtain ⟨sums, -⟩ := exact' ⟨2, 65536, 7900, 262144000, 0⟩ (by decide)
    exact absurd sums (by decide)

end VoltageRegression

end CoapsClient.Power
