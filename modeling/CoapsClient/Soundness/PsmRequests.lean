import CoapsClient.Model.Modem.Psm
import CoapsClient.Machine.Path
import CoapsClient.Math.Units
import Mathlib.Tactic.LinearCombination

/-! # The requests of PSM and the times they stand for

`modem_set_psm` sends no request for the time that it remembers. It remembers a time before it knows whether the request
for it succeeds, and it starts with PSM disabled. Where each request is sent and succeeds and PSM is not disabled before
anything else is done, the remembered time is that of the last request.

A timer of a request is three binary digits for a unit and five for its count. `modem_cmd_psm` rounds up from unit to
unit, which is rounding up once, and `modem_set_psm` rounds down. Neither checks that the count has five digits in the
largest unit: a count that has more loses the upper ones.
-/

namespace CoapsClient.ModemPsm

open ShCmd (Text)
open Machine (Path guarded Signed checked checked_of_signed checked_eq_some_iff signed_32)
open Parameters (int32 strtoul scanUnsigned)
open Math (Counted countUp unitsAbove ceilDiv_ceilDiv countUp_over countUp_le_iff countUp_isLeast counted_isGreatest)

/-- What is remembered, beside the last request that was sent: its time and its result. -/
structure Requests where
  psm : Psm := {}
  last : Option (Int × Int) := none
deriving DecidableEq

inductive Call where
  /-- `modem_set_psm`. -/
  | set (answer : Answer) (activeTimeS : Int16)
  /-- `modem_lock_psm`. -/
  | lock (on : Bool)
deriving DecidableEq

def Requests.perform (rptau : Text) (requests : Requests) : Call → Requests
  | .set answer activeTimeS =>
      let outcome := modemSetPsm rptau answer activeTimeS requests.psm
      { psm := outcome.psm
        last := if outcome.request.isSome then some (activeTime activeTimeS, outcome.result) else requests.last }
  | .lock on => { requests with psm := modemLockPsm on requests.psm }

/-- A call leads from one state to the next. -/
def Step (rptau : Text) (requests : Requests) (call : Call) (next : Requests) : Prop := requests.perform rptau call = next

/-- PSM is not locked, and a time is kept: zero is returned, and no request is sent. -/
def Keeps (rptau : Text) (answer : Answer) (activeTimeS : Int16) (psm : Psm) : Prop :=
  -2 ≤ psm.psmRat ∧ (modemSetPsm rptau answer activeTimeS psm).result = 0 ∧
    (modemSetPsm rptau answer activeTimeS psm).request = none

instance (rptau : Text) (answer : Answer) (activeTimeS : Int16) (psm : Psm) : Decidable (Keeps rptau answer activeTimeS psm) :=
  inferInstanceAs (Decidable (_ ∧ _ ∧ _))

/-- The last request succeeded, and was for a time. -/
def Requests.Justifies (requests : Requests) (activeTimeS : Int16) : Prop :=
  requests.last = some (activeTime activeTimeS, 0)

instance (requests : Requests) (activeTimeS : Int16) : Decidable (requests.Justifies activeTimeS) :=
  inferInstanceAs (Decidable (_ = _))

/-- A call of `modem_set_psm` gets to a request. -/
def Asks (psm : Psm) (activeTimeS : Int16) : Prop := -2 ≤ psm.psmRat ∧ psm.psmRat ≠ activeTime activeTimeS

/-- A request is sent and succeeds. -/
def Answer.Succeeds (answer : Answer) : Prop := answer.lock = 0 ∧ answer.request = 0

/-- Nothing was requested, locked or unlocked. -/
def Requests.Untouched (requests : Requests) : Prop := requests.psm.psmRat = -1 ∧ requests.last = none

/-- A request of the call succeeds, and the first call does not disable PSM. -/
def Sound (requests : Requests) : Call → Prop
  | .set answer activeTimeS =>
      (Asks requests.psm activeTimeS → answer.Succeeds) ∧ (requests.Untouched → activeTime activeTimeS ≠ -1)
  | .lock _ => True

section Calls

variable {rptau : Text} {answer : Answer} {activeTimeS : Int16} {psm : Psm} {requests : Requests}

private theorem activeTime_ge : -1 ≤ activeTime activeTimeS := by
  unfold activeTime
  split <;> omega

/-- While PSM is locked, nothing is remembered or sent. -/
private theorem modemSetPsm_locked (locked : psm.psmRat < -2) :
    modemSetPsm rptau answer activeTimeS psm = { result := 0, psm } := by
  simp only [modemSetPsm, if_pos locked, if_neg (not_le.mpr locked)]

/-- The remembered time is not requested again. -/
private theorem modemSetPsm_same (same : psm.psmRat = activeTime activeTimeS) :
    modemSetPsm rptau answer activeTimeS psm = { result := 0, psm } := by
  have unlocked : -2 ≤ psm.psmRat := by
    have least := @activeTime_ge activeTimeS
    omega
  simp only [modemSetPsm, if_pos unlocked, if_neg (not_lt.mpr unlocked), ← same, if_true]

/-- Any other time is remembered, whatever comes of the request for it. -/
private theorem modemSetPsm_asks (asks : Asks psm activeTimeS) :
    (modemSetPsm rptau answer activeTimeS psm).psm.psmRat = activeTime activeTimeS ∧
      (modemSetPsm rptau answer activeTimeS psm).result = (if answer.lock ≠ 0 then answer.lock else answer.request) ∧
      ((modemSetPsm rptau answer activeTimeS psm).request.isSome ↔ answer.lock = 0) := by
  obtain ⟨unlocked, differs⟩ := asks
  simp only [modemSetPsm, if_pos unlocked, if_neg (not_lt.mpr unlocked), if_neg differs, modemAtPsmReq]
  split_ifs <;> simp_all

/-- A time is kept exactly where it is remembered: for any other one a request is sent, or the error of the lock is
returned. -/
private theorem keeps_iff : Keeps rptau answer activeTimeS psm ↔ psm.psmRat = activeTime activeTimeS := by
  constructor
  · rintro ⟨unlocked, fine, silent⟩
    by_contra differs
    obtain ⟨-, result, sent⟩ := @modemSetPsm_asks rptau answer _ _ ⟨unlocked, differs⟩
    have locked : answer.lock ≠ 0 := by
      intro lock
      rw [silent] at sent
      exact absurd (sent.mpr lock) Bool.false_ne_true
    rw [fine, if_pos locked] at result
    exact locked result.symm
  · intro same
    have least := @activeTime_ge activeTimeS
    rw [Keeps, modemSetPsm_same same]
    exact ⟨by omega, rfl, rfl⟩

end Calls

/-- The remembered time is that of the last request, which succeeded. -/
def Requests.Remembers (requests : Requests) : Prop :=
  requests.Untouched ∨ (-1 ≤ requests.psm.psmRat → requests.last = some (requests.psm.psmRat, 0))

/-- A sound call keeps that. -/
private theorem remembers_step (rptau : Text) (requests : Requests) (call : Call) (next : Requests)
    (remembers : requests.Remembers) (moved : guarded (Step rptau) Sound requests call next) : next.Remembers := by
  obtain ⟨sound, rfl⟩ := moved
  cases call with
  | lock on =>
    right
    intro unlocked
    cases on <;> exact absurd unlocked (by simp [Requests.perform, modemLockPsm])
  | set answer activeTimeS =>
    by_cases asks : Asks requests.psm activeTimeS
    · obtain ⟨remembered, result, sent⟩ := @modemSetPsm_asks rptau answer _ _ asks
      obtain ⟨lock, request⟩ := sound.1 asks
      rw [if_neg (not_not_intro lock), request] at result
      right
      intro _
      simp only [Requests.perform, sent.mpr lock, if_true, remembered, result]
    · -- without a request nothing changes
      have unchanged : requests.perform rptau (.set answer activeTimeS) = requests := by
        by_cases locked : requests.psm.psmRat < -2
        · simp [Requests.perform, modemSetPsm_locked locked]
        · have same : requests.psm.psmRat = activeTime activeTimeS := by
            by_contra differs
            exact asks ⟨not_lt.mp locked, differs⟩
          simp [Requests.perform, modemSetPsm_same same]
      rwa [unchanged]

/-- A request that is not sent or fails is not repeated. -/
private theorem failed_kept {rptau : Text} {answer again : Answer} {activeTimeS : Int16} {requests : Requests}
    (asks : Asks requests.psm activeTimeS) (fails : answer.lock ≠ 0 ∧ ¬ requests.Justifies activeTimeS ∨
      answer.lock = 0 ∧ answer.request ≠ 0) :
    Keeps rptau again activeTimeS (requests.perform rptau (.set answer activeTimeS)).psm ∧
      ¬ (requests.perform rptau (.set answer activeTimeS)).Justifies activeTimeS := by
  obtain ⟨remembered, result, sent⟩ := @modemSetPsm_asks rptau answer _ _ asks
  refine ⟨keeps_iff.mpr remembered, ?_⟩
  rcases fails with ⟨locked, unjustified⟩ | ⟨lock, failed⟩
  · simpa only [Requests.Justifies, Requests.perform, sent, locked, if_false] using unjustified
  · simp [Requests.Justifies, Requests.perform, sent.mpr lock, result, lock, failed]

/-- In every run whose requests are sent and succeed, and that does not begin with disabling PSM, a time is kept only
if the last request was for it and succeeded. The time of a call whose request fails is kept. -/
theorem psm_requests_kept (rptau : Text) :
    (∀ calls requests, Path (guarded (Step rptau) Sound) {} calls requests →
      ∀ answer activeTimeS, Sound requests (.set answer activeTimeS) → Keeps rptau answer activeTimeS requests.psm →
        requests.Justifies activeTimeS) ∧
    ∀ (requests : Requests) (answer again : Answer) (activeTimeS : Int16), Asks requests.psm activeTimeS →
      answer.lock ≠ 0 ∧ ¬ requests.Justifies activeTimeS ∨ answer.lock = 0 ∧ answer.request ≠ 0 →
        Keeps rptau again activeTimeS (requests.perform rptau (.set answer activeTimeS)).psm ∧
          ¬ (requests.perform rptau (.set answer activeTimeS)).Justifies activeTimeS := by
  constructor
  · intro calls requests run answer activeTimeS sound keeps
    have remembers := run.invariant Requests.Remembers (remembers_step rptau) (.inl ⟨rfl, rfl⟩)
    have same := keeps_iff.mp keeps
    have least := @activeTime_ge activeTimeS
    rcases remembers with untouched | last
    · exact absurd (same ▸ untouched.1) (sound.2 untouched)
    · rw [Requests.Justifies, last (same ▸ least), same]
  · intro requests answer again activeTimeS asks fails
    exact failed_kept asks fails

/-- The time of two requests that succeed is kept by a third call. -/
theorem psm_requests_kept_twice : ∃ requests : Requests,
    Keeps [] {} 16 requests.psm ∧ requests.Justifies 16 ∧ requests.last = some (16, 0) := by
  let first : Requests := Requests.perform [] {} (.set {} 120)
  let second : Requests := first.perform [] (.set {} 16)
  have run : Path (guarded (Step []) Sound) {} [.set {} 120, .set {} 16] second := by
    refine @Path.cons _ _ _ _ first _ _ _ ⟨⟨fun _ => ⟨rfl, rfl⟩, fun _ => by decide⟩, rfl⟩ ?_
    exact .cons ⟨⟨fun _ => ⟨rfl, rfl⟩, fun _ => by decide⟩, rfl⟩ (.nil _)
  have keeps : Keeps [] {} 16 second.psm := by decide
  exact ⟨second, keeps, (psm_requests_kept []).1 _ _ run {} 16 ⟨fun _ => ⟨rfl, rfl⟩, fun _ => by decide⟩ keeps, by decide⟩

/-- The request for 120 s fails, and the next call for it sends none. -/
theorem failed_request_kept : ∃ requests : Requests,
    Path (Step []) {} [.set {} 16, .set { request := -11 } 120] requests ∧ requests.psm.psmRat = 120 ∧
      Keeps [] {} 120 requests.psm ∧ requests.last = some (120, -11) ∧ ¬ requests.Justifies 120 :=
  ⟨_, .cons rfl (.cons rfl (.nil _)), by decide, by decide, by decide, by decide⟩

/-- The number of binary digits. -/
def binary (digits : Text) : ℕ := digits.foldl (fun value digit => value * 2 + if digit = '1' then 1 else 0) 0

private theorem emod_two_pow_succ (value : Int) (bits : ℕ) :
    value % 2 ^ (bits + 1) = value / 2 ^ bits % 2 * 2 ^ bits + value % 2 ^ bits := by
  have positive : (0 : Int) < 2 ^ bits := Int.pow_pos (by decide)
  have low := Int.emod_nonneg value positive.ne'
  have high := Int.emod_lt_of_pos value positive
  have bit : value / 2 ^ bits % 2 = 0 ∨ value / 2 ^ bits % 2 = 1 := by omega
  have split : value = value / 2 ^ bits % 2 * 2 ^ bits + value % 2 ^ bits + 2 ^ (bits + 1) * (value / 2 ^ bits / 2) := by
    have whole := Int.emod_add_mul_ediv value (2 ^ bits)
    have half := Int.emod_add_mul_ediv (value / 2 ^ bits) 2
    rw [Int.pow_succ]
    linear_combination -whole - 2 ^ bits * half
  conv_lhs => rw [split]
  rw [Int.add_mul_emod_self_left, Int.emod_eq_of_lt]
  · rcases bit with zero | one
    · rw [zero]
      omega
    · rw [one]
      omega
  · rw [Int.pow_succ]
    rcases bit with zero | one
    · rw [zero]
      omega
    · rw [one]
      omega

/-- Without separators, the digits are those of the lowest bits. -/
private theorem foldl_printBinGroups {groups bits : ℕ} {value : Int} {behind : Bool}
    (plain : bits < groups ∨ bits ≤ groups ∧ behind = false) (start : ℕ) :
    (printBinGroups groups value bits behind).foldl (fun value digit => value * 2 + if digit = '1' then 1 else 0) start =
      start * 2 ^ bits + (value % 2 ^ bits).toNat := by
  induction bits generalizing behind start with
  | zero => simp [printBinGroups]
  | succ bits ih =>
    have noSeparator : ¬ (behind = true ∧ (bits + 1) % groups = 0) := by
      rintro ⟨isBehind, border⟩
      rcases plain with small | ⟨-, notBehind⟩
      · rw [Nat.mod_eq_of_lt small] at border
        contradiction
      · simp [notBehind] at isBehind
    have positive : (0 : Int) < 2 ^ bits := Int.pow_pos (by decide)
    have low := Int.emod_nonneg value positive.ne'
    have bit : value / 2 ^ bits % 2 = 0 ∨ value / 2 ^ bits % 2 = 1 := by omega
    simp only [printBinGroups, if_neg noSeparator, List.foldl_cons]
    rw [ih (.inl (by omega)), emod_two_pow_succ, Nat.pow_succ]
    rcases bit with zero | one
    · rw [zero]
      simp
      ring
    · have power : (2 ^ bits + value % 2 ^ bits).toNat = 2 ^ bits + (value % 2 ^ bits).toNat := by
        rw [Int.toNat_add positive.le low]
        congr 1
      rw [one, Int.one_mul, power]
      simp
      ring

private theorem binary_printBin (bits : ℕ) (value : Int) : binary (printBin bits value) = (value % 2 ^ bits).toNat := by
  have folded := @foldl_printBinGroups bits bits value false (.inr ⟨le_rfl, rfl⟩) 0
  rwa [Nat.zero_mul, Nat.zero_add] at folded

/-- The units of the active time, in seconds. -/
def activeUnits : List (Text × ℕ) := [("000".toList, 2), ("001".toList, 60), ("010".toList, 360)]

/-- The units of the extended tracking area update time, in seconds. -/
def tauUnits : List (Text × ℕ) :=
  [("011".toList, 2), ("100".toList, 30), ("101".toList, 60), ("000".toList, 600), ("001".toList, 3600),
    ("010".toList, 36000), ("110".toList, 1152000)]

/-- The times that have a timer. -/
def representable (units : List (Text × ℕ)) : Set ℕ := Counted 31 (units.map Prod.snd)

/-- The time that a timer stands for. -/
def decodeTimer (units : List (Text × ℕ)) (timer : Text) : Option ℕ :=
  (units.lookup (timer.take 3)).map fun unit => binary (timer.drop 3) * unit

/-- A timer stands for the largest time of all, which is less than the requested one. -/
def Saturates (units : List (Text × ℕ)) (time value : ℕ) : Prop :=
  (∀ other ∈ representable units, other < time) ∧ IsGreatest (representable units) value

/-- A timer stands for the smallest time that is not below the requested one, or is saturated. -/
def RoundsUp (units : List (Text × ℕ)) (time : ℕ) (timer : Text) : Prop :=
  ∃ value, decodeTimer units timer = some value ∧
    (IsLeast { other ∈ representable units | time ≤ other } value ∨ Saturates units time value)

/-- A timer stands for at most the requested time, by less than its unit, or is saturated. -/
def RoundsDown (units : List (Text × ℕ)) (time : ℕ) (timer : Text) : Prop :=
  ∃ value unit, decodeTimer units timer = some value ∧ units.lookup (timer.take 3) = some unit ∧
    (value ≤ time ∧ time < value + unit ∨ Saturates units time value)

/-- The digits of the steps stand for their units. -/
def Matches (units : List (Text × ℕ)) : ℕ → List UnitStep → Prop
  | _, [] => True
  | unit, step :: coarser =>
      step.digits.length = 3 ∧ 0 < step.divisor ∧ units.lookup step.digits = some (unit * step.divisor) ∧
        Matches units (unit * step.divisor) coarser

section Timers

variable {units : List (Text × ℕ)} {unit time : ℕ} {step : UnitStep} {coarser : List UnitStep}

private theorem decodeTimer_eq {digits : Text} (count : Int) (length : digits.length = 3) :
    decodeTimer units (digits ++ printBin 5 count) =
      (units.lookup digits).map fun unit => (count % 32).toNat * unit := by
  rw [decodeTimer, ← length, List.take_left, List.drop_left, binary_printBin]
  rfl

private theorem roundUpTime_natural {divisor : ℕ} (positive : 0 < divisor) (fits : time + divisor ≤ 2147483648) :
    roundUpTime time divisor = some ((time ⌈/⌉ divisor : ℕ) : Int) := by
  have signed : Signed 32 ((time : Int) + (divisor - 1)) := signed_32.mpr (by omega)
  have sum : (time : Int) + (divisor - 1) = ((time + divisor - 1 : ℕ) : Int) := by omega
  rw [roundUpTime, checked_of_signed signed, sum, Option.map_some, Int.tdiv_eq_ediv_of_nonneg (Int.natCast_nonneg _)]
  rfl

/-- A time that fits is rounded up in one of the units. -/
private theorem timer_roundUp (chain : Matches units unit (step :: coarser)) (positive : 0 < unit)
    (fits : time ⌈/⌉ unit + step.divisor ≤ 2147483648)
    (later : ∀ other ∈ coarser, time ⌈/⌉ (unit * step.divisor) + other.divisor ≤ 2147483648) :
    ∃ text, timer roundUpTime (step :: coarser) (time ⌈/⌉ unit : ℕ) = some text ∧
      decodeTimer units text = some ((countUp 31 time (unit * step.divisor) (coarser.map UnitStep.divisor)).1 % 32 *
        (countUp 31 time (unit * step.divisor) (coarser.map UnitStep.divisor)).2) := by
  induction coarser generalizing unit step with
  | nil =>
    obtain ⟨length, divides, known, -⟩ := chain
    refine ⟨step.digits ++ printBin 5 (time ⌈/⌉ (unit * step.divisor) : ℕ), ?_, ?_⟩
    · rw [timer, countUnits, roundUpTime_natural divides fits,
        ceilDiv_ceilDiv time positive divides]
      simp
    · rw [decodeTimer_eq _ length, known]
      simp only [List.map_nil, countUp, Option.map_some, Option.some.injEq]
      congr 1
  | cons next coarser ih =>
    obtain ⟨length, divides, known, rest⟩ := chain
    have rounded : roundUpTime (time ⌈/⌉ unit : ℕ) step.divisor = some ((time ⌈/⌉ (unit * step.divisor) : ℕ) : Int) := by
      rw [roundUpTime_natural divides fits, ceilDiv_ceilDiv time positive divides]
    have whole : 0 < unit * step.divisor := Nat.mul_pos positive divides
    have smaller : time ⌈/⌉ (unit * step.divisor * next.divisor) ≤ time ⌈/⌉ (unit * step.divisor) := by
      rw [← ceilDiv_ceilDiv time whole rest.2.1]
      exact (ceilDiv_le_iff_le_mul rest.2.1).mpr (Nat.le_mul_of_pos_left _ rest.2.1)
    rw [List.map_cons, countUp]
    by_cases more : 31 < time ⌈/⌉ (unit * step.divisor)
    · obtain ⟨text, coded, decoded⟩ := ih rest whole (later next List.mem_cons_self) fun other found =>
        (Nat.add_le_add_right smaller _).trans (later other (List.mem_cons_of_mem _ found))
      refine ⟨text, ?_, ?_⟩
      · rw [timer, countUnits, rounded, Option.bind_some, if_pos ⟨by exact_mod_cast more, List.cons_ne_nil _ _⟩]
        exact coded
      · rw [if_pos more]
        exact decoded
    · refine ⟨step.digits ++ printBin 5 (time ⌈/⌉ (unit * step.divisor) : ℕ), ?_, ?_⟩
      · rw [timer, countUnits, rounded, Option.bind_some, if_neg (by rintro ⟨above, -⟩; exact more (by exact_mod_cast above))]
        rfl
      · rw [if_neg more, decodeTimer_eq _ length, known]
        simp only [Option.map_some, Option.some.injEq]
        congr 1

/-- A negative time is rounded to a count of the first unit. -/
private theorem timer_negative {digits : Text} (length : digits.length = 3) (known : units.lookup digits = some unit)
    {time : Int} (negative : time < 0) (least : -2147483648 ≤ time) :
    ∃ text count, timer roundUpTime (⟨2, digits⟩ :: coarser) time = some text ∧
      decodeTimer units text = some (count * unit) ∧ count < 32 := by
  have signed : Signed 32 (time + ((2 : ℕ) - 1)) := signed_32.mpr (by omega)
  have rounded : (time + ((2 : ℕ) - 1)).tdiv (2 : ℕ) ≤ 0 := by
    have positive := Int.tdiv_nonneg (a := -(time + ((2 : ℕ) - 1))) (b := (2 : ℕ)) (by omega) (by omega)
    rw [Int.neg_tdiv] at positive
    omega
  refine ⟨digits ++ printBin 5 ((time + ((2 : ℕ) - 1)).tdiv (2 : ℕ)),
    ((time + ((2 : ℕ) - 1)).tdiv (2 : ℕ) % 32).toNat, ?_, ?_, by omega⟩
  · rw [timer, countUnits, roundUpTime]
    simp only [checked_of_signed signed, Option.map_some, Option.bind_some]
    rw [if_neg (by omega)]
    rfl
  · rw [decodeTimer_eq _ length, known, Option.map_some]

end Timers

section RoundingUp

variable {units : List (Text × ℕ)} {first time value : ℕ} {factors : List ℕ} {text : Text}

/-- The units of a table are a chain. -/
structure Chain (units : List (Text × ℕ)) (first : ℕ) (factors : List ℕ) : Prop where
  units_eq : units.map Prod.snd = first :: unitsAbove first factors
  positive : 0 < first
  factors_positive : ∀ factor ∈ factors, 0 < factor

theorem Chain.last_pos (chain : Chain units first factors) : 0 < first * factors.prod :=
  Nat.mul_pos chain.positive (CanonicallyOrderedAdd.list_prod_pos.mpr chain.factors_positive)

theorem Chain.isGreatest (chain : Chain units first factors) :
    IsGreatest (representable units) (31 * (first * factors.prod)) := by
  rw [representable, chain.units_eq]
  exact counted_isGreatest chain.last_pos

/-- Less than the largest time does not stand for a time above it. -/
theorem Chain.not_roundsUp (chain : Chain units first factors) (decoded : decodeTimer units text = some value)
    (low : value < 31 * (first * factors.prod)) (far : 31 * (first * factors.prod) < time) : ¬ RoundsUp units time text := by
  rintro ⟨other, decoded', least | ⟨-, greatest⟩⟩
  · have above := least.1.2
    have below := chain.isGreatest.2 least.1.1
    exact absurd (above.trans below) (not_le.mpr far)
  · obtain rfl := Option.some_inj.mp (decoded.symm.trans decoded')
    exact low.ne (greatest.unique chain.isGreatest)

/-- A time is rounded up, or has a count in the largest unit whose five lowest digits are set. -/
theorem Chain.roundsUp_iff (chain : Chain units first factors) (decoded : decodeTimer units text =
      some ((countUp 31 time first factors).1 % 32 * (countUp 31 time first factors).2)) :
    RoundsUp units time text ↔
      time ≤ 31 * (first * factors.prod) ∨ time ⌈/⌉ (first * factors.prod) % 32 = 31 := by
  have fits_iff : (countUp 31 time first factors).1 ≤ 31 ↔ time ≤ 31 * (first * factors.prod) := by
    rw [countUp_le_iff chain.positive chain.factors_positive, Nat.mul_comm]
  by_cases fits : (countUp 31 time first factors).1 ≤ 31
  · refine iff_of_true ⟨_, decoded, .inl ?_⟩ (.inl (fits_iff.mp fits))
    rw [Nat.mod_eq_of_lt (by omega), representable, chain.units_eq]
    exact countUp_isLeast chain.positive chain.factors_positive fits
  · have far : 31 * (first * factors.prod) < time := not_le.mp fun small => fits (fits_iff.mpr small)
    rw [countUp_over chain.positive chain.factors_positive (not_le.mp fits)] at decoded
    rw [or_iff_right (not_le.mpr far)]
    constructor
    · intro rounds
      by_contra other
      have low : time ⌈/⌉ (first * factors.prod) % 32 < 31 := by omega
      exact chain.not_roundsUp decoded (Nat.mul_lt_mul_of_pos_right low chain.last_pos) far rounds
    · intro full
      rw [full] at decoded
      exact ⟨_, decoded, .inr ⟨fun other found => (chain.isGreatest.2 found).trans_lt far, chain.isGreatest⟩⟩

end RoundingUp

/-- A time is at most the largest one, or an `int` has it and its count in the largest unit has the five lowest digits
set. -/
def Fits (last time : ℕ) : Prop := time ≤ 31 * last ∨ time < 2147483647 ∧ time ⌈/⌉ last % 32 = 31

section Command

private theorem activeUnits_chain : Chain activeUnits 2 [30, 6] := ⟨rfl, by decide, by decide⟩

private theorem tauUnits_chain : Chain tauUnits 2 [15, 2, 10, 6, 10, 32] := ⟨rfl, by decide, by decide⟩

private theorem ratSteps_matches : Matches activeUnits 1 ratSteps := by
  simp only [Matches, ratSteps]
  decide

private theorem tauSteps_matches : Matches tauUnits 1 tauSteps := by
  simp only [Matches, tauSteps]
  decide

private theorem int32_of_lt {word : ℕ} (positive : word < 2147483648) : int32 word = word :=
  Int.bmod_eq_of_le_mul_two (by omega) (by omega)

private theorem int32_of_ge {word : ℕ} (negative : 2147483648 ≤ word) (bound : word < 4294967296) :
    int32 word = word - 4294967296 :=
  (Int.sub_bmod_right word 4294967296).symm.trans (Int.bmod_eq_of_le_mul_two (by omega) (by omega))

/-- The next value of an `int` is not there for the largest one. -/
private theorem timer_overflow {digits : Text} {coarser : List UnitStep} :
    timer roundUpTime (⟨2, digits⟩ :: coarser) 2147483647 = none := by
  rw [timer, countUnits, roundUpTime, show checked 32 (2147483647 + ((2 : ℕ) - 1)) = none by decide]
  rfl

variable {units : List (Text × ℕ)} {digits : Text} {coarser : List UnitStep}

/-- The timer of a time that is computed in an `int`. -/
private theorem timer_iff (chain : Chain units 2 (coarser.map UnitStep.divisor))
    (steps : Matches units 1 (⟨2, digits⟩ :: coarser))
    (small : ∀ step ∈ coarser, step.divisor ≤ 32) (large : 2 < 2 * (coarser.map UnitStep.divisor).prod)
    (bounded : 31 * (2 * (coarser.map UnitStep.divisor).prod) < 2147483647)
    {time : ℕ} {computed : Option Int} (exact' : time < 2147483648 → computed = some (time : Int))
    (wrapped : ∀ value, computed = some value → 2147483648 ≤ time → -2147483648 ≤ value ∧ value < 0) :
    (∃ text, computed.bind (timer roundUpTime (⟨2, digits⟩ :: coarser)) = some text ∧ RoundsUp units time text) ↔
      Fits (2 * (coarser.map UnitStep.divisor).prod) time := by
  rcases Nat.lt_trichotomy time 2147483647 with inside | last | outside
  · have fits : time ⌈/⌉ 1 + 2 ≤ 2147483648 := by
      rw [ceilDiv_one]
      omega
    have later : ∀ other ∈ coarser, time ⌈/⌉ (1 * 2) + other.divisor ≤ 2147483648 := by
      intro other found
      have half : time ⌈/⌉ (1 * 2) ≤ 1073741824 := (ceilDiv_le_iff_le_mul (by decide)).mpr (by omega)
      have few := small other found
      omega
    obtain ⟨text, coded, decoded⟩ := timer_roundUp steps (by decide) fits later
    rw [ceilDiv_one] at coded
    rw [exact' (by omega), Option.bind_some, Fits, and_iff_right inside]
    simp only [coded, Option.some.injEq, exists_eq_left']
    exact chain.roundsUp_iff decoded
  · rw [exact' (by omega), last, Option.bind_some]
    simp only [Nat.cast_ofNat, timer_overflow, reduceCtorEq, false_and, exists_false, Fits, false_iff, lt_irrefl, or_false,
      not_le]
    exact bounded
  · have far : ¬ Fits (2 * (coarser.map UnitStep.divisor).prod) time := by
      rintro (below | ⟨below, -⟩)
      · omega
      · omega
    refine iff_of_false ?_ far
    rintro ⟨text, coded, rounds⟩
    obtain ⟨value, got, coded⟩ := Option.bind_eq_some_iff.mp coded
    obtain ⟨least, negative⟩ := wrapped value got (by omega)
    obtain ⟨length, -, known, -⟩ := steps
    obtain ⟨text', count, coded', decoded, few⟩ := @timer_negative _ _ coarser _ length known _ negative least
    obtain rfl := Option.some_inj.mp (coded.symm.trans coded')
    refine chain.not_roundsUp decoded ?_ (by omega) rounds
    dsimp only
    omega

private theorem ratTimer_iff {time : ℕ} (word : time < 4294967296) :
    (∃ rat, ratTimer time = some rat ∧ RoundsUp activeUnits time rat) ↔ Fits 360 time := by
  have computed : ratTimer time = (some (int32 time)).bind (timer roundUpTime ratSteps) := by
    rw [Option.bind_some, ratTimer]
  rw [computed]
  refine timer_iff activeUnits_chain ratSteps_matches (by decide) (by decide) (by decide)
    (fun small => congrArg some (int32_of_lt small)) fun value same large => ?_
  have wrapped := int32_of_ge large word
  have value_eq : int32 time = value := Option.some.inj same
  omega

private theorem unitSeconds_pos (tauUnit : Char) : 0 < unitSeconds tauUnit := by
  unfold unitSeconds
  split <;> decide

private theorem tauTimer_iff {time : ℕ} {tauUnit : Char} (word : time < 4294967296) :
    (∃ tau, tauTimer time tauUnit = some tau ∧ RoundsUp tauUnits (time * unitSeconds tauUnit) tau) ↔
      Fits 1152000 (time * unitSeconds tauUnit) := by
  have positive := unitSeconds_pos tauUnit
  have larger : time ≤ time * unitSeconds tauUnit := Nat.le_mul_of_pos_right _ positive
  refine @timer_iff _ _ _ tauUnits_chain tauSteps_matches (by decide) (by decide) (by decide) _
    (checked 32 (int32 time * unitSeconds tauUnit)) (fun small => ?_) fun value product large => ?_
  · have same : int32 time * unitSeconds tauUnit = (time * unitSeconds tauUnit : ℕ) := by
      rw [int32_of_lt (by omega), Nat.cast_mul]
    rw [same]
    exact checked_of_signed (signed_32.mpr (by omega))
  · obtain ⟨signed, rfl⟩ := checked_eq_some_iff.mp product
    obtain ⟨least, most⟩ := signed_32.mp signed
    refine ⟨least, ?_⟩
    rcases Nat.lt_or_ge time 2147483648 with small | negative
    · have same : int32 time * unitSeconds tauUnit = (time * unitSeconds tauUnit : ℕ) := by
        rw [int32_of_lt small, Nat.cast_mul]
      omega
    · rw [int32_of_ge negative word]
      exact Int.mul_neg_of_neg_of_pos (by omega) (by omega)

private theorem scanUnsigned_lt {text rest : Text} {number : ℕ} (scan : scanUnsigned text = some (number, rest)) :
    number < 4294967296 := by
  obtain ⟨⟨value, rest'⟩, -, same⟩ := Option.map_eq_some_iff.mp scan
  obtain ⟨rfl, -⟩ := Prod.mk.inj same
  simp only [strtoul]
  split <;> omega

/-- The numbers of a parameter have 32 bits. -/
private theorem parsePsm_times {config : Text} {active tau : ℕ} {tauUnit : Char}
    (parsed : parsePsm config = .times active tau tauUnit) : active < 4294967296 ∧ tau < 4294967296 := by
  simp only [parsePsm] at parsed
  split_ifs at parsed
  cases first : scanUnsigned config with
  | none => simp [first] at parsed
  | some scan =>
    cases second : scanUnsigned scan.2 with
    | none => simp [first, second] at parsed
    | some scan' =>
      simp only [first, second, PsmCommand.times.injEq] at parsed
      exact ⟨parsed.1 ▸ scanUnsigned_lt first, parsed.2.1 ▸ scanUnsigned_lt second⟩

end Command

/-- `modem_cmd_psm` requests timers that stand for the times. -/
def RequestsTimes (setup : Setup) (config : Text) (psm : Psm) (active tau : ℕ) (tauUnit : Char) : Prop :=
  ∃ outcome rat timer, modemCmdPsm setup config psm = some outcome ∧ outcome.psm.param = some (timer, rat) ∧
    RoundsUp activeUnits active rat ∧ RoundsUp tauUnits (tau * unitSeconds tauUnit) timer

/-- `modem_set_psm` requests a timer that stands for the active time. -/
def RequestsActiveTime (rptau : Text) (answer : Answer) (activeTimeS : Int16) (psm : Psm) : Prop :=
  ∃ rat, (modemSetPsm rptau answer activeTimeS psm).psm.param = some (rptau, rat) ∧
    RoundsDown activeUnits activeTimeS.toInt.toNat rat

private theorem requestsTimes_iff {setup : Setup} {config : Text} {psm : Psm} {active tau : ℕ} {tauUnit : Char}
    (parsed : parsePsm config = .times active tau tauUnit) :
    RequestsTimes setup config psm active tau tauUnit ↔ Fits 360 active ∧ Fits 1152000 (tau * unitSeconds tauUnit) := by
  obtain ⟨activeWord, tauWord⟩ := parsePsm_times parsed
  rw [← ratTimer_iff activeWord, ← tauTimer_iff tauWord]
  simp only [RequestsTimes, modemCmdPsm, parsed, Option.bind_eq_bind, Option.bind_eq_some_iff, Option.some.injEq]
  constructor
  · rintro ⟨outcome, rat, timer, ⟨rat', first, timer', second, rfl⟩, param, activeTime, tauTime⟩
    have same : (modemAtPsmReq setup.answer true { modemLockPsm true psm with param := some (timer', rat') }).psm.param =
        some (timer', rat') := by
      unfold modemAtPsmReq
      split <;> rfl
    rw [same, Option.some_inj, Prod.mk.injEq] at param
    obtain ⟨rfl, rfl⟩ := param
    exact ⟨⟨_, first, activeTime⟩, _, second, tauTime⟩
  · rintro ⟨⟨rat, first, activeTime⟩, timer, second, tauTime⟩
    refine ⟨_, rat, timer, ⟨rat, first, timer, second, rfl⟩, ?_, activeTime, tauTime⟩
    unfold modemAtPsmReq
    split <;> rfl

/-- The timer of a time that is rounded down. -/
private theorem timer_roundDown (time : ℕ) :
    ∃ text unit, timer roundDownTime ratSteps time = some text ∧ activeUnits.lookup (text.take 3) = some unit ∧
      decodeTimer activeUnits text = some (time / unit % 32 * unit) ∧
      (time < 64 ∧ unit = 2 ∨ 64 ≤ time ∧ time < 1920 ∧ unit = 60 ∨ 1920 ≤ time ∧ unit = 360) := by
  have first : (time : Int).tdiv (2 : ℕ) = (time / 2 : ℕ) := rfl
  have second : ((time / 2 : ℕ) : Int).tdiv (30 : ℕ) = (time / 60 : ℕ) := by
    rw [show time / 60 = time / 2 / 30 by omega]
    rfl
  have third : ((time / 60 : ℕ) : Int).tdiv (6 : ℕ) = (time / 360 : ℕ) := by
    rw [show time / 360 = time / 60 / 6 by omega]
    rfl
  simp only [timer, ratSteps, countUnits, roundDownTime, Option.bind_some, first, second, third]
  have decoded (digits : Text) (unit : ℕ) (length : digits.length = 3) (known : activeUnits.lookup digits = some unit) :
      decodeTimer activeUnits (digits ++ printBin 5 (time / unit : ℕ)) = some (time / unit % 32 * unit) := by
    rw [decodeTimer_eq _ length, known]
    rfl
  by_cases seconds : time < 64
  · rw [if_neg (by omega)]
    exact ⟨_, 2, rfl, rfl, decoded _ 2 rfl rfl, .inl ⟨seconds, rfl⟩⟩
  rw [if_pos ⟨by omega, by simp⟩]
  by_cases minutes : time < 1920
  · rw [if_neg (by omega)]
    exact ⟨_, 60, rfl, rfl, decoded _ 60 rfl rfl, .inr (.inl ⟨by omega, minutes, rfl⟩)⟩
  · rw [if_pos ⟨by omega, by simp⟩, if_neg (by simp)]
    exact ⟨_, 360, rfl, rfl, decoded _ 360 rfl rfl, .inr (.inr ⟨by omega, rfl⟩)⟩

private theorem requestsActiveTime_iff {rptau : Text} {answer : Answer} {activeTimeS : Int16} {psm : Psm}
    (counted : 0 ≤ activeTimeS.toInt) (asks : Asks psm activeTimeS) :
    RequestsActiveTime rptau answer activeTimeS psm ↔
      activeTimeS.toInt < 11520 ∨ activeTimeS.toInt / 360 % 32 = 31 := by
  obtain ⟨time, same⟩ := Int.eq_ofNat_of_zero_le counted
  obtain ⟨text, unit, coded, known, decoded, cases⟩ := timer_roundDown time
  have param : (modemSetPsm rptau answer activeTimeS psm).psm.param = some (rptau, text) := by
    have active : activeTime activeTimeS = time := by
      rw [activeTime, if_neg (by omega), same]
    have differs : psm.psmRat ≠ time := active ▸ asks.2
    simp only [modemSetPsm, active, if_pos asks.1, if_neg (not_lt.mpr asks.1), if_neg differs, coded, modemAtPsmReq]
    rw [if_neg (by omega)]
    split <;> rfl
  rw [RequestsActiveTime, param, same]
  simp only [Option.some.injEq, Prod.mk.injEq, true_and, exists_eq_left', Int.toNat_natCast]
  have greatest := activeUnits_chain.isGreatest
  constructor
  · rintro ⟨value, unit', decoded', known', rounded⟩
    obtain rfl := Option.some_inj.mp (decoded.symm.trans decoded')
    obtain rfl := Option.some_inj.mp (known.symm.trans known')
    rcases rounded with ⟨-, above⟩ | ⟨-, largest⟩
    · left
      rcases cases with ⟨_, rfl⟩ | ⟨_, _, rfl⟩ | ⟨_, rfl⟩ <;> omega
    · have most : time / unit % 32 * unit = 11160 := largest.unique greatest
      rcases cases with ⟨_, rfl⟩ | ⟨_, _, rfl⟩ | ⟨_, rfl⟩ <;> omega
  · intro holds
    refine ⟨_, unit, decoded, known, ?_⟩
    by_cases inside : time < 11520
    · left
      rcases cases with ⟨_, rfl⟩ | ⟨_, _, rfl⟩ | ⟨_, rfl⟩ <;> omega
    · right
      obtain ⟨_, rfl⟩ : 1920 ≤ time ∧ unit = 360 := by omega
      have full : time / 360 % 32 * 360 = 31 * (2 * [30, 6].prod) := by
        simp only [List.prod_cons, List.prod_nil]
        omega
      rw [full]
      exact ⟨fun other found => (greatest.2 found).trans_lt (by simp only [List.prod_cons, List.prod_nil]; omega), greatest⟩

/-- For all times that `modem_cmd_psm` accepts, its timers stand for them exactly if both fit; for all active times
that `modem_set_psm` requests, its timer does exactly if the time is less than 32 of the largest unit, or the count has
its five lowest digits set. -/
theorem timers_iff (setup : Setup) (config : Text) (psm : Psm) (active tau : ℕ) (tauUnit : Char) (rptau : Text)
    (answer : Answer) (activeTimeS : Int16) :
    (parsePsm config = .times active tau tauUnit → (RequestsTimes setup config psm active tau tauUnit ↔
      Fits 360 active ∧ Fits 1152000 (tau * unitSeconds tauUnit))) ∧
    (0 ≤ activeTimeS.toInt → Asks psm activeTimeS → (RequestsActiveTime rptau answer activeTimeS psm ↔
      activeTimeS.toInt < 11520 ∨ activeTimeS.toInt / 360 % 32 = 31)) :=
  ⟨fun parsed => requestsTimes_iff parsed, fun counted asks => requestsActiveTime_iff counted asks⟩

/-- 100 s with 2 hours, and 120 s. -/
theorem timers_iff_sample :
    RequestsTimes {} "100 2h".toList {} 100 2 'h' ∧ RequestsActiveTime [] {} 120 {} := by
  obtain ⟨times, activeTime⟩ := timers_iff {} "100 2h".toList {} 100 2 'h' [] {} 120
  exact ⟨(times (by decide)).mpr ⟨.inl (by decide), .inl (by decide)⟩,
    (activeTime (by decide) ⟨by decide, by decide⟩).mpr (.inl (by decide))⟩

/-- 414 days are requested as 0 s, and 12000 s as 360 s. -/
theorem not_timers_wrapped :
    (modemCmdPsm {} "8 414d".toList {}).bind (·.psm.param) = some ("11000000".toList, "00000100".toList) ∧
      decodeTimer tauUnits "11000000".toList = some 0 ∧ ¬ RequestsTimes {} "8 414d".toList {} 8 414 'd' ∧
    (modemSetPsm [] {} 12000 {}).psm.param = some ([], "01000001".toList) ∧
      decodeTimer activeUnits "01000001".toList = some 360 ∧ ¬ RequestsActiveTime [] {} 12000 {} := by
  refine ⟨by decide +kernel, by decide, fun requests => ?_, by decide, by decide, fun requests => ?_⟩
  · rcases ((requestsTimes_iff (by decide)).mp requests).2 with small | ⟨-, full⟩
    · exact absurd small (by decide)
    · exact absurd full (by decide)
  · have fits := (requestsActiveTime_iff (by decide) ⟨by decide, by decide⟩).mp requests
    revert fits
    decide

end CoapsClient.ModemPsm
