import CoapsClient.Model.Dtls.RetryAndFailures
import Mathlib.Data.List.Infix
import Mathlib.Data.List.Range

/-! # The escalation of failures

A failure is counted when the one before it has been handled, and handled when one is counted. Until the next success the
handled failures are therefore numbered, and each has its strategy. The counters are of 32 bits, so this holds until they
have counted as many failures.
-/

namespace CoapsClient.DtlsFailures

inductive Call where
  /-- `dtls_coap_inc_failures`. -/
  | inc
  /-- `dtls_coap_next_failures`. -/
  | next
  /-- `dtls_coap_clear_failures`. -/
  | clear
deriving DecidableEq, Repr

/-- The counters, and the results of `dtls_coap_next_failures` since the last clear that are not negative. -/
structure Run where
  failures : Failures := {}
  results : List ℤ := []
deriving DecidableEq, Repr

def Run.step (run : Run) : Call → Run
  | .inc => { run with failures := (dtlsCoapIncFailures run.failures).2 }
  | .next =>
      let (result, failures) := dtlsCoapNextFailures run.failures
      { failures, results := if 0 ≤ result then run.results ++ [result] else run.results }
  | .clear => { failures := dtlsCoapClearFailures run.failures, results := [] }

/-- Any calls from the start of the client. -/
def runAll (calls : List Call) : Run := calls.foldl Run.step {}

/-- 1, 2, 3, .. -/
def numbers (count : ℕ) : List ℤ := (List.range count).map fun index : ℕ => (index : ℤ) + 1

/-- The strategies in front of the restart. -/
def recovery : Bool → List ℕ
  | true => [0, retryStrategyOff, retryStrategyDtlsHandshake]
  | false => [0, retryStrategyOff]

/-- At most one failure is not handled, and the handled ones are numbered, so the strategies up to the restart are taken in
their order. -/
structure Escalates (run : Run) : Prop where
  behind : run.failures.handled.toNat ≤ run.failures.current.toNat
  atMostOne : run.failures.current.toNat ≤ run.failures.handled.toNat + 1
  numbered : run.results = numbers run.results.length
  inOrder : ∀ dtls, (strategies dtls run.results).takeWhile (· ≠ retryStrategyRestarts) =
    (recovery dtls).take run.results.length

/-- The failures since the last clear that are counted behind a handled one, and whether the last one waits. -/
structure Rounds where
  count : ℕ := 0
  waits : Bool := false
deriving DecidableEq, Repr

def Rounds.step (rounds : Rounds) : Call → Rounds
  | .inc => if rounds.waits then rounds else { count := rounds.count + 1, waits := true }
  | .next => { rounds with waits := false }
  | .clear => {}

def roundsOf (calls : List Call) : Rounds := calls.foldl Rounds.step {}

/-- The counters have room for the failures between two clears. -/
def Fits (calls : List Call) : Prop := ∀ front ∈ calls.inits, (roundsOf front).count < 4294967296

/-- The failures that have been handled. -/
def Rounds.handled (rounds : Rounds) : ℕ := if rounds.waits then rounds.count - 1 else rounds.count

/-- The counters and the results are those of the rounds; a number without room in an `int` is negative. -/
structure Counts (rounds : Rounds) (run : Run) : Prop where
  positive : rounds.waits = true → 0 < rounds.count
  current : run.failures.current.toNat = rounds.count
  handled : run.failures.handled.toNat = rounds.handled
  results : run.results = numbers (min rounds.handled 2147483647)

section Counting

variable {rounds : Rounds} {run : Run}

private theorem numbers_succ (count : ℕ) : numbers (count + 1) = numbers count ++ [(count : ℤ) + 1] := by
  rw [numbers, List.range_succ, List.map_append]
  rfl

private theorem toInt_of_lt {value : UInt32} (small : value.toNat < 2147483648) : toInt value = value.toNat := if_pos small

private theorem toInt_neg {value : UInt32} (large : 2147483648 ≤ value.toNat) : toInt value < 0 := by
  have bound := value.toNat_lt
  rw [toInt, if_neg (by omega)]
  omega

private theorem counts_initial : Counts {} {} := ⟨nofun, rfl, rfl, rfl⟩

private theorem counts_equal (counts : Counts rounds run) :
    run.failures.current = run.failures.handled ↔ rounds.waits = false := by
  rw [← UInt32.toNat_inj, counts.current, counts.handled, Rounds.handled]
  cases waits : rounds.waits with
  | false => simp
  | true =>
    have positive := counts.positive waits
    simp
    omega

private theorem counts_inc (counts : Counts rounds run) (fits : (rounds.step .inc).count < 4294967296) :
    Counts (rounds.step .inc) (run.step .inc) := by
  have equal := counts_equal counts
  obtain ⟨count, waits⟩ := rounds
  cases waits with
  | true =>
    have other : ¬ run.failures.current = run.failures.handled := fun same => by simpa using equal.mp same
    have same : run.step .inc = run := by
      simp only [Run.step, dtlsCoapIncFailures, if_neg other]
    rw [same]
    exact counts
  | false =>
    have current : run.failures.current.toNat = count := counts.current
    have next : (run.step .inc).failures = { run.failures with current := run.failures.current + 1 } := by
      simp only [Run.step, dtlsCoapIncFailures, if_pos (equal.mpr rfl)]
    have room : count + 1 < 4294967296 := fits
    refine ⟨fun _ => Nat.succ_pos count, ?_, ?_, counts.results⟩
    · rw [next, UInt32.toNat_add, current]
      exact Nat.mod_eq_of_lt room
    · rw [next]
      exact counts.handled

private theorem counts_next (counts : Counts rounds run) : Counts (rounds.step .next) (run.step .next) := by
  have equal := counts_equal counts
  obtain ⟨count, waits⟩ := rounds
  cases waits with
  | false =>
    have same : run.step .next = run := by
      simp [Run.step, dtlsCoapNextFailures, equal.mpr rfl]
    rw [same]
    exact counts
  | true =>
    have other : ¬ run.failures.current = run.failures.handled := fun same => by simpa using equal.mp same
    have current : run.failures.current.toNat = count := counts.current
    have positive : 0 < count := counts.positive rfl
    have next : (run.step .next).failures = { run.failures with handled := run.failures.current } := by
      simp only [Run.step, dtlsCoapNextFailures, if_neg other]
    have results : (run.step .next).results =
        if 0 ≤ toInt run.failures.current then run.results ++ [toInt run.failures.current] else run.results := by
      simp only [Run.step, dtlsCoapNextFailures, if_neg other]
    refine ⟨nofun, ?_, ?_, ?_⟩
    · rw [next]
      exact current
    · rw [next]
      exact current
    · have before : run.results = numbers (min (count - 1) 2147483647) := counts.results
      have handled : (Rounds.step ⟨count, true⟩ .next).handled = count := rfl
      rw [results, before, handled]
      by_cases small : count < 2147483648
      · obtain ⟨last, rfl⟩ := Nat.exists_eq_add_one.mpr positive
        rw [toInt_of_lt (by omega), current, if_pos (Int.natCast_nonneg _), Nat.min_eq_left (by omega),
          Nat.min_eq_left (by omega), Nat.add_sub_cancel, numbers_succ]
        rfl
      · rw [if_neg (Int.not_le.mpr (toInt_neg (by omega))), Nat.min_eq_right (by omega), Nat.min_eq_right (by omega)]

private theorem counts_run {calls : List Call} (counts : Counts rounds run)
    (fits : ∀ front ∈ calls.inits, (front.foldl Rounds.step rounds).count < 4294967296) :
    Counts (calls.foldl Rounds.step rounds) (calls.foldl Run.step run) := by
  induction calls generalizing rounds run with
  | nil => exact counts
  | cons call calls ih =>
    have later : ∀ front ∈ calls.inits, (front.foldl Rounds.step (rounds.step call)).count < 4294967296 := by
      intro front member
      refine fits (call :: front) ?_
      rw [List.mem_inits] at member ⊢
      exact List.prefix_cons_inj call |>.mpr member
    refine ih ?_ later
    cases call with
    | inc => exact counts_inc counts (later [] (by simp))
    | next => exact counts_next counts
    | clear => exact counts_initial

/-- The numbers are positive, and each has its strategy. -/
private theorem strategies_numbers (dtls : Bool) (count : ℕ) :
    strategies dtls (numbers count) =
      (List.range count).map fun index : ℕ => coapApplClientRetryStrategy (index + 1) dtls := by
  have positive : (numbers count).filter (0 < ·) = numbers count := by
    rw [List.filter_eq_self]
    intro number member
    obtain ⟨index, -, rfl⟩ := List.mem_map.mp member
    exact decide_eq_true (by omega)
  rw [strategies, positive, numbers, List.map_map]
  rfl

/-- The strategies are those of a recovery up to a restart. -/
private theorem strategies_recovery (dtls : Bool) (count : ℕ) :
    (strategies dtls (numbers count)).takeWhile (· ≠ retryStrategyRestarts) = (recovery dtls).take count := by
  rw [strategies_numbers]
  match count with
  | 0 | 1 | 2 | 3 => cases dtls <;> rfl
  | count + 4 =>
    have all : (recovery dtls).take (count + 4) = recovery dtls :=
      List.take_of_length_le (by cases dtls <;> simp [recovery])
    rw [all, Nat.add_comm, List.range_add, List.map_append]
    cases dtls <;> rfl

private theorem escalates_of_counts (counts : Counts rounds run) : Escalates run := by
  have length : run.results.length = min rounds.handled 2147483647 := by simp [counts.results, numbers]
  have handled : rounds.handled ≤ rounds.count ∧ rounds.count ≤ rounds.handled + 1 := by
    rw [Rounds.handled]
    split <;> omega
  refine ⟨?_, ?_, ?_, fun dtls => ?_⟩
  · rw [counts.current, counts.handled]
    exact handled.1
  · rw [counts.current, counts.handled]
    exact handled.2
  · rw [length]
    exact counts.results
  · rw [length, counts.results, strategies_recovery]

end Counting

/-- In any calls that count fewer than 4294967296 failures between two clears, failures escalate step by step. -/
theorem failures_escalate (calls : List Call) (fits : Fits calls) : Escalates (runAll calls) :=
  escalates_of_counts (counts_run counts_initial fits)

/-- Two failures before the first one is handled, and one behind it. -/
theorem failures_escalate_two : Escalates (runAll [.inc, .inc, .next, .next, .inc, .next]) :=
  failures_escalate _ (by unfold Fits; decide)

/-- Failures that are counted and handled one by one. -/
def handledOneByOne (count : ℕ) : List Call := (List.replicate count [Call.inc, .next]).flatten

private theorem counts_oneByOne (count : ℕ) (fits : count < 4294967296) :
    Counts { count } (runAll (handledOneByOne count)) := by
  induction count with
  | zero => exact counts_initial
  | succ count ih =>
    have more : handledOneByOne (count + 1) = handledOneByOne count ++ [.inc, .next] := by
      rw [handledOneByOne, List.replicate_succ', List.flatten_append]
      rfl
    rw [more, runAll, List.foldl_append]
    exact counts_next (counts_inc (ih (by omega)) fits)

/-- The last number of 32 bits is followed by zero, which is a result. -/
private theorem counts_wrap {count : ℕ} {run : Run} (counts : Counts { count } run) (last : count + 1 = 4294967296) :
    ((run.step .inc).step .next).results = numbers (min count 2147483647) ++ [0] := by
  have current : run.failures.current.toNat = count := counts.current
  have handled : run.failures.handled.toNat = count := counts.handled
  have before : run.results = numbers (min count 2147483647) := counts.results
  have zero : run.failures.current + 1 = 0 := by
    rw [← UInt32.toNat_inj, UInt32.toNat_add, current]
    change (count + 1) % 4294967296 = 0
    rw [last]
  have inc : run.step .inc = { run with failures := { run.failures with current := 0 } } := by
    simp only [Run.step, dtlsCoapIncFailures, if_pos ((counts_equal counts).mpr rfl), zero]
  have other : ¬ (0 : UInt32) = run.failures.handled := by
    rw [← UInt32.toNat_inj, handled]
    exact fun same => by simp at same; omega
  rw [inc, ← before]
  simp only [Run.step, dtlsCoapNextFailures, if_neg other]
  rfl

/-- Zero is no number of a failure. -/
private theorem numbers_zero_ne (count : ℕ) : numbers count ++ [0] ≠ numbers (numbers count ++ [0]).length := by
  intro same
  have length : (numbers count ++ [0]).length = count + 1 := by simp [numbers]
  rw [length, numbers_succ] at same
  have last := List.head_eq_of_cons_eq (List.append_inj_right' same rfl)
  omega

/-- A counter of 32 bits begins again with zero, which is a result. -/
theorem failures_escalate_lost : ¬ ∀ calls, (runAll calls).results = numbers (runAll calls).results.length := by
  intro all
  obtain ⟨count, last⟩ : ∃ count, count + 1 = 4294967296 := ⟨4294967295, rfl⟩
  have counts := counts_oneByOne count (by omega)
  have numbered := all (handledOneByOne count ++ [.inc, .next])
  have results : (runAll (handledOneByOne count ++ [.inc, .next])).results = numbers (min count 2147483647) ++ [0] := by
    rw [runAll, List.foldl_append]
    exact counts_wrap counts last
  rw [results] at numbered
  exact numbers_zero_ne _ numbered

/-- The counters of a client, in 32 bits. -/
def countersOf (client : DtlsClient.Client) : Failures where
  current := UInt32.ofNat client.currentFailures
  handled := UInt32.ofNat client.handledFailures

section Client

variable {client : DtlsClient.Client}

private theorem countersOf_equal (current : client.currentFailures < 4294967296)
    (handled : client.handledFailures < 4294967296) :
    (countersOf client).current = (countersOf client).handled ↔ client.currentFailures = client.handledFailures := by
  rw [← UInt32.toNat_inj]
  simp [countersOf, Nat.mod_eq_of_lt current, Nat.mod_eq_of_lt handled]

/-- The client counts failures as long as there is room. -/
theorem countersOf_inc (current : client.currentFailures < 4294967296) (handled : client.handledFailures < 4294967296) :
    countersOf (DtlsClient.incFailures client) = (dtlsCoapIncFailures (countersOf client)).2 := by
  have equal := countersOf_equal current handled
  by_cases same : client.currentFailures = client.handledFailures
  · simp only [dtlsCoapIncFailures, DtlsClient.incFailures, if_pos same, if_pos (equal.mpr same)]
    simp [countersOf]
  · simp only [dtlsCoapIncFailures, DtlsClient.incFailures, if_neg same, if_neg (mt equal.mp same)]

theorem countersOf_next (current : client.currentFailures < 4294967296) (handled : client.handledFailures < 4294967296) :
    countersOf (DtlsClient.nextFailures client).1 = (dtlsCoapNextFailures (countersOf client)).2 := by
  have equal := countersOf_equal current handled
  by_cases same : client.currentFailures = client.handledFailures
  · simp only [dtlsCoapNextFailures, DtlsClient.nextFailures, if_pos same, if_pos (equal.mpr same)]
  · simp only [dtlsCoapNextFailures, DtlsClient.nextFailures, if_neg same, if_neg (mt equal.mp same)]
    rfl

theorem countersOf_clear : countersOf (DtlsClient.clearFailures client) = dtlsCoapClearFailures (countersOf client) := rfl

end Client

end CoapsClient.DtlsFailures
