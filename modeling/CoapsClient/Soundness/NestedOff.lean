import CoapsClient.Model.Modem.ModemAt

/-! # Switching off inside of switching off

While the modem is switched off more than once, a counter goes up and down, and the last restore brings the first mode
back. Any sequence of matching calls ends where it began. The restores that only count down return an error, though,
and `modem_at_system_mode_set` forgets that the modem was not switched off.
-/

namespace CoapsClient.ModemAt

open Parameters (einval)

inductive Call where
  /-- `modem_at_push_off`. -/
  | push
  /-- `modem_at_restore`. -/
  | restore
deriving DecidableEq, Repr

/-- Each push has its restore behind it. -/
inductive Nested : List Call → Prop
  | nil : Nested []
  | pair {inner rest : List Call} : Nested inner → Nested rest → Nested (.push :: (inner ++ .restore :: rest))

/-- A call, with a modem that answers each of its calls with success. -/
def perform (modem : Modem) : Call → Int × Modem
  | .push => modemAtPushOff {} modem
  | .restore => modemAtRestore {} modem

/-- What the calls return one after the other, and the modem behind them. -/
def performAll (modem : Modem) : List Call → List Int × Modem
  | [] => ([], modem)
  | call :: calls =>
      let (result, modem) := perform modem call
      let (results, modem) := performAll modem calls
      (result :: results, modem)

/-- No push is inside of another. -/
def Single (calls : List Call) : Prop := ¬ [Call.push, .push] <:+: calls

/-- The push has what it needs of the modem. -/
def Pushes (answers : PushAnswers) (modem : Modem) : Prop :=
  answers.lock = 0 ∧ answers.get = 0 ∧ if modem.previousMode = none
    then modem.mode = .powerOff ∨ answers.set.lock = 0 ∧ answers.set.set = 0 else modem.mode = .powerOff

instance (answers : PushAnswers) (modem : Modem) : Decidable (Pushes answers modem) := by
  unfold Pushes
  infer_instance

section Sequences

variable {initial : FuncMode} {modem : Modem} {calls inner rest : List Call} {depth : ℕ}

/-- The modem was switched off a number of times. -/
structure Off (initial : FuncMode) (depth : ℕ) (modem : Modem) : Prop where
  mode : modem.mode = if depth = 0 then initial else .powerOff
  pushsCounter : modem.pushsCounter = depth
  previousMode : modem.previousMode = if depth = 0 then none else some initial

private theorem push_off (off : Off initial depth modem) :
    (perform modem .push).1 = 0 ∧ Off initial (depth + 1) (perform modem .push).2 := by
  obtain ⟨mode, modemMode, counter, previous⟩ := modem
  obtain ⟨rfl, rfl, rfl⟩ := off
  cases depth with
  | zero =>
    by_cases already : initial = .powerOff
    · subst already
      exact ⟨rfl, rfl, rfl, rfl⟩
    · have run : perform ⟨initial, modemMode, 0, none⟩ .push = (0, ⟨.powerOff, some .powerOff, 1, some initial⟩) := by
        simp [perform, modemAtPushOff, modemAtSetFuncMode, lteLcFuncModeSet, already]
      exact run ▸ ⟨rfl, rfl, rfl, rfl⟩
  | succ depth => exact ⟨rfl, rfl, rfl, rfl⟩

/-- A restore that is not the last one returns an error, but counts down. -/
private theorem restore_off (off : Off initial (depth + 1) modem) :
    (perform modem .restore).1 = (if depth = 0 then 0 else einval) ∧ Off initial depth (perform modem .restore).2 := by
  obtain ⟨mode, modemMode, counter, previous⟩ := modem
  obtain ⟨rfl, rfl, rfl⟩ := off
  have positive : (0 : Int) < (depth + 1 : ℕ) := by omega
  have down : ((depth + 1 : ℕ) : Int) - 1 = depth := by omega
  simp only [Nat.succ_ne_zero, if_false, perform, modemAtRestore, ne_eq, not_true_eq_false, if_pos positive, down]
  cases depth with
  | zero =>
    rw [if_pos Int.natCast_zero]
    by_cases already : initial = .powerOff
    · subst already
      exact ⟨rfl, rfl, rfl, rfl⟩
    · rw [if_pos already]
      exact ⟨rfl, rfl, rfl, rfl⟩
  | succ depth =>
    rw [if_neg (by omega)]
    exact ⟨rfl, rfl, rfl, rfl⟩

private theorem performAll_append (modem : Modem) (first second : List Call) :
    performAll modem (first ++ second) =
      ((performAll modem first).1 ++ (performAll (performAll modem first).2 second).1,
        (performAll (performAll modem first).2 second).2) := by
  induction first generalizing modem with
  | nil => rfl
  | cons call first ih => simp only [List.cons_append, performAll, ih]

/-- Matching calls are none, or begin with a push. -/
theorem Nested.head (nested : Nested calls) : calls = [] ∨ ∃ more, calls = .push :: more := by
  cases nested with
  | nil => exact .inl rfl
  | pair => exact .inr ⟨_, rfl⟩

private theorem single_pair (nested : Nested inner) :
    Single (.push :: (inner ++ .restore :: rest)) ↔ inner = [] ∧ Single rest := by
  rcases nested.head with rfl | ⟨more, rfl⟩
  · simp [Single, List.infix_cons_iff]
  · simp [Single, List.infix_cons_iff]

/-- Matching calls end as deep as they began, and the restores of the pushes in them return zero only if there are none
inside of another push. -/
private theorem nested_off (nested : Nested calls) (off : Off initial depth modem) :
    Off initial depth (performAll modem calls).2 ∧
      ((∀ result ∈ (performAll modem calls).1, result = 0) ↔ if depth = 0 then Single calls else calls = []) := by
  induction nested generalizing depth modem with
  | nil =>
    refine ⟨off, iff_of_true (by simp [performAll]) ?_⟩
    split
    · simp [Single]
    · rfl
  | @pair inner rest nestedInner _ ihInner ihRest =>
    obtain ⟨pushed, offInner⟩ := push_off off
    obtain ⟨offBehind, innerResults⟩ := ihInner offInner
    obtain ⟨restored, offRest⟩ := restore_off offBehind
    obtain ⟨offEnd, restResults⟩ := ihRest offRest
    rw [if_neg (Nat.succ_ne_zero depth)] at innerResults
    have results : (∀ result ∈ (performAll modem (.push :: (inner ++ .restore :: rest))).1, result = 0) ↔
        inner = [] ∧ depth = 0 ∧ if depth = 0 then Single rest else rest = [] := by
      simp only [performAll, performAll_append, List.forall_mem_cons, List.forall_mem_append, pushed, true_and, restored,
        innerResults, restResults]
      by_cases outer : depth = 0
      · simp [outer]
      · simp [outer, einval]
    refine ⟨?_, results.trans ?_⟩
    · simpa only [performAll, performAll_append] using offEnd
    · by_cases outer : depth = 0
      · simp only [outer, if_true, true_and]
        exact (single_pair nestedInner).symm
      · simp [outer]

end Sequences

/-- What a failed switching off leaves. -/
private theorem setFuncMode_fails {answers : SetAnswers} {mode : FuncMode} {modem : Modem}
    (fails : ¬ (answers.lock = 0 ∧ answers.set = 0)) :
    (modemAtSetFuncMode answers mode modem).1 ≠ 0 ∧ (modemAtSetFuncMode answers mode modem).2.mode = modem.mode ∧
      (modemAtSetFuncMode answers mode modem).2.pushsCounter = modem.pushsCounter := by
  unfold modemAtSetFuncMode
  by_cases lock : answers.lock = 0
  · have set : answers.set ≠ 0 := fun zero => fails ⟨lock, zero⟩
    simp only [lock, ne_eq, not_true_eq_false, if_false, lteLcFuncModeSet, if_neg set]
    split <;> exact ⟨set, rfl, rfl⟩
  · rw [if_pos lock]
    exact ⟨lock, rfl, rfl⟩

private theorem setFuncMode_works {answers : SetAnswers} {mode : FuncMode} {modem : Modem}
    (works : answers.lock = 0 ∧ answers.set = 0) : (modemAtSetFuncMode answers mode modem).1 = 0 := by
  simp [modemAtSetFuncMode, works]

/-- A push that has what it needs returns zero. Any other fails, and leaves the mode and what is remembered of it. -/
private theorem push_spec (answers : PushAnswers) (modem : Modem) :
    if Pushes answers modem then (modemAtPushOff answers modem).1 = 0
    else (modemAtPushOff answers modem).1 ≠ 0 ∧ (modemAtPushOff answers modem).2.mode = modem.mode ∧
      (modemAtPushOff answers modem).2.previousMode = modem.previousMode ∧
      (modemAtPushOff answers modem).2.pushsCounter = modem.pushsCounter := by
  by_cases lock : answers.lock = 0
  case neg => simp [Pushes, modemAtPushOff, lock]
  by_cases get : answers.get = 0
  case neg => simp [Pushes, modemAtPushOff, lock, get]
  by_cases first : modem.previousMode = none
  case neg =>
    by_cases off : modem.mode = .powerOff
    · simp [Pushes, modemAtPushOff, lock, get, first, off]
    · simp [Pushes, modemAtPushOff, lock, get, first, off, ebusy]
  by_cases off : modem.mode = .powerOff
  · simp [Pushes, modemAtPushOff, lock, get, first, off]
  · by_cases works : answers.set.lock = 0 ∧ answers.set.set = 0
    · have set := @setFuncMode_works answers.set .powerOff
        { modem with previousMode := some modem.mode, pushsCounter := modem.pushsCounter + 1 } works
      simp [Pushes, modemAtPushOff, lock, get, first, off, works, set]
    · obtain ⟨error, mode, counter⟩ := @setFuncMode_fails answers.set .powerOff
        { modem with previousMode := some modem.mode, pushsCounter := modem.pushsCounter + 1 } works
      simp [Pushes, modemAtPushOff, lock, get, first, off, works, error, mode, counter]

private theorem push_eq_zero_iff {answers : PushAnswers} {modem : Modem} :
    (modemAtPushOff answers modem).1 = 0 ↔ Pushes answers modem := by
  have spec := push_spec answers modem
  split at spec
  · next pushes => exact iff_of_true spec pushes
  · next fails => exact iff_of_false spec.1 fails

/-- A push that fails leaves the mode, and what is remembered of it. -/
private theorem push_fails {answers : PushAnswers} {modem : Modem} (fails : (modemAtPushOff answers modem).1 ≠ 0) :
    (modemAtPushOff answers modem).2.mode = modem.mode ∧
      (modemAtPushOff answers modem).2.previousMode = modem.previousMode ∧
      (modemAtPushOff answers modem).2.pushsCounter = modem.pushsCounter := by
  have spec := push_spec answers modem
  rw [if_neg (mt push_eq_zero_iff.mpr fails)] at spec
  exact spec.2

/-- The system mode is reported as set only if it was. -/
def ReportsSet (answers : SystemAnswers) (modem : Modem) : Prop :=
  (modemAtSystemModeSet answers modem).1 = 0 → (modemAtSystemModeSet answers modem).2.1 = some 0

private theorem reportsSet_iff {answers : SystemAnswers} {modem : Modem} :
    ReportsSet answers modem ↔ answers.lock ≠ 0 ∨ Pushes answers.push modem := by
  unfold ReportsSet modemAtSystemModeSet
  by_cases lock : answers.lock = 0
  · by_cases pushes : Pushes answers.push modem
    · simp [lock, pushes, push_eq_zero_iff]
    · simp [lock, pushes, push_eq_zero_iff]
  · simp [lock]

/-- Each restore of matching calls returns zero, and at their end the modem is in its first mode with nothing
remembered. -/
def RestoresMode (mode : FuncMode) (modemMode : Option FuncMode) (calls : List Call) : Prop :=
  (∀ result ∈ (performAll { mode, modemMode } calls).1, result = 0) ∧
    (performAll { mode, modemMode } calls).2.mode = mode ∧
    (performAll { mode, modemMode } calls).2.previousMode = none ∧
    (performAll { mode, modemMode } calls).2.pushsCounter = 0

/-- Matching calls restore the mode exactly if no push is inside of another, a push that fails changes nothing, and the
system mode is reported as set only if it was exactly if the modem was switched off for it. -/
theorem switching_off_iff (calls : List Call) (mode : FuncMode) (modemMode : Option FuncMode) (pushAnswers : PushAnswers)
    (answers : SystemAnswers) (modem : Modem) :
    (Nested calls → (RestoresMode mode modemMode calls ↔ Single calls)) ∧
    ((modemAtPushOff pushAnswers modem).1 ≠ 0 →
      (modemAtPushOff pushAnswers modem).2.mode = modem.mode ∧
        (modemAtPushOff pushAnswers modem).2.previousMode = modem.previousMode ∧
        (modemAtPushOff pushAnswers modem).2.pushsCounter = modem.pushsCounter) ∧
    (ReportsSet answers modem ↔ answers.lock ≠ 0 ∨ Pushes answers.push modem) := by
  refine ⟨fun nested => ?_, fun fails => push_fails fails, reportsSet_iff⟩
  have begins : Off mode 0 { mode, modemMode } := ⟨rfl, rfl, rfl⟩
  obtain ⟨ends, results⟩ := nested_off nested begins
  exact ⟨fun restores => results.mp restores.1, fun single =>
    ⟨results.mpr single, ends.mode, ends.previousMode, ends.pushsCounter⟩⟩

/-- Two pushes one after the other, and a modem that cannot be switched off. -/
theorem switching_off_sample :
    RestoresMode .normal (some .normal) [.push, .restore, .push, .restore] ∧
      (modemAtPushOff { set := { set := -5 } } { mode := .normal }).2.pushsCounter = 0 := by
  have nested : Nested [.push, .restore, .push, .restore] := @Nested.pair [] _ .nil (@Nested.pair [] _ .nil .nil)
  have sample := switching_off_iff [.push, .restore, .push, .restore] .normal (some .normal) { set := { set := -5 } } {}
    { mode := .normal }
  exact ⟨(sample.1 nested).mpr (by simp [Single, List.infix_cons_iff]), (sample.2.1 (by decide)).2.2⟩

/-- The restore inside returns an error, and the system mode is reported as set though the mode could not be read. -/
theorem inner_restore_fails :
    (performAll { mode := .normal } [.push, .push, .restore, .restore]).1 = [0, 0, einval, 0] ∧
      ¬ RestoresMode .normal none [.push, .push, .restore, .restore] ∧
    (modemAtSystemModeSet { push := { get := -5 } } { mode := .normal }).1 = 0 ∧
      (modemAtSystemModeSet { push := { get := -5 } } { mode := .normal }).2.1 = none ∧
      ¬ ReportsSet { push := { get := -5 } } { mode := .normal } := by
  refine ⟨by decide, fun restores => ?_, by decide, by decide, fun reports => ?_⟩
  · exact absurd (restores.1 einval (by decide)) (by decide)
  · exact absurd (reports (by decide)) (by decide)

end CoapsClient.ModemAt
