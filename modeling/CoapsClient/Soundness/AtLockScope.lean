import CoapsClient.Model.Modem.ModemAt
import Mathlib.Data.List.DropRight
import Mathlib.Data.List.Infix

/-! # The scope of the warnings

The sections that the owner is in are a stack. The outermost ones that leave the warnings on are not counted; from the first
one on that switches them off, all are. The counter is an `int`, so this holds as long as it has room.
-/

namespace CoapsClient.ModemAtLock

open Machine (checked_of_signed checked_eq_some_iff signed_32)
open ModemAt (ebusy)

/-- What a section was locked with. -/
inductive Section where
  | plain
  | noWarn
deriving DecidableEq, Repr

inductive Call where
  /-- `modem_at_lock` or `modem_at_lock_no_warn`. -/
  | lock (kind : Section) (answer : Answer)
  /-- `modem_at_unlock`. -/
  | unlock
deriving DecidableEq, Repr

/-- A lock that is not refused. -/
def Answer.succeeds (answer : Answer) : Bool := answer.mutex = 0 ∧ answer.handler = false

/-- The sections behind a call, the innermost one first, none if an unlock has no lock. -/
def Call.sections (call : Call) (sections : List Section) : Option (List Section) :=
  match call with
  | .lock kind answer => some (if answer.succeeds then kind :: sections else sections)
  | .unlock => match sections with
    | [] => none
    | _ :: sections => some sections

/-- The sections behind some calls; only nested calls have them. -/
def sectionsBehind : List Section → List Call → Option (List Section) :=
  List.foldlM fun sections call => call.sections sections

def perform (lock : AtLock) : Call → Option (ℤ × AtLock)
  | .lock .plain answer => modemAtLock answer lock
  | .lock .noWarn answer => modemAtLockNoWarn answer lock
  | .unlock => modemAtUnlock lock

/-- The lock behind some calls. -/
def performAll : AtLock → List Call → Option AtLock :=
  List.foldlM fun lock call => (perform lock call).map Prod.snd

/-- The sections since the outermost one without warnings. -/
def counted (sections : List Section) : List Section := sections.rdropWhile (· = .plain)

/-- What the lock is in some sections. -/
structure Scope (sections : List Section) (lock : AtLock) : Prop where
  lockCount : lock.lockCount = sections.length
  warn : lock.warn = false ↔ .noWarn ∈ sections
  counter : lock.counter = (counted sections).length

/-- The counted sections have room in the counter, in all calls. -/
def Fits (sections : List Section) (calls : List Call) : Prop :=
  ∀ front ∈ calls.inits, ∀ inner ∈ sectionsBehind sections front, (counted inner).length < 2147483648

section Sections

variable {kind : Section} {sections : List Section} {lock : AtLock} {answer : Answer}

private theorem counted_eq_nil : counted sections = [] ↔ .noWarn ∉ sections := by
  rw [counted, List.rdropWhile_eq_nil_iff]
  refine ⟨fun plain found => ?_, fun plain other found => ?_⟩
  · simpa using plain _ found
  · cases other with
    | plain => rfl
    | noWarn => exact absurd found plain

/-- A further section is counted if it or an outer one is without warnings. -/
private theorem counted_cons : counted (kind :: sections) =
    if .noWarn ∈ sections then kind :: counted sections else if kind = .noWarn then [kind] else [] := by
  have outer : (List.dropWhile (fun section' => decide (section' = .plain)) sections.reverse).isEmpty ↔
      .noWarn ∉ sections := by
    rw [← counted_eq_nil, List.isEmpty_iff]
    exact List.reverse_eq_nil_iff.symm
  rw [counted, counted, List.rdropWhile, List.reverse_cons, List.dropWhile_append]
  by_cases inside : .noWarn ∈ sections
  · rw [if_neg fun empty => outer.mp empty inside, if_pos inside, List.reverse_append]
    rfl
  · rw [if_pos (outer.mpr inside), if_neg inside]
    cases kind <;> rfl

/-- A further section inside of one without warnings is counted, and so is the first one without. -/
private theorem length_counted_cons (inside : .noWarn ∈ kind :: sections) :
    (counted (kind :: sections)).length = (counted sections).length + 1 := by
  rw [counted_cons]
  by_cases outer : .noWarn ∈ sections
  · rw [if_pos outer, List.length_cons]
  · have first : kind = .noWarn := by simpa [outer, eq_comm] using inside
    rw [if_neg outer, if_pos first, counted_eq_nil.mpr outer]
    rfl

/-- A section that begins. -/
private theorem scope_lock (scope : Scope sections lock) (succeeds : answer.succeeds = true)
    (fits : (counted (kind :: sections)).length < 2147483648) :
    ∃ next, perform lock (.lock kind answer) = some (0, next) ∧ Scope (kind :: sections) next := by
  obtain ⟨mutex, handler⟩ := answer
  obtain ⟨rfl, rfl⟩ : mutex = 0 ∧ handler = false := by simpa [Answer.succeeds] using succeeds
  obtain ⟨lockCount, counter, warn⟩ := lock
  obtain ⟨rfl, warns, rfl⟩ := scope
  by_cases inside : .noWarn ∈ kind :: sections
  case neg =>
    have outer : .noWarn ∉ sections := mt (List.mem_cons_of_mem kind) inside
    have plain : kind = .plain := by
      cases kind with
      | plain => rfl
      | noWarn => exact absurd List.mem_cons_self inside
    subst plain
    refine ⟨⟨sections.length + 1, 0, warn⟩, ?_, rfl, warns.trans (iff_of_false outer inside), ?_⟩
    · simp [perform, modemAtLock, kMutexLock, counted_eq_nil.mpr outer]
    · simp [counted_eq_nil.mpr inside]
  case pos =>
    have length := length_counted_cons inside
    have room : Machine.Signed 32 ((counted sections).length + 1) := signed_32.mpr (by omega)
    refine ⟨⟨sections.length + 1, (counted sections).length + 1, false⟩, ?_, rfl, iff_of_true rfl inside, by rw [length]; rfl⟩
    cases kind with
    | noWarn => simp [perform, modemAtLockNoWarn, kMutexLock, checked_of_signed room]
    | plain =>
      have outer : .noWarn ∈ sections := by simpa using inside
      have off : warn = false := warns.mpr outer
      have some' : counted sections ≠ [] := mt counted_eq_nil.mp (not_not.mpr outer)
      simp [perform, modemAtLock, kMutexLock, checked_of_signed room, some', off]

/-- A lock that is refused. -/
private theorem perform_refused (refused : answer.succeeds = false) :
    ∃ result, perform lock (.lock kind answer) = some (result, lock) := by
  obtain ⟨mutex, handler⟩ := answer
  by_cases locked : mutex = 0
  · have handled : handler = true := by simpa [Answer.succeeds, locked] using refused
    exact ⟨ebusy, by cases kind <;> simp [perform, modemAtLock, modemAtLockNoWarn, kMutexLock, kMutexUnlock, locked, handled]⟩
  · exact ⟨mutex, by cases kind <;> simp [perform, modemAtLock, modemAtLockNoWarn, kMutexLock, locked]⟩

/-- A section that ends. -/
private theorem scope_unlock (scope : Scope (kind :: sections) lock)
    (fits : (counted (kind :: sections)).length < 2147483648) :
    ∃ next, perform lock .unlock = some (0, next) ∧ Scope sections next := by
  obtain ⟨lockCount, counter, warn⟩ := lock
  obtain ⟨rfl, warns, rfl⟩ := scope
  by_cases inside : .noWarn ∈ kind :: sections
  case neg =>
    have outer : .noWarn ∉ sections := mt (List.mem_cons_of_mem kind) inside
    refine ⟨⟨sections.length, 0, warn⟩, ?_, rfl, warns.trans (iff_of_false inside outer), ?_⟩
    · simp [perform, modemAtUnlock, kMutexUnlock, counted_eq_nil.mpr inside]
    · simp [counted_eq_nil.mpr outer]
  case pos =>
    have off : warn = false := warns.mpr inside
    have length := length_counted_cons inside
    have room : Machine.Signed 32 (counted sections).length := signed_32.mpr (by omega)
    refine ⟨⟨sections.length, (counted sections).length, decide (.noWarn ∉ sections)⟩, ?_, rfl, by simp, rfl⟩
    have last : ((counted sections).length : ℤ) = 0 ↔ .noWarn ∉ sections := by
      rw [← counted_eq_nil, Int.natCast_eq_zero, List.length_eq_zero_iff]
    have down : ((counted (kind :: sections)).length : ℤ) - 1 = (counted sections).length := by omega
    have some' : ((counted (kind :: sections)).length : ℤ) ≠ 0 := by omega
    simp only [perform, modemAtUnlock, kMutexUnlock, List.length_cons, Nat.succ_ne_zero, if_false, some', ne_eq, not_false_iff,
      and_self, if_true, down, checked_of_signed room, Option.map_some, off, Bool.false_or, last, Nat.add_sub_cancel]

end Sections

section Runs

variable {sections inner : List Section} {calls : List Call} {lock : AtLock}

theorem Fits.room (fits : Fits sections calls) : (counted sections).length < 2147483648 :=
  fits [] (List.mem_inits _ _ |>.mpr List.nil_prefix) sections rfl

theorem Fits.tail {call : Call} {next : List Section} (fits : Fits sections (call :: calls))
    (moved : call.sections sections = some next) : Fits next calls := by
  intro front member inner reached
  refine fits (call :: front) ?_ inner ?_
  · rw [List.mem_inits] at member ⊢
    exact List.prefix_cons_inj call |>.mpr member
  · rw [sectionsBehind, List.foldlM_cons, moved]
    exact reached

/-- One call keeps the lock in the scope of its sections. -/
private theorem scope_step {call : Call} {next : List Section} (moved : call.sections sections = some next)
    (scope : Scope sections lock) (before : (counted sections).length < 2147483648)
    (behind : (counted next).length < 2147483648) :
    ∃ result lock', perform lock call = some (result, lock') ∧ Scope next lock' := by
  cases call with
  | lock kind answer =>
    cases succeeds : answer.succeeds with
    | true =>
      obtain rfl : kind :: sections = next := by simpa [Call.sections, succeeds] using moved
      obtain ⟨lock', locked, scope⟩ := scope_lock scope succeeds behind
      exact ⟨0, lock', locked, scope⟩
    | false =>
      obtain rfl : sections = next := by simpa [Call.sections, succeeds] using moved
      obtain ⟨result, refused⟩ := @perform_refused kind lock answer succeeds
      exact ⟨result, lock, refused, scope⟩
  | unlock =>
    cases sections with
    | nil => cases moved
    | cons kind outer =>
      obtain rfl : outer = next := Option.some_inj.mp moved
      obtain ⟨lock', unlocked, scope⟩ := scope_unlock scope before
      exact ⟨0, lock', unlocked, scope⟩

private theorem scope_run (nested : sectionsBehind sections calls = some inner) (fits : Fits sections calls)
    (scope : Scope sections lock) : ∃ lock', performAll lock calls = some lock' ∧ Scope inner lock' := by
  induction calls generalizing sections lock with
  | nil =>
    obtain rfl : sections = inner := Option.some_inj.mp nested
    exact ⟨lock, rfl, scope⟩
  | cons call calls ih =>
    rw [sectionsBehind, List.foldlM_cons] at nested
    obtain ⟨next, moved, rest⟩ := Option.bind_eq_some_iff.mp nested
    have fitsNext := fits.tail moved
    obtain ⟨result, lock', performed, scope'⟩ := scope_step moved scope fits.room fitsNext.room
    obtain ⟨last, run, done⟩ := ih rest fitsNext scope'
    refine ⟨last, ?_, done⟩
    rw [performAll, List.foldlM_cons, performed]
    exact run

private theorem scope_initial : Scope [] {} := ⟨rfl, by simp, rfl⟩

end Runs

/-- Behind nested calls whose counted sections have room, the warnings are off exactly inside of a section without them, and
the sections since the outermost one of them are counted; outside of all sections the counter is 0 and the warnings are on. -/
theorem at_lock_scope (calls : List Call) (sections : List Section) (nested : sectionsBehind [] calls = some sections)
    (fits : Fits [] calls) :
    ∃ lock, performAll {} calls = some lock ∧ Scope sections lock ∧
      (sections = [] → lock.counter = 0 ∧ lock.warn = true) := by
  obtain ⟨lock, run, scope⟩ := scope_run nested fits scope_initial
  refine ⟨lock, run, scope, ?_⟩
  rintro rfl
  exact ⟨scope.counter, by simpa using scope.warn⟩

/-- A section without warnings inside of a plain one, with a lock that is refused in it. -/
theorem at_lock_scope_inner :
    ∃ lock, performAll {} [.lock .plain {}, .lock .noWarn {}, .lock .plain { handler := true }, .lock .plain {}] = some lock ∧
      Scope [.plain, .noWarn, .plain] lock ∧ ([Section.plain, .noWarn, .plain] = [] → lock.counter = 0 ∧ lock.warn = true) :=
  at_lock_scope _ _ rfl (by unfold Fits; decide)

/-- A further section, and a further lock, without warnings. -/
private theorem sectionsBehind_replicate (count : ℕ) :
    sectionsBehind [] (List.replicate count (.lock .noWarn {})) = some (List.replicate count .noWarn) := by
  induction count with
  | zero => rfl
  | succ count ih =>
    rw [List.replicate_succ', sectionsBehind, List.foldlM_append]
    exact Option.bind_eq_some_iff.mpr ⟨_, ih, rfl⟩

private theorem performAll_replicate (count : ℕ) : performAll {} (List.replicate (count + 1) (.lock .noWarn {})) =
    (performAll {} (List.replicate count (.lock .noWarn {}))).bind fun lock =>
      (perform lock (.lock .noWarn {})).map Prod.snd := by
  rw [List.replicate_succ', performAll, List.foldlM_append]
  simp only [List.foldlM_cons, List.foldlM_nil, bind_pure]
  rfl

/-- Sections without warnings inside of each other are all counted. -/
private theorem scope_replicate (count : ℕ) (fits : count < 2147483648) :
    ∃ lock, performAll {} (List.replicate count (.lock .noWarn {})) = some lock ∧
      Scope (List.replicate count .noWarn) lock ∧ lock.counter = count := by
  induction count with
  | zero => exact ⟨{}, rfl, scope_initial, rfl⟩
  | succ count ih =>
    obtain ⟨lock, run, scope, counter⟩ := ih (by omega)
    have inner : ((counted (List.replicate count .noWarn)).length : ℤ) = count := scope.counter.symm.trans counter
    have length : (counted (.noWarn :: List.replicate count .noWarn)).length =
        (counted (List.replicate count .noWarn)).length + 1 := length_counted_cons List.mem_cons_self
    obtain ⟨next, locked, scope'⟩ : ∃ next, perform lock (.lock .noWarn {}) = some (0, next) ∧
        Scope (.noWarn :: List.replicate count .noWarn) next := scope_lock scope rfl (by omega)
    refine ⟨next, ?_, scope', ?_⟩
    · rw [performAll_replicate, run, Option.bind_some, locked]
      rfl
    · rw [scope'.counter, length]
      omega

/-- The counter has no room for 2147483648 sections. -/
theorem at_lock_scope_lost : ¬ ∀ calls sections, sectionsBehind [] calls = some sections →
    ∃ lock, performAll {} calls = some lock ∧ Scope sections lock := by
  intro all
  obtain ⟨lock, run, -⟩ := all _ _ (sectionsBehind_replicate (2147483647 + 1))
  obtain ⟨full, before, -, counter⟩ := scope_replicate 2147483647 (by decide)
  have overflow : perform full (.lock .noWarn {}) = none := by
    have big : ¬ Machine.Signed 32 (full.counter + 1) := by
      rw [counter, signed_32]
      omega
    simp [perform, modemAtLockNoWarn, kMutexLock, Machine.checked, big]
  rw [performAll_replicate, before, Option.bind_some, overflow] at run
  cases run

end CoapsClient.ModemAtLock
