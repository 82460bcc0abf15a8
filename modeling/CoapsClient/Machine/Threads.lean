import Mathlib.Tactic.Common
import Mathlib.Algebra.Order.Group.Multiset
import Mathlib.Tactic.Abel

/-! # Interleaved programs over a shared state

A pool is a shared state and the rest of each thread's program. One turn executes the next
instruction of one program; the instruction may change the shared state and put further instructions
in front of the rest. What the threads still have to do is summed up by a multiset of marks on
instructions: a turn replaces the marks of the executed instruction by those of its continuation.
-/

namespace CoapsClient.Machine

variable {σ ι χ τ : Type*}

structure Pool (σ ι : Type*) where
  shared : σ
  programs : List (List ι)

namespace Pool

/-- The instruction a thread executes next. -/
def next? (pool : Pool σ ι) (index : ℕ) : Option ι :=
  match pool.programs[index]? with
  | some (instr :: _) => some instr
  | _ => none

/-- One turn of a thread. -/
def turn (exec : σ → ι → χ → σ × List ι) (pool : Pool σ ι) (index : ℕ) (choice : χ) :
    Option (Pool σ ι) :=
  match pool.programs[index]? with
  | some (instr :: rest) =>
      let result := exec pool.shared instr choice
      some { shared := result.1, programs := pool.programs.set index (result.2 ++ rest) }
  | _ => none

/-- A new thread. -/
def spawn (pool : Pool σ ι) (program : List ι) : Pool σ ι :=
  { pool with programs := pool.programs ++ [program] }

/-- The marks of everything that is still to be executed. -/
def marks (mark : ι → List τ) (pool : Pool σ ι) : Multiset τ :=
  pool.programs.flatMap fun program => program.flatMap mark

variable {exec : σ → ι → χ → σ × List ι} {pool next : Pool σ ι} {index : ℕ} {choice : χ}

private theorem marks_middle (mark : ι → List τ) (shared : σ) (front back : List (List ι))
    (head rest : List ι) :
    marks mark (⟨shared, front ++ (head ++ rest) :: back⟩ : Pool σ ι) =
      marks mark (⟨shared, front ++ rest :: back⟩ : Pool σ ι) + head.flatMap mark := by
  simp only [marks, List.flatMap_append, List.flatMap_cons, ← Multiset.coe_add]
  abel

/-- What a turn executes, and where the marks change. -/
theorem turn_spec (taken : pool.turn exec index choice = some next) :
    ∃ instr, pool.next? index = some instr ∧ next.shared = (exec pool.shared instr choice).1 ∧
      ∀ {τ : Type} (mark : ι → List τ), ∃ others : Multiset τ,
        pool.marks mark = others + mark instr ∧
        next.marks mark = others + (exec pool.shared instr choice).2.flatMap mark := by
  simp only [turn] at taken
  split at taken
  · next instr rest found =>
    obtain ⟨bound, isProgram⟩ := List.getElem?_eq_some_iff.mp found
    obtain rfl := Option.some.inj taken
    refine ⟨instr, by simp only [next?, found], rfl, ?_⟩
    intro τ mark
    have split : pool.programs =
        pool.programs.take index ++ ([instr] ++ rest) :: pool.programs.drop (index + 1) := by
      rw [List.singleton_append, ← isProgram, ← List.drop_eq_getElem_cons bound, List.take_append_drop]
    refine ⟨marks mark ⟨pool.shared, pool.programs.take index ++ rest :: pool.programs.drop (index + 1)⟩,
      ?_, ?_⟩
    · have here := marks_middle mark pool.shared (pool.programs.take index)
        (pool.programs.drop (index + 1)) [instr] rest
      rw [← split] at here
      rw [here, List.flatMap_singleton]
    · rw [List.set_eq_take_cons_drop _ bound]
      exact marks_middle mark _ _ _ _ rest
  · contradiction

theorem marks_spawn (mark : ι → List τ) (program : List ι) :
    (pool.spawn program).marks mark = pool.marks mark + program.flatMap mark := by
  simp [marks, spawn]

end Pool

end CoapsClient.Machine
