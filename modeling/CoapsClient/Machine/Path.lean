import Mathlib.Tactic.Common

/-! # Finite runs of a labelled transition relation

`Path step s es t` is a finite run from `s` to `t` carrying exactly the labels `es`. Everything a
system guarantees "in every reachable state" is proved by one step lemma and `Path.invariant`.
`guarded` restricts a relation to the steps that meet a condition, so a guarantee that holds only
under a condition on every step is a guarantee over the paths of the restricted relation.
-/

namespace CoapsClient.Machine

variable {σ ε : Type*}

/-- A finite run carrying exactly its labels. -/
inductive Path (step : σ → ε → σ → Prop) : σ → List ε → σ → Prop
  | nil (s : σ) : Path step s [] s
  | cons {s mid t : σ} {e : ε} {es : List ε} :
      step s e mid → Path step mid es t → Path step s (e :: es) t

/-- The steps of a relation that meet a condition on their source and label. -/
def guarded (step : σ → ε → σ → Prop) (condition : σ → ε → Prop) : σ → ε → σ → Prop :=
  fun s e t => condition s e ∧ step s e t

namespace Path

variable {step : σ → ε → σ → Prop} {s mid t : σ} {e : ε} {es first second : List ε}

/-- Paths compose at their shared endpoint. -/
theorem append (left : Path step s first mid) (right : Path step mid second t) :
    Path step s (first ++ second) t := by
  induction left with
  | nil _ => exact right
  | cons moved _ ih => exact .cons moved (ih right)

theorem snoc (path : Path step s es mid) (moved : step mid e t) : Path step s (es ++ [e]) t :=
  path.append (.cons moved (.nil t))

/-- What holds at the source and is kept by every step holds at the end of every run. -/
theorem invariant (inv : σ → Prop) (kept : ∀ s e t, inv s → step s e t → inv t)
    (path : Path step s es t) (initial : inv s) : inv t := by
  induction path with
  | nil _ => exact initial
  | cons moved _ ih => exact ih (kept _ _ _ initial moved)

/-- A run of one relation is a run of every larger relation. -/
theorem mono {wider : σ → ε → σ → Prop} (path : Path step s es t)
    (larger : ∀ s e t, step s e t → wider s e t) : Path wider s es t := by
  induction path with
  | nil s => exact .nil s
  | cons moved _ ih => exact .cons (larger _ _ _ moved) ih

/-- A projection of the states that carries steps to steps carries runs to runs. -/
theorem map {τ : Type*} {coarser : τ → ε → τ → Prop} (project : σ → τ) (path : Path step s es t)
    (carries : ∀ s e t, step s e t → coarser (project s) e (project t)) :
    Path coarser (project s) es (project t) := by
  induction path with
  | nil s => exact .nil (project s)
  | cons moved _ ih => exact .cons (carries _ _ _ moved) ih

/-- Executing a partial step function along a list of labels is a run. -/
theorem of_foldlM {next : σ → ε → Option σ} (ran : es.foldlM next s = some t) :
    Path (fun s e t => next s e = some t) s es t := by
  induction es generalizing s with
  | nil =>
    obtain rfl := Option.some.inj ran
    exact .nil s
  | cons e es ih =>
    rw [List.foldlM_cons] at ran
    obtain ⟨mid, moved, rest⟩ := Option.bind_eq_some_iff.mp ran
    exact .cons moved (ih rest)

/-- The same for a run whose steps are checked against a condition. -/
theorem guarded_of_foldlM {next : σ → ε → Option σ} {condition : σ → ε → Prop}
    [∀ s e, Decidable (condition s e)]
    (ran : es.foldlM (fun s e => if condition s e then next s e else none) s = some t) :
    Path (guarded (fun s e t => next s e = some t) condition) s es t :=
  (of_foldlM ran).mono fun _ _ _ moved => Option.ite_none_right_eq_some.mp moved

end Path

end CoapsClient.Machine
