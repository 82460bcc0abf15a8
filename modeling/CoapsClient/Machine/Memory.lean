import Mathlib.Tactic.Common
import Mathlib.Data.List.Basic

/-! # Byte memory under device effects

A byte-addressed memory and the two effects a storage device has on it: programming a run of bytes
and filling a range with one value. How a byte is programmed over an old one is a parameter, so the
same lemmas serve an overwriting EEPROM and a flash that can only clear bits. `replay` applies a
list of effects in order; cutting the list is losing power between two of them.
-/

namespace CoapsClient.Machine

/-- A byte for every address. -/
abbrev Memory := ℕ → UInt8

/-- One effect of a device operation. -/
inductive Effect where
  | program (address : ℕ) (bytes : List UInt8)
  | fill (address count : ℕ) (value : UInt8)
deriving DecidableEq, Repr

variable (merge : UInt8 → UInt8 → UInt8)

/-- `over old new` is the byte found after programming `new` at an address that held `old`. -/
def Effect.apply (memory : Memory) : Effect → Memory
  | .program address bytes => fun query =>
      if address ≤ query ∧ query < address + bytes.length then
        merge (memory query) (bytes.getD (query - address) 0)
      else memory query
  | .fill address count value => fun query =>
      if address ≤ query ∧ query < address + count then value else memory query

/-- Apply effects in order. -/
def replay (memory : Memory) (effects : List Effect) : Memory :=
  effects.foldl (Effect.apply merge) memory

/-- Every byte of the range holds the value. -/
def Uniform (memory : Memory) (address count : ℕ) (value : UInt8) : Prop :=
  ∀ offset < count, memory (address + offset) = value

instance (memory : Memory) (address count : ℕ) (value : UInt8) :
    Decidable (Uniform memory address count value) :=
  inferInstanceAs (Decidable (∀ offset < count, memory (address + offset) = value))

/-- No effect of the list programs a byte that is not erased at that point. -/
def Clean (erased : UInt8) : Memory → List Effect → Prop
  | _, [] => True
  | memory, effect :: rest =>
      (match effect with
        | .program address bytes => Uniform memory address bytes.length erased
        | .fill _ _ _ => True) ∧ Clean erased (effect.apply merge memory) rest

/-- The addresses an effect may change. -/
def Effect.Touches (query : ℕ) : Effect → Prop
  | .program address bytes => address ≤ query ∧ query < address + bytes.length
  | .fill address count _ => address ≤ query ∧ query < address + count

variable {merge} {memory : Memory}

theorem Effect.apply_of_not_touches {effect : Effect} {query : ℕ} (outside : ¬ effect.Touches query) :
    effect.apply merge memory query = memory query := by
  cases effect with
  | program address bytes => exact if_neg outside
  | fill address count value => exact if_neg outside

theorem Effect.apply_fill {address count query : ℕ} {value : UInt8} (lower : address ≤ query)
    (upper : query < address + count) :
    (Effect.fill address count value).apply merge memory query = value :=
  if_pos ⟨lower, upper⟩

/-- Programming erased bytes stores exactly the new bytes. -/
theorem Effect.apply_program_erased {address query : ℕ} {bytes : List UInt8} {erased : UInt8}
    (clean : ∀ new, merge erased new = new) (uniform : Uniform memory address bytes.length erased)
    (lower : address ≤ query) (upper : query < address + bytes.length) :
    (Effect.program address bytes).apply merge memory query = bytes.getD (query - address) 0 := by
  have old : memory query = erased := by
    have := uniform (query - address) (by omega)
    rwa [show address + (query - address) = query by omega] at this
  simp only [Effect.apply, if_pos (And.intro lower upper), old, clean]

/-- Programming an overwriting device stores exactly the new bytes. -/
theorem Effect.apply_program_over {address query : ℕ} {bytes : List UInt8}
    (overwrites : ∀ old new, merge old new = new)
    (lower : address ≤ query) (upper : query < address + bytes.length) :
    (Effect.program address bytes).apply merge memory query = bytes.getD (query - address) 0 := by
  simp only [Effect.apply, if_pos (And.intro lower upper), overwrites]

@[simp] theorem replay_nil : replay merge memory [] = memory := rfl

@[simp] theorem replay_cons (effect : Effect) (rest : List Effect) :
    replay merge memory (effect :: rest) = replay merge (effect.apply merge memory) rest := rfl

theorem replay_append (first second : List Effect) :
    replay merge memory (first ++ second) = replay merge (replay merge memory first) second :=
  List.foldl_append ..

@[simp] theorem clean_nil (erased : UInt8) : Clean merge erased memory [] := trivial

@[simp] theorem clean_program (erased : UInt8) (address : ℕ) (bytes : List UInt8) (rest : List Effect) :
    Clean merge erased memory (.program address bytes :: rest) ↔
      Uniform memory address bytes.length erased ∧
        Clean merge erased ((Effect.program address bytes).apply merge memory) rest := Iff.rfl

@[simp] theorem clean_fill (erased : UInt8) (address count : ℕ) (value : UInt8) (rest : List Effect) :
    Clean merge erased memory (.fill address count value :: rest) ↔
      Clean merge erased ((Effect.fill address count value).apply merge memory) rest :=
  and_iff_right trivial

theorem clean_append (erased : UInt8) (first second : List Effect) :
    Clean merge erased memory (first ++ second) ↔
      Clean merge erased memory first ∧ Clean merge erased (replay merge memory first) second := by
  induction first generalizing memory with
  | nil => simp
  | cons effect rest ih =>
    cases effect with
    | program address bytes =>
      rw [List.cons_append, clean_program, clean_program, ih, replay_cons, and_assoc]
    | fill address count value =>
      rw [List.cons_append, clean_fill, clean_fill, ih, replay_cons]

end CoapsClient.Machine
