import Mathlib.Tactic.Common
import Mathlib.Data.List.Basic

/-! # Packing items into blocks

Items are collected one behind the other, and a block takes all that is collected. Blocks pack the items if each is
made of whole items, none is empty, and together they are the items in their order.
-/

namespace CoapsClient.Machine

variable {α : Type*} {blocks items : List (List α)} {collected item : List α}

/-- The blocks are groups of the items, in their order. -/
def Packs (blocks items : List (List α)) : Prop :=
  (∃ groups : List (List (List α)), blocks = groups.map List.flatten ∧ groups.flatten = items) ∧
    ∀ block ∈ blocks, block ≠ []

/-- The blocks pack the first items, and the last ones are collected. -/
def PacksUpTo (blocks : List (List α)) (collected : List α) (items : List (List α)) : Prop :=
  ∃ closed rest, items = closed ++ rest ∧ Packs blocks closed ∧ collected = rest.flatten

theorem Packs.flatten_eq (packs : Packs blocks items) : blocks.flatten = items.flatten := by
  obtain ⟨⟨groups, rfl, rfl⟩, -⟩ := packs
  rw [← List.flatten_flatten]

theorem Packs.upTo (packs : Packs blocks items) : PacksUpTo blocks [] items :=
  ⟨items, [], (List.append_nil items).symm, packs, rfl⟩

theorem packs_nil : Packs ([] : List (List α)) [] :=
  ⟨⟨[], rfl, rfl⟩, fun _ found => absurd found List.not_mem_nil⟩

theorem packsUpTo_nil : PacksUpTo ([] : List (List α)) [] [] := packs_nil.upTo

/-- Blocks and what is collected are all there is. -/
theorem PacksUpTo.flatten_eq (packs : PacksUpTo blocks collected items) :
    blocks.flatten ++ collected = items.flatten := by
  obtain ⟨closed, rest, rfl, packed, rfl⟩ := packs
  rw [packed.flatten_eq, List.flatten_append]

/-- One more item is collected. -/
theorem PacksUpTo.collect (packs : PacksUpTo blocks collected items) (item : List α) :
    PacksUpTo blocks (collected ++ item) (items ++ [item]) := by
  obtain ⟨closed, rest, rfl, packed, rfl⟩ := packs
  exact ⟨closed, rest ++ [item], by rw [List.append_assoc], packed, by simp⟩

/-- A block takes all that is collected. -/
theorem PacksUpTo.close (packs : PacksUpTo blocks collected items) (some : collected ≠ []) :
    Packs (blocks ++ [collected]) items := by
  obtain ⟨closed, rest, rfl, ⟨⟨groups, rfl, rfl⟩, full⟩, rfl⟩ := packs
  refine ⟨⟨groups ++ [rest], by simp, by simp⟩, fun block found => ?_⟩
  rcases List.mem_append.mp found with found | found
  · exact full block found
  · rwa [List.mem_singleton.mp found]

end CoapsClient.Machine
