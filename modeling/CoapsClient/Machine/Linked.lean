import Mathlib.Logic.Function.Basic
import Mathlib.Data.List.Nodup
import Mathlib.Tactic.Common

/-! # Intrusive lists

A node has a place for the link to the node behind it, and lists are made of the links of their nodes: a list itself is
only its first and last node. A node is in one list at most, since another one takes its link. Who appends a node that is
in a list already is not told.
-/

namespace CoapsClient.Machine

/-- The node behind a node. -/
abbrev Links (Node : Type*) := Node → Option Node

/-- A list: its first and its last node. -/
structure SList (Node : Type*) where
  head : Option Node := none
  tail : Option Node := none
deriving DecidableEq

variable {Node : Type*}

/-- A node is appended behind the last one. -/
def SList.append [DecidableEq Node] (list : SList Node) (node : Node) (links : Links Node) : SList Node × Links Node :=
  let links := Function.update links node none
  match list.head, list.tail with
  | some _, some tail => ({ list with tail := node }, Function.update links tail (some node))
  | some _, none => ({ list with tail := node }, links)
  | none, _ => ({ head := node, tail := node }, links)

/-- The first node is taken out. -/
def SList.get [DecidableEq Node] (list : SList Node) (links : Links Node) : Option (Node × SList Node) :=
  list.head.map fun node =>
    (node, { head := links node, tail := if list.tail = some node then links node else list.tail })

/-- The links lead from a node through some nodes to an end. -/
inductive Leading (links : Links Node) : Option Node → List Node → Prop
  | nil : Leading links none []
  | cons {node : Node} {nodes : List Node} : Leading links (links node) nodes → Leading links (some node) (node :: nodes)

/-- A list of some nodes, each once. -/
structure SList.Holds (list : SList Node) (links : Links Node) (nodes : List Node) : Prop where
  leading : Leading links list.head nodes
  tail : list.tail = nodes.getLast?
  nodup : nodes.Nodup

section Lists

variable {links next : Links Node} {head : Option Node} {node last : Node} {nodes : List Node} {list : SList Node}

/-- The links of other nodes do not matter. -/
theorem Leading.congr (leading : Leading links head nodes) (same : ∀ node ∈ nodes, next node = links node) :
    Leading next head nodes := by
  induction leading with
  | nil => exact .nil
  | @cons node nodes _ ih =>
    refine .cons ?_
    rw [same node List.mem_cons_self]
    exact ih fun other found => same other (List.mem_cons_of_mem node found)

theorem SList.Holds.congr (holds : list.Holds links nodes) (same : ∀ node ∈ nodes, next node = links node) :
    list.Holds next nodes := ⟨holds.leading.congr same, holds.tail, holds.nodup⟩

theorem SList.Holds.get_nil (holds : list.Holds links []) : list = {} := by
  obtain ⟨head, tail⟩ := list
  obtain ⟨leading, rfl, _⟩ := holds
  cases leading
  rfl

variable [DecidableEq Node]

/-- The links of nodes with one behind the last of them. -/
theorem Leading.append (leading : Leading links head nodes) (nodup : nodes.Nodup) (new : node ∉ nodes)
    (behind : nodes.getLast? = some last) :
    Leading (Function.update (Function.update links node none) last (some node)) head (nodes ++ [node]) := by
  induction leading with
  | nil => contradiction
  | @cons first nodes rest ih =>
    have other : node ≠ first := fun same => new (same ▸ List.mem_cons_self)
    refine .cons ?_
    cases nodes with
    | nil =>
      obtain rfl : first = last := Option.some_inj.mp behind
      rw [Function.update_self]
      refine .cons ?_
      rw [Function.update_of_ne other, Function.update_self]
      exact .nil
    | cons second nodes =>
      have behind' : (second :: nodes).getLast? = some last := by rwa [List.getLast?_cons_cons] at behind
      have apart : first ≠ last := fun same =>
        (List.nodup_cons.mp nodup).1 (same ▸ List.mem_of_getLast? behind')
      rw [Function.update_of_ne apart, Function.update_of_ne other.symm]
      exact ih (List.nodup_cons.mp nodup).2 (fun found => new (List.mem_cons_of_mem first found)) behind'

/-- A node that is not in the list is appended. -/
theorem SList.Holds.append (holds : list.Holds links nodes) (new : node ∉ nodes) :
    (list.append node links).1.Holds (list.append node links).2 (nodes ++ [node]) := by
  have nodup : (nodes ++ [node]).Nodup := List.nodup_append.mpr
    ⟨holds.nodup, List.nodup_singleton node, fun other found single member same =>
      new (List.mem_singleton.mp member ▸ same ▸ found)⟩
  obtain ⟨head, tail⟩ := list
  obtain ⟨leading, rfl, once⟩ := holds
  unfold SList.append
  cases leading with
  | nil =>
    refine ⟨.cons ?_, rfl, nodup⟩
    change Leading _ (Function.update links node none node) []
    rw [Function.update_self]
    exact .nil
  | @cons first nodes rest =>
    obtain ⟨last, behind⟩ : ∃ last, (first :: nodes).getLast? = some last := ⟨_, List.getLast?_eq_getLast_of_ne_nil (by simp)⟩
    dsimp only
    rw [behind]
    exact ⟨(Leading.cons rest).append once new behind, (List.getLast?_concat ..).symm, nodup⟩

/-- The first node of a list is taken out. -/
theorem SList.Holds.get (holds : list.Holds links (node :: nodes)) :
    ∃ rest, list.get links = some (node, rest) ∧ rest.Holds links nodes := by
  obtain ⟨head, tail⟩ := list
  obtain ⟨leading, rfl, nodup⟩ := holds
  cases leading with
  | cons leading =>
    refine ⟨_, rfl, leading, ?_, (List.nodup_cons.mp nodup).2⟩
    dsimp only
    cases nodes with
    | nil =>
      rw [List.getLast?_singleton, if_pos rfl]
      generalize links node = behind at leading
      cases leading
      rfl
    | cons second nodes =>
      have other : (node :: second :: nodes).getLast? ≠ some node := by
        rw [List.getLast?_cons_cons]
        exact fun last => (List.nodup_cons.mp nodup).1 (List.mem_of_getLast? last)
      rw [if_neg other, List.getLast?_cons_cons]

end Lists

end CoapsClient.Machine
