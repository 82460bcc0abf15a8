import CoapsClient.Model.Modem.Cells
import Mathlib.Data.List.Sort
import Mathlib.Data.List.FinRange

/-! # The ranking of the cells

The inner loop inserts a cell into the sorted front of the array, which it reads from the back. The front behind a turn of
the outer loop is therefore an insertion sort of the cells so far, and the order of the cells in a scan is the one of
`sorted`.
-/

namespace CoapsClient.ModemCells

open Machine (put put_append)

section Loops

variable {Pointer : Type} {quality : Pointer → ℤ}

/-- The cells of which none is worse than the next one stay in front. -/
def NotWorse (quality : Pointer → ℤ) (cell other : Pointer) : Prop := quality cell ≤ quality other

instance : DecidableRel (NotWorse quality) := fun _ _ => inferInstanceAs (Decidable (_ ≤ _))

instance : Std.Total (NotWorse quality) := ⟨fun _ _ => le_total _ _⟩

instance : IsTrans Pointer (NotWorse quality) := ⟨fun _ _ _ => le_trans⟩

private theorem place_eq (cell : Pointer) (cells : List Pointer) :
    place quality cell cells = cells.orderedInsert (NotWorse quality) cell := by
  induction cells with
  | nil => rfl
  | cons last cells ih => rw [place, ih, List.orderedInsert_cons]; rfl

/-- The inner loop places a cell into the front of the array. -/
private theorem swapDown_eq (cell : Pointer) (front : List Pointer) (behind : List (Option Pointer)) :
    swapDown quality cell front.length (front.reverse.map some ++ some cell :: behind) =
      some ((place quality cell front).reverse.map some ++ behind) := by
  induction front generalizing behind with
  | nil => rfl
  | cons last front ih =>
    have length : front.length = (front.reverse.map some : List (Option Pointer)).length := by simp
    have array : (last :: front).reverse.map some ++ some cell :: behind =
        front.reverse.map some ++ some last :: some cell :: behind := by simp
    have read : (front.reverse.map some ++ some last :: some cell :: behind)[front.length]?.join = some last := by
      rw [length, List.getElem?_append_right le_rfl, Nat.sub_self]
      rfl
    rw [List.length_cons, swapDown, array, read, place]
    simp only [Option.bind_eq_bind, Option.bind_some]
    by_cases better : quality cell ≤ quality last
    case pos => simp [better]
    case neg =>
      -- both stores are behind the front that is left
      have second : put (front.reverse.map some ++ some last :: some cell :: behind) (front.length + 1) (some last) =
          some (front.reverse.map some ++ some last :: some last :: behind) := by
        rw [length, put_append]
        rfl
      have first : put (front.reverse.map some ++ some last :: some last :: behind) front.length (some cell) =
          some (front.reverse.map some ++ some cell :: some last :: behind) := by
        rw [length, ← Nat.add_zero (List.length _), put_append]
        rfl
      rw [if_neg better, if_neg better, second, Option.bind_some, first, Option.bind_some, ih]
      simp

/-- The cells so far, with the last place first. -/
def ranked (quality : Pointer → ℤ) (front cells : List Pointer) : List Pointer :=
  cells.foldl (fun sorted cell => place quality cell sorted) front

private theorem length_place (cell : Pointer) (cells : List Pointer) :
    (place quality cell cells).length = cells.length + 1 := by
  rw [place_eq, List.orderedInsert_length]

/-- The outer loop. -/
private theorem sortFrom_eq (front cells : List Pointer) :
    sortFrom quality front.length cells (front.reverse.map some ++ List.replicate cells.length none) =
      some ((ranked quality front cells).reverse.map some) := by
  induction cells generalizing front with
  | nil => simp [sortFrom, ranked]
  | cons cell cells ih =>
    have stored : put (front.reverse.map some ++ List.replicate (cells.length + 1) none) front.length (some cell) =
        some (front.reverse.map some ++ some cell :: List.replicate cells.length none) := by
      have length : front.length = (front.reverse.map some : List (Option Pointer)).length + 0 := by simp
      rw [length, put_append]
      rfl
    have next := ih (place quality cell front)
    rw [length_place] at next
    rw [sortFrom, List.length_cons, stored]
    simp only [Option.bind_eq_bind, Option.bind_some]
    rw [swapDown_eq]
    exact next

/-- The front of the array is an insertion sort, read from the back. -/
private theorem ranked_eq (cells : List Pointer) :
    ranked quality [] cells = cells.reverse.insertionSort (NotWorse quality) := by
  rw [ranked, ← List.foldr_reverse, List.insertionSort]
  congr
  funext cell sorted
  exact place_eq cell sorted

end Loops

/-- All cells in the order of their quality, and cells of the same quality in the order of the scan. -/
structure Ranks {Cell : Type} (quality : Cell → ℤ) (cells : List Cell) (pointers : List (CellPointer cells)) : Prop where
  all : pointers.Perm (List.finRange cells.length)
  falling : pointers.Pairwise fun front back : Fin cells.length => quality cells[back] ≤ quality cells[front]
  stable : ∀ first second : Fin cells.length, quality cells[first] = quality cells[second] → first < second →
    [first, second].Sublist pointers

section Order

variable {Cell : Type} {quality : Cell → ℤ} {cells : List Cell}

/-- The pointers that the array has behind the loops. -/
def pointers (quality : Cell → ℤ) (cells : List Cell) : List (CellPointer cells) :=
  (ranked (fun pointer => quality cells[pointer]) [] (List.finRange cells.length)).reverse

private theorem sortPointers_eq : sortPointers quality cells = some ((pointers quality cells).map some) := by
  have run := @sortFrom_eq _ (fun pointer : CellPointer cells => quality cells[pointer]) [] (List.finRange cells.length)
  rwa [List.length_finRange] at run

private theorem pointers_ranks : Ranks quality cells (pointers quality cells) := by
  rw [pointers, ranked_eq]
  refine ⟨?_, ?_, fun first second same before => ?_⟩
  · exact (List.reverse_perm _).trans ((List.perm_insertionSort _ _).trans (List.reverse_perm _))
  · exact List.pairwise_reverse.mpr (List.pairwise_insertionSort _ _)
  · have scanned : [first, second].Subperm (List.finRange cells.length) :=
      List.subperm_of_subset (by simp [before.ne]) fun pointer _ => List.mem_finRange pointer
    have ordered : [first, second].Sublist (List.finRange cells.length) :=
      List.sublist_of_subperm_of_pairwise scanned (List.pairwise_pair.mpr before) (List.sortedLT_finRange _).pairwise
    have kept := List.pair_sublist_insertionSort (r := NotWorse fun pointer : CellPointer cells => quality cells[pointer])
      (le_of_eq same.symm) (List.reverse_sublist.mpr ordered)
    exact List.reverse_sublist.mpr kept

/-- The lines about a scan show the cells in the order of the array. -/
theorem sorted_eq_map_pointers : sorted quality cells = (pointers quality cells).map fun pointer : Fin cells.length => cells[pointer] := by
  have scan : (List.finRange cells.length).map (fun pointer => cells[pointer]) = cells :=
    List.ext_getElem (by simp) (by simp)
  have ranks : (ranked (fun pointer : CellPointer cells => quality cells[pointer]) [] (List.finRange cells.length)).map
      (fun pointer => cells[pointer]) = ranked quality [] cells := by
    have mapped := List.map_insertionSort (NotWorse fun pointer : CellPointer cells => quality cells[pointer])
      (NotWorse quality) (fun pointer => cells[pointer]) (List.finRange cells.length).reverse fun _ _ _ _ => Iff.rfl
    rw [ranked_eq, ranked_eq, mapped, List.map_reverse, scan]
  rw [pointers, List.map_reverse, ranks]
  rfl

end Order

/-- Both arrays of a scan rank their cells. -/
theorem cells_ranked (info : LteLcCellsInfo) :
    (∃ pointers, gciCellsSorted info.gciCells = some (pointers.map some) ∧ Ranks lteCellQuality info.gciCells pointers) ∧
    ∃ pointers, neighborCellsSorted info.neighborCells = some (pointers.map some) ∧
      Ranks lteNcellQuality info.neighborCells pointers :=
  ⟨⟨_, sortPointers_eq, pointers_ranks⟩, ⟨_, sortPointers_eq, pointers_ranks⟩⟩

end CoapsClient.ModemCells
