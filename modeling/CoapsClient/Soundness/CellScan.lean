import CoapsClient.Machine.Separated
import CoapsClient.Model.Modem.Cells
import Mathlib.Data.List.Induction
import Mathlib.Data.List.Infix

/-! # The text of a cell scan

A line that does not fit is cut to what is left with one character for the zero. The line feed takes the place of that
zero, and the zero goes behind the buffer. The text stays in the buffer as long as each line fits, or the lines fill it up
to the place of the zero, where nothing is appended anymore.
-/

namespace CoapsClient.ModemCells

open Machine (put putAll textEnd putAll_append putAll_items putAll_zero putAll_eq_none)
open Machine (ended ended_append ended_nil ended_cons ended_ne_nil)
open ShCmd (Text)
open CoapAppl (LteMode)

/-- A buffer with a text, and a zero behind it. -/
structure Showing (len : ℕ) (text : Text) (result : Text × ℕ) : Prop where
  length : result.1.length = len
  index : result.2 = text.length
  front : text <+: result.1
  below : text.length < len
  zero : text = [] ∨ result.1[text.length]? = some textEnd

/-- What each call does: it stays in the buffer, the index does not decrease and is in the buffer, a zero is there, and in
front of it are the lines, up to what fits in the buffer. -/
def KeptByCalls (len : ℕ) (buf : Text) (lines : List Text) : Prop :=
  ∀ front line back, lines = front ++ line :: back → ∃ before idx cells next,
    appendResults len buf front = some (before, idx) ∧ appendResult len before idx line = some (cells, next) ∧
      cells.length = len ∧ idx ≤ next ∧ next < len ∧ cells[next]? = some textEnd ∧
      cells.take next = (ended '\n' (front ++ [line])).take (len - 1)

/-- The lines fit with a zero, or some of them fill the buffer up to the place of the zero. -/
def Fits (len : ℕ) (lines : List Text) : Prop :=
  (ended '\n' lines).length < len ∨ ∃ front, front <+: lines ∧ (ended '\n' front).length + 1 = len

section Calls

variable {len idx : ℕ} {buf text line : Text} {lines front : List Text} {result : Text × ℕ}

private theorem length_ended_concat :
    (ended '\n' (front ++ [line])).length = (ended '\n' front).length + line.length + 1 := by
  rw [ended_append, ended_cons, ended_nil, List.length_append, List.length_append, List.length_singleton]
  omega

private theorem length_ended_le (front_le : front <+: lines) : (ended '\n' front).length ≤ (ended '\n' lines).length := by
  obtain ⟨back, rfl⟩ := front_le
  rw [ended_append, List.length_append]
  omega

/-- What a call stores where the buffer is long enough. -/
private theorem appendResult_eq (showing : Showing len text result) (nonempty : line ≠ []) (more : text.length + 1 < len) :
    appendResult len result.1 result.2 line =
      (putAll result.1 text.length (line.take (len - text.length - 1) ++ ['\n', textEnd])).map
        fun buf => (buf, text.length + min (len - text.length - 1) line.length + 1) := by
  have positive := List.length_pos_of_ne_nil nonempty
  have copied : 0 < min (len - text.length - 1) line.length := by omega
  unfold appendResult
  rw [showing.index, if_pos showing.below]
  dsimp only
  rw [if_pos copied, putAll_items, if_neg (by omega), List.length_take]
  have same : line.take (min (len - text.length - 1) line.length) = line.take (len - text.length - 1) := by
    rw [← List.take_take, List.take_length]
  rw [same]
  cases putAll result.1 text.length (line.take (len - text.length - 1)) with
  | none => rfl
  | some first =>
    simp only [putAll, Option.bind_eq_bind, Option.bind_some]
    cases put first (text.length + min (len - text.length - 1) line.length) '\n' with
    | none => rfl
    | some second =>
      simp only [Option.bind_some, Nat.add_assoc]
      cases put second _ textEnd <;> rfl

/-- A line that fits is appended with a line feed. -/
private theorem appendResult_fits (showing : Showing len text result) (nonempty : line ≠ [])
    (fits : text.length + line.length + 1 < len) :
    ∃ next, appendResult len result.1 result.2 line = some next ∧ Showing len (text ++ (line ++ ['\n'])) next := by
  obtain ⟨rest, cells⟩ := showing.front
  have total := showing.length
  rw [← cells, List.length_append] at total
  have whole : line.take (len - text.length - 1) = line := List.take_of_length_le (by omega)
  have room : (line ++ ['\n', textEnd]).length ≤ rest.length := by
    rw [List.length_append, List.length_cons, List.length_singleton]
    omega
  have stored := @putAll_append _ text rest (line ++ ['\n', textEnd]) 0
  rw [putAll_zero room, Nat.add_zero, cells] at stored
  rw [appendResult_eq showing nonempty (by omega), whole, stored]
  have shape : text ++ (line ++ ['\n', textEnd] ++ rest.drop (line ++ ['\n', textEnd]).length) =
      text ++ (line ++ ['\n']) ++ textEnd :: rest.drop (line ++ ['\n', textEnd]).length := by simp
  refine ⟨_, rfl, ?_, ?_, ?_, ?_, .inr ?_⟩
  · simp only [List.length_append, List.length_drop, List.length_cons, List.length_nil] at room ⊢
    omega
  · simp only [List.length_append, List.length_singleton]
    omega
  · exact ⟨_, shape.symm⟩
  · simp only [List.length_append, List.length_singleton]
    omega
  · dsimp only
    rw [shape, List.getElem?_append_right (Nat.le_refl _), Nat.sub_self]
    rfl

/-- A line that does not fit is stored up to behind the buffer. -/
private theorem appendResult_cut (showing : Showing len text result) (nonempty : line ≠ []) (more : text.length + 1 < len)
    (long : len ≤ text.length + line.length + 1) : appendResult len result.1 result.2 line = none := by
  obtain ⟨rest, cells⟩ := showing.front
  have total := showing.length
  rw [← cells, List.length_append] at total
  have outside : rest.length < (line.take (len - text.length - 1) ++ ['\n', textEnd]).length := by
    simp only [List.length_append, List.length_take, List.length_cons, List.length_nil]
    omega
  have stored := @putAll_append _ text rest (line.take (len - text.length - 1) ++ ['\n', textEnd]) 0
  rw [putAll_eq_none outside, Nat.add_zero, cells] at stored
  rw [appendResult_eq showing nonempty more, stored]
  rfl

/-- Where only the zero has its place, nothing is appended. -/
private theorem appendResult_full (showing : Showing len text result) (full : text.length + 1 = len) :
    appendResult len result.1 result.2 line = some result := by
  unfold appendResult
  rw [showing.index, if_pos showing.below]
  dsimp only
  rw [if_neg (by omega), ← showing.index]

private theorem appendResults_concat : appendResults len buf (front ++ [line]) =
    (appendResults len buf front).bind fun result => appendResult len result.1 result.2 line := by
  unfold appendResults
  rw [List.foldlM_append]
  exact Option.bind_congr fun result _ => by rw [List.foldlM_cons]; exact bind_pure _

/-- As long as the lines fit, the buffer shows them. -/
private theorem appendResults_below (size : buf.length = len) (nonempty : ∀ line ∈ front, line ≠ [])
    (below : (ended '\n' front).length < len) :
    ∃ result, appendResults len buf front = some result ∧ Showing len (ended '\n' front) result := by
  induction front using List.reverseRecOn with
  | nil => exact ⟨_, rfl, size, rfl, List.nil_prefix, below, .inl rfl⟩
  | append_singleton front line ih =>
    rw [length_ended_concat] at below
    obtain ⟨result, run, showing⟩ := ih (fun line found => nonempty line (List.mem_append_left _ found)) (by omega)
    obtain ⟨next, call, shown⟩ := appendResult_fits showing (nonempty line List.mem_concat_self) (by omega)
    refine ⟨next, ?_, ?_⟩
    · rw [appendResults_concat, run]
      exact call
    · rwa [ended_append, ended_cons, ended_nil]

/-- Where nothing is appended anymore, more lines change nothing. -/
private theorem appendResults_full (run : appendResults len buf front = some result) (showing : Showing len text result)
    (full : text.length + 1 = len) (more : List Text) : appendResults len buf (front ++ more) = some result := by
  induction more using List.reverseRecOn with
  | nil => rwa [List.append_nil]
  | append_singleton more line ih =>
    rw [← List.append_assoc, appendResults_concat, ih]
    exact appendResult_full showing full

/-- The buffer shows the lines, up to what fits. -/
private theorem appendResults_shown (size : buf.length = len) (nonempty : ∀ line ∈ lines, line ≠ []) (fits : Fits len lines)
    (part : front <+: lines) :
    ∃ result, appendResults len buf front = some result ∧ Showing len ((ended '\n' front).take (len - 1)) result := by
  have members : ∀ line ∈ front, line ≠ [] := fun line found => nonempty line (part.subset found)
  rcases Nat.lt_or_ge (ended '\n' front).length len with below | behind
  · rw [List.take_of_length_le (by omega)]
    exact appendResults_below size members below
  rcases fits with below | ⟨first, firstPart, full⟩
  · have least := length_ended_le part
    omega
  -- the lines that fill the buffer are in front
  obtain ⟨more, rfl⟩ : first <+: front := by
    rcases List.prefix_or_prefix_of_prefix firstPart part with before | after
    · exact before
    · have least := length_ended_le after
      omega
  obtain ⟨result, run, showing⟩ := appendResults_below size
    (fun line found => members line (List.mem_append_left _ found)) (by omega : (ended '\n' first).length < len)
  refine ⟨result, appendResults_full run showing full more, ?_⟩
  rw [ended_append, List.take_append_of_le_length (by omega), List.take_of_length_le (by omega)]
  exact showing

/-- Each call keeps to the buffer and to the lines, as long as they fit. -/
private theorem keptByCalls_of_fits (two : 2 ≤ len) (size : buf.length = len) (nonempty : ∀ line ∈ lines, line ≠ [])
    (fits : Fits len lines) : KeptByCalls len buf lines := by
  rintro front line back rfl
  have part : front ++ [line] <+: front ++ line :: back := ⟨back, by simp⟩
  obtain ⟨before, run, showing⟩ := appendResults_shown size nonempty fits (List.prefix_append front _)
  obtain ⟨after, run', shown⟩ := appendResults_shown size nonempty fits part
  rw [appendResults_concat, run] at run'
  have some' : (ended '\n' (front ++ [line])).take (len - 1) ≠ [] := by
    rw [ne_eq, List.take_eq_nil_iff]
    rintro (none | none)
    · omega
    · exact ended_ne_nil (by simp) none
  refine ⟨before.1, before.2, after.1, after.2, run, run', shown.length, ?_, ?_, ?_, ?_⟩
  · rw [showing.index, shown.index, List.length_take, List.length_take, length_ended_concat]
    omega
  · rw [shown.index]
    exact shown.below
  · rw [shown.index]
    exact shown.zero.resolve_left some'
  · rw [shown.index]
    exact (List.prefix_iff_eq_take.mp shown.front).symm

/-- If each call stays in the buffer, each line fits, or the lines in front of it fill the buffer. -/
private theorem fits_of_run (two : 2 ≤ len) (size : buf.length = len) (nonempty : ∀ line ∈ front, line ≠ [])
    (run : appendResults len buf front = some result) : Fits len front := by
  induction front using List.reverseRecOn generalizing result with
  | nil => exact .inl (by rw [ended_nil, List.length_nil]; omega)
  | append_singleton front line ih =>
    rw [appendResults_concat] at run
    obtain ⟨before, run, call⟩ := Option.bind_eq_some_iff.mp run
    have members : ∀ line ∈ front, line ≠ [] := fun line found => nonempty line (List.mem_append_left _ found)
    have shorter : front <+: front ++ [line] := List.prefix_append front _
    rcases ih members run with below | ⟨first, firstPart, full⟩
    · by_cases full : (ended '\n' front).length + 1 = len
      · exact .inr ⟨front, shorter, full⟩
      refine .inl ?_
      rw [length_ended_concat]
      obtain ⟨shown, run', showing⟩ := appendResults_below size members below
      obtain rfl : before = shown := Option.some_inj.mp (run.symm.trans run')
      by_contra long
      rw [appendResult_cut showing (nonempty line List.mem_concat_self) (by omega) (by omega)] at call
      contradiction
    · exact .inr ⟨first, firstPart.trans shorter, full⟩

/-- Where each call has a result, all of them have. -/
theorem KeptByCalls.run (kept : KeptByCalls len buf lines) : ∃ result, appendResults len buf lines = some result := by
  rcases List.eq_nil_or_concat lines with rfl | ⟨front, line, rfl⟩
  · exact ⟨_, rfl⟩
  · obtain ⟨before, idx, cells, next, run, call, -⟩ := kept front line [] List.concat_eq_append
    rw [List.concat_eq_append, appendResults_concat, run]
    exact ⟨_, call⟩

end Calls

/-- A line is not empty if its first text is not. -/
private theorem line_ne_nil {first : Text} (nonempty : first ≠ []) (rest : Text) : line (first ++ rest) ≠ [] := by
  rw [line, ne_eq, List.take_eq_nil_iff]
  exact not_or.mpr ⟨by decide, List.append_ne_nil_of_left_ne_nil nonempty rest⟩

private theorem headLine_ne_nil (mode : LteMode) (info : LteLcCellsInfo) : headLine mode info ≠ [] := by
  simp only [headLine, List.append_assoc]
  refine line_ne_nil ?_ _
  cases mode <;> decide

private theorem currentLine_ne_nil (cell : LteLcCell) : currentLine cell ≠ [] := by
  simp only [currentLine, List.append_assoc]
  exact line_ne_nil (by decide) _

private theorem gciLine_ne_nil (width : ℕ) (current : Bool) (index : ℕ) (cell : LteLcCell) :
    gciLine width current index cell ≠ [] := by
  simp only [gciLine, List.append_assoc]
  exact line_ne_nil (List.cons_ne_nil _ _) _

private theorem neighborLine_ne_nil (width index : ℕ) (cell : LteLcNcell) : neighborLine width index cell ≠ [] := by
  simp only [neighborLine, List.append_assoc]
  exact line_ne_nil (List.cons_ne_nil _ _) _

private theorem gciLines_ne_nil (scans : Scans) (now all : ℤ) (cells : List LteLcCell) :
    ∀ text ∈ (gciLines scans now all cells).1, text ≠ [] := by
  simp only [gciLines, List.append_assoc]
  refine List.forall_mem_append.mpr ⟨?head, List.forall_mem_append.mpr ⟨?cells,
    List.forall_mem_append.mpr ⟨?current, ?scans⟩⟩⟩
  case head => exact List.forall_mem_singleton.mpr (line_ne_nil (by decide) _)
  case cells =>
    intro text found
    obtain ⟨index, inside, rfl⟩ := List.mem_mapIdx.mp found
    exact gciLine_ne_nil _ _ _ _
  case current =>
    intro text found
    obtain ⟨index, -, rfl⟩ := Option.map_eq_some_iff.mp (Option.mem_toList.mp found)
    exact line_ne_nil (by decide) _
  case scans =>
    split
    · exact List.forall_mem_nil _
    · exact List.forall_mem_singleton.mpr (line_ne_nil (by decide) _)

private theorem neighborLines_ne_nil (now : ℤ) (cells : List LteLcNcell) : ∀ text ∈ neighborLines now cells, text ≠ [] := by
  simp only [neighborLines, List.append_assoc]
  refine List.forall_mem_append.mpr ⟨?cells, ?scan⟩
  case cells =>
    split
    · exact List.forall_mem_nil _
    · refine List.forall_mem_cons.mpr ⟨line_ne_nil (List.cons_ne_nil _ _) _, fun text found => ?_⟩
      obtain ⟨index, inside, rfl⟩ := List.mem_mapIdx.mp found
      exact neighborLine_ne_nil _ _ _
  case scan =>
    split
    · exact List.forall_mem_nil _
    · exact List.forall_mem_singleton.mpr (line_ne_nil (by decide) _)

/-- A scan appends no empty line. -/
private theorem resultLines_ne_nil (scans : Scans) (now : ℤ) (info : LteLcCellsInfo) :
    ∀ text ∈ (resultLines scans now info).1, text ≠ [] := by
  have front : ∀ text ∈ headLine scans.mode info ::
      (if info.currentCell.id = lteLcCellEutranIdInvalid then [] else [currentLine info.currentCell]), text ≠ [] := by
    refine List.forall_mem_cons.mpr ⟨headLine_ne_nil _ _, ?_⟩
    split
    · exact List.forall_mem_nil _
    · exact List.forall_mem_singleton.mpr (currentLine_ne_nil _)
  unfold resultLines
  split
  case isTrue none =>
    exact List.forall_mem_append.mpr ⟨front, neighborLines_ne_nil now info.neighborCells⟩
  case isFalse some =>
    exact List.forall_mem_append.mpr ⟨front, gciLines_ne_nil _ now _ info.gciCells⟩

private theorem lteNeighborCellMeas_eq_none {scans : Scans} {now : ℤ} {info : LteLcCellsInfo} {len : ℕ} {buf : Text}
    (size : buf.length = len) (none : appendResults len buf (resultLines scans now info).1 = none) :
    lteNeighborCellMeas scans now info buf = .none := by
  subst size
  unfold lteNeighborCellMeas
  dsimp only
  rw [none]
  rfl

/-- A cell of a dense network. -/
def denseCell (index : ℕ) : LteLcCell where
  mcc := 262
  mnc := 1
  id := 0x01a2b300 + index
  tac := 0x4e20
  earfcn := 6400
  physCellId := 100 + index
  rsrp := 50 - index
  rsrq := 20

def denseScans : Scans := { mode := .ltem, cell := 0x01a2b300, earfcn := 6400 }

/-- The lines of a scan with some cells. -/
def denseLines (count : ℕ) : List Text :=
  (resultLines denseScans 12000 { currentCell := denseCell 0, gciCells := (List.range count).map denseCell }).1

/-- `append_result` stays in the buffer with the lines of a scan if and only if they fit with a zero, or some of them fill
the buffer up to the place of the zero. -/
theorem cell_scan_iff (len : ℕ) (two : 2 ≤ len) (buf : Text) (size : buf.length = len) (lines : List Text)
    (nonempty : ∀ line ∈ lines, line ≠ []) : KeptByCalls len buf lines ↔ Fits len lines :=
  ⟨fun kept => kept.run.elim fun _ run => fits_of_run two size nonempty run, keptByCalls_of_fits two size nonempty⟩

theorem cell_scan_two : KeptByCalls 800 (List.replicate 800 'x') (denseLines 2) :=
  (cell_scan_iff 800 (by decide) (List.replicate 800 'x') List.length_replicate (denseLines 2)
    (resultLines_ne_nil _ _ _)).mpr (.inl (by decide +kernel))

/-- A scan with 10 cells stores outside of its buffer. -/
theorem cell_scan_outside :
    lteNeighborCellMeas denseScans 12000 { currentCell := denseCell 0, gciCells := (List.range 10).map denseCell }
      (List.replicate 800 'x') = none ∧ ¬ KeptByCalls 800 (List.replicate 800 'x') (denseLines 10) := by
  have long : ¬ Fits 800 (denseLines 10) := by
    rintro (below | ⟨front, part, full⟩)
    · exact absurd below (by decide +kernel)
    · have other : ∀ front ∈ (denseLines 10).inits, (ended '\n' front).length + 1 ≠ 800 := by decide +kernel
      exact other front ((List.mem_inits _ _).mpr part) full
  have nonempty : ∀ line ∈ denseLines 10, line ≠ [] := resultLines_ne_nil _ _ _
  have none : appendResults 800 (List.replicate 800 'x') (denseLines 10) = none :=
    Option.eq_none_iff_forall_ne_some.mpr fun _ run => long (fits_of_run (by decide) List.length_replicate nonempty run)
  refine ⟨lteNeighborCellMeas_eq_none List.length_replicate none, fun kept => ?_⟩
  obtain ⟨result, run⟩ := kept.run
  exact Option.some_ne_none result (run.symm.trans none)

end CoapsClient.ModemCells
