import CoapsClient.Machine.Buffer
import Mathlib.Data.Int.Order.Basic

/-! # Writing at an index

A buffer that is written at an index, as a sequence of `index += snprintf(buf + index, len - index, ..)` does it:
`snprintf` returns the length of the whole text, so that the index may leave the buffer, and `len - index` is unsigned.
A store outside of the buffer has no value.

`start` is the start of the current line. `astray` records whether the index was in front of it; no operation reads it.
-/

namespace CoapsClient.Machine

/-- The zero at the end of a text. -/
def textEnd : Char := Char.ofNat 0

structure Writer where
  cells : List Char
  size : ℕ
  index : ℤ := 0
  start : ℤ := 0
  astray : Bool := false
deriving DecidableEq, Repr

/-- A buffer that nothing is written to. -/
def Writer.new (cells : List Char) : Writer := { cells, size := cells.length }

namespace Writer

variable (writer : Writer)

/-- `len - index`, in the 32 bits of a `size_t`. -/
def room : ℕ :=
  if writer.index ≤ writer.size then (writer.size - writer.index).toNat
  else 4294967296 - (writer.index - writer.size).toNat

/-- The index is set. -/
def move (index : ℤ) : Writer := { writer with index, astray := writer.astray || index < writer.start }

/-- `start = index`. -/
def mark : Writer := { writer with start := writer.index }

/-- `buf[index] = char`. -/
def store (char : Char) : Option Writer :=
  if writer.index < 0 then none else (put writer.cells writer.index.toNat char).map fun cells => { writer with cells }

/-- `buf[index++] = char`. -/
def append (char : Char) : Option Writer := (writer.store char).map fun writer => writer.move (writer.index + 1)

/-- `index += snprintf(buf + index, len - index, ..)`: what has room, with a zero behind it. -/
def print (text : List Char) : Option Writer :=
  if writer.index = writer.size then some (writer.move (writer.index + text.length))
  else if writer.index < 0 then none
  else (putAll writer.cells writer.index.toNat (text.take (writer.room - 1) ++ [textEnd])).map fun cells =>
    { writer with cells }.move (writer.index + text.length)

/-- A function that is called with `buf + index` and `len - index`, and what it returns. -/
def call (builder : Writer → Option (Writer × ℤ)) : Option (Writer × ℤ) :=
  if writer.index < 0 then none
  else (builder { cells := writer.cells.drop writer.index.toNat, size := writer.room }).map fun (inner, result) =>
    ({ writer with
        cells := writer.cells.take writer.index.toNat ++ inner.cells
        astray := writer.astray || inner.astray }, result)

end Writer

/-- A writer in a buffer of a size that holds a text and has kept to its lines. -/
structure Holds (writer : Writer) (size : ℕ) (text : List Char) : Prop where
  length : writer.cells.length = size
  size : writer.size = size
  index : writer.index = text.length
  front : text <+: writer.cells
  start : writer.start ≤ text.length
  steady : writer.astray = false

section Holding

variable {writer : Writer} {size : ℕ} {text more : List Char} {char : Char}

theorem Holds.new (cells : List Char) : Holds (.new cells) cells.length [] where
  length := rfl
  size := rfl
  index := rfl
  front := List.nil_prefix
  start := Int.le_refl _
  steady := rfl

theorem Holds.mark (holds : Holds writer size text) : Holds writer.mark size text :=
  { holds with start := le_of_eq holds.index }

theorem Holds.room (holds : Holds writer size text) (fits : text.length ≤ size) :
    writer.room = size - text.length := by
  rw [Writer.room, holds.index, holds.size]
  split <;> omega

/-- A store behind the text. -/
theorem Holds.append (holds : Holds writer size text) (fits : text.length < size) :
    ∃ next, writer.append char = some next ∧ Holds next size (text ++ [char]) ∧ next.start = writer.start := by
  obtain ⟨rest, cells⟩ := holds.front
  have total := holds.length
  rw [← cells, List.length_append] at total
  obtain ⟨old, rest, rfl⟩ := List.exists_cons_of_length_pos (l := rest) (by omega)
  have stored : put writer.cells writer.index.toNat char = some (text ++ char :: rest) := by
    have behind := @put_append _ text (old :: rest) 0 char
    rw [← cells, holds.index, Int.toNat_natCast]
    simpa using behind
  have inside : ¬ writer.index < 0 := by
    rw [holds.index]
    omega
  have start := holds.start
  have run : writer.append char = some ({ writer with cells := text ++ char :: rest }.move (writer.index + 1)) := by
    rw [Writer.append, Writer.store, if_neg inside, stored]
    rfl
  refine ⟨_, run, ⟨?_, holds.size, ?_, ?_, ?_, ?_⟩, rfl⟩
  · rw [← total]
    simp [Writer.move]
  · simp [Writer.move, holds.index]
  · exact ⟨rest, by simp [Writer.move]⟩
  · simp only [Writer.move, List.length_append, List.length_singleton]
    omega
  · simp only [Writer.move, holds.steady, holds.index, Bool.false_or, decide_eq_false_iff_not]
    omega

/-- A text that has room with its zero is appended. -/
theorem Holds.print (holds : Holds writer size text) (fits : text.length + more.length < size) :
    ∃ next, writer.print more = some next ∧ Holds next size (text ++ more) ∧ next.start = writer.start := by
  obtain ⟨rest, cells⟩ := holds.front
  have total := holds.length
  rw [← cells, List.length_append] at total
  have whole : more.take (writer.room - 1) = more := by
    rw [holds.room (by omega)]
    exact List.take_of_length_le (by omega)
  have stored : putAll writer.cells writer.index.toNat (more ++ [textEnd]) =
      some (text ++ (more ++ [textEnd] ++ rest.drop (more ++ [textEnd]).length)) := by
    have behind := @putAll_append _ text rest (more ++ [textEnd]) 0
    rw [putAll_zero (by rw [List.length_append, List.length_singleton]; omega)] at behind
    rw [← cells, holds.index, Int.toNat_natCast]
    simpa using behind
  have notEnd : writer.index ≠ writer.size := by
    rw [holds.index, holds.size]
    omega
  have inside : ¬ writer.index < 0 := by
    rw [holds.index]
    omega
  have start := holds.start
  have run : writer.print more = some ({ writer with
      cells := text ++ (more ++ [textEnd] ++ rest.drop (more ++ [textEnd]).length) }.move (writer.index + more.length)) := by
    rw [Writer.print, if_neg notEnd, if_neg inside, whole, stored]
    rfl
  refine ⟨_, run, ⟨?_, holds.size, ?_, ?_, ?_, ?_⟩, rfl⟩
  · simp only [Writer.move, List.length_append, List.length_drop, List.length_singleton]
    omega
  · simp [Writer.move, holds.index]
  · exact ⟨textEnd :: rest.drop (more ++ [textEnd]).length, by simp [Writer.move]⟩
  · simp only [Writer.move, List.length_append]
    omega
  · simp only [Writer.move, holds.steady, holds.index, Bool.false_or, decide_eq_false_iff_not]
    omega

/-- The last character is taken back. -/
theorem Holds.back (holds : Holds writer size (text ++ [char])) (line : writer.start ≤ text.length) :
    Holds (writer.move (writer.index - 1)) size text where
  length := holds.length
  size := holds.size
  index := by
    simp only [Writer.move, holds.index, List.length_append, List.length_singleton]
    omega
  front := (List.prefix_append _ _).trans holds.front
  start := line
  steady := by
    have index := holds.index
    rw [List.length_append, List.length_singleton] at index
    simp only [Writer.move, holds.steady, Bool.false_or, decide_eq_false_iff_not]
    omega

/-- Printing does not forget that the index was in front of a line. -/
theorem Writer.print_astray {next : Writer} (run : writer.print more = some next) (astray : writer.astray = true) :
    next.astray = true := by
  unfold Writer.print at run
  split at run
  · rw [← Option.some_inj.mp run, Writer.move, astray]
    rfl
  split at run
  · cases run
  · obtain ⟨cells, _, rfl⟩ := Option.map_eq_some_iff.mp run
    rw [Writer.move, astray]
    rfl

/-- A function that appends a text and returns its length. -/
theorem Holds.call {builder : Writer → Option (Writer × ℤ)} (holds : Holds writer size text) (fits : text.length ≤ size)
    (builds : ∀ inner : Writer, inner.start = 0 → Holds inner (size - text.length) [] →
      ∃ next, builder inner = some (next, (more.length : ℤ)) ∧ Holds next (size - text.length) more) :
    ∃ next : Writer, writer.call builder = some (next, (more.length : ℤ)) ∧
      Holds (next.move (next.index + more.length)) size (text ++ more) ∧ next.start = writer.start := by
  obtain ⟨rest, cells⟩ := holds.front
  have total := holds.length
  rw [← cells, List.length_append] at total
  have drop : writer.cells.drop writer.index.toNat = rest := by
    rw [← cells, holds.index, Int.toNat_natCast, List.drop_left]
  have take : writer.cells.take writer.index.toNat = text := by
    rw [← cells, holds.index, Int.toNat_natCast, List.take_left]
  obtain ⟨next, run, built⟩ := builds { cells := rest, size := writer.room } rfl
    ⟨by change rest.length = _; omega, holds.room fits, rfl, List.nil_prefix, Int.le_refl _, rfl⟩
  obtain ⟨behind, cells'⟩ := built.front
  have inside : ¬ writer.index < 0 := by
    rw [holds.index]
    omega
  have start := holds.start
  have length := built.length
  have called : writer.call builder = some ({ writer with
      cells := text ++ next.cells, astray := writer.astray || next.astray }, (more.length : ℤ)) := by
    rw [Writer.call, if_neg inside, drop, run, take]
    rfl
  refine ⟨_, called, ⟨?_, holds.size, ?_, ?_, ?_, ?_⟩, rfl⟩
  · simp only [Writer.move, List.length_append]
    omega
  · simp [Writer.move, holds.index]
  · exact ⟨behind, by simp only [Writer.move, ← cells', List.append_assoc]⟩
  · simp only [Writer.move, List.length_append]
    omega
  · simp only [Writer.move, holds.steady, built.steady, holds.index, Bool.false_or, decide_eq_false_iff_not]
    omega

end Holding

end CoapsClient.Machine
