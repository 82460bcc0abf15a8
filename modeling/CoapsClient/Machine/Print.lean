import CoapsClient.Machine.Region

/-! # Texts printed into a buffer

A buffer with the index up to which a text is in it. `snprintf` and an encoder put a zero behind what they write, and
the next text overwrites it. Where there is room, printing appends to the text and keeps what is there.
-/

namespace CoapsClient.Machine

/-- A buffer, and the index behind the text in it. -/
structure Output where
  buffer : List UInt8
  index : ℕ
deriving DecidableEq, Repr

/-- `snprintf` of a whole text: what has room, with a zero behind it. -/
def snprintf (buffer : List UInt8) (dest size : ℕ) (text : List UInt8) : List UInt8 :=
  if 0 < size then storeAt buffer dest (text.take (size - 1) ++ [0]) else buffer

/-- The text in a buffer. -/
def Output.text (out : Output) : List UInt8 := out.buffer.take out.index

/-- `len - index`, in the 32 bits of a `size_t`. -/
def Output.room (out : Output) (len : ℕ) : ℕ :=
  if out.index ≤ len then len - out.index else 4294967296 - (out.index - len)

/-- `index += snprintf(buf + index, len - index, ..)`. -/
def Output.print (out : Output) (len : ℕ) (text : List UInt8) : Output :=
  { buffer := snprintf out.buffer out.index (out.room len) text, index := out.index + text.length }

/-- `buf[index++] = '\n'`. -/
def Output.newline (out : Output) : Output :=
  { buffer := storeAt out.buffer out.index [10], index := out.index + 1 }

/-- An encoded text, when it has room with its zero. -/
def Output.encode (out : Output) (len : ℕ) (coded : List UInt8) : Option Output :=
  if coded.length + 1 ≤ out.room len then
    some { buffer := storeAt out.buffer out.index (coded ++ [0]), index := out.index + coded.length }
  else none

/-- A line with a head and an encoded text, and whether there is one: without room the index is set back. -/
def Output.line (out : Output) (len : ℕ) (head coded : List UInt8) : Bool × Output :=
  match (out.print len head).encode len coded with
  | some line => (true, line.newline)
  | none => (false, { out.print len head with index := out.index })

/-- A text is appended, and the buffer keeps its size. -/
structure Appends (out : Output) (text : List UInt8) (next : Output) : Prop where
  index : next.index = out.index + text.length
  length : next.buffer.length = out.buffer.length
  text : next.text = out.text ++ text

section Appending

variable {out middle next : Output} {first second text : List UInt8}

theorem Appends.refl (out : Output) : Appends out [] out := ⟨rfl, rfl, (List.append_nil _).symm⟩

theorem Appends.trans (left : Appends out first middle) (right : Appends middle second next) :
    Appends out (first ++ second) next where
  index := by rw [right.index, left.index, List.length_append, Nat.add_assoc]
  length := right.length.trans left.length
  text := by rw [right.text, left.text, List.append_assoc]

/-- Storing behind the text what has room, and moving the index over some of it. -/
theorem appends_store {bytes : List UInt8} (start : text <+: bytes)
    (fits : out.index + bytes.length ≤ out.buffer.length) :
    Appends out text { buffer := storeAt out.buffer out.index bytes, index := out.index + text.length } := by
  obtain ⟨rest, rfl⟩ := start
  have front : (out.buffer.take out.index).length = out.index := by
    rw [List.length_take]
    omega
  refine ⟨rfl, ?_, ?_⟩
  · simp only [storeAt, List.length_append, List.length_drop, front] at fits ⊢
    omega
  · simp only [Output.text, storeAt, List.append_assoc]
    have split (rest : List UInt8) : (out.buffer.take out.index ++ rest).take (out.index + text.length) =
        out.buffer.take out.index ++ rest.take text.length := by
      have whole := @List.take_length_add_append _ (out.buffer.take out.index) rest text.length
      rwa [front] at whole
    rw [split, List.take_left]

theorem Output.newline_appends (fits : out.index + 1 ≤ out.buffer.length) : Appends out [10] out.newline :=
  appends_store (List.prefix_refl _) fits

theorem Output.print_appends {len : ℕ} (size : out.buffer.length = len)
    (fits : out.index + text.length + 1 ≤ len) : Appends out text (out.print len text) := by
  have room : out.room len = len - out.index := if_pos (by omega)
  have whole : text.take (len - out.index - 1) = text := List.take_of_length_le (by omega)
  simp only [Output.print, snprintf, room, whole]
  rw [if_pos (by omega)]
  exact appends_store (List.prefix_append text [0]) (by rw [List.length_append, List.length_singleton]; omega)

/-- A line that has room is appended with its newline. -/
theorem Output.line_appends {len : ℕ} {head coded : List UInt8} (size : out.buffer.length = len)
    (fits : out.index + head.length + coded.length + 1 ≤ len) :
    (out.line len head coded).1 = true ∧ Appends out (head ++ coded ++ [10]) (out.line len head coded).2 := by
  have printed : Appends out head (out.print len head) := Output.print_appends size (by omega)
  have length := printed.length.trans size
  have place : coded.length + 1 ≤ (out.print len head).room len := by
    rw [Output.room, if_pos (by rw [printed.index]; omega), printed.index]
    omega
  have encoded : Appends (out.print len head) coded
      { buffer := storeAt (out.print len head).buffer (out.print len head).index (coded ++ [0])
        index := (out.print len head).index + coded.length } := by
    refine appends_store (List.prefix_append coded [0]) ?_
    rw [List.length_append, List.length_singleton, printed.index, length]
    omega
  simp only [Output.line, Output.encode, if_pos place]
  refine ⟨trivial, (printed.trans encoded).trans (Output.newline_appends ?_)⟩
  rw [encoded.length, length, encoded.index, printed.index]
  omega

end Appending

end CoapsClient.Machine
