import CoapsClient.Machine.Buffer

/-! # A buffer that is handed on in chunks

Items are written into a buffer; a full one is handed on as a chunk before the next item, and what is left with a flush.
`Emits` says what a sequence of such operations adds to the items that are handed on or in the buffer, so that a sequence
is never looked at for where its chunks end.
-/

namespace CoapsClient.Machine

variable {α : Type}

structure Chunks (α : Type) where
  cells : List α
  /-- The items in the buffer. -/
  offset : ℕ := 0
  /-- The chunks handed on. -/
  chunks : List (List α) := []
deriving DecidableEq

namespace Chunks

/-- Write an item. -/
def push (writer : Chunks α) (item : α) : Option (Chunks α) :=
  if writer.offset = writer.cells.length then
    (put writer.cells 0 item).map fun cells =>
      { cells, offset := 1, chunks := writer.chunks ++ [writer.cells.take writer.offset] }
  else (put writer.cells writer.offset item).map fun cells => { writer with cells, offset := writer.offset + 1 }

/-- Hand on what is left, also if this is nothing. -/
def flush (writer : Chunks α) : Chunks α :=
  { writer with offset := 0, chunks := writer.chunks ++ [writer.cells.take writer.offset] }

/-- The items written. -/
def items (writer : Chunks α) : List α := writer.chunks.flatten ++ writer.cells.take writer.offset

/-- The writer of a buffer of a size. -/
structure Fits (size : ℕ) (writer : Chunks α) : Prop where
  length : writer.cells.length = size
  inside : writer.offset ≤ size
  chunk : ∀ chunk ∈ writer.chunks, chunk ≠ [] ∧ chunk.length ≤ size

/-- An operation that stays in the buffer and writes items. -/
def Emits (size : ℕ) (step : Chunks α → Option (Chunks α)) (items : List α) : Prop :=
  ∀ writer : Chunks α, writer.Fits size → ∃ after, step writer = some after ∧ after.Fits size ∧
    after.items = writer.items ++ items

variable {size : ℕ} {step next : Chunks α → Option (Chunks α)} {first second written : List α}

theorem Emits.nil : Emits size (some : Chunks α → Option (Chunks α)) [] :=
  fun writer fits => ⟨writer, rfl, fits, (List.append_nil _).symm⟩

theorem Emits.bind (left : Emits size step first) (right : Emits size next second) :
    Emits size (fun writer => (step writer).bind next) (first ++ second) := by
  intro writer fits
  obtain ⟨middle, ran, fits, middles⟩ := left writer fits
  obtain ⟨after, rest, fits, afters⟩ := right middle fits
  exact ⟨after, by simp only [ran]; exact rest, fits, by rw [afters, middles, List.append_assoc]⟩

/-- A buffer that is not empty is a chunk. -/
theorem Fits.chunks {writer : Chunks α} (fits : writer.Fits size) (some : 0 < writer.offset) :
    ∀ chunk ∈ writer.chunks ++ [writer.cells.take writer.offset], chunk ≠ [] ∧ chunk.length ≤ size := by
  intro chunk member
  rcases List.mem_append.mp member with member | member
  · exact fits.chunk chunk member
  · have length : chunk.length = writer.offset := by
      rw [List.mem_singleton.mp member, List.length_take, fits.length]
      exact Nat.min_eq_left fits.inside
    exact ⟨List.ne_nil_of_length_pos (length ▸ some), length ▸ fits.inside⟩

theorem push_full {writer : Chunks α} {item : α} (full : writer.offset = writer.cells.length)
    (room : 0 < writer.cells.length) : writer.push item =
      some ⟨writer.cells.set 0 item, 1, writer.chunks ++ [writer.cells.take writer.offset]⟩ := by
  rw [push, if_pos full, put_eq room]
  rfl

theorem push_room {writer : Chunks α} {item : α} (room : writer.offset < writer.cells.length) : writer.push item =
    some { writer with cells := writer.cells.set writer.offset item, offset := writer.offset + 1 } := by
  rw [push, if_neg (Nat.ne_of_lt room), put_eq room]
  rfl

theorem emits_push (room : 0 < size) (item : α) : Emits size (push · item) [item] := by
  intro writer fits
  rcases Nat.eq_or_lt_of_le (fits.length ▸ fits.inside) with full | inside
  · refine ⟨_, push_full full (fits.length ▸ room), ⟨?_, room, fits.chunks (full ▸ fits.length ▸ room)⟩, ?_⟩
    · exact List.length_set.trans fits.length
    · have first : (writer.cells.set 0 item).take 1 = [item] := by
        cases cells : writer.cells with
        | nil => exact absurd room (by rw [← fits.length, cells]; exact Nat.lt_irrefl 0)
        | cons old rest => rfl
      simp [items, first]
  · refine ⟨_, push_room inside, ⟨?_, fits.length ▸ inside, fits.chunk⟩, ?_⟩
    · exact List.length_set.trans fits.length
    · have taken : (writer.cells.set writer.offset item).take (writer.offset + 1) =
          writer.cells.take writer.offset ++ [item] := by
        rw [List.take_add_one, List.take_set_of_le (Nat.le_refl _), List.getElem?_set_self inside]
        rfl
      simp only [items, taken, List.append_assoc]

/-- The buffer is not empty behind an item. -/
theorem offset_push {writer after : Chunks α} {item : α} (pushed : writer.push item = some after) : 0 < after.offset := by
  simp only [push] at pushed
  split at pushed
  · obtain ⟨cells, -, rfl⟩ := Option.map_eq_some_iff.mp pushed
    exact Nat.one_pos
  · obtain ⟨cells, -, rfl⟩ := Option.map_eq_some_iff.mp pushed
    exact Nat.succ_pos _

theorem offset_foldlM {writer after : Chunks α} {written : List α} (some : written ≠ [])
    (pushed : written.foldlM push writer = .some after) : 0 < after.offset := by
  obtain ⟨front, last, rfl⟩ := List.eq_nil_or_concat' written |>.resolve_left some
  rw [List.foldlM_append] at pushed
  obtain ⟨middle, -, pushed⟩ := Option.bind_eq_some_iff.mp pushed
  exact offset_push ((bind_pure _).symm.trans pushed)

theorem Fits.flush {writer : Chunks α} (fits : writer.Fits size) (some : 0 < writer.offset) : writer.flush.Fits size :=
  ⟨fits.length, Nat.zero_le _, fits.chunks some⟩

@[simp] theorem items_flush (writer : Chunks α) : writer.flush.items = writer.items := by
  simp [items, flush]

/-- After a flush all items are handed on. -/
@[simp] theorem flatten_flush (writer : Chunks α) : writer.flush.chunks.flatten = writer.items := by
  simp [items, flush]

theorem emits_foldlM (room : 0 < size) (written : List α) :
    Emits size (fun writer => written.foldlM push writer) written := by
  induction written with
  | nil => exact Emits.nil
  | cons item written ih =>
    simp only [List.foldlM_cons]
    exact (emits_push room item).bind ih

end Chunks

end CoapsClient.Machine
