import Mathlib.Tactic.Common
import Mathlib.Data.List.Basic
import Mathlib.Data.List.TakeWhile

/-! # Byte arrays and strings of C

An array of a fixed size, and the strings in it that end with the first zero. Loading clears an array and
copies a value into it; storing overwrites a part of it. A text is an array with a zero in it, so that a
string that is read from it never leaves it.
-/

namespace CoapsClient.Machine

/-- The string at the start of some bytes. -/
def cstring (bytes : List UInt8) : List UInt8 := bytes.takeWhile (· ≠ 0)

/-- An array of bytes. -/
@[ext] structure Cells (size : ℕ) where
  bytes : List UInt8
  size_eq : bytes.length = size
deriving DecidableEq

/-- A cleared array with a value copied into it. -/
def Cells.load (size : ℕ) (value : List UInt8) : Cells size where
  bytes := value.take size ++ List.replicate (size - value.length) 0
  size_eq := by
    rw [List.length_append, List.length_take, List.length_replicate]
    omega

/-- The cleared array. -/
def Cells.zero (size : ℕ) : Cells size := .load size []

/-- The array with a value copied to an index. -/
def Cells.store {size : ℕ} (cells : Cells size) (index : ℕ) (value : List UInt8) : Cells size where
  bytes := (cells.bytes.take index ++ value ++ cells.bytes.drop (index + value.length)).take size
  size_eq := by
    simp only [List.length_take, List.length_append, List.length_drop, cells.size_eq]
    omega

/-- An array with a zero in it. -/
structure CText (size : ℕ) extends Cells size where
  terminated : 0 ∈ bytes
deriving DecidableEq

/-- The string in a text. -/
def CText.string {size : ℕ} (text : CText size) : List UInt8 := cstring text.bytes

/-- Nothing is read of an empty value only. -/
theorem eq_nil_of_take {value : List UInt8} {count : ℕ} (place : 0 < count) (nothing : (value.take count).length = 0) :
    value = [] := by
  rw [List.length_take] at nothing
  exact List.length_eq_zero_iff.mp (by omega)

section Strings

variable {size : ℕ} {bytes value rest : List UInt8}

theorem cstring_nonzero : ∀ byte ∈ cstring bytes, byte ≠ 0 := by
  intro byte found
  simpa using List.mem_takeWhile_imp found

/-- A string without a zero is all there is. -/
theorem cstring_eq (nonzero : 0 ∉ bytes) : cstring bytes = bytes := by
  refine List.takeWhile_eq_self_iff.mpr fun byte found => ?_
  exact decide_eq_true fun zero => nonzero (zero ▸ found)

theorem cstring_idem : cstring (cstring bytes) = cstring bytes :=
  cstring_eq fun found => cstring_nonzero 0 found rfl

/-- A zero ends the string that is in front of it. -/
theorem cstring_append_zero : cstring (bytes ++ 0 :: rest) = cstring bytes := by
  induction bytes with
  | nil => simp [cstring]
  | cons byte bytes ih =>
    simp only [cstring, List.cons_append, List.takeWhile_cons] at ih ⊢
    split
    · rw [ih]
    · rfl

theorem cstring_append_zeros (count : ℕ) : cstring (bytes ++ List.replicate count 0) = cstring bytes := by
  induction bytes with
  | nil => cases count <;> simp [cstring, List.replicate_succ]
  | cons byte bytes ih =>
    simp only [cstring, List.cons_append, List.takeWhile_cons] at ih ⊢
    split
    · rw [ih]
    · rfl

/-- A zero cuts a string off. -/
theorem cstring_length_lt (zero : 0 ∈ bytes) : (cstring bytes).length < bytes.length := by
  refine lt_of_le_of_ne (List.takeWhile_prefix _).length_le fun full => ?_
  have same : cstring bytes = bytes := (List.takeWhile_prefix _).eq_of_length full
  exact cstring_nonzero 0 (same ▸ zero) rfl

theorem cstring_eq_iff : (cstring bytes).length = bytes.length ↔ 0 ∉ bytes := by
  constructor
  · intro full zero
    exact absurd full (cstring_length_lt zero).ne
  · intro nonzero
    rw [cstring_eq nonzero]

/-- What follows a zero does not belong to a string. -/
theorem cstring_append (zero : 0 ∈ bytes) (rest : List UInt8) :
    cstring (bytes ++ rest) = cstring bytes := by
  induction bytes with
  | nil => contradiction
  | cons byte bytes ih =>
    simp only [cstring, List.cons_append, List.takeWhile_cons] at ih ⊢
    split
    · next other =>
      have later : 0 ∈ bytes := (List.mem_cons.mp zero).resolve_left fun first => by simp [← first] at other
      rw [ih later]
    · rfl

/-- A string ends with a zero. -/
theorem cstring_end (zero : 0 ∈ bytes) : bytes[(cstring bytes).length]? = some 0 := by
  induction bytes with
  | nil => contradiction
  | cons byte bytes ih =>
    by_cases isEnd : byte = 0
    · subst isEnd
      simp [cstring]
    · have later : 0 ∈ bytes := (List.mem_cons.mp zero).resolve_left fun first => isEnd first.symm
      have longer : cstring (byte :: bytes) = byte :: cstring bytes := by
        simp [cstring, isEnd]
      rw [longer, List.length_cons, List.getElem?_cons_succ]
      exact ih later

end Strings

section Arrays

variable {size index : ℕ} {cells : Cells size} {value : List UInt8}

theorem Cells.load_bytes (fits : value.length ≤ size) :
    (Cells.load size value).bytes = value ++ List.replicate (size - value.length) 0 := by
  simp only [Cells.load, List.take_of_length_le fits]

/-- A value that fills the array is all of it. -/
theorem Cells.load_full (all : value.length = size) : (Cells.load size value).bytes = value := by
  rw [Cells.load_bytes all.le, all, Nat.sub_self, List.replicate_zero, List.append_nil]

/-- Loading what an array holds gives the array again. -/
theorem Cells.load_self (cells : Cells size) : Cells.load size cells.bytes = cells :=
  Cells.ext (Cells.load_full cells.size_eq)

theorem Cells.take_load (fits : value.length ≤ size) :
    (Cells.load size value).bytes.take value.length = value := by
  rw [Cells.load_bytes fits, List.take_left]

/-- The start of an array survives to be loaded again. -/
theorem Cells.take_load_take {limit count : ℕ} (cells : Cells size) (fits : count ≤ limit)
    (place : limit ≤ size) :
    (Cells.load size ((cells.bytes.take count).take limit)).bytes.take count = cells.bytes.take count := by
  have length : (cells.bytes.take count).length = count := by
    rw [List.length_take, cells.size_eq]
    omega
  have loaded : (Cells.load size (cells.bytes.take count)).bytes.take (cells.bytes.take count).length =
      cells.bytes.take count := Cells.take_load (by omega)
  rw [List.take_take, Nat.min_eq_right fits]
  rwa [length] at loaded

theorem cstring_load (fits : value.length ≤ size) :
    cstring (Cells.load size value).bytes = cstring value := by
  rw [Cells.load_bytes fits, cstring_append_zeros]

/-- A value that leaves room for a zero is a text. -/
theorem Cells.load_terminated (room : value.length < size) : 0 ∈ (Cells.load size value).bytes := by
  rw [Cells.load_bytes room.le]
  exact List.mem_append_right _ (List.mem_replicate.mpr ⟨by omega, rfl⟩)

/-- What is found behind a store that fits. -/
theorem Cells.getElem?_store (query : ℕ) (fits : index + value.length ≤ size) :
    (cells.store index value).bytes[query]? =
      if index ≤ query ∧ query < index + value.length then value[query - index]? else cells.bytes[query]? := by
  have length := cells.size_eq
  have whole :
      (cells.bytes.take index ++ value ++ cells.bytes.drop (index + value.length)).length = size := by
    simp only [List.length_append, List.length_take, List.length_drop, length]
    omega
  have start : (cells.bytes.take index).length = index := by
    rw [List.length_take, length]
    omega
  simp only [Cells.store, List.take_of_length_le whole.le]
  split
  · next inside =>
    rw [List.getElem?_append_left (by rw [List.length_append, start]; omega),
      List.getElem?_append_right (by omega), start]
  · next outside =>
    by_cases before : query < index
    · rw [List.append_assoc, List.getElem?_append_left (by omega), List.getElem?_take_of_lt before]
    · rw [List.getElem?_append_right (by rw [List.length_append, start]; omega), List.length_append, start,
        List.getElem?_drop]
      congr 1
      omega

end Arrays

section Texts

variable {size : ℕ}

/-- A cleared text with the start of a value, up to the place for the zero. -/
def CText.load (size : ℕ) (value : List UInt8) (room : 0 < size) : CText size where
  toCells := .load size (value.take (size - 1))
  terminated := Cells.load_terminated (by rw [List.length_take]; omega)

theorem CText.string_length_lt (text : CText size) : text.string.length < size := by
  have shorter := cstring_length_lt text.terminated
  rwa [text.size_eq] at shorter

theorem CText.string_load (room : 0 < size) (value : List UInt8) :
    (CText.load size value room).string = cstring (value.take (size - 1)) :=
  cstring_load (by rw [List.length_take]; omega)

theorem CText.room (text : CText size) : 0 < size := (Nat.zero_le _).trans_lt text.string_length_lt

/-- The string of a text survives to be loaded again. -/
theorem CText.string_load_string (text : CText size) :
    (CText.load size text.string text.room).string = text.string := by
  have shorter := text.string_length_lt
  rw [CText.string_load, List.take_of_length_le (by omega), CText.string, cstring_idem]

end Texts

end CoapsClient.Machine
