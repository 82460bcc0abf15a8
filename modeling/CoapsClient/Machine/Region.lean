import CoapsClient.Machine.CString

/-! # Arrays in a memory

A memory is a list of bytes, and an array lies somewhere in it. Loads and stores of the memory that stay in the
array are those of the array, and leave what lies in front of it and behind it; a store that does not stay in the
memory makes it longer.
-/

namespace CoapsClient.Machine

/-- The bytes at an address. -/
def loadAt (memory : List UInt8) (address count : ℕ) : List UInt8 := (memory.drop address).take count

/-- The memory with bytes stored at an address. -/
def storeAt (memory : List UInt8) (address : ℕ) (bytes : List UInt8) : List UInt8 :=
  memory.take address ++ bytes ++ memory.drop (address + bytes.length)

/-- `memmove`. -/
def memmove (memory : List UInt8) (dest source count : ℕ) : List UInt8 :=
  storeAt memory dest (loadAt memory source count)

/-- `strncpy`: the start of a string, with zeros up to the count. -/
def strncpy (memory : List UInt8) (dest : ℕ) (text : List UInt8) (count : ℕ) : List UInt8 :=
  storeAt memory dest (Cells.load count (cstring text)).bytes

/-- The string at an address. -/
def stringAt (memory : List UInt8) (address : ℕ) : List UInt8 := cstring (memory.drop address)

variable {size index : ℕ} (before behind : List UInt8)

/-- A store that fits keeps what is in front of it and behind it. -/
theorem Cells.store_bytes (cells : Cells size) {value : List UInt8} (fits : index + value.length ≤ size) :
    (cells.store index value).bytes =
      cells.bytes.take index ++ value ++ cells.bytes.drop (index + value.length) := by
  refine List.take_of_length_le ?_
  simp only [List.length_append, List.length_take, List.length_drop, cells.size_eq]
  omega

theorem Cells.zero_bytes : (Cells.zero size).bytes = List.replicate size 0 := by
  simp [Cells.zero, Cells.load]

/-- A text is its string, the zero behind it, and the rest. -/
theorem CText.bytes_eq (text : CText size) : ∃ rest, text.bytes = text.string ++ 0 :: rest := by
  have shorter : text.string.length < text.bytes.length := cstring_length_lt text.terminated
  have start : text.bytes.take text.string.length = text.string :=
    (List.prefix_iff_eq_take.mp (List.takeWhile_prefix _)).symm
  have zero : text.bytes[text.string.length] = 0 :=
    Option.some_inj.mp ((List.getElem?_eq_getElem shorter).symm.trans (cstring_end text.terminated))
  refine ⟨text.bytes.drop (text.string.length + 1), ?_⟩
  rw [← zero, ← List.drop_eq_getElem_cons shorter]
  conv_lhs => rw [← List.take_append_drop text.string.length text.bytes, start]

theorem storeAt_cells (cells : Cells size) {value : List UInt8} (fits : index + value.length ≤ size) :
    storeAt (before ++ cells.bytes ++ behind) (before.length + index) value =
      before ++ (cells.store index value).bytes ++ behind := by
  have length := cells.size_eq
  have front : (before ++ cells.bytes ++ behind).take (before.length + index) = before ++ cells.bytes.take index := by
    rw [List.append_assoc, List.take_length_add_append, List.take_append_of_le_length (by omega)]
  have back : (before ++ cells.bytes ++ behind).drop (before.length + index + value.length) =
      cells.bytes.drop (index + value.length) ++ behind := by
    rw [Nat.add_assoc, List.append_assoc, List.drop_length_add_append, List.drop_append_of_le_length (by omega)]
  rw [storeAt, front, back, Cells.store_bytes cells fits]
  simp only [List.append_assoc]

/-- A store over a whole array. -/
theorem storeAt_whole {old new : List UInt8} (same : new.length = old.length) :
    storeAt (before ++ old ++ behind) before.length new = before ++ new ++ behind := by
  rw [storeAt, same]
  simp only [List.append_assoc, List.take_left, List.drop_length_add_append, List.drop_left]

theorem loadAt_cells (cells : Cells size) {count : ℕ} (fits : index + count ≤ size) :
    loadAt (before ++ cells.bytes ++ behind) (before.length + index) count = (cells.bytes.drop index).take count := by
  have length := cells.size_eq
  rw [loadAt, List.append_assoc, List.drop_length_add_append, List.drop_append_of_le_length (by omega),
    List.take_append_of_le_length (by rw [List.length_drop]; omega)]

theorem memmove_cells (cells : Cells size) {source count : ℕ} (fits : index + count ≤ size)
    (inside : source + count ≤ size) :
    memmove (before ++ cells.bytes ++ behind) (before.length + index) (before.length + source) count =
      before ++ (cells.store index ((cells.bytes.drop source).take count)).bytes ++ behind := by
  rw [memmove, loadAt_cells before behind cells inside, storeAt_cells]
  rw [List.length_take]
  omega

/-- The string of a text does not reach what lies behind the text. -/
theorem stringAt_text (text : CText size) :
    stringAt (before ++ text.bytes ++ behind) before.length = text.string := by
  rw [stringAt, List.append_assoc, List.drop_left, cstring_append text.terminated]
  rfl

/-- Storing into a cleared array is loading. -/
theorem Cells.zero_store {value : List UInt8} (fits : value.length ≤ size) :
    (Cells.zero size).store 0 value = .load size value := by
  refine Cells.ext ?_
  rw [Cells.load_bytes fits, Cells.store_bytes _ (by omega), Cells.zero_bytes, List.take_zero, List.nil_append,
    Nat.zero_add, List.drop_replicate]

/-- The zeros behind a value in a smaller array are those of a larger one. -/
theorem Cells.load_load {count : ℕ} (smaller : count ≤ size) (value : List UInt8) :
    Cells.load size (Cells.load count value).bytes = .load size (value.take count) := by
  refine Cells.ext ?_
  have short : (value.take count).length ≤ size := (List.length_take_le _ _).trans smaller
  rw [Cells.load_bytes (by rw [Cells.size_eq]; exact smaller), Cells.load_bytes short, Cells.size_eq]
  simp only [Cells.load, List.append_assoc, List.replicate_append_replicate, List.length_take]
  congr 2
  omega

/-- Copying a string into a cleared array leaves the zero at its end. -/
theorem strncpy_zero (room : 0 < size) (value : List UInt8) :
    strncpy (before ++ (Cells.zero size).bytes ++ behind) before.length value (size - 1) =
      before ++ (CText.load size (cstring value) room).bytes ++ behind := by
  have fits : (Cells.load (size - 1) (cstring value)).bytes.length ≤ size := by
    rw [Cells.size_eq]
    omega
  have stored := @storeAt_cells size 0 before behind (Cells.zero size) _ (by rwa [Nat.zero_add])
  rw [Nat.add_zero, Cells.zero_store fits, Cells.load_load (Nat.sub_le size 1)] at stored
  exact stored

end CoapsClient.Machine
