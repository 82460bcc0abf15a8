import CoapsClient.Math.BigEndian

/-! # The time option

`appl_time.c`, and how `coap_appl_client.c` writes the time into an option of a request and takes it from an option of
a response. An array is read at an index, and a read outside of it has no value. What `coap_packet_append_option`
makes of the option is left out.
-/

namespace CoapsClient.CoapTime

open Math (bigEndian)

/-- `appl_time` and `appl_uptime`. -/
structure ApplTime where
  applTime : BitVec 64 := 0
  applUptime : BitVec 64 := 0
deriving DecidableEq, Repr

/-- `appl_get_now`, at the given uptime. -/
def applGetNow (clock : ApplTime) (uptime : BitVec 64) : BitVec 64 :=
  if clock.applUptime ≠ 0 then clock.applTime + (uptime - clock.applUptime) else clock.applTime

/-- `appl_set_now`, at the given uptime. -/
def applSetNow (now uptime : BitVec 64) : ApplTime := { applTime := now, applUptime := uptime }

/-- `sys_put_be64`. -/
def sysPutBe64 (time : BitVec 64) : List UInt8 := bigEndian 8 time.toNat

/-- The loop of `coap_appl_client_encode_time`: the index of the first byte that is not zero, or the size. -/
def skipZeros : List UInt8 → ℕ
  | [] => 0
  | byte :: data => if byte ≠ 0 then 0 else skipZeros data + 1

/-- One byte is given back if the next one has the top bit. -/
def adjustIndex (data : List UInt8) (index : ℕ) : Option ℕ :=
  if 0 < index then
    match data[index]? with
    | none => none
    | some byte => some (if byte &&& 0x80 ≠ 0 then index - 1 else index)
  else some index

/-- `coap_appl_client_encode_time`: the value of the option. -/
def encodeTime (time : BitVec 64) : Option (List UInt8) :=
  let data := sysPutBe64 time
  (adjustIndex data (skipZeros data)).map data.drop

/-- The loop of `coap_appl_client_decode_time`. -/
def decodeBytes (bytes : List UInt8) : BitVec 64 :=
  bytes.foldl (fun time byte => time <<< 8 ||| (byte.toBitVec.setWidth 64 &&& 0xff#64)) 0

/-- `coap_appl_client_decode_time`, at the given uptime. -/
def decodeTime (clock : ApplTime) (option : List UInt8) (uptime : BitVec 64) : ApplTime :=
  if option.length = 0 then clock else applSetNow (decodeBytes option) uptime

section Lemmas

variable {data : List UInt8}

/-- The loop leaves the bytes behind the leading zeros. -/
theorem drop_skipZeros : data.drop (skipZeros data) = data.dropWhile fun byte => decide (byte = 0) := by
  induction data with
  | nil => rfl
  | cons byte data ih =>
    unfold skipZeros
    by_cases zero : byte = 0
    · subst zero
      rw [if_neg (by simp), List.drop_succ_cons, ih, List.dropWhile_cons_of_pos (by simp)]
    · rw [if_pos zero, List.drop_zero, List.dropWhile_cons_of_neg (by simp [zero])]

/-- Before the index all bytes are zero. -/
theorem get_of_lt_skipZeros {index : ℕ} (before : index < skipZeros data) : data[index]? = some 0 := by
  induction data generalizing index with
  | nil => simp [skipZeros] at before
  | cons byte data ih =>
    unfold skipZeros at before
    split at before
    · omega
    · next zero =>
      cases index with
      | zero => simpa using zero
      | succ index => exact ih (by omega)

theorem topBit_iff (byte : UInt8) : byte &&& 0x80 ≠ 0 ↔ 128 ≤ byte.toNat := by
  have all : ∀ value < 256, UInt8.ofNat value &&& 0x80 ≠ 0 ↔ 128 ≤ (UInt8.ofNat value).toNat := by decide +kernel
  have one := all byte.toNat byte.toNat_lt
  rwa [UInt8.ofNat_toNat] at one

end Lemmas

end CoapsClient.CoapTime
