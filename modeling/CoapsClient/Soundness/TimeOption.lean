import CoapsClient.Model.Coap.Time

/-! # The time of a request and of a response

The option of a request has the fewest bytes that stand for the time and do not begin with a top bit, and a response
with this option sets the same time. A time of zero has no byte that is not zero, and the loop leaves the array: the
byte behind it is read.
-/

namespace CoapsClient.CoapTime

open Math (ofBigEndian bigEndian bigEndian_length ofBigEndian_bigEndian ofBigEndian_dropWhile ofBigEndian_cons ofBigEndian_lt
  length_le_of_ofBigEndian length_lt_of_ofBigEndian)

/-- A number that is not negative in two's complement. -/
def TopClear (bytes : List UInt8) : Prop := ∀ byte ∈ bytes.head?, byte.toNat < 128

/-- The shortest encoding of a value without a top bit. -/
structure Minimal (value : ℕ) (bytes : List UInt8) : Prop where
  denotes : ofBigEndian bytes = value
  clear : TopClear bytes
  shortest : ∀ other, ofBigEndian other = value → TopClear other → bytes.length ≤ other.length

/-- The time is encoded without a read outside of the array, and a later response with the option sets it. -/
def TimeKept (time : BitVec 64) : Prop :=
  ∃ option, encodeTime time = some option ∧ Minimal time.toNat option ∧
    (0 < time.toInt → ∀ (clock : ApplTime) (uptime : BitVec 64),
      applGetNow (decodeTime clock option uptime) uptime = time)

section Encoding

variable {byte : UInt8} {rest : List UInt8} {time : BitVec 64}

private theorem minimal_of_clear (nonzero : byte ≠ 0) (clear : byte.toNat < 128) :
    Minimal (ofBigEndian (byte :: rest)) (byte :: rest) where
  denotes := rfl
  clear := by
    rintro _ ⟨⟩
    exact clear
  shortest other same _ := length_le_of_ofBigEndian nonzero same

private theorem minimal_of_large (large : 128 ≤ byte.toNat) : Minimal (ofBigEndian (byte :: rest)) (0 :: byte :: rest) where
  denotes := by rw [ofBigEndian_cons, UInt8.toNat_zero, Nat.zero_mul, Nat.zero_add]
  clear := by
    rintro _ ⟨⟩
    decide
  shortest other same clear := by
    have nonzero : byte ≠ 0 := by
      rintro rfl
      exact absurd large (by decide)
    have least := length_le_of_ofBigEndian nonzero same
    cases other with
    | nil => simp at least
    | cons head other =>
      have less := length_lt_of_ofBigEndian large (clear head rfl) same
      simp only [List.length_cons]
      omega

private theorem sysPutBe64_denotes (time : BitVec 64) : ofBigEndian (sysPutBe64 time) = time.toNat := by
  have range : time.toNat < 256 ^ 8 := time.isLt
  rw [sysPutBe64, ofBigEndian_bigEndian, Nat.mod_eq_of_lt range]

/-- What the index leaves of an array with a byte that is not zero. -/
private theorem adjustIndex_drop {data : List UInt8} (starts : data.drop (skipZeros data) = byte :: rest) :
    (adjustIndex data (skipZeros data)).map data.drop =
      some (if 0 < skipZeros data ∧ 128 ≤ byte.toNat then 0 :: byte :: rest else byte :: rest) := by
  have first : data[skipZeros data]? = some byte := by
    have dropped := @List.getElem?_drop _ data (skipZeros data) 0
    rwa [starts, List.getElem?_cons_zero, Nat.add_zero, eq_comm] at dropped
  unfold adjustIndex
  by_cases skipped : 0 < skipZeros data
  · simp only [first, topBit_iff, skipped, true_and, if_true]
    by_cases large : 128 ≤ byte.toNat
    · simp only [large, if_true, Option.map_some]
      have zero : data[skipZeros data - 1]? = some 0 := get_of_lt_skipZeros (by omega)
      obtain ⟨inside, zero⟩ := List.getElem?_eq_some_iff.mp zero
      rw [List.drop_eq_getElem_cons inside, zero, Nat.sub_add_cancel skipped, starts]
    · simp only [large, if_false, Option.map_some, starts]
  · simp only [skipped, false_and, if_false, Option.map_some]
    rw [starts]

/-- A time that is not zero has a byte that is not zero. -/
private theorem sysPutBe64_starts (nonzero : time ≠ 0) : ∃ byte rest, byte ≠ 0 ∧
    (sysPutBe64 time).drop (skipZeros (sysPutBe64 time)) = byte :: rest ∧ ofBigEndian (byte :: rest) = time.toNat := by
  have denotes := sysPutBe64_denotes time
  rw [← ofBigEndian_dropWhile, ← drop_skipZeros] at denotes
  cases starts : (sysPutBe64 time).drop (skipZeros (sysPutBe64 time)) with
  | nil =>
    rw [starts] at denotes
    exact absurd (BitVec.toNat_inj.mp denotes.symm) nonzero
  | cons byte rest =>
    refine ⟨byte, rest, ?_, rfl, starts ▸ denotes⟩
    rw [drop_skipZeros] at starts
    have first := List.head?_dropWhile_not (fun byte : UInt8 => decide (byte = 0)) (sysPutBe64 time)
    rw [starts] at first
    simpa using first

/-- The first byte of a time that is not negative has no top bit. -/
private theorem sysPutBe64_head {byte : UInt8} {rest : List UInt8} (positive : 0 ≤ time.toInt)
    (starts : sysPutBe64 time = byte :: rest) : byte.toNat < 128 := by
  have bound : time.toNat < 9223372036854775808 := by
    have signed := BitVec.toInt_eq_toNat_cond time
    split at signed <;> omega
  have length : rest.length = 7 := by
    have eight := congrArg List.length starts
    rw [sysPutBe64, bigEndian_length, List.length_cons] at eight
    omega
  have denotes := sysPutBe64_denotes time
  rw [starts, ofBigEndian_cons, length] at denotes
  omega

/-- The option of a time that is positive. -/
private theorem encodeTime_minimal (positive : 0 < time.toInt) :
    ∃ option, encodeTime time = some option ∧ Minimal time.toNat option := by
  have nonzero : time ≠ 0 := by
    rintro rfl
    exact absurd positive (by decide)
  obtain ⟨byte, rest, some, starts, denotes⟩ := sysPutBe64_starts nonzero
  refine ⟨_, adjustIndex_drop starts, ?_⟩
  rw [← denotes]
  split
  · next both => exact minimal_of_large both.2
  · next either =>
    refine minimal_of_clear some ?_
    by_cases skipped : 0 < skipZeros (sysPutBe64 time)
    · exact not_le.mp fun large => either ⟨skipped, large⟩
    · rw [Nat.eq_zero_of_not_pos skipped, List.drop_zero] at starts
      exact sysPutBe64_head positive.le starts

/-- The loop leaves the array of a time that is zero. -/
private theorem encodeTime_zero : encodeTime 0 = none := by decide

end Encoding

section Decoding

variable {time : BitVec 64}

private theorem shift_toNat (byte : UInt8) :
    (time <<< 8 ||| (byte.toBitVec.setWidth 64 &&& 0xff#64)).toNat = (time.toNat * 256 + byte.toNat) % 2 ^ 64 := by
  have range := byte.toNat_lt
  have low : (byte.toBitVec.setWidth 64 &&& 0xff#64).toNat = byte.toNat := by
    rw [BitVec.toNat_and, BitVec.toNat_setWidth, UInt8.toNat_toBitVec]
    change byte.toNat % 2 ^ 64 &&& 2 ^ 8 - 1 = byte.toNat
    rw [Nat.and_two_pow_sub_one_eq_mod]
    omega
  have shifted : (time <<< 8).toNat = 2 ^ 8 * (time.toNat % 2 ^ 56) := by
    rw [BitVec.toNat_shiftLeft, Nat.shiftLeft_eq]
    omega
  rw [BitVec.toNat_or, low, shifted, ← Nat.two_pow_add_eq_or_of_lt range]
  omega

private theorem foldl_toNat (bytes : List UInt8) :
    (bytes.foldl (fun (time : BitVec 64) byte => time <<< 8 ||| (byte.toBitVec.setWidth 64 &&& 0xff#64)) time).toNat =
      (time.toNat * 256 ^ bytes.length + ofBigEndian bytes) % 2 ^ 64 := by
  induction bytes generalizing time with
  | nil => simp [ofBigEndian, Nat.mod_eq_of_lt time.isLt]
  | cons byte bytes ih =>
    rw [List.foldl_cons, ih, shift_toNat, ofBigEndian_cons, List.length_cons]
    rw [Nat.add_mod, Nat.mod_mul_mod, ← Nat.add_mod, Nat.add_mul, Nat.mul_assoc, Nat.add_assoc,
      pow_succ 256 bytes.length, Nat.mul_comm 256]

/-- The loop of the decoder takes the value of the bytes. -/
private theorem decodeBytes_toNat (bytes : List UInt8) : (decodeBytes bytes).toNat = ofBigEndian bytes % 2 ^ 64 := by
  rw [decodeBytes, foldl_toNat]
  simp

private theorem applGetNow_set (uptime : BitVec 64) : applGetNow (applSetNow time uptime) uptime = time := by
  unfold applGetNow applSetNow
  split
  · simp
  · rfl

/-- A response with the bytes of a time sets it. -/
private theorem decodeTime_of_denotes {option : List UInt8} (some : option ≠ []) (denotes : ofBigEndian option = time.toNat)
    (clock : ApplTime) (uptime : BitVec 64) : applGetNow (decodeTime clock option uptime) uptime = time := by
  have decoded : decodeBytes option = time := by
    rw [← BitVec.toNat_inj, decodeBytes_toNat, denotes, Nat.mod_eq_of_lt time.isLt]
  rw [decodeTime, if_neg (by simpa using some), decoded]
  exact applGetNow_set uptime

end Decoding

/-- For a time that is not negative, the encoder stays in its array, its option is the shortest, and the decoder sets
the time, exactly if the time is not zero. -/
theorem timeKept_iff (time : BitVec 64) (positive : 0 ≤ time.toInt) : TimeKept time ↔ 0 < time.toInt := by
  constructor
  · rintro ⟨option, encoded, -, -⟩
    refine lt_of_le_of_ne positive fun zero => ?_
    have none : time = 0 := BitVec.toInt_inj.mp zero.symm
    rw [none, encodeTime_zero] at encoded
    contradiction
  · intro some
    obtain ⟨option, encoded, minimal⟩ := encodeTime_minimal some
    refine ⟨option, encoded, minimal, fun _ => decodeTime_of_denotes ?_ minimal.denotes⟩
    rintro rfl
    have zero : time = 0 := BitVec.toNat_inj.mp minimal.denotes.symm
    exact absurd some (by simp [zero])

/-- Eight bytes are not needed for the milliseconds of some year. -/
theorem timeKept_iff_sample : TimeKept 1700000000000#64 := (timeKept_iff 1700000000000#64 (by decide)).mpr (by decide)

example : encodeTime 128 = some [0, 128] ∧ encodeTime 127 = some [127] := by decide

/-- Before the first response the time is zero. -/
theorem not_timeKept_zero : ¬ ∀ (clock : ApplTime) (uptime : BitVec 64), 0 ≤ (applGetNow clock uptime).toInt →
    TimeKept (applGetNow clock uptime) := by
  intro all
  obtain ⟨option, encoded, -⟩ := all {} 1000 (by decide)
  have outside : encodeTime (applGetNow {} 1000) = none := by decide
  rw [outside] at encoded
  contradiction

end CoapsClient.CoapTime
