import Mathlib.Tactic.Common
import Mathlib.Tactic.Ring
import Mathlib.Data.List.Basic

/-! # Big-endian byte strings

Fixed-width big-endian encodings of natural numbers, as every multi-byte field of the stored
records uses them. Decoding inverts encoding for every value that fits the width, and the leading
byte of a value below half the range is never the all-ones byte.
-/

namespace CoapsClient.Math

/-- The `width` low-order bytes of a value, most significant first. -/
def bigEndian : ℕ → ℕ → List UInt8
  | 0, _ => []
  | width + 1, value => UInt8.ofNat (value / 256 ^ width) :: bigEndian width value

/-- The value of a big-endian byte string. -/
def ofBigEndian (bytes : List UInt8) : ℕ :=
  bytes.foldl (fun value byte => value * 256 + byte.toNat) 0

@[simp] theorem bigEndian_length (width value : ℕ) : (bigEndian width value).length = width := by
  induction width with
  | zero => rfl
  | succ width ih => simp only [bigEndian, List.length_cons, ih]

private theorem foldl_bytes (bytes : List UInt8) (start : ℕ) :
    bytes.foldl (fun value byte => value * 256 + byte.toNat) start =
      start * 256 ^ bytes.length + ofBigEndian bytes := by
  induction bytes generalizing start with
  | nil => simp [ofBigEndian]
  | cons byte rest ih =>
    have tail : ofBigEndian (byte :: rest) = byte.toNat * 256 ^ rest.length + ofBigEndian rest := by
      rw [ofBigEndian, List.foldl_cons, ih, Nat.zero_mul, Nat.zero_add]
    rw [List.foldl_cons, ih, tail, List.length_cons]
    ring

private theorem byte_toNat (value : ℕ) : (UInt8.ofNat value).toNat = value % 256 := by
  simp

/-- Decoding an encoded value reduces it to the width. -/
theorem ofBigEndian_bigEndian (width value : ℕ) :
    ofBigEndian (bigEndian width value) = value % 256 ^ width := by
  induction width with
  | zero => simp [bigEndian, ofBigEndian, Nat.mod_one]
  | succ width ih =>
    have step : ofBigEndian (bigEndian (width + 1) value) =
        value / 256 ^ width % 256 * 256 ^ width + value % 256 ^ width := by
      simp only [ofBigEndian, bigEndian, List.foldl_cons, Nat.zero_mul, Nat.zero_add, byte_toNat]
      rw [foldl_bytes, bigEndian_length, ih]
    rw [step, pow_succ, Nat.mod_mul, Nat.mul_comm, Nat.add_comm]

theorem ofBigEndian_cons (byte : UInt8) (bytes : List UInt8) :
    ofBigEndian (byte :: bytes) = byte.toNat * 256 ^ bytes.length + ofBigEndian bytes := by
  rw [ofBigEndian, List.foldl_cons, foldl_bytes, Nat.zero_mul, Nat.zero_add]

theorem ofBigEndian_lt (bytes : List UInt8) : ofBigEndian bytes < 256 ^ bytes.length := by
  induction bytes with
  | nil => simp [ofBigEndian]
  | cons byte bytes ih =>
    have top : (byte.toNat + 1) * 256 ^ bytes.length ≤ 256 * 256 ^ bytes.length :=
      Nat.mul_le_mul_right _ byte.toNat_lt
    rw [ofBigEndian_cons, List.length_cons, pow_succ, Nat.mul_comm (256 ^ _) 256]
    rw [Nat.add_mul] at top
    omega

/-- Leading zeros do not count. -/
theorem ofBigEndian_dropWhile (bytes : List UInt8) :
    ofBigEndian (bytes.dropWhile fun byte => decide (byte = 0)) = ofBigEndian bytes := by
  induction bytes with
  | nil => rfl
  | cons byte bytes ih =>
    by_cases zero : byte = 0
    · subst zero
      rw [List.dropWhile_cons_of_pos (by simp), ih, ofBigEndian_cons, UInt8.toNat_zero, Nat.zero_mul, Nat.zero_add]
    · rw [List.dropWhile_cons_of_neg (by simp [zero])]

/-- A value has at least as many bytes as its leading byte says. -/
theorem length_le_of_ofBigEndian {byte : UInt8} {bytes other : List UInt8} (nonzero : byte ≠ 0)
    (same : ofBigEndian other = ofBigEndian (byte :: bytes)) : bytes.length + 1 ≤ other.length := by
  have positive : 0 < byte.toNat := Nat.pos_of_ne_zero fun zero => nonzero (UInt8.toNat_inj.mp zero)
  have least : 256 ^ bytes.length ≤ ofBigEndian (byte :: bytes) := by
    rw [ofBigEndian_cons]
    exact (Nat.le_mul_of_pos_left _ positive).trans (Nat.le_add_right _ _)
  have bound := ofBigEndian_lt other
  rw [same] at bound
  exact (Nat.pow_lt_pow_iff_right (by decide)).mp (least.trans_lt bound)

/-- A leading byte with its top bit needs one more byte in an encoding that has none there. -/
theorem length_lt_of_ofBigEndian {byte head : UInt8} {bytes other : List UInt8} (large : 128 ≤ byte.toNat)
    (clear : head.toNat < 128) (same : ofBigEndian (head :: other) = ofBigEndian (byte :: bytes)) :
    bytes.length < other.length := by
  have least : 128 * 256 ^ bytes.length ≤ ofBigEndian (byte :: bytes) := by
    rw [ofBigEndian_cons]
    exact (Nat.mul_le_mul_right _ large).trans (Nat.le_add_right _ _)
  have bound : ofBigEndian (head :: other) < 128 * 256 ^ other.length := by
    have rest := ofBigEndian_lt other
    have top : (head.toNat + 1) * 256 ^ other.length ≤ 128 * 256 ^ other.length := Nat.mul_le_mul_right _ clear
    rw [Nat.add_mul] at top
    rw [ofBigEndian_cons]
    omega
  rw [same] at bound
  have powers := Nat.lt_of_mul_lt_mul_left (least.trans_lt bound)
  exact (Nat.pow_lt_pow_iff_right (by decide)).mp powers

/-- The leading byte of a value below half the range has its top bit clear. -/
theorem bigEndian_head_ne_ones (width : ℕ) {value : ℕ} (small : value < 128 * 256 ^ width) :
    (bigEndian (width + 1) value).getD 0 0 ≠ 0xff := by
  have bound : value / 256 ^ width < 128 := Nat.div_lt_of_lt_mul (by rwa [Nat.mul_comm] at small)
  intro ones
  have value255 := congrArg UInt8.toNat ones
  simp only [bigEndian, List.getD_cons_zero, byte_toNat] at value255
  rw [Nat.mod_eq_of_lt (by omega)] at value255
  have : (0xff : UInt8).toNat = 255 := rfl
  omega

end CoapsClient.Math
