import Mathlib.Tactic.Common
import Mathlib.Data.Int.Order.Basic
import Mathlib.Tactic.Ring

/-! # Signed machine integers

A result of signed arithmetic exists only where its type has it. `checked` keeps such a result and has no
value for any other, so an expression that is checked after each of its operations has a value exactly when
none of them overflows; it is then the value of the exact arithmetic.
-/

namespace CoapsClient.Machine

/-- The values of a signed type of `width` bits. -/
def Signed (width : ℕ) (value : Int) : Prop := -2 ^ (width - 1) ≤ value ∧ value < 2 ^ (width - 1)

instance (width : ℕ) (value : Int) : Decidable (Signed width value) :=
  inferInstanceAs (Decidable (_ ∧ _))

/-- A result of signed arithmetic, none where it overflows. -/
def checked (width : ℕ) (value : Int) : Option Int := if Signed width value then some value else none

section Checked

variable {width : ℕ} {value result : Int}

theorem signed_32 : Signed 32 value ↔ -2147483648 ≤ value ∧ value < 2147483648 := Iff.rfl

theorem signed_64 : Signed 64 value ↔ -9223372036854775808 ≤ value ∧ value < 9223372036854775808 := Iff.rfl

theorem signed_24 : Signed 24 value ↔ -8388608 ≤ value ∧ value < 8388608 := Iff.rfl

theorem checked_of_signed (fits : Signed width value) : checked width value = some value := if_pos fits

theorem checked_eq_some_iff : checked width value = some result ↔ Signed width value ∧ value = result := by
  rw [checked]
  split
  case isTrue fits => simp [fits]
  case isFalse big => simp [big]

/-- A computation that goes on with a checked result has a value only where the result fits. -/
theorem checked_bind_eq_some_iff {α : Type*} {next : Int → Option α} {final : α} :
    (checked width value).bind next = some final ↔ Signed width value ∧ next value = some final := by
  rw [Option.bind_eq_some_iff]
  constructor
  · rintro ⟨result, kept, rest⟩
    obtain ⟨fits, rfl⟩ := checked_eq_some_iff.mp kept
    exact ⟨fits, rest⟩
  · rintro ⟨fits, rest⟩
    exact ⟨value, checked_of_signed fits, rest⟩

/-- Where nothing overflows, the wrapping arithmetic is the exact one. -/
theorem bmod_of_signed (positive : 0 < width) (fits : Signed width value) : value.bmod (2 ^ width) = value := by
  obtain ⟨bits, rfl⟩ := Nat.exists_eq_add_one.mpr positive
  have half : (2 : Int) ^ (bits + 1) = 2 * 2 ^ bits := by rw [Int.pow_succ, Int.mul_comm]
  have bounds : -2 ^ bits ≤ value ∧ value < 2 ^ bits := fits
  apply Int.bmod_eq_of_le_mul_two
  · push_cast
    omega
  · push_cast
    omega

end Checked

end CoapsClient.Machine
