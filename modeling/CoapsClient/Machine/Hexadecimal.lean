import Mathlib.Tactic.Common
import Mathlib.Algebra.Group.Nat.Defs
import Mathlib.Data.List.TakeWhile

/-! # Hexadecimal numbers

The digits of base 16, in upper or lower case, and a number that is printed with some digits.
-/

namespace CoapsClient.Machine

/-- `isxdigit`. -/
def isXdigit (char : Char) : Bool :=
  char.isDigit || ('a' ≤ char && char ≤ 'f') || ('A' ≤ char && char ≤ 'F')

/-- The value of a digit. -/
def xdigitValue (char : Char) : ℕ :=
  if char.isDigit then char.toNat - 48 else if 'a' ≤ char then char.toNat - 87 else char.toNat - 55

/-- The number that digits stand for. -/
def ofXdigits (digits : List Char) : ℕ := digits.foldl (fun value digit => value * 16 + xdigitValue digit) 0

/-- A digit in upper case. -/
def xdigit (value : ℕ) : Char := Char.ofNat (if value < 10 then 48 + value else 55 + value)

/-- A number with some digits. -/
def xdigits : ℕ → ℕ → List Char
  | 0, _ => []
  | width + 1, value => xdigits width (value / 16) ++ [xdigit (value % 16)]

section Digits

variable {width value : ℕ}

theorem xdigit_spec (small : value < 16) : isXdigit (xdigit value) = true ∧ xdigitValue (xdigit value) = value := by
  have all : ∀ value < 16, isXdigit (xdigit value) = true ∧ xdigitValue (xdigit value) = value := by decide
  exact all value small

@[simp] theorem length_xdigits : (xdigits width value).length = width := by
  induction width generalizing value with
  | zero => rfl
  | succ width ih => rw [xdigits, List.length_append, ih, List.length_singleton]

theorem isXdigit_of_mem : ∀ digit ∈ xdigits width value, isXdigit digit = true := by
  induction width generalizing value with
  | zero => exact List.forall_mem_nil _
  | succ width ih =>
    exact List.forall_mem_append.mpr ⟨ih, List.forall_mem_singleton.mpr (xdigit_spec (Nat.mod_lt _ (by decide))).1⟩

/-- The digits stand for the number. -/
theorem ofXdigits_xdigits (small : value < 16 ^ width) : ofXdigits (xdigits width value) = value := by
  induction width generalizing value with
  | zero =>
    rw [Nat.pow_zero] at small
    rw [Nat.lt_one_iff.mp small]
    rfl
  | succ width ih =>
    rw [Nat.pow_succ] at small
    have front := ih (Nat.div_lt_of_lt_mul (Nat.mul_comm _ 16 ▸ small))
    rw [ofXdigits] at front
    rw [xdigits, ofXdigits, List.foldl_append, front, List.foldl_cons, List.foldl_nil,
      (xdigit_spec (Nat.mod_lt _ (by decide))).2]
    omega

theorem isXdigit_of_isDigit {char : Char} (digit : char.isDigit = true) : isXdigit char = true := by
  rw [isXdigit, digit]
  rfl

end Digits

end CoapsClient.Machine
