import Mathlib.Tactic.Common
import Mathlib.Data.List.Basic
import Mathlib.Data.List.TakeWhile
import Mathlib.Data.Int.Order.Basic

/-! # Decimal numerals

A number as it is written in a text: a sign or none, and at least one digit. The digits end where the text has
another character, so a scanner that takes all digits takes those of the numeral.
-/

namespace CoapsClient.Machine

/-- The number that digits stand for. -/
def ofDigits (digits : List Char) : ℕ :=
  digits.foldl (fun value digit => value * 10 + (digit.toNat - '0'.toNat)) 0

inductive Sign where
  | none
  | plus
  | minus
deriving DecidableEq, Repr

def Sign.text : Sign → List Char
  | .none => []
  | .plus => ['+']
  | .minus => ['-']

def Sign.factor : Sign → Int
  | .none => 1
  | .plus => 1
  | .minus => -1

/-- A number as it is written. -/
structure Numeral where
  sign : Sign := .none
  digits : List Char
  nonempty : digits ≠ []
  decimal : ∀ digit ∈ digits, digit.isDigit = true
deriving DecidableEq

/-- The number of digits alone. -/
def Numeral.unsigned (digits : List Char) (nonempty : digits ≠ []) (decimal : digits.all Char.isDigit = true) : Numeral where
  digits
  nonempty
  decimal := List.all_eq_true.mp decimal

def Numeral.text (numeral : Numeral) : List Char := numeral.sign.text ++ numeral.digits

def Numeral.value (numeral : Numeral) : Int := numeral.sign.factor * ofDigits numeral.digits

/-- A text goes on with something else than a digit. -/
def DigitFree (rest : List Char) : Prop := ∀ char ∈ rest.head?, char.isDigit = false

section Digits

variable {digits rest : List Char}

theorem digitFree_nil : DigitFree [] := nofun

theorem digitFree_cons {char : Char} (other : char.isDigit = false) : DigitFree (char :: rest) := by
  rintro _ ⟨⟩
  exact other

/-- The digits of a text end where it goes on with something else. -/
theorem takeWhile_digits (decimal : ∀ digit ∈ digits, digit.isDigit = true) (free : DigitFree rest) :
    (digits ++ rest).takeWhile Char.isDigit = digits := by
  rw [List.takeWhile_append_of_pos decimal]
  cases rest with
  | nil => simp
  | cons char rest => simp [free char rfl]

theorem dropWhile_digits (decimal : ∀ digit ∈ digits, digit.isDigit = true) (free : DigitFree rest) :
    (digits ++ rest).dropWhile Char.isDigit = rest := by
  rw [List.dropWhile_append_of_pos decimal]
  cases rest with
  | nil => simp
  | cons char rest => simp [free char rfl]

/-- More digits are not less. -/
theorem ofDigits_le_append (digits more : List Char) : ofDigits digits ≤ ofDigits (digits ++ more) := by
  rw [ofDigits, ofDigits, List.foldl_append]
  generalize digits.foldl (fun value digit => value * 10 + (digit.toNat - '0'.toNat)) 0 = value
  induction more generalizing value with
  | nil => exact Nat.le_refl value
  | cons digit more ih =>
    have least : value ≤ value * 10 + (digit.toNat - '0'.toNat) := by omega
    exact least.trans (ih _)

/-- What is left of a text behind its digits begins with something else. -/
theorem digitFree_dropWhile (text : List Char) : DigitFree (text.dropWhile Char.isDigit) := by
  intro char found
  have first := List.head?_dropWhile_not Char.isDigit text
  rw [Option.mem_def.mp found] at first
  simpa using first

end Digits

section Numerals

variable (numeral : Numeral)

/-- A numeral with more digits is not smaller, unless it is negative. -/
theorem Numeral.value_append (sign : Sign) (digits more : List Char) (whole : 0 ≤ sign.factor * (ofDigits (digits ++ more) : Int)) :
    0 ≤ sign.factor * (ofDigits digits : Int) ∧
      sign.factor * (ofDigits digits : Int) ≤ sign.factor * (ofDigits (digits ++ more) : Int) := by
  have least := ofDigits_le_append digits more
  cases sign with
  | none =>
    simp only [Sign.factor] at *
    omega
  | plus =>
    simp only [Sign.factor] at *
    omega
  | minus =>
    simp only [Sign.factor] at *
    omega

/-- A numeral begins with its sign or a digit. -/
theorem Numeral.text_cons : ∃ char rest, numeral.text = char :: rest ∧ (char.isDigit = true ∨ char = '+' ∨ char = '-') := by
  obtain ⟨sign, digits, nonempty, decimal⟩ := numeral
  cases sign with
  | none =>
    obtain ⟨digit, digits, rfl⟩ := List.exists_cons_of_ne_nil nonempty
    exact ⟨digit, digits, rfl, .inl (decimal digit List.mem_cons_self)⟩
  | plus => exact ⟨'+', digits, rfl, .inr (.inl rfl)⟩
  | minus => exact ⟨'-', digits, rfl, .inr (.inr rfl)⟩

/-- The characters of a numeral are its sign and digits. -/
theorem Numeral.not_mem {char : Char} (digit : char.isDigit = false) (plus : char ≠ '+') (minus : char ≠ '-') :
    char ∉ numeral.text := by
  obtain ⟨sign, digits, nonempty, decimal⟩ := numeral
  have other : char ∉ digits := fun found => by simp [decimal char found] at digit
  cases sign with
  | none => exact other
  | plus => simp [Numeral.text, Sign.text, plus, other]
  | minus => simp [Numeral.text, Sign.text, minus, other]

end Numerals

/-- The digits of a number stand for it. -/
theorem ofDigits_toDigits (value : ℕ) : ofDigits (Nat.toDigits 10 value) = value := by
  have read := @Nat.ofDigitChars_ten_toDigits value
  rw [Nat.ofDigitChars_eq_foldl] at read
  simpa only [ofDigits, Nat.mul_comm 10] using read

/-- A number is not what some first digits of it stand for. -/
theorem ofDigits_take_lt {value count : ℕ} (some : 0 < count) (cut : count < (Nat.toDigits 10 value).length) :
    ofDigits ((Nat.toDigits 10 value).take count) < value := by
  have positive : value ≠ 0 := by
    rintro rfl
    have one : (Nat.toDigits 10 0).length = 1 := by decide
    omega
  have more := ofDigits_le_append ((Nat.toDigits 10 value).take (count + 1)) ((Nat.toDigits 10 value).drop (count + 1))
  rw [List.take_append_drop, ofDigits_toDigits, List.take_succ_eq_append_getElem cut, ofDigits, List.foldl_append] at more
  change ofDigits _ * 10 + _ ≤ value at more
  omega

/-- A number as it is printed. -/
def Numeral.ofInt (value : Int) : Numeral where
  sign := if value < 0 then .minus else .none
  digits := Nat.toDigits 10 value.natAbs
  nonempty := Nat.toDigits_ne_nil
  decimal _ found := Nat.isDigit_of_mem_toDigits (by decide) (by decide) found

@[simp] theorem Numeral.value_ofInt (value : Int) : (Numeral.ofInt value).value = value := by
  rw [Numeral.value, Numeral.ofInt]
  dsimp only
  rw [ofDigits_toDigits]
  split
  · simp only [Sign.factor]
    omega
  · simp only [Sign.factor]
    omega

/-- A printed number that is cut has no digit, or is a number between zero and the whole one. -/
theorem Numeral.ofInt_take {value : Int} {count : ℕ} (cut : count < (Numeral.ofInt value).text.length) :
    (∀ char ∈ (Numeral.ofInt value).text.take count, char = '-') ∨
      ∃ numeral : Numeral, (Numeral.ofInt value).text.take count = numeral.text ∧ numeral.value ≠ value ∧
        (0 ≤ numeral.value ∧ numeral.value ≤ value ∨ value ≤ numeral.value ∧ numeral.value ≤ 0) := by
  have digits : ∀ count, ∀ digit ∈ (Nat.toDigits 10 value.natAbs).take count, digit.isDigit = true := fun count digit found =>
    (Numeral.ofInt value).decimal digit (List.mem_of_mem_take found)
  have nonempty : ∀ count, 0 < count → (Nat.toDigits 10 value.natAbs).take count ≠ [] := by
    intro count some none
    rcases List.take_eq_nil_iff.mp none with zero | empty
    · omega
    · exact (Numeral.ofInt value).nonempty empty
  by_cases negative : value < 0
  · have text : (Numeral.ofInt value).text = '-' :: Nat.toDigits 10 value.natAbs := by
      simp [Numeral.text, Numeral.ofInt, negative, Sign.text]
    rw [text] at cut ⊢
    rcases count with _ | _ | count
    · exact .inl (by simp)
    · exact .inl (by simp)
    · have less := @ofDigits_take_lt value.natAbs (count + 1) (Nat.succ_pos _) (Nat.lt_of_succ_lt_succ cut)
      refine .inr ⟨⟨.minus, _, nonempty (count + 1) (Nat.succ_pos _), digits _⟩, rfl, ?_, ?_⟩
      all_goals
        simp only [Numeral.value, Sign.factor]
        omega
  · have text : (Numeral.ofInt value).text = Nat.toDigits 10 value.natAbs := by
      simp [Numeral.text, Numeral.ofInt, negative, Sign.text]
    rw [text] at cut ⊢
    rcases Nat.eq_zero_or_pos count with rfl | some
    · exact .inl (by simp)
    · have less := ofDigits_take_lt some cut
      refine .inr ⟨⟨.none, _, nonempty count some, digits _⟩, rfl, ?_, ?_⟩
      all_goals
        simp only [Numeral.value, Sign.factor]
        omega

end CoapsClient.Machine
