import CoapsClient.Model.Modem.Sim
import Mathlib.Data.Nat.Bitwise

/-! # The service table of the SIM card

Services are counted from one: service n is bit (n - 1) % 8 of byte (n - 1) / 8. `has_service` takes the bit from
n - 1, but the byte from n, which is the next one when n is a multiple of 8. `SERVICE_96_BIT` is one of these.
-/

namespace CoapsClient.ModemSim

open ShCmd (Text)
open ApplSettings (numberSign scanDigits digitValue isSpace)

/-- A byte as two hexadecimal digits. -/
structure HexByte where
  high : Char
  low : Char
  high_lt : digitValue high < 16
  low_lt : digitValue low < 16

def HexByte.text (byte : HexByte) : Text := [byte.high, byte.low]

def HexByte.value (byte : HexByte) : ℕ := digitValue byte.high * 16 + digitValue byte.low

/-- A service table as it is answered: its bytes, the closing quote, and what may lie behind it. -/
def serviceTable (bytes : List HexByte) (behind : Text) : Text := bytes.flatMap HexByte.text ++ '"' :: behind

/-- The length of a service table, with the quote. -/
def serviceTableLength (bytes : List HexByte) : ℕ := 2 * bytes.length + 1

/-- A byte is in the table, and a bit of it is set. -/
def bitAt (bytes : List HexByte) (index bit : ℕ) : Bool := bytes[index]?.any fun byte => byte.value.testBit bit

/-- A service is found exactly if its bit is in the table and set, and a mask loses its bit exactly if not. -/
structure ReportsService (bytes : List HexByte) (behind : Text) (service : ℕ) : Prop where
  has : hasService (serviceTable bytes behind) (serviceTableLength bytes) service =
    some (bitAt bytes ((service - 1) / 8) ((service - 1) % 8))
  check : ∀ mask bit, checkService mask bit (serviceTable bytes behind) (serviceTableLength bytes) service =
    some (if bitAt bytes ((service - 1) / 8) ((service - 1) % 8) then mask else mask &&& ~~~bit)

/-- The codes of the hexadecimal digits. -/
private theorem digit_range {char : Char} (digit : digitValue char < 16) :
    48 ≤ char.toNat ∧ char.toNat ≤ 57 ∨ 65 ≤ char.toNat ∧ char.toNat ≤ 70 ∨ 97 ≤ char.toNat ∧ char.toNat ≤ 102 := by
  unfold digitValue at digit
  split at digit
  · next decimal =>
    simp only [Char.isDigit, Bool.and_eq_true, decide_eq_true_eq, UInt32.le_iff_toNat_le, ge_iff_le] at decimal
    exact .inl decimal
  · split at digit
    · next lower =>
      have start : 97 ≤ char.toNat := UInt32.le_iff_toNat_le.mp (of_decide_eq_true (Bool.and_eq_true_iff.mp lower).1)
      omega
    · split at digit
      · next upper =>
        have start : 65 ≤ char.toNat := UInt32.le_iff_toNat_le.mp (of_decide_eq_true upper).1
        omega
      · exact absurd digit (by decide)

private theorem digit_ne {char other : Char} (digit : digitValue char < 16) (differs : ¬ digitValue other < 16) :
    char ≠ other := by
  rintro rfl
  exact differs digit

private theorem not_isSpace_of_digit {char : Char} (digit : digitValue char < 16) : isSpace char = false := by
  have range := digit_range digit
  have notBlank : char ≠ ' ' := digit_ne digit (by decide)
  simp only [isSpace, notBlank, false_or, decide_eq_false_iff_not]
  omega

/-- A digit is no sign. -/
private theorem numberSign_digit {char : Char} {rest : Text} (digit : digitValue char < 16) :
    numberSign (char :: rest) = (1, char :: rest) := by
  have notMinus : char ≠ '-' := digit_ne digit (by decide)
  have notPlus : char ≠ '+' := digit_ne digit (by decide)
  unfold numberSign
  split
  · next starts => exact absurd (List.cons.inj starts).1 notMinus
  · next starts => exact absurd (List.cons.inj starts).1 notPlus
  · rfl

theorem HexByte.value_lt (byte : HexByte) : byte.value < 256 := by
  have high := byte.high_lt
  have low := byte.low_lt
  unfold HexByte.value
  omega

/-- The digits of a byte are read as its value. -/
private theorem strtolHex_text (byte : HexByte) : strtolHex [byte.high, byte.low] = byte.value := by
  have visible : [byte.high, byte.low].dropWhile isSpace = [byte.high, byte.low] := by
    simp [not_isSpace_of_digit byte.high_lt]
  have plain : skipHexMark [byte.high, byte.low] = [byte.high, byte.low] := by
    unfold skipHexMark
    split
    · next longer => simp at longer
    · rfl
  have scanned : scanDigits 16 0 [byte.high, byte.low] = (byte.value, []) := by
    simp [scanDigits, byte.high_lt, byte.low_lt, HexByte.value]
  have bound := byte.value_lt
  simp only [strtolHex, visible, numberSign_digit byte.high_lt, plain, scanned]
  omega

/-- The closing quote is no number. -/
private theorem strtolHex_quote (char : Char) : strtolHex ['"', char] = 0 := by
  have plain : ∀ rest : Text, skipHexMark ('"' :: rest) = '"' :: rest := fun rest => rfl
  have visible : ['"', char].dropWhile isSpace = ['"', char] := rfl
  have unsigned : numberSign ['"', char] = (1, ['"', char]) := rfl
  have scanned : (scanDigits 16 0 ['"', char]).1 = 0 := rfl
  simp only [strtolHex, visible, unsigned, plain, scanned]
  decide

section Table

variable {bytes : List HexByte} {behind : Text} {index : ℕ}

/-- The digits of a byte are at twice its index. -/
private theorem charAt_byte {byte : HexByte} (inside : bytes[index]? = some byte) :
    charAt (serviceTable bytes behind) (index * 2) = some byte.high ∧
      charAt (serviceTable bytes behind) (index * 2 + 1) = some byte.low := by
  induction bytes generalizing index with
  | nil => simp at inside
  | cons first bytes ih =>
    cases index with
    | zero =>
      obtain rfl : first = byte := by simpa using inside
      exact ⟨rfl, rfl⟩
    | succ index =>
      rw [Nat.succ_mul]
      exact ih inside

/-- Behind the bytes are the quote and another character. -/
private theorem charAt_quote : charAt (serviceTable bytes behind) (bytes.length * 2) = some '"' ∧
    ∃ char, charAt (serviceTable bytes behind) (bytes.length * 2 + 1) = some char := by
  induction bytes with
  | nil =>
    refine ⟨rfl, ?_⟩
    cases behind with
    | nil => exact ⟨nul, rfl⟩
    | cons char rest => exact ⟨char, rfl⟩
  | cons first bytes ih =>
    rw [List.length_cons, Nat.succ_mul]
    exact ih

/-- A flag of a byte is one of its bits. -/
private theorem land_shift (value bit : ℕ) : (decide (Int.land value (1 <<< bit : ℕ) ≠ 0)) = value.testBit bit := by
  have masked : Int.land value (1 <<< bit : ℕ) = ((value &&& 1 <<< bit : ℕ) : Int) := rfl
  rw [masked, Nat.one_shiftLeft, Nat.and_two_pow]
  cases value.testBit bit <;> simp

/-- The bit that `has_service` reads: that of n - 1, in the byte of n. -/
private theorem hasService_eq (service : ℕ) :
    hasService (serviceTable bytes behind) (serviceTableLength bytes) service =
      some (bitAt bytes (service / 8) ((service - 1) % 8)) := by
  unfold hasService bitAt serviceTableLength
  rcases lt_trichotomy (service / 8) bytes.length with inside | quote | outside
  · obtain ⟨byte, found⟩ : ∃ byte, bytes[service / 8]? = some byte := ⟨_, List.getElem?_eq_getElem inside⟩
    obtain ⟨high, low⟩ := @charAt_byte _ behind _ _ found
    rw [if_neg (by omega), high, low, found]
    simp only [Option.bind_eq_bind, Option.bind_some, strtolHex_text, land_shift, Option.any_some]
  · obtain ⟨first, char, second⟩ := @charAt_quote bytes behind
    rw [if_neg (by omega), quote, first, second, List.getElem?_eq_none (Nat.le_refl _)]
    simp only [Option.bind_eq_bind, Option.bind_some, strtolHex_quote]
    have none : decide (Int.land 0 (1 <<< ((service - 1) % 8) : ℕ) ≠ 0) = false := (land_shift 0 _).trans (Nat.zero_testBit _)
    simp only [none, Option.any_none]
  · rw [if_pos (by omega), List.getElem?_eq_none outside.le, Option.any_none]

/-- A bit that is not set in a mask does not have to be cleared. -/
private theorem and_not_of_and_eq_zero {mask bit : UInt8} (clear : mask &&& bit = 0) : mask &&& ~~~bit = mask := by
  refine UInt8.toBitVec_inj.mp (BitVec.eq_of_getLsbD_eq fun index inside => ?_)
  have both : (mask &&& bit).toBitVec.getLsbD index = false := by rw [clear]; exact BitVec.getLsbD_zero
  rw [UInt8.toBitVec_and, BitVec.getLsbD_and] at both
  rw [UInt8.toBitVec_and, UInt8.toBitVec_not, BitVec.getLsbD_and, BitVec.getLsbD_not]
  revert both
  cases mask.toBitVec.getLsbD index <;> simp [inside]

/-- A mask follows what `has_service` answers. -/
private theorem checkService_eq (mask bit : UInt8) (service : ℕ) :
    checkService mask bit (serviceTable bytes behind) (serviceTableLength bytes) service =
      some (if bitAt bytes (service / 8) ((service - 1) % 8) then mask else mask &&& ~~~bit) := by
  unfold checkService
  rw [hasService_eq]
  split
  · rfl
  · next clear =>
    rw [and_not_of_and_eq_zero (not_not.mp clear), ite_self]

end Table

/-- For every table and every number from one on: the service is reported as it is in the table exactly if the number
is no multiple of 8, or if its bit is the same in the byte behind. -/
theorem reportsService_iff (bytes : List HexByte) (behind : Text) (service : ℕ) (counted : 1 ≤ service) :
    ReportsService bytes behind service ↔
      (service % 8 = 0 → bitAt bytes (service / 8 - 1) 7 = bitAt bytes (service / 8) 7) := by
  have same : bitAt bytes (service / 8) ((service - 1) % 8) = bitAt bytes ((service - 1) / 8) ((service - 1) % 8) ↔
      (service % 8 = 0 → bitAt bytes (service / 8 - 1) 7 = bitAt bytes (service / 8) 7) := by
    by_cases last : service % 8 = 0
    · have bit : (service - 1) % 8 = 7 := by omega
      have index : (service - 1) / 8 = service / 8 - 1 := by omega
      rw [bit, index]
      exact ⟨fun same _ => same.symm, fun same => (same last).symm⟩
    · have index : (service - 1) / 8 = service / 8 := by omega
      simp only [index, last, false_implies]
  rw [← same]
  constructor
  · intro reports
    exact Option.some_inj.mp ((hasService_eq service).symm.trans reports.has)
  · intro agrees
    exact ⟨by rw [hasService_eq, agrees], fun mask bit => by rw [checkService_eq, agrees]⟩

/-- Service 20 is bit 3 of the third byte. -/
theorem reportsService_20 : ReportsService [⟨'0', '0', by decide, by decide⟩, ⟨'0', '0', by decide, by decide⟩,
    ⟨'0', '8', by decide, by decide⟩] [nul] 20 :=
  (reportsService_iff _ _ 20 (by decide)).mpr fun last => absurd last (by decide)

/-- The last service of a table with all services, 96 of 12 bytes, is not found: the quote is taken for its byte. -/
theorem service_96_missing :
    hasService (serviceTable (List.replicate 12 ⟨'F', 'F', by decide, by decide⟩) [nul]) 25 96 = some false ∧
      ¬ ReportsService (List.replicate 12 ⟨'F', 'F', by decide, by decide⟩) [nul] 96 := by
  have missing : hasService (serviceTable (List.replicate 12 ⟨'F', 'F', by decide, by decide⟩) [nul]) 25 96 =
      some false := by decide +kernel
  refine ⟨missing, fun reports => ?_⟩
  have set : bitAt (List.replicate 12 ⟨'F', 'F', by decide, by decide⟩) ((96 - 1) / 8) ((96 - 1) % 8) = true := by
    decide +kernel
  have found := reports.has
  rw [set] at found
  exact absurd (missing.symm.trans found) (by decide)

end CoapsClient.ModemSim
