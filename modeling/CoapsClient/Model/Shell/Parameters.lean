import CoapsClient.Model.Dtls.Appl
import CoapsClient.Machine.Integer

/-! # Numeric parameters of shell commands

The commands `interval`, `timeout`, `woic`, `batrstth`, `edrx` and `ptw` with what they store or request. An `int` and a
`long` have 32 bits, and a product that an `int` does not have is undefined. The texts that are logged and the
codes that `modem_set_edrx` and `modem_set_ptw` choose for the modem are left out.
-/

namespace CoapsClient.Parameters

open ShCmd (Text stricmp parseNextText)
open DtlsClient (isSpace sign decimal)
open Machine (Numeral DigitFree ofDigits checked)

/-- The number behind white space, and the text behind the number. -/
def scanNumber (text : Text) : Option (Int × Text) :=
  let (factor, text) := sign (text.dropWhile isSpace)
  let digits := text.takeWhile Char.isDigit
  if digits.isEmpty then none
  else some (factor * decimal digits, text.dropWhile Char.isDigit)

/-- `strtoul`: the negative of a number is taken modulo 2^32, a number with more than 32 bits is the largest. -/
def strtoul (number : Int) : ℕ :=
  if number.natAbs < 4294967296 then (number % 4294967296).toNat else 4294967295

/-- `%u`, and the text behind it. -/
def scanUnsigned (text : Text) : Option (ℕ × Text) :=
  (scanNumber text).map fun scan => (strtoul scan.1, scan.2)

/-- `%u`. -/
def unsigned (text : Text) : Option ℕ := (scanUnsigned text).map Prod.fst

/-- The value of an `int`. -/
def int32 (value : ℕ) : Int := Int.bmod value 4294967296

/-- What the commands store or request. -/
structure Stored where
  /-- `send_interval`. -/
  sendInterval : BitVec 32
  /-- `coap_timeout`. -/
  coapTimeout : UInt16
  /-- `wakeup_on_incoming_connect_timeout`. -/
  wakeupOnIncomingConnectTimeout : UInt16
  /-- `battery_reset_threshold`. -/
  batteryResetThreshold : UInt16
  /-- `requested_edrx_time_s`. -/
  requestedEdrxTimeS : Int16
  /-- `requested_ptw_time_s`. -/
  requestedPtwTimeS : Int16
  /-- The calls of `sh_cmd_prepend`, with the delay in milliseconds, the last one first. -/
  prepended : List (Text × ℕ) := []
deriving DecidableEq

/-- What the modem returns. -/
structure Answers where
  /-- `modem_cmd_show_edrx`. -/
  showEdrx : Int := 0
  /-- `AT+CEDRXS=0`. -/
  edrxOff : Int := 0
  /-- `AT+CEDRXS=2,4`. -/
  edrxLteM : Int := 0
  /-- `AT+CEDRXS=2,5`. -/
  edrxNbIot : Int := 0
  /-- `AT%XPTW=4`. -/
  ptwLteM : Int := 0
  /-- `AT%XPTW=5`. -/
  ptwNbIot : Int := 0
deriving DecidableEq

def einval : Int := -22

/-- `get_send_interval`. -/
def getSendInterval (stored : Stored) : Int := (stored.sendInterval &&& 0xffffff#32).toNat

/-- `set_send_interval`. -/
def setSendInterval (interval : Int) (stored : Stored) : Stored :=
  { stored with sendInterval := BitVec.ofInt 32 interval &&& 0xffffff#32 }

/-- The factor of a unit that is supported. -/
def unitFactor : Char → Option Int
  | 's' => some 1
  | 'm' => some 60
  | 'h' => some 3600
  | _ => none

/-- `sh_cmd_send_interval`, none if the seconds overflow. -/
def shCmdSendInterval (parameter : Text) (stored : Stored) : Option (Int × Stored) :=
  let interval := getSendInterval stored
  let value := (parseNextText parameter ' ' 10).1
  if value.isEmpty then some (0, stored)
  else match scanUnsigned value with
    | none => some (einval, stored)
    | some (newInterval, rest) =>
        match unitFactor (rest.headD 's') with
        | none => some (einval, stored)
        | some factor => (checked 32 (int32 newInterval * factor)).map fun intervalS =>
            if interval ≠ intervalS then
              let stored := setSendInterval intervalS stored
              (0, { stored with prepended := ("send".toList, 2000) :: stored.prepended })
            else (0, stored)

/-- A command that stores the number of its parameter, and only logs what is stored without a parameter. -/
def numberCommand (store : ℕ → Stored → Stored) (parameter : Text) (stored : Stored) : Int × Stored :=
  let value := (parseNextText parameter ' ' 10).1
  if value.isEmpty then (0, stored)
  else match unsigned value with
    | none => (einval, stored)
    | some number => (0, store number stored)

/-- `sh_cmd_coap_timeout`; `%hu` keeps the lower 16 bits of the number. -/
def shCmdCoapTimeout : Text → Stored → Int × Stored :=
  numberCommand fun number stored =>
    let timeout := UInt16.ofNat number
    { stored with coapTimeout := if timeout ≠ 0 then timeout else 1 }

/-- `sh_cmd_wakeup_on_incoming_connect_timeout`, with `%hu`. -/
def shCmdWakeupOnIncomingConnectTimeout : Text → Stored → Int × Stored :=
  numberCommand fun number stored => { stored with wakeupOnIncomingConnectTimeout := UInt16.ofNat number }

/-- `sh_cmd_battery_forecast_reset_threshold`. A threshold above 9999 is logged as invalid, but it is stored as well,
and zero replaces the `-EINVAL` of the result. -/
def shCmdBatteryForecastResetThreshold : Text → Stored → Int × Stored :=
  numberCommand fun threshold stored => { stored with batteryResetThreshold := UInt16.ofNat threshold }

/-- `modem_set_edrx`. -/
def modemSetEdrx (answers : Answers) (edrxTimeS : Int16) (stored : Stored) : Int × Stored :=
  if edrxTimeS = 0 then
    if answers.edrxOff < 0 then (answers.edrxOff, stored)
    else (0, { stored with requestedEdrxTimeS := 0 })
  else if answers.edrxNbIot < 0 then (answers.edrxNbIot, stored)
  else if answers.edrxLteM < 0 then (answers.edrxLteM, stored)
  else (0, { stored with requestedEdrxTimeS := edrxTimeS })

/-- `modem_set_ptw`. -/
def modemSetPtw (answers : Answers) (ptwTimeS : Int16) (stored : Stored) : Int × Stored :=
  if answers.ptwNbIot < 0 then (answers.ptwNbIot, stored)
  else if answers.ptwLteM < 0 then (answers.ptwLteM, stored)
  else (0, { stored with requestedPtwTimeS := ptwTimeS })

/-- The time of `modem_cmd_edrx`: the number is that of the whole text. -/
def edrxTime (config : Text) : Option ℕ :=
  if stricmp "off".toList (parseNextText config ' ' 16).1 = 0 then some 0 else unsigned config

/-- `modem_cmd_edrx`. -/
def modemCmdEdrx (answers : Answers) (config : Text) (stored : Stored) : Int × Stored :=
  if (parseNextText config ' ' 16).1.isEmpty then (answers.showEdrx, stored)
  else match edrxTime config with
    | none => (einval, stored)
    | some edrxTime => modemSetEdrx answers (Int16.ofNat edrxTime) stored

/-- `modem_cmd_ptw`. -/
def modemCmdPtw (answers : Answers) (config : Text) (stored : Stored) : Int × Stored :=
  if (parseNextText config ' ' 16).1.isEmpty then (answers.showEdrx, stored)
  else match unsigned config with
    | none => (einval, stored)
    | some ptwTime => modemSetPtw answers (Int16.ofNat ptwTime) stored

inductive Command where
  | interval
  | timeout
  | woic
  | batrstth
  | edrx
  | ptw
deriving DecidableEq, Repr

/-- The handler of a command: what it returns, and what is stored behind it. -/
def Command.handler : Command → Answers → Text → Stored → Option (Int × Stored)
  | .interval, _, parameter, stored => shCmdSendInterval parameter stored
  | .timeout, _, parameter, stored => some (shCmdCoapTimeout parameter stored)
  | .woic, _, parameter, stored => some (shCmdWakeupOnIncomingConnectTimeout parameter stored)
  | .batrstth, _, parameter, stored => some (shCmdBatteryForecastResetThreshold parameter stored)
  | .edrx, answers, parameter, stored => some (modemCmdEdrx answers parameter stored)
  | .ptw, answers, parameter, stored => some (modemCmdPtw answers parameter stored)

section Scanning

variable {text rest : Text} {number : Int}

/-- A text is a number, behind white space, and the rest. -/
def Begins (text : Text) (number : Int) (rest : Text) : Prop :=
  ∃ (blanks : Text) (numeral : Numeral), (∀ char ∈ blanks, isSpace char = true) ∧
    text = blanks ++ (numeral.text ++ rest) ∧ numeral.value = number

theorem scanNumber_of_begins (begins : Begins text number rest) (free : DigitFree rest) :
    scanNumber text = some (number, rest) := by
  obtain ⟨blanks, numeral, spaces, rfl, rfl⟩ := begins
  have signed := @DtlsClient.sign_text rest numeral.sign _ numeral.decimal numeral.nonempty
  simp only [scanNumber, List.dropWhile_append_of_pos spaces, DtlsClient.dropWhile_isSpace_numeral]
  rw [show numeral.text ++ rest = numeral.sign.text ++ (numeral.digits ++ rest) from List.append_assoc _ _ _, signed]
  simp only [Machine.takeWhile_digits numeral.decimal free, Machine.dropWhile_digits numeral.decimal free,
    List.isEmpty_iff, numeral.nonempty, if_false, DtlsClient.decimal_eq, Numeral.value]

/-- The number of `sscanf` is the one that the text begins with, up to the end of its digits. -/
theorem begins_of_scanNumber (scan : scanNumber text = some (number, rest)) :
    Begins text number rest ∧ DigitFree rest := by
  obtain ⟨signed, body, factor⟩ := DtlsClient.sign_eq (text.dropWhile isSpace)
  simp only [scanNumber, Option.ite_none_left_eq_some, List.isEmpty_iff, Option.some.injEq, Prod.mk.injEq] at scan
  obtain ⟨nonempty, value, rfl⟩ := scan
  have decimal : ∀ digit ∈ (sign (text.dropWhile isSpace)).2.takeWhile Char.isDigit, digit.isDigit = true :=
    fun digit found => List.mem_takeWhile_imp found
  refine ⟨⟨text.takeWhile isSpace, ⟨signed, _, nonempty, decimal⟩, ?_, ?_, ?_⟩, Machine.digitFree_dropWhile _⟩
  · exact fun char found => List.mem_takeWhile_imp found
  · rw [Numeral.text, List.append_assoc, List.takeWhile_append_dropWhile, ← body, List.takeWhile_append_dropWhile]
  · rw [Numeral.value, factor, ← DtlsClient.decimal_eq, value]

theorem scanNumber_blanks {blanks : Text} (spaces : ∀ char ∈ blanks, isSpace char = true) :
    scanNumber (blanks ++ text) = scanNumber text := by
  simp only [scanNumber, List.dropWhile_append_of_pos spaces]

/-- A number that has more digits is not smaller than the one that was cut, unless it is negative. -/
theorem scanNumber_append {more : Text} (scan : scanNumber text = some (number, rest)) :
    (rest ≠ [] ∧ scanNumber (text ++ more) = some (number, rest ++ more)) ∨
      rest = [] ∧ ∃ whole after, scanNumber (text ++ more) = some (whole, after) ∧
        (0 ≤ whole → 0 ≤ number ∧ number ≤ whole) := by
  obtain ⟨⟨blanks, numeral, spaces, rfl, rfl⟩, free⟩ := begins_of_scanNumber scan
  cases rest with
  | cons char rest =>
    left
    refine ⟨List.cons_ne_nil _ _, scanNumber_of_begins ⟨blanks, numeral, spaces, ?_, rfl⟩ free⟩
    simp only [List.append_assoc, List.cons_append]
  | nil =>
    right
    obtain ⟨signed, digits, nonempty, decimal⟩ := numeral
    let whole : Numeral :=
      ⟨signed, digits ++ more.takeWhile Char.isDigit, List.append_ne_nil_of_left_ne_nil nonempty _, by
        intro digit found
        rcases List.mem_append.mp found with found | found
        · exact decimal digit found
        · exact List.mem_takeWhile_imp found⟩
    refine ⟨rfl, whole.value, more.dropWhile Char.isDigit, scanNumber_of_begins ⟨blanks, whole, spaces, ?_, rfl⟩
      (Machine.digitFree_dropWhile more), Numeral.value_append signed digits _⟩
    simp only [Numeral.text, whole, List.append_nil, List.append_assoc, List.takeWhile_append_dropWhile]

end Scanning

theorem strtoul_of_nonneg {number : Int} (least : 0 ≤ number) (most : number < 4294967296) :
    strtoul number = number.toNat := by
  rw [strtoul, if_pos (by omega)]
  omega

end CoapsClient.Parameters
