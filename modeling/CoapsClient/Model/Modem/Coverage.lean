import CoapsClient.Model.Dtls.Appl
import CoapsClient.Machine.Numeral

/-! # The coverage of the modem

`modem_read_coverage_enhancement_info` for the answer to `AT%CONEVAL`, and `modem_get_time_scale`. An answer is the
text in the buffer of `modem_at_cmd`, behind the prefix, or an error. A `long` has 32 bits.
-/

namespace CoapsClient.Modem

open ShCmd (Text parseNextText)
open DtlsClient (parseNextLong)

/-- `parse_next_qtext`: the text in quotes, cut to the buffer, and the text behind it, or no text if there is no quote. -/
def parseNextQtext (value : Text) (sep : Char) (len : ℕ) : Text × Text :=
  if value.head? = some sep then parseNextText value sep len else ([], value)

/-- `parse_next_char`. -/
def parseNextChar (value : Text) (sep : Char) : Text := (value.dropWhile (· ≠ sep)).drop 1

/-- `parse_next_chars`. -/
def parseNextChars (value : Text) (sep : Char) : ℕ → Text
  | 0 => value
  | count + 1 =>
      let value := parseNextChar value sep
      if value.isEmpty then value else parseNextChars value sep count

/-- `INVALID_SIGNAL_VALUE`. -/
def invalidSignalValue : Int := 0x7fff

/-- The value of an `int16_t`. -/
def int16 (value : Int) : Int := value.bmod 65536

/-- The value of an `uint8_t`. -/
def uint8 (value : Int) : ℕ := (value % 256).toNat

/-- `struct lte_ce_info`. -/
structure LteCeInfo where
  ceSupported : ℕ := 0
  state : Char := 'U'
  downlinkRepetition : ℕ := 0
  uplinkRepetition : ℕ := 0
  rsrp : Int := invalidSignalValue
  rsrq : Int := invalidSignalValue
  cinr : Int := invalidSignalValue
  snr : Int := invalidSignalValue
deriving DecidableEq, Repr

/-- `enum lte_network_state_type`. -/
inductive LteNetworkStateType where
  | init
  | off
  | on
deriving DecidableEq, Repr

/-- What `modem.c` keeps of the network for the coverage: `network_info.rrc_active` and `ce_info`. -/
structure Network where
  rrcActive : LteNetworkStateType := .init
  ceInfo : LteCeInfo := {}
deriving DecidableEq, Repr

def LteCeInfo.setRsrp (value : Int) (temp : LteCeInfo) : LteCeInfo :=
  if value = 255 then { temp with rsrp := invalidSignalValue }
  else { temp with rsrp := if 0 < value then int16 (int16 (value - 140) - 1) else int16 (value - 140) }

def LteCeInfo.setRsrq (value : Int) (temp : LteCeInfo) : LteCeInfo :=
  if value = 255 then { temp with rsrq := invalidSignalValue }
  else if value < 0 then { temp with rsrq := int16 (value - 39) }
  else if value < 34 then { temp with rsrq := int16 (value - 40) }
  else { temp with rsrq := int16 (value - 41) }

def LteCeInfo.setSnr (value : Int) (temp : LteCeInfo) : LteCeInfo :=
  if value = 127 then { temp with snr := invalidSignalValue } else { temp with snr := int16 (value - 25) }

def LteCeInfo.setUplinkRepetition (value : Int) (temp : LteCeInfo) : LteCeInfo :=
  { temp with uplinkRepetition := uint8 value, ceSupported := 1 }

def LteCeInfo.setDownlinkRepetition (value : Int) (temp : LteCeInfo) : LteCeInfo :=
  { temp with downlinkRepetition := uint8 value, ceSupported := 1 }

/-- The local variables of `modem_read_coverage_enhancement_info`. -/
structure Scan where
  cur : Text
  n : Text
  value : Int
  temp : LteCeInfo
deriving DecidableEq

/-- A parameter is read at the given place, if there is a number. -/
def Scan.read (scan : Scan) (cur : Text) (set : Int → LteCeInfo → LteCeInfo) : Scan :=
  let (value, n) := parseNextLong cur scan.value
  { cur, n, value, temp := if cur = n then scan.temp else set value scan.temp }

/-- The parameter behind the comma. -/
def Scan.next (scan : Scan) (set : Int → LteCeInfo → LteCeInfo) : Scan :=
  match scan.n with
  | ',' :: cur => scan.read cur set
  | _ => scan

/-- The parameter behind some others. -/
def Scan.skip (scan : Scan) (count : ℕ) (set : Int → LteCeInfo → LteCeInfo) : Scan :=
  let n := parseNextChars scan.cur ',' count
  if n.isEmpty then { scan with n } else scan.read n set

/-- The parameters behind the result of a `%CONEVAL` answer. -/
def readParameters (cur : Text) : LteCeInfo :=
  let (value, n) := parseNextLong cur 0
  let scan : Scan := { cur, n, value, temp := { state := if value = 1 then 'C' else 'I' } }
  let scan := ((scan.skip 2 .setRsrp).next .setRsrq).next .setSnr
  ((scan.skip 9 .setUplinkRepetition).next .setDownlinkRepetition).temp

/-- The coverage in a `%CONEVAL` answer, if the result of the evaluation is success. -/
def readConeval (buf : Text) : Option LteCeInfo :=
  let (value, n) := parseNextLong buf 0
  match n with
  | ',' :: cur => if buf ≠ n ∧ value = 0 then some (readParameters cur) else none
  | _ => none

/-- The values that are missing without a connection are those of the last answer. -/
def LteCeInfo.fill (temp last : LteCeInfo) : LteCeInfo :=
  { temp with
    downlinkRepetition := if temp.downlinkRepetition = 0 then last.downlinkRepetition else temp.downlinkRepetition
    uplinkRepetition := if temp.uplinkRepetition = 0 then last.uplinkRepetition else temp.uplinkRepetition
    rsrp := if temp.rsrp = invalidSignalValue then last.rsrp else temp.rsrp
    rsrq := if temp.rsrq = invalidSignalValue then last.rsrq else temp.rsrq
    cinr := if temp.cinr = invalidSignalValue then last.cinr else temp.cinr
    snr := if temp.snr = invalidSignalValue then last.snr else temp.snr }

/-- `-ENODATA`. -/
def enodata : Int := -61

/-- `modem_read_coverage_enhancement_info`: what it returns, the coverage it hands out, and the network behind it. -/
def modemReadCoverageEnhancementInfo (network : Network) : Except Int Text → Int × LteCeInfo × Network
  | .error err => (err, {}, network)
  | .ok [] => (enodata, {}, network)
  | .ok buf =>
      match readConeval buf with
      | none => (buf.length, {}, network)
      | some temp =>
          let temp := if network.rrcActive = .on then temp else temp.fill network.ceInfo
          (buf.length, temp, { network with ceInfo := temp })

/-- The factor for the repetitions. -/
def repetitionFactor (repetition : ℕ) : ℕ :=
  if repetition ≤ 8 then 100
  else if repetition ≤ 16 then 150
  else if repetition ≤ 32 then 200
  else if repetition ≤ 64 then 350
  else if repetition ≤ 128 then 500
  else 100

/-- The factor for the signal strength. -/
def signalFactor (rsrp : Int) : ℕ :=
  if -110 < rsrp then 100
  else if -120 < rsrp then 150
  else if -125 < rsrp then 200
  else if -130 < rsrp then 350
  else 500

/-- `repetition`, an `uint8_t`. -/
def LteCeInfo.repetition (info : LteCeInfo) : ℕ := max info.downlinkRepetition (info.uplinkRepetition <<< 2) % 256

/-- `modem_get_time_scale`. -/
def modemGetTimeScale (network : Network) : ℕ :=
  max (repetitionFactor network.ceInfo.repetition) (signalFactor network.ceInfo.rsrp)

theorem parseNextChar_append {field rest : Text} {sep : Char} (free : sep ∉ field) :
    parseNextChar (field ++ sep :: rest) sep = rest := by
  have whole : ∀ char ∈ field, decide (char ≠ sep) = true := by
    intro char found
    exact decide_eq_true fun same => free (same ▸ found)
  rw [parseNextChar, List.dropWhile_append_of_pos whole]
  simp

theorem signalFactor_anti {worse better : Int} (less : worse ≤ better) : signalFactor better ≤ signalFactor worse := by
  unfold signalFactor
  split_ifs <;> omega

end CoapsClient.Modem
