import CoapsClient.Machine.Separated
import CoapsClient.Soundness.MonitorParameters

/-! # Network answers

An answer to `AT%XMONITOR`, printed from what a modem knows of its network, and what is read of it up to the RSRP if no
name has a comma.
-/

namespace CoapsClient.ModemMonitor

open Machine (Numeral DigitFree digitFree_cons xdigits length_xdigits isXdigit_of_mem ofXdigits_xdigits ended)
open ShCmd (Text)
open DtlsClient (clampLong)
open CoapAppl (NetworkInfo RegStatus LteMode)
open Modem (LteCeInfo invalidSignalValue int16 uint8 parseNextChars parameters parseNextChars_parameters)

/-- A number as it is printed. -/
def number (value : Int) : Text := (Numeral.ofInt value).text

/-- A text in quotes. -/
def quoted (text : Text) : Text := '"' :: (text ++ ['"'])

/-- A signal value, if it is known, and the numbers that stand for 0 and for an unknown one. -/
structure Signal (offset unknown : Int) where
  value : Option Int
  proper : ∀ known ∈ value, -32768 ≤ known ∧ known < noneSignalValue ∧ known + offset ≠ unknown

def Signal.index {offset unknown : Int} (signal : Signal offset unknown) : Int :=
  signal.value.elim unknown (· + offset)

/-- The value that `ce_info` has for it. -/
def Signal.level {offset unknown : Int} (signal : Signal offset unknown) : Int := signal.value.getD invalidSignalValue

/-- The parameters of a network where the modem is registered. -/
structure Network where
  fullName : Text
  shortName : Text
  plmn : Text
  tac : ℕ
  mode : LteMode
  band : ℕ
  cell : ℕ
  physCellId : ℕ
  earfcn : ℕ
  rsrp : Signal 141 255
  snr : Signal 25 127
  edrx : Option Text
  act : Option Text
  tauExt : Option Text
  tau : Option Text
  fullName_plain : Plain fullName
  shortName_plain : Plain shortName
  plmn_digits : ∀ digit ∈ plmn, digit.isDigit = true
  plmn_length : plmn.length = 5 ∨ plmn.length = 6
  tac_lt : tac < 65536
  mode_proper : mode ≠ .other
  band_lt : band < 90
  cell_lt : cell < 4294967296
  timers_plain : ∀ timer ∈ [edrx, act, tauExt, tau], ∀ text ∈ timer, Plain text

/-- `AcT`. -/
def modeNumber : LteMode → Int
  | .none | .other => 0
  | .ltem => 7
  | .nbiot => 9

/-- `reg_status`. -/
def statusNumber : RegStatus → Int
  | .notRegistered => 0
  | .registeredHome => 1
  | .searching => 2
  | .registrationDenied => 3
  | .unknown | .other => 4
  | .registeredRoaming => 5
  | .uiccFail => 90

namespace Network

variable (network : Network)

/-- The parameters up to the SNR. -/
def head : List Text :=
  [quoted network.fullName, quoted network.shortName, quoted network.plmn, quoted (xdigits 4 network.tac),
    number (modeNumber network.mode), number network.band, quoted (xdigits 8 network.cell), number network.physCellId,
    number network.earfcn, number network.rsrp.index, number network.snr.index]

/-- The parameters of eDRX and PSM: in quotes, or empty. -/
def timers : List Text := [network.edrx, network.act, network.tauExt, network.tau].map fun timer => timer.elim [] quoted

/-- What is known of the network is what was printed. -/
structure Held (info : NetworkInfo) (ceInfo : LteCeInfo) : Prop where
  provider : info.provider = network.plmn
  tac : info.tac = network.tac
  mode : info.mode = network.mode
  band : info.band = network.band
  cell : info.cell = network.cell
  earfcn : info.earfcn = network.earfcn
  rsrp : ceInfo.rsrp = network.rsrp.level
  snr : ceInfo.snr = network.snr.level

end Network

/-- What is printed: the status, and the network where the modem is registered. -/
structure Record where
  status : RegStatus
  network : Option Network := none
  status_proper : status ≠ .other
  registered : network.isSome = true → isRegistered status = true

namespace Record

variable (record : Record)

def parameters : List Text :=
  number (statusNumber record.status) :: record.network.elim [] fun network => network.head ++ network.timers

/-- The answer as it is printed. -/
def text : Text := [','].intercalate record.parameters

/-- The values of the record are kept, and nothing is stored in the text that is read next. -/
def Recovered : Prop :=
  (readMonitor (record.text.take (bufSize - 1))).kept = true ∧ ∀ before last,
    (modemReadNetworkInfo before last (.ok record.text)).1 = 0 ∧
      (modemReadNetworkInfo before last (.ok record.text)).2.1.status = record.status ∧
      ∀ network ∈ record.network, network.Held (modemReadNetworkInfo before last (.ok record.text)).2.1
        (modemReadNetworkInfo before last (.ok record.text)).2.2

/-- No name has a comma, the answer has room up to the SNR, the numbers have room in a `long`, and a parameter is empty at
the end of the text in the buffer only. -/
structure Readable (network : Network) : Prop where
  fullName : ',' ∉ network.fullName
  shortName : ',' ∉ network.shortName
  fits : ([','].intercalate (number (statusNumber record.status) :: network.head)).length < bufSize
  cell : network.cell < 2147483648
  earfcn : network.earfcn < 2147483648
  missing : ∀ front back, record.parameters = front ++ [] :: back → back = [] ∨ bufSize - 1 ≤ (ended ',' front).length

end Record

section Parts

variable (network : Network)

/-- From the PLMN to the RSRP, with the parameters behind. -/
def cellText (rest : Text) : Text :=
  ',' :: '"' :: (xdigits 4 network.tac ++ '"' :: ',' :: (number (modeNumber network.mode) ++ ',' ::
    (number network.band ++ ',' :: '"' :: (xdigits 8 network.cell ++ '"' :: ',' :: (number network.physCellId ++ ',' ::
      (number network.earfcn ++ ',' :: (number network.rsrp.index ++ rest)))))))

/-- From the names to the PLMN. -/
def namesText (rest : Text) : Text :=
  '"' :: (network.fullName ++ '"' :: ',' :: '"' :: (network.shortName ++ '"' :: ',' :: '"' ::
    (network.plmn ++ '"' :: rest)))

/-- The parameters of eDRX and PSM, with the commas in front of them. -/
def timersText (timers : List Text) : Text := timers.flatMap (',' :: ·)

private theorem intercalate_eq (first : Text) (more : List Text) :
    [','].intercalate (first :: more) = first ++ timersText more := by
  induction more generalizing first with
  | nil => simp [timersText]
  | cons second more ih =>
    rw [List.intercalate_cons_cons, ih second]
    simp [timersText]

end Parts

/-- The values of a network are those that were read. -/
structure Network.Read (network : Network) (scan : Scan) : Prop where
  provider : scan.temp.provider = network.plmn
  tac : scan.temp.tac = network.tac
  mode : scan.temp.mode = network.mode
  band : scan.temp.band = network.band
  cell : scan.temp.cell = network.cell
  earfcn : scan.temp.earfcn = network.earfcn
  rsrp : scan.rsrp = network.rsrp.level
  snr : scan.snr = network.snr.level

theorem Signal.level_ne {offset unknown : Int} (signal : Signal offset unknown) : signal.level ≠ noneSignalValue := by
  obtain ⟨value, proper⟩ := signal
  unfold Signal.level
  cases value with
  | none => exact (by decide : invalidSignalValue ≠ noneSignalValue)
  | some known =>
    obtain ⟨-, below, -⟩ := proper known rfl
    exact below.ne

/-- A value is kept whatever the last one was, if and only if it was read. -/
private theorem known_iff {value level : Int} (proper : level ≠ noneSignalValue) :
    (∀ last, known value last = level) ↔ value = level := by
  unfold known
  constructor
  · intro all
    by_cases none : value = noneSignalValue
    · have one := all (level + 1)
      rw [if_pos none] at one
      omega
    · have one := all 0
      rwa [if_neg none] at one
  · rintro rfl last
    exact if_neg proper

theorem number_ne_nil (value : Int) : number value ≠ [] := by
  obtain ⟨char, rest, starts, -⟩ := (Numeral.ofInt value).text_cons
  rw [number, starts]
  exact List.cons_ne_nil char rest

theorem Record.text_ne_nil (record : Record) : record.text ≠ [] := by
  rw [Record.text, Record.parameters, intercalate_eq]
  exact List.append_ne_nil_of_left_ne_nil (number_ne_nil _) _

private theorem modemReadNetworkInfo_ok {answer : Text} (nonempty : answer ≠ []) (before : NetworkInfo) (last : LteCeInfo) :
    modemReadNetworkInfo before last (.ok answer) =
      (0, { (readMonitor (answer.take (bufSize - 1))).temp with plmnLock := before.plmnLock },
        { last with
          rsrp := known (readMonitor (answer.take (bufSize - 1))).rsrp last.rsrp
          snr := known (readMonitor (answer.take (bufSize - 1))).snr last.snr
          rsrq := known (readMonitor (answer.take (bufSize - 1))).rsrq last.rsrq }) := by
  obtain ⟨char, rest, rfl⟩ := List.exists_cons_of_ne_nil nonempty
  rfl

theorem recovered_iff (record : Record) : record.Recovered ↔
    (readMonitor (record.text.take (bufSize - 1))).kept = true ∧
      (readMonitor (record.text.take (bufSize - 1))).temp.status = record.status ∧
      ∀ network ∈ record.network, network.Read (readMonitor (record.text.take (bufSize - 1))) := by
  unfold Record.Recovered
  simp only [modemReadNetworkInfo_ok record.text_ne_nil]
  generalize readMonitor (record.text.take (bufSize - 1)) = scan
  constructor
  · rintro ⟨kept, all⟩
    refine ⟨kept, (all {} {}).2.1, fun network found => ?_⟩
    obtain ⟨provider, tac, mode, band, cell, earfcn, -, -⟩ := (all {} {}).2.2 network found
    refine ⟨provider, tac, mode, band, cell, earfcn, ?_, ?_⟩
    · exact (known_iff network.rsrp.level_ne).mp fun last => ((all {} { rsrp := last }).2.2 network found).rsrp
    · exact (known_iff network.snr.level_ne).mp fun last => ((all {} { snr := last }).2.2 network found).snr
  · rintro ⟨kept, status, all⟩
    refine ⟨kept, fun before last => ⟨trivial, status, fun network found => ?_⟩⟩
    obtain ⟨provider, tac, mode, band, cell, earfcn, rsrp, snr⟩ := all network found
    exact ⟨provider, tac, mode, band, cell, earfcn, (known_iff network.rsrp.level_ne).mpr rsrp _,
      (known_iff network.snr.level_ne).mpr snr _⟩

section Steps

variable {scan : Scan} {set : Int → Scan → Scan} {rest cur : Text} {status : RegStatus} {network : Network} {value : Int}

theorem comma_free (rest : Text) : DigitFree (',' :: rest) := digitFree_cons (by decide)

private theorem long_number (free : DigitFree rest) :
    scan.long set (number value ++ rest) = set (clampLong value) { scan with n := rest, value := clampLong value } := by
  have read := @Scan.long_numeral scan rest (.ofInt value) set free
  rwa [Numeral.value_ofInt] at read

/-- A number behind a comma. -/
private theorem next_number (free : DigitFree rest) (place : scan.n = ',' :: (number value ++ rest)) :
    scan.next (Scan.long set) = set (clampLong value) { scan with n := rest, value := clampLong value } := by
  rw [Scan.next_comma place, long_number free]

private theorem next_xdigits {width value : ℕ} (positive : 0 < width) (small : value < 16 ^ width)
    (place : scan.n = ',' :: '"' :: (xdigits width value ++ '"' :: rest)) :
    scan.next (Scan.longQtext set) = set (clampLong value) { scan with n := rest, value := clampLong value } := by
  have nonempty : xdigits width value ≠ [] := by
    rw [ne_eq, ← List.length_eq_zero_iff, length_xdigits]
    omega
  rw [Scan.next_comma place, Scan.longQtext_quoted isXdigit_of_mem nonempty, ofXdigits_xdigits small]

/-- The status has been read. -/
def begun (status : RegStatus) (n : Text) : Scan :=
  { n, value := statusNumber status, temp := setStatus (statusNumber status) {} }

theorem regStatus_statusNumber (proper : status ≠ .other) :
    regStatus (statusNumber status) = status ∧ clampLong (statusNumber status) = statusNumber status := by
  cases status with
  | other => contradiction
  | _ => decide

private theorem long_status (proper : status ≠ .other) (free : DigitFree rest) :
    Scan.long (fun value scan => { scan with temp := setStatus value scan.temp }) (number (statusNumber status) ++ rest)
      { n := number (statusNumber status) ++ rest } = begun status rest := by
  rw [long_number free, (regStatus_statusNumber proper).2]
  rfl

theorem readMonitor_status (proper : status ≠ .other) : readMonitor (number (statusNumber status)) = begun status [] := by
  have read := @long_status [] status proper nofun
  rw [List.append_nil] at read
  rw [readMonitor, read]
  rfl

/-- Behind the status of a registered modem are the parameters of its network. -/
theorem readMonitor_registered (proper : status ≠ .other) (registered : isRegistered status = true) :
    readMonitor (number (statusNumber status) ++ ',' :: cur) = ((begun status (',' :: cur)).plmn cur).network := by
  rw [readMonitor, long_status proper (comma_free cur)]
  have on : (begun status (',' :: cur)).temp.registered = .on := by
    unfold begun setStatus
    dsimp only
    rw [(regStatus_statusNumber proper).1, if_pos registered]
  exact if_pos on

private theorem comma_quoted {text : Text} (free : ',' ∉ text) : ',' ∉ quoted text := by simp [quoted, free]

private theorem plain_digits {digits : Text} (decimal : ∀ digit ∈ digits, digit.isDigit = true) : Plain digits := by
  intro digit found
  have isDigit := decimal digit found
  constructor
  · rintro rfl
    revert isDigit
    decide
  · rintro rfl
    revert isDigit
    decide

private theorem plmn_read (fullName : ',' ∉ network.fullName) (shortName : ',' ∉ network.shortName) :
    scan.plmn (namesText network rest) = { scan with n := rest, temp := { scan.temp with provider := network.plmn } } := by
  have names : namesText network rest = parameters [quoted network.fullName, quoted network.shortName] ++
      ('"' :: (network.plmn ++ '"' :: rest)) := by simp [namesText, parameters, quoted]
  have skipped := @parseNextChars_parameters ('"' :: (network.plmn ++ '"' :: rest))
    [quoted network.fullName, quoted network.shortName]
    (by simpa using ⟨comma_quoted fullName, comma_quoted shortName⟩) (List.cons_ne_nil _ _)
  rw [← names] at skipped
  have whole : network.plmn.take (7 - 1) = network.plmn :=
    List.take_of_length_le (by rcases network.plmn_length with five | six <;> omega)
  unfold Scan.plmn
  dsimp only
  rw [show parseNextChars (namesText network rest) ',' 2 = _ from skipped, if_pos List.head?_cons,
    parseNextQtext_quoted (plain_digits network.plmn_digits), whole]

private theorem setMode_modeNumber (proper : network.mode ≠ .other) :
    scan.setMode (modeNumber network.mode) = { scan with temp := { scan.temp with mode := network.mode } } := by
  cases same : network.mode with
  | other => contradiction
  | _ => rfl

private theorem uint32_clampLong (value : ℕ) : Scan.uint32 (clampLong value) = min value 2147483647 := by
  unfold Scan.uint32 clampLong
  omega

theorem int16_eq {value : Int} (low : -32768 ≤ value) (high : value ≤ 32767) : int16 value = value := by
  unfold int16
  rw [Int.bmod_def]
  split <;> omega

/-- A signal value is read from its number. -/
theorem Signal.level_eq {offset unknown : Int} (signal : Signal offset unknown) :
    (if signal.index = unknown then invalidSignalValue else int16 (signal.index - offset)) = signal.level := by
  obtain ⟨value, proper⟩ := signal
  unfold Signal.index Signal.level
  cases value with
  | none => exact if_pos rfl
  | some known =>
    obtain ⟨low, high, other⟩ := proper known rfl
    unfold noneSignalValue at high
    refine (if_neg other).trans ?_
    rw [Option.elim_some, Int.add_sub_cancel, int16_eq low (by omega)]
    rfl

theorem Signal.clampLong_index {offset unknown : Int} (signal : Signal offset unknown) (low : -65536 ≤ offset)
    (high : offset ≤ 65536) (unknown_le : unknown ≤ 65536) (le_unknown : 0 ≤ unknown) :
    clampLong signal.index = signal.index := by
  obtain ⟨value, proper⟩ := signal
  unfold Signal.index clampLong
  cases value with
  | none =>
    dsimp only [Option.elim_none]
    omega
  | some known =>
    obtain ⟨least, most, -⟩ := proper known rfl
    unfold noneSignalValue at most
    dsimp only [Option.elim_some]
    omega

private theorem next_tac (place : scan.n = ',' :: '"' :: (xdigits 4 network.tac ++ '"' :: rest)) :
    scan.next (Scan.longQtext fun value scan => scan.setTac value) =
      { scan with n := rest, value := network.tac, temp := { scan.temp with tac := network.tac } } := by
  have small := network.tac_lt
  have inside : clampLong network.tac = network.tac := by
    unfold clampLong
    omega
  rw [next_xdigits (by decide) (by omega) place, inside, Scan.setTac, if_pos (by omega), Int.toNat_natCast]

private theorem next_mode (free : DigitFree rest) (place : scan.n = ',' :: (number (modeNumber network.mode) ++ rest)) :
    scan.next (Scan.long fun value scan => scan.setMode value) =
      { scan with n := rest, value := modeNumber network.mode, temp := { scan.temp with mode := network.mode } } := by
  have inside : clampLong (modeNumber network.mode) = modeNumber network.mode := by
    cases network.mode <;> decide
  rw [next_number free place, inside, setMode_modeNumber network.mode_proper]

private theorem next_band (free : DigitFree rest) (place : scan.n = ',' :: (number network.band ++ rest)) :
    scan.next (Scan.long fun value scan => scan.setBand value) =
      { scan with n := rest, value := network.band, temp := { scan.temp with band := network.band } } := by
  have small := network.band_lt
  have inside : clampLong network.band = network.band := by
    unfold clampLong
    omega
  have byte : uint8 network.band = network.band := by
    unfold uint8
    omega
  rw [next_number free place, inside, Scan.setBand, if_pos (by omega), byte]

private theorem next_cell (place : scan.n = ',' :: '"' :: (xdigits 8 network.cell ++ '"' :: rest)) :
    scan.next (Scan.longQtext fun value scan => scan.setCell value) =
      { scan with
        n := rest
        value := clampLong network.cell
        temp := { scan.temp with cell := min network.cell 2147483647 } } := by
  have small := network.cell_lt
  rw [next_xdigits (by decide) (by omega) place, Scan.setCell, uint32_clampLong]

private theorem next_physCellId (free : DigitFree rest) (place : scan.n = ',' :: (number network.physCellId ++ rest)) :
    scan.next (Scan.long fun _ scan => scan) = { scan with n := rest, value := clampLong network.physCellId } :=
  next_number free place

private theorem next_earfcn (free : DigitFree rest) (place : scan.n = ',' :: (number network.earfcn ++ rest)) :
    scan.next (Scan.long fun value scan => scan.setEarfcn value) =
      { scan with
        n := rest
        value := clampLong network.earfcn
        temp := { scan.temp with earfcn := min network.earfcn 2147483647 } } := by
  rw [next_number free place, Scan.setEarfcn, uint32_clampLong]

private theorem next_rsrp (free : DigitFree rest) (place : scan.n = ',' :: (number network.rsrp.index ++ rest)) :
    scan.next (Scan.long fun value scan => scan.setRsrp value) =
      { scan with n := rest, value := network.rsrp.index, rsrp := network.rsrp.level } := by
  rw [next_number free place, network.rsrp.clampLong_index (by decide) (by decide) (by decide) (by decide), Scan.setRsrp,
    network.rsrp.level_eq]

theorem next_snr (free : DigitFree rest) (place : scan.n = ',' :: (number network.snr.index ++ rest)) :
    scan.next (Scan.long fun value scan => scan.setSnr value) =
      { scan with n := rest, value := network.snr.index, snr := network.snr.level } := by
  rw [next_number free place, network.snr.clampLong_index (by decide) (by decide) (by decide) (by decide), Scan.setSnr,
    network.snr.level_eq]

/-- The cell as it is read. -/
def readInfo (network : Network) (info : NetworkInfo) : NetworkInfo :=
  { info with
    tac := network.tac
    mode := network.mode
    band := network.band
    cell := min network.cell 2147483647
    earfcn := min network.earfcn 2147483647 }

private theorem cell_read (free : DigitFree rest) (place : scan.n = cellText network rest) :
    scan.cell = { scan with
      n := rest
      value := network.rsrp.index
      temp := readInfo network scan.temp
      rsrp := network.rsrp.level } := by
  unfold Scan.cell
  dsimp only
  rw [next_tac place, next_mode (comma_free _) rfl, next_band (comma_free _) rfl, next_cell rfl,
    next_physCellId (comma_free _) rfl, next_earfcn (comma_free _) rfl, next_rsrp free rfl]
  rfl

/-- The parameters up to the RSRP have been read. -/
def front (status : RegStatus) (network : Network) (n : Text) : Scan where
  n
  value := network.rsrp.index
  temp := readInfo network { setStatus (statusNumber status) {} with provider := network.plmn }
  rsrp := network.rsrp.level

theorem cell_front (fullName : ',' ∉ network.fullName) (shortName : ',' ∉ network.shortName) (free : DigitFree rest) (n : Text) :
    ((begun status n).plmn (namesText network (cellText network rest))).cell = front status network rest := by
  rw [plmn_read fullName shortName, cell_read free rfl]
  rfl

end Steps

section Texts

variable {record : Record} {network : Network} {status : RegStatus} {rest : Text}

/-- The answer up to the SNR. -/
def headText (status : RegStatus) (network : Network) : Text :=
  [','].intercalate (number (statusNumber status) :: network.head)

/-- The answer up to the RSRP. -/
def frontText (status : RegStatus) (network : Network) : Text :=
  number (statusNumber status) ++ ',' :: namesText network (cellText network [])

theorem frontText_append : frontText status network ++ rest =
    number (statusNumber status) ++ ',' :: namesText network (cellText network rest) := by
  simp [frontText, namesText, cellText]

theorem headText_eq : headText status network = frontText status network ++ ',' :: number network.snr.index := by
  rw [headText, intercalate_eq, frontText_append]
  simp [timersText, Network.head, quoted, namesText, cellText]

theorem text_eq (some : record.network = some network) :
    record.text = headText record.status network ++ timersText network.timers := by
  rw [Record.text, Record.parameters, some, Option.elim_some, headText, intercalate_eq, intercalate_eq, List.append_assoc]
  simp [timersText]

/-- Up to the SNR, an answer that has room stays as it is. -/
theorem take_text {size : ℕ} (some : record.network = some network) (fits : (headText record.status network).length ≤ size) :
    record.text.take size = headText record.status network ++
      (timersText network.timers).take (size - (headText record.status network).length) := by
  rw [text_eq some, List.take_append, List.take_of_length_le fits]

theorem length_status : (number (statusNumber status)).length ≤ 2 := by cases status <;> decide

end Texts

end CoapsClient.ModemMonitor
