import CoapsClient.Model.Modem.Coverage
import CoapsClient.Model.Dtls.Client
import Mathlib.Order.MinMax

/-! # The time scale of a worse coverage

A `%CONEVAL` answer that is read while RRC is active decides alone about the time scale. Its two repetition counts
are kept in a byte each, the larger is taken in a byte again, and more than 128 repetitions have no factor of their
own. A worse coverage has the larger scale unless its repetitions fall out of the table in one of these ways.
-/

namespace CoapsClient.Modem

open ShCmd (Text)
open Machine (Numeral Sign DigitFree ofDigits takeWhile_digits dropWhile_digits digitFree_cons)
open DtlsClient (parseNextLong clampLong networkTimeoutScale decimal_eq sign_text dropWhile_isSpace_numeral)

section Reading

variable {rest : Text} {numeral : Numeral} {scan : Scan} {set : Int → LteCeInfo → LteCeInfo}

/-- `parse_next_long` takes all of a numeral. -/
theorem parseNextLong_numeral (free : DigitFree rest) (before : Int) :
    parseNextLong (numeral.text ++ rest) before = (clampLong numeral.value, rest) := by
  have noSpace := @dropWhile_isSpace_numeral rest numeral
  have signed := @sign_text rest numeral.sign _ numeral.decimal numeral.nonempty
  rw [← List.append_assoc] at signed
  simp only [parseNextLong, noSpace]
  rw [show numeral.text ++ rest = numeral.sign.text ++ numeral.digits ++ rest from rfl, signed]
  simp only [takeWhile_digits numeral.decimal free, dropWhile_digits numeral.decimal free, List.isEmpty_iff,
    numeral.nonempty, if_false, decimal_eq, Numeral.value]

theorem text_append_ne : numeral.text ++ rest ≠ rest := by
  obtain ⟨char, tail, starts, -⟩ := numeral.text_cons
  intro same
  have length := congrArg List.length same
  rw [starts, List.length_append, List.length_cons] at length
  omega

/-- A parameter that is a number is read. -/
theorem Scan.read_numeral (free : DigitFree rest) :
    scan.read (numeral.text ++ rest) set =
      ⟨numeral.text ++ rest, rest, clampLong numeral.value, set (clampLong numeral.value) scan.temp⟩ := by
  simp only [Scan.read, parseNextLong_numeral free, if_neg text_append_ne]

theorem Scan.next_numeral (free : DigitFree rest) (place : scan.n = ',' :: (numeral.text ++ rest)) :
    scan.next set =
      ⟨numeral.text ++ rest, rest, clampLong numeral.value, set (clampLong numeral.value) scan.temp⟩ := by
  rw [Scan.next, place]
  exact Scan.read_numeral free

/-- Parameters, each with the comma behind it. -/
def parameters (fields : List Text) : Text := fields.flatMap (· ++ [','])

/-- As many parameters are skipped as there are. -/
theorem parseNextChars_parameters {fields : List Text} (free : ∀ field ∈ fields, ',' ∉ field) (more : rest ≠ []) :
    parseNextChars (parameters fields ++ rest) ',' fields.length = rest := by
  induction fields with
  | nil => rfl
  | cons field fields ih =>
    have split : parameters (field :: fields) ++ rest = field ++ ',' :: (parameters fields ++ rest) := by
      simp [parameters]
    have later := ih fun other found => free other (List.mem_cons_of_mem field found)
    have nonempty : parameters fields ++ rest ≠ [] := List.append_ne_nil_of_right_ne_nil _ more
    rw [split, List.length_cons, parseNextChars, parseNextChar_append (free field List.mem_cons_self)]
    simp only [List.isEmpty_iff, nonempty, if_false, later]

theorem Scan.skip_numeral {fields : List Text} (commas : ∀ field ∈ fields, ',' ∉ field) (free : DigitFree rest)
    (place : scan.cur = parameters fields ++ (numeral.text ++ rest)) :
    scan.skip fields.length set =
      ⟨numeral.text ++ rest, rest, clampLong numeral.value, set (clampLong numeral.value) scan.temp⟩ := by
  have more : numeral.text ++ rest ≠ [] := by
    obtain ⟨char, tail, starts, -⟩ := numeral.text_cons
    simp [starts]
  rw [Scan.skip, place, parseNextChars_parameters commas more]
  simp only [List.isEmpty_iff, more, if_false]
  exact Scan.read_numeral free

end Reading

/-- A `%CONEVAL` answer with the result success. -/
structure Coneval where
  result : Numeral
  success : result.value = 0
  /-- The RRC state and the energy estimate. -/
  estimate : List Text
  rsrp : Numeral
  rsrq : Numeral
  snr : Numeral
  /-- What identifies the cell, the tracking area, the coverage enhancement and the transmission power. -/
  cell : List Text
  uplinkRepetition : Numeral
  downlinkRepetition : Numeral
  pathLoss : Text
  estimate_length : estimate.length = 2
  cell_length : cell.length = 8
  plain : ∀ field ∈ estimate ++ cell, ',' ∉ field

namespace Coneval

variable (answer : Coneval)

/-- The parameters behind the signal quality. -/
def trailer : Text :=
  parameters answer.cell ++
    (answer.uplinkRepetition.text ++ ',' :: (answer.downlinkRepetition.text ++ ',' :: answer.pathLoss))

/-- The parameters behind the result. -/
def body : Text :=
  parameters answer.estimate ++
    (answer.rsrp.text ++ ',' :: (answer.rsrq.text ++ ',' :: (answer.snr.text ++ ',' :: answer.trailer)))

/-- The answer as it is written. -/
def text : Text := answer.result.text ++ ',' :: answer.body

/-- The coverage that an answer stands for. -/
def ceInfo : LteCeInfo :=
  let info : LteCeInfo := { state := if (parseNextLong answer.body 0).1 = 1 then 'C' else 'I' }
  let info := ((info.setRsrp (clampLong answer.rsrp.value)).setRsrq (clampLong answer.rsrq.value)).setSnr
    (clampLong answer.snr.value)
  (info.setUplinkRepetition (clampLong answer.uplinkRepetition.value)).setDownlinkRepetition
    (clampLong answer.downlinkRepetition.value)

/-- A count as a byte keeps it. -/
def stored (count : Numeral) : ℕ := (min count.value 2147483647 % 256).toNat

/-- The repetitions, as a byte takes the larger count. -/
def repetition : ℕ := max (stored answer.downlinkRepetition) (4 * stored answer.uplinkRepetition) % 256

/-- The signal strength in dBm. -/
def signal : Int := if 0 < answer.rsrp.value then answer.rsrp.value - 141 else answer.rsrp.value - 140

/-- The signal strength is known. -/
def ValidSignal : Prop := answer.rsrp.value ≠ 255 ∧ -32768 ≤ answer.signal ∧ answer.signal < invalidSignalValue

instance : Decidable answer.ValidSignal := inferInstanceAs (Decidable (_ ∧ _))

def factor : ℕ := max (repetitionFactor answer.repetition) (signalFactor answer.signal)

theorem text_ne_nil : answer.text ≠ [] := by
  obtain ⟨char, rest, starts, -⟩ := answer.result.text_cons
  simp [text, starts]

/-- The coverage is read from the parameters of an answer. -/
private theorem readParameters_eq : readParameters answer.body = answer.ceInfo := by
  have comma : ∀ rest : Text, DigitFree (',' :: rest) := fun rest => digitFree_cons (by decide)
  have before : ∀ field ∈ answer.estimate, ',' ∉ field := fun field found =>
    answer.plain field (List.mem_append_left _ found)
  have behind : ∀ field ∈ answer.snr.text :: answer.cell, ',' ∉ field := by
    intro field found
    rcases List.mem_cons.mp found with rfl | found
    · exact answer.snr.not_mem (by decide) (by decide) (by decide)
    · exact answer.plain field (List.mem_append_right _ found)
  have toRsrp := fun (scan : Scan) place => @Scan.skip_numeral _ answer.rsrp scan .setRsrp _ before
    (comma (answer.rsrq.text ++ ',' :: (answer.snr.text ++ ',' :: answer.trailer))) place
  have toRsrq := fun (scan : Scan) place => @Scan.next_numeral _ answer.rsrq scan .setRsrq
    (comma (answer.snr.text ++ ',' :: answer.trailer)) place
  have toSnr := fun (scan : Scan) place => @Scan.next_numeral _ answer.snr scan .setSnr (comma answer.trailer) place
  have toUplink := fun (scan : Scan) place => @Scan.skip_numeral _ answer.uplinkRepetition scan .setUplinkRepetition _ behind
    (comma (answer.downlinkRepetition.text ++ ',' :: answer.pathLoss)) place
  have toDownlink := fun (scan : Scan) place => @Scan.next_numeral _ answer.downlinkRepetition scan .setDownlinkRepetition
    (comma answer.pathLoss) place
  rw [answer.estimate_length] at toRsrp
  rw [List.length_cons, answer.cell_length] at toUplink
  have trailed : answer.snr.text ++ ',' :: answer.trailer =
      parameters (answer.snr.text :: answer.cell) ++
        (answer.uplinkRepetition.text ++ ',' :: (answer.downlinkRepetition.text ++ ',' :: answer.pathLoss)) := by
    simp [trailer, parameters]
  simp only [readParameters]
  rw [toRsrp _ rfl, toRsrq _ rfl, toSnr _ rfl, toUplink _ trailed, toDownlink _ rfl]
  rfl

/-- The answer is read whole. -/
private theorem readConeval_eq : readConeval answer.text = some answer.ceInfo := by
  have comma : DigitFree (',' :: answer.body) := digitFree_cons (by decide)
  have zero : clampLong answer.result.value = 0 := by rw [answer.success]; rfl
  have whole : answer.result.text ++ ',' :: answer.body ≠ ',' :: answer.body := text_append_ne
  simp only [readConeval, text, parseNextLong_numeral comma, zero]
  rw [if_pos (by simp [whole]), readParameters_eq]

/-- The network after an answer. -/
def after (network : Network) : Network := (modemReadCoverageEnhancementInfo network (.ok answer.text)).2.2

variable {answer} {network : Network}

/-- While RRC is active, nothing of the last answer is kept. -/
private theorem after_ceInfo (active : network.rrcActive = .on) : (answer.after network).ceInfo = answer.ceInfo := by
  obtain ⟨char, rest, starts⟩ := List.exists_cons_of_ne_nil answer.text_ne_nil
  have read := answer.readConeval_eq
  rw [starts] at read
  simp only [after, modemReadCoverageEnhancementInfo, starts, read, active, if_true]

private theorem stored_eq {count : Numeral} (counted : 0 ≤ count.value) : uint8 (clampLong count.value) = stored count := by
  have cut : clampLong count.value = min count.value 2147483647 := by
    unfold clampLong
    omega
  rw [uint8, stored, cut]

private theorem ceInfo_repetition (down : 0 ≤ answer.downlinkRepetition.value) (up : 0 ≤ answer.uplinkRepetition.value) :
    answer.ceInfo.repetition = answer.repetition := by
  change max (uint8 (clampLong answer.downlinkRepetition.value)) (uint8 (clampLong answer.uplinkRepetition.value) <<< 2) %
    256 = _
  rw [stored_eq down, stored_eq up, Nat.shiftLeft_eq, Nat.mul_comm]
  rfl

private theorem setRsrq_rsrp (value : Int) (info : LteCeInfo) : (info.setRsrq value).rsrp = info.rsrp := by
  unfold LteCeInfo.setRsrq
  split_ifs <;> rfl

private theorem setSnr_rsrp (value : Int) (info : LteCeInfo) : (info.setSnr value).rsrp = info.rsrp := by
  unfold LteCeInfo.setSnr
  split_ifs <;> rfl

private theorem setRsrp_rsrp (valid : answer.ValidSignal) (info : LteCeInfo) :
    (info.setRsrp (clampLong answer.rsrp.value)).rsrp = answer.signal := by
  obtain ⟨known, low, high⟩ := valid
  have inside : clampLong answer.rsrp.value = answer.rsrp.value := by
    unfold signal invalidSignalValue at *
    unfold clampLong
    omega
  unfold signal invalidSignalValue at *
  rw [inside, LteCeInfo.setRsrp, if_neg known]
  simp only [int16, Int.bmod_def]
  split_ifs <;> omega

private theorem ceInfo_rsrp (valid : answer.ValidSignal) : answer.ceInfo.rsrp = answer.signal := by
  simp only [ceInfo, LteCeInfo.setDownlinkRepetition, LteCeInfo.setUplinkRepetition, setSnr_rsrp, setRsrq_rsrp,
    setRsrp_rsrp valid]

/-- The time scale after an answer. -/
private theorem modemGetTimeScale_after (active : network.rrcActive = .on) (down : 0 ≤ answer.downlinkRepetition.value)
    (up : 0 ≤ answer.uplinkRepetition.value) (valid : answer.ValidSignal) :
    modemGetTimeScale (answer.after network) = answer.factor := by
  rw [modemGetTimeScale, after_ceInfo active, ceInfo_repetition down up, ceInfo_rsrp valid, factor]

end Coneval

/-- The second coverage is no better than the first in any of the three values. -/
structure Worse (first second : Coneval) : Prop where
  down_counted : 0 ≤ first.downlinkRepetition.value
  down : first.downlinkRepetition.value ≤ second.downlinkRepetition.value
  up_counted : 0 ≤ first.uplinkRepetition.value
  up : first.uplinkRepetition.value ≤ second.uplinkRepetition.value
  first_signal : first.ValidSignal
  second_signal : second.ValidSignal
  signal : second.signal ≤ first.signal

/-- The time scale and the scaled timeout do not become smaller. -/
def ScaleKept (before after : Network) (timeout : ℕ) : Prop :=
  modemGetTimeScale before ≤ modemGetTimeScale after ∧
    networkTimeoutScale { timeScale := modemGetTimeScale before } timeout ≤
      networkTimeoutScale { timeScale := modemGetTimeScale after } timeout

/-- The steps of the table: the repetitions above which and up to which they are, and the signal strength from
which on a lower factor belongs to it. -/
def scaleSteps : List (ℕ × ℕ × Int) := [(8, 16, -110), (16, 32, -120), (32, 64, -125), (64, 128, -130)]

/-- The step of the first coverage is reached by the repetitions of the second, which are at most 128 then, or by its
signal strength. -/
def StepReached (first second : Coneval) : Prop :=
  ∀ step ∈ scaleSteps, step.1 < first.repetition → first.repetition ≤ step.2.1 →
    step.1 < second.repetition ∧ second.repetition ≤ 128 ∨ second.signal ≤ step.2.2

/-- The largest timeout of which a factor leaves 16 bits. -/
def largestTimeout (factor : ℕ) : ℕ := 6553599 / factor

example : [100, 150, 200, 350, 500].map largestTimeout = [65535, 43690, 32767, 18724, 13107] := by decide

/-- What 16 bits drop of the second scaled timeout, and not of the first, is at most what its factor adds. Up to the
largest timeout of the second factor nothing is dropped. -/
def DropCovered (first second : Coneval) (timeout : ℕ) : Prop :=
  65536 * (timeout * second.factor / 100 / 65536 - timeout * first.factor / 100 / 65536) ≤
    timeout * second.factor / 100 - timeout * first.factor / 100

section Worse

variable {first second : Coneval} {timeout : ℕ}

private theorem factor_ge (answer : Coneval) : 100 ≤ answer.factor := by
  have least : 100 ≤ signalFactor answer.signal := by
    unfold signalFactor
    split_ifs <;> omega
  exact least.trans (le_max_right _ _)

private theorem factor_le (answer : Coneval) : answer.factor ≤ 500 := by
  refine max_le ?_ ?_
  · unfold repetitionFactor
    split_ifs <;> omega
  · unfold signalFactor
    split_ifs <;> omega

/-- The scaled timeout is the exact one in 16 bits. -/
private theorem networkTimeoutScale_eq (range : timeout < 65536) (answer : Coneval) :
    networkTimeoutScale { timeScale := answer.factor } timeout = timeout * answer.factor / 100 % 65536 := by
  have least := factor_ge answer
  unfold networkTimeoutScale
  split
  · rfl
  · have same : answer.factor = 100 := by
      simp only at *
      omega
    rw [same]
    omega

/-- The repetitions that have at least a factor. -/
private theorem le_repetitionFactor (repetition : ℕ) :
    (150 ≤ repetitionFactor repetition ↔ 8 < repetition ∧ repetition ≤ 128) ∧
      (200 ≤ repetitionFactor repetition ↔ 16 < repetition ∧ repetition ≤ 128) ∧
      (350 ≤ repetitionFactor repetition ↔ 32 < repetition ∧ repetition ≤ 128) ∧
      (500 ≤ repetitionFactor repetition ↔ 64 < repetition ∧ repetition ≤ 128) := by
  unfold repetitionFactor
  split_ifs <;> omega

/-- The signal strengths that have at least a factor. -/
private theorem le_signalFactor (rsrp : Int) :
    (150 ≤ signalFactor rsrp ↔ rsrp ≤ -110) ∧ (200 ≤ signalFactor rsrp ↔ rsrp ≤ -120) ∧
      (350 ≤ signalFactor rsrp ↔ rsrp ≤ -125) ∧ (500 ≤ signalFactor rsrp ↔ rsrp ≤ -130) := by
  unfold signalFactor
  split_ifs <;> omega

/-- The factor of the repetitions is reached exactly with the step. -/
private theorem repetitionFactor_le_iff : repetitionFactor first.repetition ≤ second.factor ↔ StepReached first second := by
  have least := factor_ge second
  obtain ⟨repeated150, repeated200, repeated350, repeated500⟩ := le_repetitionFactor second.repetition
  obtain ⟨weak150, weak200, weak350, weak500⟩ := le_signalFactor second.signal
  simp only [StepReached, scaleSteps, List.forall_mem_cons, List.not_mem_nil, false_imp_iff, implies_true, and_true]
  rw [Coneval.factor] at least ⊢
  generalize repetitionFactor second.repetition = repeated at *
  unfold repetitionFactor
  split_ifs
  · omega
  · rw [le_max_iff, repeated150, weak150]
    omega
  · rw [le_max_iff, repeated200, weak200]
    omega
  · rw [le_max_iff, repeated350, weak350]
    omega
  · rw [le_max_iff, repeated500, weak500]
    omega
  · omega

private theorem factor_le_iff (worse : Worse first second) : first.factor ≤ second.factor ↔ StepReached first second := by
  have signal : signalFactor first.signal ≤ second.factor :=
    (signalFactor_anti worse.signal).trans (le_max_right _ _)
  rw [← repetitionFactor_le_iff]
  constructor
  · intro larger
    exact (le_max_left _ _).trans larger
  · intro reached
    exact max_le reached signal

private theorem dropCovered_iff (larger : first.factor ≤ second.factor) : DropCovered first second timeout ↔
    timeout * first.factor / 100 % 65536 ≤ timeout * second.factor / 100 % 65536 := by
  have scaled : timeout * first.factor / 100 ≤ timeout * second.factor / 100 :=
    Nat.div_le_div_right (Nat.mul_le_mul_left timeout larger)
  unfold DropCovered
  omega

/-- Any factor leaves timeouts of up to 13107 s, as the 3 s that are configured at the start. -/
private theorem le_largestTimeout (small : timeout ≤ 13107) (answer : Coneval) :
    timeout ≤ largestTimeout answer.factor := by
  have least := factor_ge answer
  rw [largestTimeout, Nat.le_div_iff_mul_le (by omega)]
  calc
    timeout * answer.factor ≤ 13107 * 500 := Nat.mul_le_mul small (factor_le answer)
    _ ≤ 6553599 := by decide

/-- Up to the largest timeout of the second factor nothing is dropped, whatever the first one is. -/
private theorem dropCovered_of_le (larger : first.factor ≤ second.factor) (small : timeout ≤ largestTimeout second.factor) :
    DropCovered first second timeout := by
  have positive := factor_ge second
  have bound := (Nat.le_div_iff_mul_le (by omega)).mp small
  have scaled := Nat.mul_le_mul_left timeout larger
  unfold DropCovered
  omega

/-- Repetitions that the table has are never lost. -/
private theorem stepReached_of_le (worse : Worse first second) (down : second.downlinkRepetition.value ≤ 128)
    (up : second.uplinkRepetition.value ≤ 32) : StepReached first second := by
  have repetitions : first.repetition ≤ second.repetition ∧ second.repetition ≤ 128 := by
    obtain ⟨downCounted, downWorse, upCounted, upWorse, -, -, -⟩ := worse
    simp only [Coneval.repetition, Coneval.stored]
    omega
  intro step found above below
  exact .inl ⟨by omega, repetitions.2⟩

/-- After a worse coverage the time scale and the scaled timeouts are at least the same exactly if the repetitions
do not fall out of the table and 16 bits do not drop more than the factor adds. -/
theorem scaleKept_iff {before after : Network} (active : before.rrcActive = .on) (activeAfter : after.rrcActive = .on)
    (worse : Worse first second) (range : timeout < 65536) :
    ScaleKept (first.after before) (second.after after) timeout ↔
      StepReached first second ∧ DropCovered first second timeout := by
  have downSecond := worse.down_counted.trans worse.down
  have upSecond := worse.up_counted.trans worse.up
  have scaleFirst := Coneval.modemGetTimeScale_after active worse.down_counted worse.up_counted worse.first_signal
  have scaleSecond := Coneval.modemGetTimeScale_after activeAfter downSecond upSecond worse.second_signal
  rw [ScaleKept, scaleFirst, scaleSecond, networkTimeoutScale_eq range, networkTimeoutScale_eq range, ← factor_le_iff worse]
  exact and_congr_right fun larger => (dropCovered_iff larger).symm

end Worse

/-- The answer of a modem with the given repetitions and signal strength. -/
def sampleConeval (up down rsrp : Numeral) : Coneval where
  result := .unsigned ['0'] (by decide) (by decide)
  success := rfl
  estimate := ["1".toList, "7".toList]
  rsrp
  rsrq := .unsigned "16".toList (by decide) (by decide)
  snr := .unsigned "31".toList (by decide) (by decide)
  cell := ["\"01CC2B00\"".toList, "\"26201\"".toList, "289".toList, "1300".toList, "3".toList, "0".toList, "0".toList,
    "18".toList]
  uplinkRepetition := up
  downlinkRepetition := down
  pathLoss := "122".toList
  estimate_length := rfl
  cell_length := rfl
  plain := by decide

/-- The network with an active connection. -/
def connected : Network := { rrcActive := .on }

example : String.ofList (sampleConeval (.unsigned ['1'] (by decide) (by decide)) (.unsigned ['8'] (by decide) (by decide))
    (.unsigned "30".toList (by decide) (by decide))).text =
    "0,1,7,30,16,31,\"01CC2B00\",\"26201\",289,1300,3,0,0,18,1,8,122" := by decide +kernel

/-- 64 repetitions are taken for none, where 32 had the largest factor. -/
theorem not_scaleKept_repetitions : ¬ ∀ (before after : Network) (first second : Coneval) (timeout : ℕ),
    before.rrcActive = .on → after.rrcActive = .on → Worse first second → timeout < 65536 →
      ScaleKept (first.after before) (second.after after) timeout := by
  intro all
  have worse : Worse
      (sampleConeval (.unsigned "32".toList (by decide) (by decide)) (.unsigned ['8'] (by decide) (by decide))
        (.unsigned "30".toList (by decide) (by decide)))
      (sampleConeval (.unsigned "64".toList (by decide) (by decide)) (.unsigned ['8'] (by decide) (by decide))
        (.unsigned "30".toList (by decide) (by decide))) :=
    ⟨by decide, by decide, by decide, by decide, by decide, by decide, by decide⟩
  have kept := (all connected connected _ _ 3 rfl rfl worse (by decide)).1
  exact absurd kept (by decide +kernel)

/-- From 1 to 16 repetitions, and to a signal that is 5 dB weaker. -/
theorem scaleKept_iff_sample :
    ScaleKept
      ((sampleConeval (.unsigned ['1'] (by decide) (by decide)) (.unsigned ['8'] (by decide) (by decide))
        (.unsigned "30".toList (by decide) (by decide))).after connected)
      ((sampleConeval (.unsigned "16".toList (by decide) (by decide)) (.unsigned "32".toList (by decide) (by decide))
        (.unsigned "25".toList (by decide) (by decide))).after connected) 3 := by
  have worse : Worse
      (sampleConeval (.unsigned ['1'] (by decide) (by decide)) (.unsigned ['8'] (by decide) (by decide))
        (.unsigned "30".toList (by decide) (by decide)))
      (sampleConeval (.unsigned "16".toList (by decide) (by decide)) (.unsigned "32".toList (by decide) (by decide))
        (.unsigned "25".toList (by decide) (by decide))) :=
    ⟨by decide, by decide, by decide, by decide, by decide, by decide, by decide⟩
  have reached := stepReached_of_le worse (by decide) (by decide)
  exact (scaleKept_iff rfl rfl worse (by decide)).mpr ⟨reached,
    dropCovered_of_le ((factor_le_iff worse).mpr reached) (le_largestTimeout (by decide) _)⟩

end CoapsClient.Modem
