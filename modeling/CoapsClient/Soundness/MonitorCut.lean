import CoapsClient.Soundness.MonitorRecord

/-! # Answers that are cut

If the buffer ends in the SNR, its first digits are another number, and if it ends in front of the SNR, there are not
enough commas to get there.
-/

namespace CoapsClient.ModemMonitor

open Machine (Numeral digitFree_nil isXdigit_of_mem xdigits)
open ShCmd (Text)
open DtlsClient (clampLong parseNextLong isSpace sign)
open CoapAppl (RegStatus)
open Modem (invalidSignalValue int16 parseNextChar parseNextChars parseNextQtext)

section Cut

variable {record : Record} {network : Network}

/-- Without a digit there is no number. -/
theorem long_minus {scan : Scan} {set : Int → Scan → Scan} {cur : Text} (only : ∀ char ∈ cur, char = '-') :
    scan.long set cur = { scan with n := cur } := by
  have none : parseNextLong cur scan.value = (scan.value, cur) := by
    cases cur with
    | nil => rfl
    | cons first more =>
      obtain rfl := only first List.mem_cons_self
      have digits : more.takeWhile Char.isDigit = [] := by
        cases more with
        | nil => rfl
        | cons second more =>
          obtain rfl := only second (by simp)
          rfl
      have visible : ('-' :: more).dropWhile isSpace = '-' :: more := rfl
      simp only [parseNextLong, visible, sign, digits, List.isEmpty_nil, if_true]
  unfold Scan.long
  rw [none]
  exact if_pos rfl

/-- A number that is not the one of a signal value has another value. -/
theorem Signal.level_ne_of_ne (signal : Signal 25 127) {value : Int} (other : value ≠ signal.index)
    (between : 0 ≤ value ∧ value ≤ signal.index ∨ signal.index ≤ value ∧ value ≤ 0) :
    (if value = 127 then invalidSignalValue else int16 (value - 25)) ≠ signal.level := by
  obtain ⟨known, proper⟩ := signal
  unfold Signal.index at other between
  unfold Signal.level invalidSignalValue
  cases known with
  | none =>
    rw [Option.elim_none] at other between
    rw [if_neg other, int16_eq (by omega) (by omega)]
    change value - 25 ≠ 32767
    omega
  | some known =>
    obtain ⟨low, high, -⟩ := proper known rfl
    unfold noneSignalValue at high
    rw [Option.elim_some] at other between
    change _ ≠ known
    split
    · omega
    · rw [int16_eq (by omega) (by omega)]
      omega

/-- A cut SNR is not read as what it was. -/
private theorem snr_cut {scan : Scan} {count : ℕ} (none : scan.snr = noneSignalValue)
    (place : scan.n = ',' :: (number network.snr.index).take count) (cut : count < (number network.snr.index).length) :
    (scan.next (Scan.long fun value scan => scan.setSnr value)).snr ≠ network.snr.level := by
  rw [Scan.next_comma place, number]
  rcases Numeral.ofInt_take cut with only | ⟨numeral, text, other, between⟩
  · rw [long_minus only]
    exact none ▸ network.snr.level_ne.symm
  · have whole := @Scan.long_numeral scan [] numeral (fun value scan => scan.setSnr value) digitFree_nil
    have inside := network.snr.clampLong_index (by decide) (by decide) (by decide) (by decide)
    have same : clampLong numeral.value = numeral.value := by
      unfold clampLong at inside ⊢
      omega
    rw [List.append_nil, same] at whole
    rw [text, whole]
    exact network.snr.level_ne_of_ne other between

private theorem number_not_mem {value : Int} {char : Char} (digit : char.isDigit = false) (plus : char ≠ '+')
    (minus : char ≠ '-') :
    char ∉ number value := Numeral.not_mem _ digit plus minus

private theorem xdigits_not_mem {width value : ℕ} : ',' ∉ xdigits width value := fun found =>
  (isXdigit_ne (isXdigit_of_mem ',' found)).2.2.2.2.2.2 rfl

/-- The commas between the names and the RSRP. -/
private theorem count_namesText (fullName : ',' ∉ network.fullName) (shortName : ',' ∉ network.shortName) :
    (namesText network (cellText network [])).count ',' = 9 := by
  have digits : ',' ∉ network.plmn := fun found => by
    have digit := network.plmn_digits ',' found
    revert digit
    decide
  have numbers : ∀ value, (number value).count ',' = 0 := fun value =>
    List.count_eq_zero.mpr (number_not_mem (by decide) (by decide) (by decide))
  have hex : ∀ width value, (xdigits width value).count ',' = 0 := fun _ _ => List.count_eq_zero.mpr xdigits_not_mem
  simp [namesText, cellText, List.count_append, numbers, hex, List.count_eq_zero.mpr fullName,
    List.count_eq_zero.mpr shortName, List.count_eq_zero.mpr digits]

private theorem count_parseNextChar (cur : Text) : (parseNextChar cur ',').count ',' = cur.count ',' - 1 := by
  have split : cur.takeWhile (· ≠ ',') ++ cur.dropWhile (· ≠ ',') = cur := List.takeWhile_append_dropWhile
  have none : (cur.takeWhile (· ≠ ',')).count ',' = 0 := List.count_eq_zero.mpr fun found => by
    simpa using List.mem_takeWhile_imp found
  have whole := congrArg (List.count ',') split
  rw [List.count_append, none, Nat.zero_add] at whole
  rw [parseNextChar, ← whole]
  cases rest : cur.dropWhile (· ≠ ',') with
  | nil => rfl
  | cons char more =>
    have first := List.head?_dropWhile_not (· ≠ ',') cur
    rw [rest] at first
    obtain rfl : char = ',' := by simpa using first
    simp

theorem parseNextChars_two (cur : Text) : parseNextChars cur ',' 2 = parseNextChar (parseNextChar cur ',') ',' := by
  unfold parseNextChars
  dsimp only
  split
  · next empty =>
    rw [List.isEmpty_iff.mp empty]
    rfl
  · unfold parseNextChars
    dsimp only
    split
    · rfl
    · rfl

private theorem parseNextQtext_suffix {cur : Text} {len : ℕ} : (parseNextQtext cur '"' len).2 <:+ cur := by
  unfold parseNextQtext ShCmd.parseNextText
  split
  · dsimp only
    exact (List.tail_suffix _).trans ((List.dropWhile_suffix _).trans (List.tail_suffix cur))
  · exact List.suffix_refl _

private theorem plmn_within {scan : Scan} {cur : Text} (few : cur.count ',' ≤ 9) : Scan.Within 7 (scan.plmn cur) := by
  intro _
  have landed : (parseNextChars cur ',' 2).count ',' ≤ 7 := by
    rw [parseNextChars_two, count_parseNextChar, count_parseNextChar]
    omega
  refine le_trans (List.Sublist.count_le ',' (List.IsSuffix.sublist ?_)) landed
  unfold Scan.plmn
  dsimp only
  split
  · exact parseNextQtext_suffix
  · exact List.suffix_refl _

private theorem plmn_snr {scan : Scan} {cur : Text} : (scan.plmn cur).snr = scan.snr := by
  unfold Scan.plmn
  dsimp only
  split <;> rfl

/-- An answer that has no room up to the SNR is not read. -/
theorem read_long {size : ℕ} (some : record.network = some network) (three : 3 ≤ size)
    (fullName : ',' ∉ network.fullName) (shortName : ',' ∉ network.shortName)
    (long : size < (headText record.status network).length) :
    (readMonitor (record.text.take size)).snr ≠ network.snr.level := by
  have registered : isRegistered record.status = true := record.registered (by rw [some]; rfl)
  have short := @length_status record.status
  rw [text_eq some, List.take_append_of_le_length long.le]
  rw [headText_eq] at long ⊢
  rcases Nat.lt_or_ge (frontText record.status network).length size with more | less
  · -- the SNR is cut
    obtain ⟨count, same⟩ : ∃ count, size - (frontText record.status network).length = count + 1 :=
      ⟨size - (frontText record.status network).length - 1, by omega⟩
    rw [List.length_append, List.length_cons] at long
    rw [List.take_append, List.take_of_length_le more.le, same, List.take_succ_cons, frontText_append,
      readMonitor_registered record.status_proper registered, Scan.network_eq.2.2.1, cell_front fullName shortName (comma_free _)]
    exact snr_cut rfl rfl (by omega)
  · -- the comma in front of the SNR is missing
    rw [List.take_append_of_le_length less, frontText, List.take_append, List.take_of_length_le (by omega)]
    obtain ⟨count, same⟩ : ∃ count, size - (number (statusNumber record.status)).length = count + 1 :=
      ⟨size - (number (statusNumber record.status)).length - 1, by omega⟩
    have few : ((namesText network (cellText network [])).take count).count ',' ≤ 9 :=
      ((List.take_sublist _ _).count_le ',').trans (count_namesText fullName shortName).le
    rw [same, List.take_succ_cons, readMonitor_registered record.status_proper registered, Scan.network_eq.2.2.1,
      Scan.Within.snr (plmn_within few), plmn_snr]
    exact network.snr.level_ne.symm

end Cut

end CoapsClient.ModemMonitor
