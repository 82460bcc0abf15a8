import CoapsClient.Machine.Placing
import CoapsClient.Machine.Separated
import CoapsClient.Model.Modem.Bands
import CoapsClient.Soundness.CoverageScale
import Mathlib.Data.List.Infix

/-! # The list of bands

A list of numbers becomes a mask, and the mask is printed as a list again. The numbers are not checked: one above the
number of bands is stored in front of the mask. The loop that prints leaves out the last band, and goes on behind its line.
-/

namespace CoapsClient.ModemBands

open ShCmd (Text parseNextText)
open DtlsClient (parseNextLong clampLong)
open Machine (Writer Numeral DigitFree Shown put textEnd ended ended_cons ended_eq)
open Modem (parseNextLong_numeral)

/-- A number as it is written. -/
def numberText (number : Int) : Text := (Numeral.ofInt number).text

/-- The numbers, with a blank between them. -/
def listText (numbers : List Int) : Text := [' '].intercalate (numbers.map numberText)

section Numbers

variable {number : Int} {numbers : List Int} {rest : Text}

private theorem space_not_mem : ' ' ∉ numberText number :=
  (Numeral.ofInt number).not_mem (by decide) (by decide) (by decide)

private theorem numberText_ne_nil : numberText number ≠ [] := by
  obtain ⟨char, tail, starts, -⟩ := (Numeral.ofInt number).text_cons
  simp [numberText, starts]

/-- The first digits of a large number are those of a large number. -/
private theorem lead_digits (value : ℕ) (large : 1000 ≤ value) :
    ∃ lead, 1000 ≤ lead ∧ (Nat.toDigits 10 value).take 4 = Nat.toDigits 10 lead := by
  induction value using Nat.strong_induction_on with
  | _ value ih =>
    by_cases four : value < 10000
    · exact ⟨value, large, List.take_of_length_le ((Nat.length_toDigits_le_iff (by decide) (by decide)).mpr four)⟩
    · obtain ⟨lead, least, same⟩ := ih (value / 10) (by omega) (by omega)
      refine ⟨lead, least, ?_⟩
      have long : 4 ≤ (Nat.toDigits 10 (value / 10)).length := by
        by_contra short
        have small := (@Nat.length_toDigits_le_iff 10 (value / 10) 3 (by decide) (by decide)).mp (by omega)
        omega
      rw [Nat.toDigits_of_base_le (by decide) (by omega), List.take_append_of_le_length long, same]

/-- A number that is cut to four characters is the same band, or still none. -/
private theorem cut_number (number : Int) : ∃ numeral : Numeral, (numberText number).take 4 = numeral.text ∧
    (number ≤ 0 → numeral.value ≤ 0) ∧ (0 < number → number ≤ 88 → numeral.value = number) ∧
    (88 < number → 88 < numeral.value) := by
  by_cases negative : number < 0
  · have text : (numberText number).take 4 = '-' :: (Nat.toDigits 10 number.natAbs).take 3 := by
      simp [numberText, Numeral.text, Numeral.ofInt, negative, Machine.Sign.text]
    refine ⟨⟨.minus, (Nat.toDigits 10 number.natAbs).take 3, ?_, ?_⟩, text, fun _ => ?_, by omega, by omega⟩
    · simp [Nat.toDigits_ne_nil]
    · exact fun digit found => (Numeral.ofInt number).decimal digit (List.mem_of_mem_take found)
    · simp only [Numeral.value, Machine.Sign.factor]
      omega
  · have text : numberText number = Nat.toDigits 10 number.toNat := by
      simp [numberText, Numeral.text, Numeral.ofInt, negative, Machine.Sign.text,
        show number.natAbs = number.toNat by omega]
    by_cases small : number < 1000
    · refine ⟨Numeral.ofInt number, ?_, ?_, ?_, ?_⟩
      · refine List.take_of_length_le ?_
        rw [text]
        exact (Nat.length_toDigits_le_iff (by decide) (by decide)).mpr (by omega)
      · simp
      · simp
      · simp
    · obtain ⟨lead, least, same⟩ := lead_digits number.toNat (by omega)
      refine ⟨Numeral.ofInt lead, ?_, by omega, by omega, fun _ => ?_⟩
      · have positive : ¬ (lead : Int) < 0 := by omega
        rw [text, same]
        simp only [Numeral.text, Numeral.ofInt, if_neg positive, Machine.Sign.text, List.nil_append, Int.natAbs_natCast]
      · rw [Numeral.value_ofInt]
        omega

/-- The next number of a list. -/
private theorem parse_listText :
    parseNextText (listText (number :: numbers)) ' ' 5 = ((numberText number).take 4, listText numbers) := by
  have other : ∀ char ∈ numberText number, decide (char ≠ ' ') = true :=
    fun char found => decide_eq_true fun same => space_not_mem (same ▸ found)
  have head : ∀ rest, (numberText number ++ rest).head? ≠ some ' ' := by
    intro rest same
    obtain ⟨char, tail, starts⟩ := List.exists_cons_of_ne_nil (@numberText_ne_nil number)
    rw [starts] at same
    obtain rfl := Option.some_inj.mp same
    exact space_not_mem (starts ▸ List.mem_cons_self)
  cases numbers with
  | nil =>
    have start := head []
    rw [List.append_nil] at start
    simp only [listText, List.map_cons, List.map_nil, List.intercalate_singleton, List.intercalate_nil, parseNextText]
    rw [if_neg start, List.takeWhile_eq_self_iff.mpr other, List.dropWhile_eq_nil_iff.mpr other]
    rfl
  | cons next numbers =>
    have split : listText (number :: next :: numbers) = numberText number ++ ' ' :: listText (next :: numbers) := by
      simp only [listText, List.map_cons, List.intercalate_cons_cons, List.append_assoc, List.singleton_append]
    simp only [split, parseNextText]
    rw [if_neg (head _), List.takeWhile_append_of_pos other, List.dropWhile_append_of_pos other]
    simp

end Numbers

/-- The mask of a list. -/
def bandMask (numbers : List Int) : Text :=
  (List.range 88).map fun index : ℕ => if (88 - index : Int) ∈ numbers then '1' else '0'

/-- A band in a mask. -/
def marked (bands : Text) (number : Int) : Text := if 0 < number then bands.set (88 - number).toNat '1' else bands

section Mask

variable {number : Int} {numbers : List Int} {bands value cur : Text} {fuel : ℕ}

private theorem setBand_eq (size : bands.length = 88) :
    setBand bands number = if number ≤ 88 then some (marked bands number) else none := by
  unfold setBand marked
  rw [size]
  by_cases positive : 0 < number
  · by_cases inside : number ≤ 88
    · have index : ((88 + 1 : ℕ) : Int) - number - 1 = 88 - number := by omega
      rw [if_pos positive, if_pos inside, if_pos positive, index]
      dsimp only
      rw [if_neg (by omega), Machine.put_eq (by omega)]
    · rw [if_pos positive, if_neg inside]
      exact if_pos (by omega)
  · rw [if_neg positive, if_pos (by omega), if_neg positive]

@[simp] theorem length_marked : (marked bands number).length = bands.length := by
  unfold marked
  split <;> simp

/-- The number that is read is stored like the one that was written. -/
private theorem setBand_cut (size : bands.length = 88) {numeral : Numeral} (low : number ≤ 0 → numeral.value ≤ 0)
    (same : 0 < number → number ≤ 88 → numeral.value = number) (high : 88 < number → 88 < numeral.value) :
    setBand bands (clampLong numeral.value) = setBand bands number := by
  rw [setBand_eq size, setBand_eq size, marked, marked]
  rcases le_or_gt number 0 with zero | positive
  · have value : clampLong numeral.value ≤ 0 := by
      have value := low zero
      unfold clampLong
      omega
    rw [if_neg (not_lt.mpr value), if_neg (not_lt.mpr zero), if_pos (by omega), if_pos (by omega)]
  · rcases le_or_gt number 88 with inside | outside
    · have clamped : clampLong number = number := by
        unfold clampLong
        omega
      rw [same positive inside, clamped]
    · have value : 88 < clampLong numeral.value := by
        have value := high outside
        unfold clampLong
        omega
      rw [if_neg (not_le.mpr value), if_neg (not_le.mpr outside)]

/-- One turn of the loop. -/
private theorem readBands_step (size : bands.length = 88) :
    readBands (fuel + 1) ((numberText number).take 4) cur bands =
      (setBand bands number).bind fun bands =>
        readBands fuel (parseNextText cur ' ' 5).1 (parseNextText cur ' ' 5).2 bands := by
  obtain ⟨numeral, text, low, same, high⟩ := cut_number number
  have read := @parseNextLong_numeral [] numeral nofun 0
  rw [List.append_nil] at read
  have some' : 0 < numeral.text.length := by
    obtain ⟨char, tail, starts, -⟩ := numeral.text_cons
    simp [starts]
  rw [text, readBands, read]
  simp only [List.length_nil, if_pos some', setBand_cut size low same high]

/-- The loop reads all numbers. -/
private theorem readBands_eq (size : bands.length = 88) (enough : numbers.length + 2 ≤ fuel) :
    readBands fuel ((numberText number).take 4) (listText numbers) bands = (number :: numbers).foldlM setBand bands := by
  induction numbers generalizing number bands fuel with
  | nil =>
    obtain ⟨fuel, rfl⟩ : ∃ rest, fuel = rest + 2 := ⟨fuel - 2, by simp at enough; omega⟩
    rw [readBands_step size, List.foldlM_cons]
    rfl
  | cons next numbers ih =>
    obtain ⟨fuel, rfl⟩ : ∃ rest, fuel = rest + 1 := ⟨fuel - 1, by omega⟩
    rw [readBands_step size, List.foldlM_cons, parse_listText, setBand_eq size]
    split
    · exact ih (by simpa using size) (by simpa using enough)
    · rfl

/-- The numbers are stored if none is too large. -/
private theorem foldlM_setBand (size : bands.length = 88) : numbers.foldlM setBand bands =
    if ∀ number ∈ numbers, number ≤ 88 then some (numbers.foldl marked bands) else none := by
  induction numbers generalizing bands with
  | nil => rfl
  | cons number numbers ih =>
    rw [List.foldlM_cons, setBand_eq size]
    by_cases inside : number ≤ 88
    · rw [if_pos inside]
      refine (ih (by simpa using size)).trans ?_
      simp only [List.forall_mem_cons, inside, true_and, List.foldl_cons]
    · rw [if_neg inside, if_neg (fun all => inside (all number List.mem_cons_self))]
      rfl

/-- A band is marked if it is in the list. -/
private theorem getElem?_foldl_marked {index : ℕ} (size : bands.length = 88) (inside : index < 88)
    (small : ∀ number ∈ numbers, number ≤ 88) :
    (numbers.foldl marked bands)[index]? = if (88 - index : Int) ∈ numbers then some '1' else bands[index]? := by
  induction numbers generalizing bands with
  | nil => rfl
  | cons number numbers ih =>
    have first := small number List.mem_cons_self
    rw [List.foldl_cons, ih (by simpa using size) fun other found => small other (List.mem_cons_of_mem _ found)]
    by_cases later : (88 - index : Int) ∈ numbers
    · rw [if_pos later, if_pos (List.mem_cons_of_mem _ later)]
    · rw [if_neg later, marked]
      by_cases same : (88 - index : Int) = number
      · have place : (88 - number).toNat = index := by omega
        rw [if_pos (List.mem_cons.mpr (.inl same)), if_pos (by omega), place]
        exact List.getElem?_set_self (by omega)
      · rw [if_neg (fun found => (List.mem_cons.mp found).elim same later)]
        split
        · exact List.getElem?_set_ne (by omega)
        · rfl

private theorem foldl_marked (small : ∀ number ∈ numbers, number ≤ 88) :
    numbers.foldl marked noBands = bandMask numbers := by
  have length : ∀ bands : Text, (numbers.foldl marked bands).length = bands.length := by
    intro bands
    induction numbers generalizing bands with
    | nil => rfl
    | cons number numbers ih =>
      rw [List.foldl_cons, ih fun other found => small other (List.mem_cons_of_mem _ found), length_marked]
  refine List.ext_getElem? fun index => ?_
  by_cases inside : index < 88
  · rw [getElem?_foldl_marked (by decide) inside small, bandMask, List.getElem?_map, List.getElem?_range inside]
    have old : noBands[index]? = some '0' := by rw [noBands, List.getElem?_replicate, if_pos inside]
    rw [old, Option.map_some]
    split <;> rfl
  · have short : (noBands).length = 88 := by decide
    rw [List.getElem?_eq_none (by rw [length, short]; omega), List.getElem?_eq_none (by simp [bandMask]; omega)]

private theorem length_listText : numbers.length + 1 ≤ (listText (number :: numbers)).length := by
  have nonempty : ∀ number, 1 ≤ (numberText number).length := fun number => List.length_pos_iff.mpr numberText_ne_nil
  induction numbers generalizing number with
  | nil => simpa [listText] using nonempty number
  | cons next numbers ih =>
    have first := nonempty number
    have later := @ih next
    simp only [listText, List.map_cons, List.intercalate_cons_cons, List.length_append, List.length_cons] at later ⊢
    omega

/-- No number is the word for all bands. -/
private theorem stricmp_number : ShCmd.stricmp ((numberText number).take 4) "all".toList ≠ 0 := by
  obtain ⟨numeral, text, -⟩ := cut_number number
  obtain ⟨char, tail, starts, first⟩ := numeral.text_cons
  rw [text, starts]
  intro same
  have lower := (ShCmd.stricmp_cons same).1
  rcases first with digit | rfl | rfl
  · have low : char.toNat < 65 := by
      simp only [Char.isDigit, Bool.and_eq_true, decide_eq_true_eq, ge_iff_le, UInt32.le_iff_toNat_le] at digit
      exact Nat.lt_of_le_of_lt digit.2 (by decide)
    rw [ShCmd.toLower_of_lt low] at lower
    exact absurd (lower ▸ digit) (by decide)
  · exact absurd lower (by decide)
  · exact absurd lower (by decide)

/-- The mask of a list of numbers, if none of them is too large. -/
private theorem readRequest_listText (some' : numbers ≠ []) : readRequest (listText numbers) =
    if ∀ number ∈ numbers, number ≤ 88 then some (.lock (bandMask numbers)) else none := by
  obtain ⟨number, numbers, rfl⟩ := List.exists_cons_of_ne_nil some'
  have length := @length_listText number numbers
  have first : ((numberText number).take 4).isEmpty = false := by
    simp [numberText_ne_nil]
  rw [readRequest, parse_listText]
  simp only [first, Bool.false_eq_true, if_false, if_neg stricmp_number]
  rw [readBands_eq (by decide) (by omega), foldlM_setBand (by decide)]
  split
  · next small => rw [Option.map_some, foldl_marked small]
  · rfl

end Mask

/-- The bands of a list, up to a number of them. -/
def listed (numbers : List Int) (count : ℕ) : List ℕ := (List.range' 1 count).filter fun band : ℕ => (band : Int) ∈ numbers

/-- The texts of some bands. -/
def bandTexts (bands : List ℕ) : List Text := bands.map fun band : ℕ => numberText band

/-- A text lists some bands; the blank behind the last one may be missing. -/
def Lists (text : Text) (bands : List ℕ) : Prop :=
  text = ended ' ' (bandTexts bands) ∨ text = [' '].intercalate (bandTexts bands)

/-- The string in a line. -/
def lineText (line : Text) : Text := line.takeWhile (· ≠ textEnd)

/-- A line of any content gets a string that lists some bands. -/
def PrintsBands (bands : Text) (listedBands : List ℕ) : Prop :=
  ∀ line : Text, line.length = 128 → ∃ writer, modemCmdPrintBands line bands = some writer ∧
    textEnd ∈ writer.cells ∧ Lists (lineText writer.cells) listedBands

section Line

variable {numbers : List Int} {bands : List ℕ} {line : Text}

private theorem bandMask_eq_one {band : ℕ} (positive : 1 ≤ band) (inside : band ≤ 88) :
    (bandMask numbers)[88 - band]? = some '1' ↔ (band : Int) ∈ numbers := by
  have index : (88 - ((88 - band : ℕ) : Int)) = band := by omega
  rw [bandMask, List.getElem?_map, List.getElem?_range (by omega), Option.map_some, index]
  split
  · next found => exact iff_of_true rfl found
  · next missing => exact iff_of_false (by decide) missing

/-- A loop over bands prints those that are in the mask. -/
theorem foldlM_print (inside : ∀ band ∈ bands, 1 ≤ band ∧ band ≤ 88) (writer : Writer) :
    bands.foldlM (fun writer band =>
      if (bandMask numbers)[88 - band]? = some '1' then writer.print (bandText band) else some writer) writer =
    ((bands.filter fun band : ℕ => (band : Int) ∈ numbers).map bandText).foldlM Writer.print writer := by
  induction bands generalizing writer with
  | nil => rfl
  | cons band bands ih =>
    have first := inside band List.mem_cons_self
    have later := ih fun other found => inside other (List.mem_cons_of_mem _ found)
    rw [List.foldlM_cons]
    by_cases found : (band : Int) ∈ numbers
    · rw [if_pos ((bandMask_eq_one first.1 first.2).mpr found), List.filter_cons_of_pos (by simpa using found),
        List.map_cons, List.foldlM_cons]
      exact congrArg _ (funext later)
    · rw [if_neg (mt (bandMask_eq_one first.1 first.2).mp found), List.filter_cons_of_neg (by simpa using found)]
      exact later writer

/-- The loop prints the bands of the mask without the last one. -/
private theorem modemCmdPrintBands_eq : modemCmdPrintBands line (bandMask numbers) =
    ((listed numbers 87).map bandText).foldlM Writer.print (.new line) := by
  have length : (bandMask numbers).length = 88 := by simp [bandMask]
  rw [modemCmdPrintBands, length]
  refine foldlM_print (fun band found => ?_) (.new line)
  have place := List.mem_range'_1.mp found
  omega

private theorem bandTexts_flatten : (bands.map bandText).flatten = ended ' ' (bandTexts bands) := by
  rw [ended, bandTexts, List.flatMap_map]
  rfl

private theorem textEnd_not_mem : textEnd ∉ ended ' ' (bandTexts bands) := by
  intro found
  obtain ⟨text, member, found⟩ := List.mem_flatMap.mp found
  obtain ⟨band, -, rfl⟩ := List.mem_map.mp member
  rcases List.mem_append.mp found with digit | space
  · exact (Numeral.ofInt band).not_mem (by decide) (by decide) (by decide) digit
  · exact absurd (List.mem_singleton.mp space) (by decide)

/-- The string in a line that was printed. -/
private theorem lineText_printed {text : Text} (free : textEnd ∉ text) (starts : text ++ [textEnd] <+: line) :
    textEnd ∈ line ∧ lineText line = text := by
  obtain ⟨rest, rfl⟩ := starts
  have other : ∀ char ∈ text, decide (char ≠ textEnd) = true :=
    fun char found => decide_eq_true fun same => free (same ▸ found)
  refine ⟨by simp, ?_⟩
  rw [lineText, List.append_assoc, List.takeWhile_append_of_pos other]
  simp

/-- The listed bands with the last one. -/
private theorem listed_last : listed numbers 88 = listed numbers 87 ++ if (88 : Int) ∈ numbers then [88] else [] := by
  have range : List.range' 1 88 = List.range' 1 87 ++ [88] := by decide
  rw [listed, range, List.filter_append, List.filter_singleton]
  by_cases last : (88 : Int) ∈ numbers
  · simp [listed, last]
  · simp [listed, last]

private theorem length_intercalate (some' : bands ≠ []) :
    ([' '].intercalate (bandTexts bands)).length + 1 = (ended ' ' (bandTexts bands)).length := by
  rw [ended_eq (by simpa [bandTexts] using some')]
  simp

/-- Bands that have room, up to the blank behind the last one, are listed. -/
private theorem lists_take {text : Text} (some' : bands ≠ []) (short : (ended ' ' (bandTexts bands)).length ≤ 128)
    (same : text = (ended ' ' (bandTexts bands)).take 127) : Lists text bands := by
  rcases Nat.lt_or_eq_of_le short with inside | last
  · left
    rw [same, List.take_of_length_le (by omega)]
  · right
    have length := length_intercalate some'
    rw [ended_eq (by simpa [bandTexts] using some')] at same
    rw [same, List.take_append_of_le_length (by omega), List.take_of_length_le (by omega)]

/-- A text that is cut off lists nothing. -/
private theorem short_of_lists {text : Text} (some' : bands ≠ []) (lists : Lists text bands) (short : text.length ≤ 127) :
    (ended ' ' (bandTexts bands)).length ≤ 128 := by
  have length := length_intercalate some'
  rcases lists with rfl | rfl
  · omega
  · omega

/-- What is printed into a line. -/
private theorem modemCmdPrintBands_line (size : line.length = 128) (some' : listed numbers 87 ≠ []) :
    (∃ writer, modemCmdPrintBands line (bandMask numbers) = some writer ∧ textEnd ∈ writer.cells ∧
      lineText writer.cells = (ended ' ' (bandTexts (listed numbers 87))).take 127) ∨
    modemCmdPrintBands line (bandMask numbers) = none ∧ 128 < (ended ' ' (bandTexts (listed numbers 87))).length := by
  set texts := (listed numbers 87).map bandText with textsEq
  have flatten : texts.flatten = ended ' ' (bandTexts (listed numbers 87)) := bandTexts_flatten
  have at' : (Writer.new line).At 128 ⟨0, ([] : Text).length⟩ := ⟨size, size, rfl, rfl⟩
  rw [modemCmdPrintBands_eq, ← textsEq, ← flatten]
  by_cases inside : texts.dropLast.flatten.length ≤ 128
  · obtain ⟨writer, run, -, starts⟩ := at'.printAll_shown (by simp [Shown])
      (fun none => some' (List.map_eq_nil_iff.mp none)) (by rw [List.length_nil, Nat.zero_add]; exact inside) (by decide)
    rw [List.nil_append] at starts
    have free : textEnd ∉ texts.flatten.take 127 := fun found =>
      textEnd_not_mem (flatten ▸ List.mem_of_mem_take found)
    obtain ⟨zero, text⟩ := lineText_printed free starts
    exact .inl ⟨writer, run, zero, text⟩
  · refine .inr ⟨at'.printAll_none (by simp) (by simpa using inside), ?_⟩
    have prefix' := List.IsPrefix.flatten (List.dropLast_prefix texts)
    have length := prefix'.length_le
    omega

private theorem printsBands_iff : PrintsBands (bandMask numbers) (listed numbers 88) ↔
    (88 : Int) ∉ numbers ∧ listed numbers 87 ≠ [] ∧ (ended ' ' (bandTexts (listed numbers 87))).length ≤ 128 := by
  constructor
  · intro prints
    have some' : listed numbers 87 ≠ [] := by
      intro none
      obtain ⟨writer, run, zero, -⟩ := prints (List.replicate 128 'x') (by simp)
      rw [modemCmdPrintBands_eq, none] at run
      obtain rfl := Option.some_inj.mp run
      exact absurd (List.eq_of_mem_replicate zero) (by decide)
    have all : listed numbers 88 ≠ [] := by
      rw [listed_last]
      exact List.append_ne_nil_of_left_ne_nil some' _
    obtain ⟨writer, run, -, lists⟩ := prints (List.replicate 128 'x') (by simp)
    rcases @modemCmdPrintBands_line numbers (List.replicate 128 'x') (by simp) some' with
      ⟨writer', run', -, text⟩ | ⟨run', -⟩
    · obtain rfl := Option.some_inj.mp (run.symm.trans run')
      rw [text] at lists
      have short := short_of_lists all lists (by rw [List.length_take]; omega)
      rw [listed_last] at short lists all
      by_cases last : (88 : Int) ∈ numbers
      · -- the text is shorter than that of the bands with the last one
        rw [if_pos last] at short lists all
        have length := length_intercalate all
        have longer : (ended ' ' (bandTexts (listed numbers 87 ++ [88]))).length =
            (ended ' ' (bandTexts (listed numbers 87))).length + 3 := by
          rw [bandTexts, List.map_append, Machine.ended_append, List.length_append]
          rfl
        rcases lists with same | same
        · have lengths := congrArg List.length same
          rw [List.length_take] at lengths
          omega
        · have lengths := congrArg List.length same
          rw [List.length_take] at lengths
          omega
      · rw [if_neg last, List.append_nil] at short
        exact ⟨last, some', short⟩
    · exact absurd (run.symm.trans run') (by simp)
  · rintro ⟨last, some', short⟩ line size
    have all : listed numbers 88 = listed numbers 87 := by rw [listed_last, if_neg last, List.append_nil]
    rcases modemCmdPrintBands_line size some' with ⟨writer, run, zero, text⟩ | ⟨-, long⟩
    · exact ⟨writer, run, zero, all ▸ lists_take some' short text⟩
    · omega

end Line

/-- Numbers, at least one, are stored in the mask only, the mask that is sent has the listed bands, and it is printed as a
list of them. -/
def RoundTrips (numbers : List Int) : Prop :=
  numbers ≠ [] → (∀ answers line, answers.push = 0 →
      modemCmdBand answers line (listText numbers) = some [lockCommand (bandMask numbers)]) ∧
    PrintsBands (bandMask numbers) (listed numbers 88)

/-- The numbers are below the last band, one of them is a band, and there is room for the bands in a line. -/
structure Printable (numbers : List Int) : Prop where
  small : ∀ number ∈ numbers, number < 88
  some' : ∃ number ∈ numbers, 0 < number
  short : (ended ' ' (bandTexts (listed numbers 88))).length ≤ 128

/-- What is sent for numbers, and none if one of them is stored in front of the mask. -/
private theorem modemCmdBand_listText {numbers : List Int} (some' : numbers ≠ []) {answers : Answers}
    (pushed : answers.push = 0)
    (line : Text) : modemCmdBand answers line (listText numbers) =
      if ∀ number ∈ numbers, number ≤ 88 then some [lockCommand (bandMask numbers)] else none := by
  rw [modemCmdBand, readRequest_listText some', pushed]
  split <;> rfl

/-- Numbers are sent and printed as they were given exactly if all are below the last band, one of them is a band, and
the line has room for the bands. -/
theorem band_list_iff (numbers : List Int) : RoundTrips numbers ↔ numbers = [] ∨ Printable numbers := by
  by_cases none : numbers = []
  · exact iff_of_true (fun some' => absurd none some') (.inl none)
  rw [or_iff_right none]
  constructor
  · intro kept
    obtain ⟨sent, prints⟩ := kept none
    have small : ∀ number ∈ numbers, number ≤ 88 := by
      by_contra large
      have run := sent {} [] rfl
      rw [modemCmdBand_listText none rfl, if_neg large] at run
      cases run
    obtain ⟨last, some', short⟩ := printsBands_iff.mp prints
    have all : listed numbers 88 = listed numbers 87 := by rw [listed_last, if_neg last, List.append_nil]
    refine ⟨fun number found => ?_, ?_, all ▸ short⟩
    · exact lt_of_le_of_ne (small number found) fun same => last (same ▸ found)
    · obtain ⟨band, member⟩ := List.exists_mem_of_ne_nil _ some'
      obtain ⟨range, found⟩ := List.mem_filter.mp member
      exact ⟨band, by simpa using found, by have place := List.mem_range'_1.mp range; omega⟩
  · intro printable _
    have small : ∀ number ∈ numbers, number ≤ 88 := fun number found => le_of_lt (printable.small number found)
    have last : (88 : Int) ∉ numbers := fun found => absurd (printable.small _ found) (by decide)
    have all : listed numbers 88 = listed numbers 87 := by rw [listed_last, if_neg last, List.append_nil]
    have some' : listed numbers 87 ≠ [] := by
      obtain ⟨number, found, positive⟩ := printable.some'
      have below := printable.small number found
      refine List.ne_nil_of_mem (a := number.toNat) (List.mem_filter.mpr ⟨List.mem_range'_1.mpr (by omega), ?_⟩)
      rw [Int.toNat_of_nonneg (le_of_lt positive)]
      exact decide_eq_true found
    refine ⟨fun answers line pushed => ?_, printsBands_iff.mpr ⟨last, some', all ▸ printable.short⟩⟩
    rw [modemCmdBand_listText none pushed, if_pos small]

/-- The last band is sent but not printed; one above it is stored in front of the mask; and without a band the line is
printed as it was. -/
theorem band_list_lost :
    ¬ PrintsBands (bandMask [88]) (listed [88] 88) ∧ ¬ RoundTrips [88] ∧
    (∀ line, modemCmdBand {} line (listText [20, 89]) = none) ∧ ¬ RoundTrips [20, 89] ∧ ¬ RoundTrips [0] := by
  have last : ¬ PrintsBands (bandMask [88]) (listed [88] 88) := fun prints =>
    (printsBands_iff.mp prints).1 (by decide)
  have outside : ∀ line, modemCmdBand {} line (listText [20, 89]) = none := fun line =>
    (modemCmdBand_listText (List.cons_ne_nil _ _) rfl line).trans (if_neg (by decide))
  refine ⟨last, fun kept => last (kept (by decide)).2, outside, fun kept => ?_, fun kept => ?_⟩
  · exact absurd ((outside []).symm.trans ((kept (by decide)).1 {} [] rfl)) (by simp)
  · exact (printsBands_iff.mp (kept (by decide)).2).2.1 (by decide)

end CoapsClient.ModemBands
