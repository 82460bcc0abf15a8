import CoapsClient.Model.Modem.Monitor
import CoapsClient.Soundness.CoverageScale

/-! # The parameters of a network answer

What each step of `modem_read_network_info` does with a parameter that is written in full, with one that is cut, and with
one that is missing. A text in quotes that is read in place is stored in front of what is read next. A missing one is
not: the zero of the empty result takes the place of the comma behind it.
-/

namespace CoapsClient.ModemMonitor

open Machine
open ShCmd (Text parseNextText)
open DtlsClient (isSpace sign clampLong parseNextLong isSpace_of_isDigit)
open Modem (parseNextQtext parseNextLong_numeral text_append_ne)

section Hexadecimal

variable {digits rest : Text} {char : Char}

/-- A text ends or goes on with a quote. -/
def QuoteOrEnd (rest : Text) : Prop := ∀ char ∈ rest.head?, char = '"'

theorem quoteOrEnd_nil : QuoteOrEnd [] := nofun

private theorem quoteOrEnd_quote : QuoteOrEnd ('"' :: rest) := by
  rintro _ ⟨⟩
  rfl

private theorem isSpace_of_le (visible : '!' ≤ char) : isSpace char = false := by
  rw [Bool.eq_false_iff]
  intro space
  simp only [isSpace, Bool.or_eq_true, Bool.and_eq_true, beq_iff_eq, decide_eq_true_eq] at space
  rcases space with rfl | ⟨-, low⟩
  · revert visible
    decide
  · exact absurd (Char.le_trans visible low) (by decide)

theorem isXdigit_ne (digit : isXdigit char = true) :
    isSpace char = false ∧ char ≠ '-' ∧ char ≠ '+' ∧ char ≠ 'x' ∧ char ≠ 'X' ∧ char ≠ '"' ∧ char ≠ ',' := by
  refine ⟨?_, ?_, ?_, ?_, ?_, ?_, ?_⟩
  · simp only [isXdigit, Bool.or_eq_true, Bool.and_eq_true, decide_eq_true_eq] at digit
    rcases digit with (digit | lower) | upper
    · exact isSpace_of_isDigit digit
    · exact isSpace_of_le (Char.le_trans (by decide) lower.1)
    · exact isSpace_of_le (Char.le_trans (by decide) upper.1)
  all_goals
    rintro rfl
    revert digit
    decide

private theorem takeWhile_xdigits (all : ∀ digit ∈ digits, isXdigit digit = true) (free : QuoteOrEnd rest) :
    (digits ++ rest).takeWhile isXdigit = digits ∧ (digits ++ rest).dropWhile isXdigit = rest := by
  rw [List.takeWhile_append_of_pos all, List.dropWhile_append_of_pos all]
  cases rest with
  | nil => simp
  | cons first rest =>
    obtain rfl := free first rfl
    have other : isXdigit '"' = false := by decide
    simp [other]

/-- Digits up to a quote or the end are a number. -/
theorem strtol16_digits (all : ∀ digit ∈ digits, isXdigit digit = true) (nonempty : digits ≠ []) (free : QuoteOrEnd rest) :
    strtol16 (digits ++ rest) = some (clampLong (ofXdigits digits), rest) := by
  obtain ⟨taken, dropped⟩ := takeWhile_xdigits all free
  obtain ⟨first, more, rfl⟩ := List.exists_cons_of_ne_nil nonempty
  obtain ⟨visible, minus, plus, -⟩ := isXdigit_ne (all first List.mem_cons_self)
  have noSpace : (first :: more ++ rest).dropWhile isSpace = first :: more ++ rest := by
    rw [List.cons_append, List.dropWhile_cons_of_neg (by simp [visible])]
  have unsigned : sign (first :: more ++ rest) = (1, first :: more ++ rest) := by
    rw [List.cons_append]
    unfold sign
    split
    · simp_all
    · simp_all
    · rfl
  have base : skipBase (first :: more ++ rest) = first :: more ++ rest := by
    rw [List.cons_append]
    unfold skipBase
    split
    · next mark digit text same =>
      obtain ⟨rfl, behind⟩ := List.cons.inj same
      rw [behind]
      refine if_neg fun found => ?_
      cases more with
      | nil =>
        have quote := free mark (by rw [← List.nil_append rest, behind]; rfl)
        rw [quote] at found
        exact absurd found.1 (by decide)
      | cons second more =>
        obtain ⟨rfl, -⟩ := List.cons.inj behind
        obtain ⟨-, -, -, notLower, notUpper, -⟩ := isXdigit_ne (all second (by simp))
        exact found.1.elim notLower notUpper
    · rfl
  simp only [strtol16, noSpace, unsigned, base, taken, dropped, List.isEmpty_iff, reduceCtorEq, if_false, Int.one_mul]

theorem skipSep_cons {sep : Char} : skipSep (sep :: rest) sep = rest := if_pos List.head?_cons

/-- A number in quotes is read. -/
private theorem parseNextLongQtext16_quoted (all : ∀ digit ∈ digits, isXdigit digit = true) (nonempty : digits ≠ [])
    (before : Int) :
    parseNextLongQtext16 ('"' :: (digits ++ '"' :: rest)) '"' before = (clampLong (ofXdigits digits), rest) := by
  rw [parseNextLongQtext16, if_pos List.head?_cons, parseNextLongText16, skipSep_cons,
    strtol16_digits all nonempty quoteOrEnd_quote]
  dsimp only
  rw [skipSep_cons]

end Hexadecimal

section Quotes

variable {text rest tail cells : Text} {sep last : Char} {fuel value result len : ℕ}

/-- A text without quotes or a zero. -/
def Plain (text : Text) : Prop := ∀ char ∈ text, char ≠ textEnd ∧ char ≠ '"'

/-- A text in quotes is read, as far as there is room. -/
theorem parseNextQtext_quoted (plain : Plain text) :
    parseNextQtext ('"' :: (text ++ '"' :: rest)) '"' len = (text.take (len - 1), rest) := by
  have whole : ∀ char ∈ text, decide (char ≠ '"') = true := fun char found => decide_eq_true (plain char found).2
  rw [parseNextQtext, if_pos List.head?_cons, parseNextText]
  simp only [List.head?_cons, if_true, List.tail_cons]
  rw [List.takeWhile_append_of_pos whole, List.dropWhile_append_of_pos whole]
  simp

/-- The loop stores in front of what it reads. -/
private theorem copyLoop_run (plain : ∀ char ∈ text, ¬ (char = textEnd ∨ char = sep)) (stop : last = textEnd ∨ last = sep)
    (behind : result < value) (enough : text.length ≤ fuel) (place : cells.drop value = text ++ last :: tail) :
    ∃ after index, copyLoop sep fuel cells value result len = (after, value + text.length, index) ∧
      index < value + text.length ∧ after.drop (value + text.length) = last :: tail := by
  induction text generalizing fuel cells value result len with
  | nil =>
    have here : cells.getD value textEnd = last := by
      rw [List.getD_eq_getElem?_getD, ← Nat.add_zero value, ← List.getElem?_drop, place]
      rfl
    refine ⟨cells, result, ?_, behind, place⟩
    cases fuel with
    | zero => rfl
    | succ fuel =>
      rw [copyLoop, here]
      exact if_pos stop
  | cons char text ih =>
    have here : cells.getD value textEnd = char := by
      rw [List.getD_eq_getElem?_getD, ← Nat.add_zero value, ← List.getElem?_drop, place]
      rfl
    have next : cells.drop (value + 1) = text ++ last :: tail := by
      rw [← List.drop_drop, place]
      rfl
    have later : ∀ other ∈ text, ¬ (other = textEnd ∨ other = sep) := fun other found =>
      plain other (List.mem_cons_of_mem char found)
    obtain ⟨fuel, rfl⟩ : ∃ rest, fuel = rest + 1 := ⟨fuel - 1, by rw [List.length_cons] at enough; omega⟩
    have count : value + (char :: text).length = value + 1 + text.length := by
      rw [List.length_cons]
      omega
    rw [copyLoop, here, count, if_neg (plain char List.mem_cons_self)]
    split
    · refine ih later (by omega) (Nat.le_of_succ_le_succ enough) ?_
      rw [List.drop_set, if_pos (by omega), next]
    · exact ih later (by omega) (Nat.le_of_succ_le_succ enough) next

private theorem takeWhile_end (free : textEnd ∉ rest) : (rest ++ [textEnd]).takeWhile (· ≠ textEnd) = rest := by
  have all : ∀ char ∈ rest, decide (char ≠ textEnd) = true := fun char found =>
    decide_eq_true fun same => free (same ▸ found)
  rw [List.takeWhile_append_of_pos all]
  simp

/-- A text in quotes is stored in front of what is read next. -/
private theorem parseNextQtextInPlace_quoted (plain : Plain text) :
    ∃ after, parseNextQtextInPlace ('"' :: (text ++ '"' :: tail)) '"' len = (after, text.length + 2) ∧
      after.drop (text.length + 2) = tail := by
  obtain ⟨after, index, run, below, behind⟩ := @copyLoop_run text tail ('"' :: (text ++ '"' :: tail)) '"' '"'
    ('"' :: (text ++ '"' :: tail)).length 1 0 (len - 1)
    (fun char found => not_or.mpr (plain char found)) (.inr rfl) Nat.zero_lt_one (by simp; omega) rfl
  have here : after.getD (1 + text.length) textEnd = '"' := by
    rw [List.getD_eq_getElem?_getD, ← Nat.add_zero (1 + text.length), ← List.getElem?_drop, behind]
    rfl
  refine ⟨after.set index textEnd, ?_, ?_⟩
  · rw [parseNextQtextInPlace, List.getD_cons_zero, if_neg (not_not.mpr rfl), run]
    dsimp only
    rw [here, if_pos ⟨by decide, rfl⟩, Nat.add_comm 1, Nat.add_assoc]
  · rw [List.drop_set, if_pos (by omega), show text.length + 2 = 1 + text.length + 1 by omega, ← List.drop_drop, behind]
    rfl

/-- So is one that is cut. -/
private theorem parseNextQtextInPlace_cut (plain : Plain text) :
    ∃ after, parseNextQtextInPlace ('"' :: (text ++ [textEnd])) '"' len = (after, text.length + 1) ∧
      after.drop (text.length + 1) = [textEnd] := by
  obtain ⟨after, index, run, below, behind⟩ := @copyLoop_run text [] ('"' :: (text ++ [textEnd])) '"' textEnd
    ('"' :: (text ++ [textEnd])).length 1 0 (len - 1)
    (fun char found => not_or.mpr (plain char found)) (.inl rfl) Nat.zero_lt_one (by simp; omega) rfl
  have here : after.getD (1 + text.length) textEnd = textEnd := by
    rw [List.getD_eq_getElem?_getD, ← Nat.add_zero (1 + text.length), ← List.getElem?_drop, behind]
    rfl
  refine ⟨after.set index textEnd, ?_, ?_⟩
  · rw [parseNextQtextInPlace, List.getD_cons_zero, if_neg (not_not.mpr rfl), run]
    dsimp only
    rw [here, if_neg (fun found => found.1 rfl), Nat.add_comm 1]
  · rw [List.drop_set, if_pos (by omega), Nat.add_comm, behind]

end Quotes

namespace Scan

variable {scan : Scan} {text rest : Text} {char : Char} {len : ℕ}

theorem qtextInPlace_quoted (plain : Plain text) (free : textEnd ∉ rest) :
    scan.qtextInPlace len ('"' :: (text ++ '"' :: rest)) = { scan with n := rest } := by
  obtain ⟨after, run, behind⟩ := @parseNextQtextInPlace_quoted text (rest ++ [textEnd]) len plain
  have cells : ('"' :: (text ++ '"' :: rest)) ++ [textEnd] = '"' :: (text ++ '"' :: (rest ++ [textEnd])) := by simp
  have same : ('"' :: (text ++ '"' :: (rest ++ [textEnd]))).drop (text.length + 2) = rest ++ [textEnd] := by
    rw [List.drop_succ_cons, ← List.drop_drop, List.drop_left]
    rfl
  simp only [qtextInPlace, cells, run, behind, same, beq_self_eq_true, Bool.and_true, takeWhile_end free]

theorem qtextInPlace_cut (plain : Plain text) : scan.qtextInPlace len ('"' :: text) = { scan with n := [] } := by
  obtain ⟨after, run, behind⟩ := @parseNextQtextInPlace_cut text len plain
  have same : ('"' :: (text ++ [textEnd])).drop (text.length + 1) = [textEnd] := by
    rw [List.drop_succ_cons, List.drop_left]
  simp only [qtextInPlace, List.cons_append, run, behind, same, beq_self_eq_true, Bool.and_true]
  rfl

theorem qtextInPlace_nil : scan.qtextInPlace len [] = { scan with n := [] } := by
  have run : parseNextQtextInPlace [textEnd] '"' len = ([textEnd], 0) := rfl
  simp only [qtextInPlace, List.nil_append, run, List.drop_zero, beq_self_eq_true, Bool.and_true]
  rfl

/-- Where no quote is, the zero is stored in the text that is read next. -/
theorem qtextInPlace_missing (quote : char ≠ '"') (zero : char ≠ textEnd) :
    scan.qtextInPlace len (char :: rest) = { scan with n := [], kept := false } := by
  have run : parseNextQtextInPlace (char :: (rest ++ [textEnd])) '"' len = (textEnd :: (rest ++ [textEnd]), 0) := by
    rw [parseNextQtextInPlace, List.getD_cons_zero, if_pos quote]
    rfl
  have lost : (textEnd :: (rest ++ [textEnd]) == char :: (rest ++ [textEnd])) = false :=
    beq_eq_false_iff_ne.mpr fun same => zero (List.cons.inj same).1.symm
  simp only [qtextInPlace, List.cons_append, run, List.drop_zero, lost, Bool.and_false]
  rfl

/-- A step is made behind a comma only. -/
theorem next_comma {read : Text → Scan → Scan} (place : scan.n = ',' :: rest) : scan.next read = read rest scan := by
  rw [next, place]
  rfl

theorem next_stop {read : Text → Scan → Scan} (stop : scan.n.head? ≠ some ',') : scan.next read = scan := by
  unfold next
  split
  · next cur place =>
    rw [place] at stop
    exact absurd rfl stop
  · rfl

/-- A number up to something else than a digit is read. -/
theorem long_numeral {numeral : Numeral} {set : Int → Scan → Scan} (free : DigitFree rest) :
    scan.long set (numeral.text ++ rest) =
      set (clampLong numeral.value) { scan with n := rest, value := clampLong numeral.value } := by
  simp only [long, parseNextLong_numeral free, if_neg text_append_ne]

theorem longQtext_quoted {set : Int → Scan → Scan} (all : ∀ digit ∈ text, isXdigit digit = true) (nonempty : text ≠ []) :
    scan.longQtext set ('"' :: (text ++ '"' :: rest)) =
      set (clampLong (ofXdigits text)) { scan with n := rest, value := clampLong (ofXdigits text) } := by
  have other : '"' :: (text ++ '"' :: rest) ≠ rest := by
    intro same
    have length := congrArg List.length same
    rw [List.length_cons, List.length_append, List.length_cons] at length
    omega
  simp only [longQtext, parseNextLongQtext16_quoted all nonempty, if_neg other]

section Frames

variable {β : Type} {f : Scan → β} {read : Text → Scan → Scan} {set : Int → Scan → Scan}

/-- What a step keeps is kept where there is no parameter. -/
private theorem next_keeps (keeps : ∀ cur scan, f (read cur scan) = f scan) : f (scan.next read) = f scan := by
  unfold next
  split
  · exact keeps _ _
  · rfl

private theorem long_keeps (place : ∀ scan n value, f { scan with n, value } = f scan)
    (keeps : ∀ value scan, f (set value scan) = f scan)
    (cur : Text) (scan : Scan) : f (scan.long set cur) = f scan := by
  unfold long
  generalize parseNextLong cur scan.value = result
  obtain ⟨value, n⟩ := result
  dsimp only
  split
  · exact place _ _ _
  · exact (keeps _ _).trans (place _ _ _)

private theorem longQtext_keeps (place : ∀ scan n value, f { scan with n, value } = f scan)
    (keeps : ∀ value scan, f (set value scan) = f scan) (cur : Text) (scan : Scan) : f (scan.longQtext set cur) = f scan := by
  unfold longQtext
  generalize parseNextLongQtext16 cur '"' scan.value = result
  obtain ⟨value, n⟩ := result
  dsimp only
  split
  · exact place _ _ _
  · exact (keeps _ _).trans (place _ _ _)

theorem long_next_keeps (place : ∀ scan n value, f { scan with n, value } = f scan)
    (keeps : ∀ value scan, f (set value scan) = f scan) : f (scan.next (long set)) = f scan :=
  next_keeps fun cur scan => long_keeps place keeps cur scan

theorem longQtext_next_keeps (place : ∀ scan n value, f { scan with n, value } = f scan)
    (keeps : ∀ value scan, f (set value scan) = f scan) : f (scan.next (longQtext set)) = f scan :=
  next_keeps fun cur scan => longQtext_keeps place keeps cur scan

private theorem timers_keeps (place : ∀ scan n kept, f { scan with n, kept } = f scan) : f scan.timers = f scan := by
  have step : ∀ len (scan : Scan), f (scan.next (qtextInPlace len)) = f scan := fun len scan =>
    next_keeps fun cur scan => place scan _ _
  exact (step _ _).trans ((step _ _).trans ((step _ _).trans (step _ _)))

end Frames

/-- The parameters behind the SNR change nothing of those in front of it. -/
theorem network_eq : scan.network.temp = scan.cell.temp ∧ scan.network.rsrp = scan.cell.rsrp ∧
    scan.network.snr = (scan.cell.next (long fun value scan => scan.setSnr value)).snr ∧
    scan.network.kept = (scan.cell.next (long fun value scan => scan.setSnr value)).timers.kept := by
  have last {β : Type} (f : Scan → β) (place : ∀ scan n value, f { scan with n, value } = f scan)
      (keeps : ∀ value (scan : Scan), f (scan.setRsrq value) = f scan) :
      f scan.network = f (scan.cell.next (long fun value scan => scan.setSnr value)).timers := long_next_keeps place keeps
  refine ⟨?_, ?_, ?_, ?_⟩
  · rw [last (·.temp) (fun _ _ _ => rfl) (fun _ _ => rfl), timers_keeps (f := (·.temp)) fun _ _ _ => rfl]
    exact long_next_keeps (f := (·.temp)) (fun _ _ _ => rfl) fun _ _ => rfl
  · rw [last (·.rsrp) (fun _ _ _ => rfl) (fun _ _ => rfl), timers_keeps (f := (·.rsrp)) fun _ _ _ => rfl]
    exact long_next_keeps (f := (·.rsrp)) (fun _ _ _ => rfl) fun _ _ => rfl
  · rw [last (·.snr) (fun _ _ _ => rfl) (fun _ _ => rfl), timers_keeps (f := (·.snr)) fun _ _ _ => rfl]
  · exact last (·.kept) (fun _ _ _ => rfl) (fun _ _ => rfl)

/-- What none of the parameters of the cell sets. -/
private theorem cell_keeps {β : Type} {f : Scan → β} (place : ∀ scan n value, f { scan with n, value } = f scan)
    (tac : ∀ value scan, f (setTac scan value) = f scan) (mode : ∀ value scan, f (setMode scan value) = f scan)
    (band : ∀ value scan, f (setBand scan value) = f scan) (cell : ∀ value scan, f (setCell scan value) = f scan)
    (earfcn : ∀ value scan, f (setEarfcn scan value) = f scan) (rsrp : ∀ value scan, f (setRsrp scan value) = f scan) :
    f scan.cell = f scan := by
  unfold Scan.cell
  dsimp only
  rw [long_next_keeps place rsrp, long_next_keeps place earfcn, long_next_keeps place fun _ _ => rfl,
    longQtext_next_keeps place cell, long_next_keeps place band, long_next_keeps place mode, longQtext_next_keeps place tac]

private theorem cell_snr : scan.cell.snr = scan.snr := by
  refine cell_keeps (f := (·.snr)) (fun _ _ _ => rfl) ?_ ?_ ?_ (fun _ _ => rfl) (fun _ _ => rfl) (fun _ _ => rfl)
  · intro value scan
    unfold setTac
    split <;> rfl
  · intro value scan
    unfold setMode
    split_ifs <;> rfl
  · intro value scan
    unfold setBand
    split <;> rfl

theorem cell_provider : scan.cell.temp.provider = scan.temp.provider := by
  refine cell_keeps (f := (·.temp.provider)) (fun _ _ _ => rfl) ?_ ?_ ?_ (fun _ _ => rfl) (fun _ _ => rfl) (fun _ _ => rfl)
  · intro value scan
    unfold setTac
    split <;> rfl
  · intro value scan
    unfold setMode
    split_ifs <;> rfl
  · intro value scan
    unfold setBand
    split <;> rfl

section Missing

variable {count : ℕ} {read : Text → Scan → Scan} {set : Int → Scan → Scan} {cur : Text}

/-- The next parameters are so many at most. -/
def Within (count : ℕ) (scan : Scan) : Prop := scan.n.head? = some ',' → scan.n.count ',' ≤ count

private theorem sign_suffix (text : Text) : (sign text).2 <:+ text := by
  obtain ⟨signed, same, -⟩ := DtlsClient.sign_eq text
  exact ⟨signed.text, same.symm⟩

private theorem parseNextLong_suffix (value : Int) : (parseNextLong cur value).2 <:+ cur := by
  unfold parseNextLong
  dsimp only
  split
  · exact List.suffix_refl cur
  · exact (List.dropWhile_suffix _).trans ((sign_suffix _).trans (List.dropWhile_suffix _))

private theorem skipSep_suffix {sep : Char} : skipSep cur sep <:+ cur := by
  unfold skipSep
  split
  · exact List.tail_suffix cur
  · exact List.suffix_refl cur

private theorem skipBase_suffix : skipBase cur <:+ cur := by
  unfold skipBase
  split
  · split
    · exact ⟨['0', _], rfl⟩
    · exact List.suffix_refl _
  · exact List.suffix_refl _

private theorem strtol16_suffix {value : Int} (read : strtol16 cur = some (value, rest)) : rest <:+ cur := by
  unfold strtol16 at read
  dsimp only at read
  split at read
  · contradiction
  · obtain ⟨-, rfl⟩ := Prod.mk.inj (Option.some_inj.mp read)
    exact (List.dropWhile_suffix _).trans (skipBase_suffix.trans ((sign_suffix _).trans (List.dropWhile_suffix _)))

private theorem parseNextLongQtext16_suffix (value : Int) : (parseNextLongQtext16 cur '"' value).2 <:+ cur := by
  unfold parseNextLongQtext16 parseNextLongText16
  split
  · split
    · next number behind read => exact skipSep_suffix.trans ((strtol16_suffix read).trans skipSep_suffix)
    · exact List.suffix_refl cur
  · exact List.suffix_refl cur

private theorem long_suffix (place : ∀ value scan, (set value scan).n = scan.n) (cur : Text) (scan : Scan) :
    (scan.long set cur).n <:+ cur := by
  have behind := @parseNextLong_suffix cur scan.value
  unfold long
  generalize parseNextLong cur scan.value = result at behind ⊢
  obtain ⟨value, n⟩ := result
  dsimp only
  split
  · exact behind
  · rw [place]
    exact behind

private theorem longQtext_suffix (place : ∀ value scan, (set value scan).n = scan.n) (cur : Text) (scan : Scan) :
    (scan.longQtext set cur).n <:+ cur := by
  have behind := @parseNextLongQtext16_suffix cur scan.value
  unfold longQtext
  generalize parseNextLongQtext16 cur '"' scan.value = result at behind ⊢
  obtain ⟨value, n⟩ := result
  dsimp only
  split
  · exact behind
  · rw [place]
    exact behind

/-- A parameter that is read is one less. -/
theorem Within.next (within : Within (count + 1) scan) (suffix : ∀ cur scan, (read cur scan).n <:+ cur) :
    Within count (scan.next read) := by
  by_cases comma : scan.n.head? = some ','
  · intro _
    obtain ⟨cur, place⟩ := List.head?_eq_some_iff.mp comma
    rw [next_comma place]
    have less := within comma
    rw [place, List.count_cons_self] at less
    exact ((suffix cur scan).sublist.count_le ',').trans (Nat.le_of_succ_le_succ less)
  · rw [next_stop comma]
    exact fun again => absurd again comma

/-- Where there are not enough parameters, there is no SNR. -/
theorem Within.snr (within : Within 7 scan) : (scan.cell.next (long fun value scan => scan.setSnr value)).snr = scan.snr := by
  have last : Within 0 scan.cell := by
    unfold Scan.cell
    dsimp only
    refine Within.next (Within.next (Within.next (Within.next (Within.next (Within.next (Within.next within ?_) ?_) ?_) ?_) ?_) ?_) ?_
    · exact longQtext_suffix fun value scan => by unfold setTac; split <;> rfl
    · exact long_suffix fun value scan => by unfold setMode; split_ifs <;> rfl
    · exact long_suffix fun value scan => by unfold setBand; split <;> rfl
    · exact longQtext_suffix fun _ _ => rfl
    · exact long_suffix fun _ _ => rfl
    · exact long_suffix fun _ _ => rfl
    · exact long_suffix fun _ _ => rfl
  have stop : scan.cell.n.head? ≠ some ',' := by
    intro comma
    obtain ⟨cur, place⟩ := List.head?_eq_some_iff.mp comma
    have none := last comma
    rw [place, List.count_cons_self] at none
    omega
  rw [next_stop stop, cell_snr]

end Missing

end Scan

end CoapsClient.ModemMonitor
