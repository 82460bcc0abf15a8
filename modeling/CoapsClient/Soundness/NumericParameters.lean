import CoapsClient.Model.Shell.Parameters
import Mathlib.Order.MinMax

/-! # Numbers in the parameters of shell commands

A command is to store exactly the number of its parameter, or to fail. It does for a number in its range, if the
nine characters that it keeps of a word have the same number. Any other number is stored in the bits of its variable, a
negative one as well, and so is the beginning of a word that is no number as a whole.
-/

namespace CoapsClient.Parameters

open ShCmd (Text stricmp parseNextText toLower_of_lt)
open DtlsClient (isSpace)
open Machine (DigitFree)

/-- A text ends, or goes on with another word. -/
def Ends (rest : Text) : Prop := ∀ char ∈ rest.head?, isSpace char = true

/-- What is behind a number, with the factor of its unit. -/
inductive Scaled : Command → Text → Int → Prop where
  | plain {command rest} (ends : Ends rest) : Scaled command rest 1
  | unit {unit more factor} (supported : unitFactor unit = some factor) (ends : Ends more) :
      Scaled .interval (unit :: more) factor

/-- The first word of the parameter of `edrx` is `off`. -/
def Off (config : Text) : Prop := stricmp "off".toList (parseNextText config ' ' 16).1 = 0

/-- The number that a parameter stands for. -/
inductive Denotes (command : Command) (parameter : Text) : Int → Prop where
  | number {count rest factor} (begins : Begins parameter count rest) (scaled : Scaled command rest factor) :
      Denotes command parameter (count * factor)
  | off (edrx : command = .edrx) (word : Off parameter) : Denotes command parameter 0

/-- The value that a command stores or requests. -/
def Command.value : Command → Stored → Int
  | .interval, stored => getSendInterval stored
  | .timeout, stored => stored.coapTimeout.toNat
  | .woic, stored => stored.wakeupOnIncomingConnectTimeout.toNat
  | .batrstth, stored => stored.batteryResetThreshold.toNat
  | .edrx, stored => stored.requestedEdrxTimeS.toInt
  | .ptw, stored => stored.requestedPtwTimeS.toInt

/-- The largest number that the variable of a command has. -/
def Command.capacity : Command → ℕ
  | .interval => 0xffffff
  | .timeout => 65535
  | .woic => 65535
  | .batrstth => 65535
  | .edrx => 32767
  | .ptw => 32767

/-- The value for a number: there is no timeout of zero. -/
def Command.keep : Command → Int → Int
  | .timeout, number => if number = 0 then 1 else number
  | _, number => number

/-- Only spaces, with which a command shows its value. -/
def Blank (parameter : Text) : Prop := ∀ char ∈ parameter, char = ' '

/-- The command fails and its value is unchanged, or it succeeds and its value is that of the number of the
parameter, which is in the range. -/
def Kept (command : Command) (limit : ℕ) (parameter : Text) : Prop :=
  ∀ (answers : Answers) (stored : Stored), ∃ res next, command.handler answers parameter stored = some (res, next) ∧
    (command.value next = command.value stored ∧ (res < 0 ∨ Blank parameter) ∨
      res = 0 ∧ ∃ number, Denotes command parameter number ∧ 0 ≤ number ∧ number ≤ limit ∧
        command.value next = command.keep number)

/-- There is no word in front of the first separator, one that the text begins with apart. -/
def NoWord (parameter : Text) : Prop :=
  parameter = [] ∨ parameter = [' '] ∨ ∃ more, parameter = ' ' :: ' ' :: more

/-- The part of the parameter with the number: at most nine characters of a word, or everything. -/
def Command.shown : Command → Text → Text
  | .edrx, parameter => parameter
  | .ptw, parameter => parameter
  | _, parameter => (parseNextText parameter ' ' 10).1

/-- What a command reads has no number, or a unit that is not supported. -/
def Rejected : Command → Text → Prop
  | .interval, shown => ∀ count rest, scanNumber shown = some (count, rest) → unitFactor (rest.headD 's') = none
  | .edrx, shown => ¬ Off shown ∧ scanNumber shown = none
  | _, shown => scanNumber shown = none

/-- The parameters that are kept: only spaces, what is rejected, and a number in the range that stays the same in
what the command reads. -/
inductive Fits (command : Command) (limit : ℕ) (parameter : Text) : Prop where
  | blank (spaces : Blank parameter)
  | rejected (word : ¬ NoWord parameter) (rejected : Rejected command (command.shown parameter))
  | stored {number cut} (word : ¬ NoWord parameter) (denotes : Denotes command parameter number)
      (shown : Denotes command (command.shown parameter) cut) (least : 0 ≤ number) (most : number ≤ limit)
      (same : command.keep cut = command.keep number)

section Reading

variable {parameter rest : Text} {count factor number : Int} {command : Command}

private theorem ends_nil : Ends [] := by
  intro char found
  contradiction

theorem Ends.digitFree (ends : Ends rest) : DigitFree rest := by
  intro char found
  have space := ends char found
  by_contra digit
  rw [DtlsClient.isSpace_of_isDigit (by simpa using digit)] at space
  contradiction

/-- The units are letters. -/
private theorem unitFactor_letter {unit : Char} (supported : unitFactor unit = some factor) :
    unit.isDigit = false ∧ isSpace unit = false ∧ 1 ≤ factor ∧ factor ≤ 3600 := by
  unfold unitFactor at supported
  split at supported
  · cases supported
    decide
  · cases supported
    decide
  · cases supported
    decide
  · contradiction

theorem Scaled.digitFree (scaled : Scaled command rest factor) : DigitFree rest := by
  cases scaled with
  | plain ends => exact ends.digitFree
  | unit supported ends => exact Machine.digitFree_cons (unitFactor_letter supported).1

theorem Scaled.factor_pos (scaled : Scaled command rest factor) : 1 ≤ factor ∧ factor ≤ 3600 := by
  cases scaled with
  | plain ends => decide
  | unit supported ends => exact (unitFactor_letter supported).2.2

/-- A unit does not change the sign of a number. -/
theorem Scaled.count_nonneg (scaled : Scaled command rest factor) (least : 0 ≤ count * factor) : 0 ≤ count := by
  by_contra negative
  have positive := Int.lt_of_lt_of_le Int.zero_lt_one scaled.factor_pos.1
  have less := Int.mul_neg_of_neg_of_pos (Int.not_le.mp negative) positive
  omega

/-- What is behind a number has one factor. -/
theorem Scaled.unique {other : Int} (scaled : Scaled command rest factor) (again : Scaled command rest other) :
    factor = other := by
  cases scaled with
  | plain ends =>
    cases again with
    | plain ends => rfl
    | unit supported more =>
      have space := ends _ rfl
      rw [(unitFactor_letter supported).2.1] at space
      contradiction
  | unit supported more =>
    cases again with
    | plain ends =>
      have space := ends _ rfl
      rw [(unitFactor_letter supported).2.1] at space
      contradiction
    | unit again more => exact Option.some.inj (supported.symm.trans again)

/-- The buffer of a word has room for a character. -/
private theorem take_word_eq_nil {text : Text} {len : ℕ} (long : 2 ≤ len) :
    (text.takeWhile (· ≠ ' ')).take (len - 1) = [] ↔ ∀ char ∈ text.head?, char = ' ' := by
  obtain ⟨room, rfl⟩ := Nat.exists_eq_add_of_le' long
  cases text with
  | nil => simp
  | cons char text =>
    by_cases space : char = ' '
    · simp [space]
    · simp [space]

private theorem parseNextText_eq_nil {len : ℕ} (long : 2 ≤ len) :
    (parseNextText parameter ' ' len).1 = [] ↔ NoWord parameter := by
  simp only [parseNextText, take_word_eq_nil long, NoWord]
  cases parameter with
  | nil => simp
  | cons char parameter =>
    by_cases space : char = ' '
    · subst space
      cases parameter with
      | nil => simp
      | cons next parameter => simp
    · simp [space]

theorem Blank.noWord (spaces : Blank parameter) : NoWord parameter := by
  match parameter with
  | [] => exact .inl rfl
  | [char] =>
    right
    left
    rw [spaces char List.mem_cons_self]
  | char :: next :: more =>
    right
    right
    refine ⟨more, ?_⟩
    rw [spaces char List.mem_cons_self, spaces next (List.mem_cons_of_mem _ List.mem_cons_self)]

private theorem takeWhile_take_append (text : Text) (len : ℕ) :
    ∃ more, text = (text.takeWhile (· ≠ ' ')).take len ++ more := by
  refine ⟨(text.takeWhile (· ≠ ' ')).drop len ++ text.dropWhile (· ≠ ' '), ?_⟩
  rw [← List.append_assoc, List.take_append_drop, List.takeWhile_append_dropWhile]

/-- A word is a part of the text, behind at most one separator. -/
private theorem parseNextText_append (parameter : Text) (len : ℕ) : ∃ blanks more, (∀ char ∈ blanks, isSpace char = true) ∧
    parameter = blanks ++ ((parseNextText parameter ' ' len).1 ++ more) := by
  obtain ⟨more, parts⟩ :=
    takeWhile_take_append (if parameter.head? = some ' ' then parameter.tail else parameter) (len - 1)
  by_cases separator : parameter.head? = some ' '
  · obtain ⟨rest, rfl⟩ := List.head?_eq_some_iff.mp separator
    refine ⟨[' '], more, List.forall_mem_singleton.mpr rfl, ?_⟩
    rw [if_pos separator] at parts
    exact congrArg (' ' :: ·) parts
  · refine ⟨[], more, by simp, ?_⟩
    rw [if_neg separator] at parts
    simp only [parseNextText, if_neg separator]
    exact parts

/-- What a command reads is a part of the parameter. -/
private theorem shown_append (command : Command) (parameter : Text) :
    ∃ blanks more, (∀ char ∈ blanks, isSpace char = true) ∧ parameter = blanks ++ (command.shown parameter ++ more) := by
  have whole : ∃ blanks more, (∀ char ∈ blanks, isSpace char = true) ∧ parameter = blanks ++ (parameter ++ more) :=
    ⟨[], [], by simp, by simp⟩
  cases command with
  | interval => exact parseNextText_append parameter 10
  | timeout => exact parseNextText_append parameter 10
  | woic => exact parseNextText_append parameter 10
  | batrstth => exact parseNextText_append parameter 10
  | edrx => exact whole
  | ptw => exact whole

/-- A letter is not the beginning of a number. -/
private theorem scanNumber_letter {char : Char} {text : Text} (letter : 65 ≤ char.toNat) :
    scanNumber (char :: text) = none := by
  have visible : isSpace char = false := by
    by_contra space
    simp only [isSpace, Bool.not_eq_false, Bool.or_eq_true, beq_iff_eq, Bool.and_eq_true, decide_eq_true_eq] at space
    rcases space with rfl | ⟨-, low⟩
    · exact absurd letter (by decide)
    · have small : char.toNat ≤ 13 := low
      omega
  have other : char.isDigit = false := by
    by_contra digit
    simp only [Char.isDigit, Bool.not_eq_false, Bool.and_eq_true, decide_eq_true_eq] at digit
    have small : char.toNat ≤ 57 := digit.2
    omega
  have unsigned : DtlsClient.sign (char :: text) = (1, char :: text) := by
    unfold DtlsClient.sign
    split
    · next minus =>
      cases minus
      exact absurd letter (by decide)
    · next plus =>
      cases plus
      exact absurd letter (by decide)
    · rfl
  rw [scanNumber, List.dropWhile_cons_of_neg (by simp [visible]), unsigned]
  simp [other]

/-- The word `off` is not a number. -/
theorem Off.scanNumber_eq (off : Off parameter) : scanNumber parameter = none := by
  obtain ⟨blanks, more, spaces, parts⟩ := parseNextText_append parameter 16
  rw [parts, scanNumber_blanks spaces]
  unfold Off at off
  cases word : (parseNextText parameter ' ' 16).1 with
  | nil =>
    rw [word] at off
    exact absurd off (by decide)
  | cons char rest =>
    rw [word] at off
    have first := (ShCmd.stricmp_cons off).1
    apply scanNumber_letter
    by_contra low
    rw [toLower_of_lt (Nat.not_le.mp low)] at first
    rw [← first] at low
    exact absurd (show 65 ≤ 'o'.toLower.toNat by decide) low

/-- Only an interval has units. -/
theorem Scaled.factor_eq_one (scaled : Scaled command rest factor) (other : command ≠ .interval) : factor = 1 := by
  cases scaled with
  | plain ends => rfl
  | unit supported ends => contradiction

/-- The unit that is read is the one of the number, if it is supported. -/
theorem Scaled.unitFactor_eq (scaled : Scaled .interval rest factor) (supported : unitFactor (rest.headD 's') ≠ none) :
    unitFactor (rest.headD 's') = some factor := by
  cases scaled with
  | unit supported ends => exact supported
  | plain ends =>
    cases rest with
    | nil => rfl
    | cons char more =>
      obtain ⟨other, found⟩ := Option.ne_none_iff_exists'.mp supported
      have letter : isSpace char = false := (unitFactor_letter found).2.1
      have space := ends char rfl
      rw [letter] at space
      contradiction

/-- A parameter stands for one number. -/
theorem Denotes.unique {other : Int} (denotes : Denotes command parameter number) (again : Denotes command parameter other) :
    number = other := by
  cases denotes with
  | number begins scaled =>
    have scan := scanNumber_of_begins begins scaled.digitFree
    cases again with
    | number againBegins againScaled =>
      cases scan.symm.trans (scanNumber_of_begins againBegins againScaled.digitFree)
      rw [scaled.unique againScaled]
    | off edrx off => cases scan.symm.trans off.scanNumber_eq
  | off edrx off =>
    cases again with
    | number begins scaled => cases (scanNumber_of_begins begins scaled.digitFree).symm.trans off.scanNumber_eq
    | off edrx off => rfl

/-- What is behind a number has the same factor where it is cut. -/
theorem Scaled.cut {more : Text} (nonempty : rest ≠ []) (scaled : Scaled command (rest ++ more) factor) :
    Scaled command rest factor := by
  have shorter : ∀ {text : Text}, Ends (text ++ more) → Ends text := by
    intro text ends
    cases text with
    | nil => exact ends_nil
    | cons char text => exact ends
  obtain ⟨char, rest, rfl⟩ := List.exists_cons_of_ne_nil nonempty
  rw [List.cons_append] at scaled
  cases scaled with
  | plain ends => exact .plain ends
  | unit supported ends => exact .unit supported (shorter ends)

/-- A number that is cut does not get larger. -/
private theorem denotes_cut {shown cutRest : Text} {cutCount : Int} (begins : Begins parameter count rest)
    (scaled : Scaled command rest factor) {blanks more : Text} (spaces : ∀ char ∈ blanks, isSpace char = true)
    (parts : parameter = blanks ++ (shown ++ more)) (scan : scanNumber shown = some (cutCount, cutRest)) :
    ∃ cut, Denotes command shown cut ∧ (0 ≤ count * factor → 0 ≤ cut ∧ cut ≤ count * factor) := by
  have cutBegins := (begins_of_scanNumber scan).1
  have read : scanNumber (shown ++ more) = some (count, rest) := by
    rw [← scanNumber_blanks spaces, ← parts]
    exact scanNumber_of_begins begins scaled.digitFree
  rcases @scanNumber_append _ _ _ more scan with ⟨nonempty, same⟩ | ⟨rfl, whole, after, longer, larger⟩
  · rw [same] at read
    cases read
    exact ⟨count * factor, .number cutBegins (scaled.cut nonempty), fun least => ⟨least, Int.le_refl _⟩⟩
  · rw [longer] at read
    cases read
    refine ⟨cutCount * 1, .number cutBegins (.plain ends_nil), fun least => ?_⟩
    have positive := scaled.factor_pos.1
    have countLeast := scaled.count_nonneg least
    have scaledUp := Int.mul_le_mul_of_nonneg_left positive countLeast
    have bounds := larger countLeast
    omega

private theorem scanNumber_isSome {text : Text} (found : scanNumber text ≠ none) :
    ∃ count rest, scanNumber text = some (count, rest) := by
  obtain ⟨⟨count, rest⟩, scan⟩ := Option.ne_none_iff_exists'.mp found
  exact ⟨count, rest, scan⟩

/-- A command that reads a number of a parameter reads no larger one. -/
private theorem denotes_shown (denotes : Denotes command parameter number)
    (accepted : ¬ Rejected command (command.shown parameter)) :
    ∃ cut, Denotes command (command.shown parameter) cut ∧ (0 ≤ number → 0 ≤ cut ∧ cut ≤ number) := by
  obtain ⟨blanks, more, spaces, parts⟩ := shown_append command parameter
  have whole : command.shown parameter = parameter →
      ∃ cut, Denotes command (command.shown parameter) cut ∧ (0 ≤ number → 0 ≤ cut ∧ cut ≤ number) := by
    intro same
    rw [same]
    exact ⟨number, denotes, fun least => ⟨least, Int.le_refl _⟩⟩
  have word : scanNumber (command.shown parameter) ≠ none → command ≠ .edrx →
      ∃ cut, Denotes command (command.shown parameter) cut ∧ (0 ≤ number → 0 ≤ cut ∧ cut ≤ number) := by
    intro found other
    obtain ⟨count, rest, scan⟩ := scanNumber_isSome found
    cases denotes with
    | number begins scaled => exact denotes_cut begins scaled spaces parts scan
    | off edrx => contradiction
  cases command with
  | interval =>
    refine word (fun none => accepted fun count rest scan => ?_) (by decide)
    rw [none] at scan
    contradiction
  | timeout => exact word accepted (by decide)
  | woic => exact word accepted (by decide)
  | batrstth => exact word accepted (by decide)
  | edrx => exact whole rfl
  | ptw => exact whole rfl

end Reading

section Handlers

variable {parameter : Text} {number : Int} {command : Command} {answers : Answers} {stored : Stored}

/-- Without a word a command shows its value. -/
private theorem handler_noWord (noWord : NoWord parameter) :
    ∃ res, command.handler answers parameter stored = some (res, stored) ∧
    (answers.showEdrx = 0 → res = 0) := by
  have word := (parseNextText_eq_nil (show 2 ≤ 10 by decide)).mpr noWord
  have long := (parseNextText_eq_nil (show 2 ≤ 16 by decide)).mpr noWord
  have shows : ∀ store, numberCommand store parameter stored = (0, stored) := by
    intro store
    simp only [numberCommand, word, List.isEmpty_nil, if_true]
  cases command with
  | interval =>
    refine ⟨0, ?_, fun _ => rfl⟩
    simp only [Command.handler, shCmdSendInterval, word, List.isEmpty_nil, if_true]
  | timeout => exact ⟨0, congrArg some (shows _), fun _ => rfl⟩
  | woic => exact ⟨0, congrArg some (shows _), fun _ => rfl⟩
  | batrstth => exact ⟨0, congrArg some (shows _), fun _ => rfl⟩
  | edrx =>
    refine ⟨answers.showEdrx, ?_, id⟩
    simp only [Command.handler, modemCmdEdrx, long, List.isEmpty_nil, if_true]
  | ptw =>
    refine ⟨answers.showEdrx, ?_, id⟩
    simp only [Command.handler, modemCmdPtw, long, List.isEmpty_nil, if_true]

private theorem isEmpty_parseNextText {len : ℕ} (long : 2 ≤ len) (word : ¬ NoWord parameter) :
    (parseNextText parameter ' ' len).1.isEmpty = false := by
  rw [List.isEmpty_eq_false_iff, Ne, parseNextText_eq_nil long]
  exact word

/-- What is rejected changes nothing. -/
private theorem handler_rejected (word : ¬ NoWord parameter) (rejected : Rejected command (command.shown parameter)) :
    command.handler answers parameter stored = some (einval, stored) := by
  have visible := isEmpty_parseNextText (show 2 ≤ 10 by decide) word
  have longVisible := isEmpty_parseNextText (show 2 ≤ 16 by decide) word
  have fails : ∀ store, scanNumber (parseNextText parameter ' ' 10).1 = none →
      numberCommand store parameter stored = (einval, stored) := by
    intro store none
    simp only [numberCommand, unsigned, scanUnsigned, visible, none, Option.map_none, Bool.false_eq_true, if_false]
  cases command with
  | interval =>
    simp only [Command.handler, shCmdSendInterval, scanUnsigned, visible, Bool.false_eq_true, if_false]
    cases scan : scanNumber (parseNextText parameter ' ' 10).1 with
    | none => rfl
    | some read =>
      have unsupported := rejected read.1 read.2 scan
      simp only [Option.map_some, unsupported]
  | timeout => exact congrArg some (fails _ rejected)
  | woic => exact congrArg some (fails _ rejected)
  | batrstth => exact congrArg some (fails _ rejected)
  | edrx =>
    have none : scanNumber parameter = none := rejected.2
    have other : stricmp "off".toList (parseNextText parameter ' ' 16).1 ≠ 0 := rejected.1
    simp only [Command.handler, modemCmdEdrx, edrxTime, longVisible, unsigned, scanUnsigned, none, Option.map_none,
      if_neg other, Bool.false_eq_true, if_false]
  | ptw =>
    have none : scanNumber parameter = none := rejected
    simp only [Command.handler, modemCmdPtw, longVisible, unsigned, scanUnsigned, none, Option.map_none,
      Bool.false_eq_true, if_false]

/-- The register of the interval has the seconds that fit into 24 bits. -/
private theorem getSendInterval_setSendInterval (least : 0 ≤ number) (most : number ≤ 0xffffff) :
    getSendInterval (setSendInterval number stored) = number := by
  have mask : (0xffffff#32).toNat = 2 ^ 24 - 1 := rfl
  simp only [getSendInterval, setSendInterval, BitVec.toNat_and, BitVec.toNat_ofInt, mask,
    Nat.and_two_pow_sub_one_eq_mod]
  omega

private theorem int32_strtoul (least : 0 ≤ number) (most : number < 2147483648) : int32 (strtoul number) = number := by
  have read := strtoul_of_nonneg least (by omega)
  have fits : Int.bmod number 4294967296 = number := Int.bmod_eq_of_le_mul_two (by omega) (by omega)
  calc Int.bmod (strtoul number) 4294967296
    _ = Int.bmod number.toNat 4294967296 := by rw [read]
    _ = Int.bmod number 4294967296 := by rw [Int.toNat_of_nonneg least]
    _ = number := fits

private theorem toNat_ofNat_strtoul (least : 0 ≤ number) (most : number ≤ 65535) :
    ((UInt16.ofNat (strtoul number)).toNat : Int) = number := by
  rw [strtoul_of_nonneg least (by omega), UInt16.toNat_ofNat']
  omega

/-- There is no timeout of zero. -/
private theorem coapTimeout_value (least : 0 ≤ number) (most : number ≤ 65535) :
    ((if UInt16.ofNat (strtoul number) ≠ 0 then UInt16.ofNat (strtoul number) else 1).toNat : Int) =
      Command.timeout.keep number := by
  have value := toNat_ofNat_strtoul least most
  simp only [Command.keep]
  split_ifs with nonzero zero zero
  · subst zero
    exact absurd rfl nonzero
  · exact value
  · rfl
  · rw [not_not.mp nonzero] at value
    exact absurd value.symm zero

private theorem toInt_ofNat_strtoul (least : 0 ≤ number) (most : number ≤ 32767) :
    (Int16.ofNat (strtoul number)).toInt = number := by
  have size : Int16.size = 65536 := rfl
  rw [strtoul_of_nonneg least (by omega), Int16.toInt_ofNat', Int.toNat_of_nonneg least, size]
  exact Int.bmod_eq_of_le_mul_two (by omega) (by omega)

/-- The seconds of an interval are stored. -/
private theorem shCmdSendInterval_eq {count factor : Int} {rest : Text} (word : ¬ NoWord parameter)
    (scan : scanNumber (parseNextText parameter ' ' 10).1 = some (count, rest))
    (supported : unitFactor (rest.headD 's') = some factor) (countLeast : 0 ≤ count) (least : 1 ≤ factor)
    (most : count * factor ≤ 0xffffff) :
    ∃ next, shCmdSendInterval parameter stored = some (0, next) ∧ getSendInterval next = count * factor := by
  have visible := isEmpty_parseNextText (show 2 ≤ 10 by decide) word
  have scaledUp := Int.mul_le_mul_of_nonneg_left least countLeast
  have read := int32_strtoul countLeast (show count < 2147483648 by omega)
  have fits : Machine.Signed 32 (count * factor) := Machine.signed_32.mpr ⟨by omega, by omega⟩
  simp only [shCmdSendInterval, visible, Bool.false_eq_true, if_false, scanUnsigned, scan, Option.map_some, supported,
    read, Machine.checked_of_signed fits]
  by_cases active : getSendInterval stored = count * factor
  · rw [if_neg (not_not_intro active)]
    exact ⟨stored, rfl, active⟩
  · rw [if_pos active]
    exact ⟨_, rfl, @getSendInterval_setSendInterval _ stored (by omega) most⟩

private theorem unsigned_eq {text rest : Text} {count : Int} (scan : scanNumber text = some (count, rest)) :
    unsigned text = some (strtoul count) := by
  rw [unsigned, scanUnsigned, scan]
  rfl

private theorem numberCommand_eq {count : Int} {rest : Text} {store : ℕ → Stored → Stored} (word : ¬ NoWord parameter)
    (scan : scanNumber (parseNextText parameter ' ' 10).1 = some (count, rest)) :
    numberCommand store parameter stored = (0, store (strtoul count) stored) := by
  have visible := isEmpty_parseNextText (show 2 ≤ 10 by decide) word
  simp only [numberCommand, unsigned_eq scan, visible, Bool.false_eq_true, if_false]

private theorem modemCmdEdrx_eq {time : ℕ} (word : ¬ NoWord parameter) (read : edrxTime parameter = some time) :
    modemCmdEdrx answers parameter stored = modemSetEdrx answers (Int16.ofNat time) stored := by
  have visible := isEmpty_parseNextText (show 2 ≤ 16 by decide) word
  simp only [modemCmdEdrx, read, visible, Bool.false_eq_true, if_false]

private theorem modemCmdPtw_eq {count : Int} {rest : Text} (word : ¬ NoWord parameter)
    (scan : scanNumber parameter = some (count, rest)) :
    modemCmdPtw answers parameter stored = modemSetPtw answers (Int16.ofNat (strtoul count)) stored := by
  have visible := isEmpty_parseNextText (show 2 ≤ 16 by decide) word
  simp only [modemCmdPtw, unsigned_eq scan, visible, Bool.false_eq_true, if_false]

/-- The requested time is set if the modem accepts it. -/
private theorem modemSetEdrx_cases (time : Int16) : ∃ res next, modemSetEdrx answers time stored = (res, next) ∧
    (res < 0 ∧ next = stored ∨ res = 0 ∧ next.requestedEdrxTimeS = time) ∧ (answers = {} → res = 0) := by
  unfold modemSetEdrx
  split_ifs with zero off nb ltem
  · exact ⟨_, _, rfl, .inl ⟨off, rfl⟩, by rintro rfl; rfl⟩
  · exact ⟨_, _, rfl, .inr ⟨rfl, zero.symm⟩, fun _ => rfl⟩
  · exact ⟨_, _, rfl, .inl ⟨nb, rfl⟩, by rintro rfl; rfl⟩
  · exact ⟨_, _, rfl, .inl ⟨ltem, rfl⟩, by rintro rfl; rfl⟩
  · exact ⟨_, _, rfl, .inr ⟨rfl, rfl⟩, fun _ => rfl⟩

private theorem modemSetPtw_cases (time : Int16) : ∃ res next, modemSetPtw answers time stored = (res, next) ∧
    (res < 0 ∧ next = stored ∨ res = 0 ∧ next.requestedPtwTimeS = time) ∧ (answers = {} → res = 0) := by
  unfold modemSetPtw
  split_ifs with nb ltem
  · exact ⟨_, _, rfl, .inl ⟨nb, rfl⟩, by rintro rfl; rfl⟩
  · exact ⟨_, _, rfl, .inl ⟨ltem, rfl⟩, by rintro rfl; rfl⟩
  · exact ⟨_, _, rfl, .inr ⟨rfl, rfl⟩, fun _ => rfl⟩

/-- What is not rejected is a number with a unit that is supported. -/
private theorem unitFactor_of_accepted {shown : Text} (accepted : ¬ Rejected .interval shown) :
    ∃ count rest factor, scanNumber shown = some (count, rest) ∧ unitFactor (rest.headD 's') = some factor := by
  simp only [Rejected, not_forall] at accepted
  obtain ⟨count, rest, scan, supported⟩ := accepted
  obtain ⟨factor, supported⟩ := Option.ne_none_iff_exists'.mp supported
  exact ⟨count, rest, factor, scan, supported⟩

private theorem edrxTime_of_accepted (accepted : ¬ Rejected .edrx parameter) : ∃ time, edrxTime parameter = some time := by
  by_cases off : Off parameter
  · exact ⟨0, if_pos off⟩
  · obtain ⟨count, rest, scan⟩ := @scanNumber_isSome parameter fun none => accepted ⟨off, none⟩
    exact ⟨strtoul count, (if_neg off).trans (unsigned_eq scan)⟩

/-- A command that is not rejected succeeds, if the modem does. -/
private theorem handler_accepted {res : Int} {next : Stored} (word : ¬ NoWord parameter)
    (accepted : ¬ Rejected command (command.shown parameter)) (run : command.handler {} parameter stored = some (res, next)) :
    res = 0 := by
  have stores : ∀ store, scanNumber (parseNextText parameter ' ' 10).1 ≠ none →
      numberCommand store parameter stored = (res, next) → res = 0 := by
    intro store found run
    obtain ⟨count, rest, scan⟩ := scanNumber_isSome found
    rw [numberCommand_eq word scan] at run
    exact (congrArg Prod.fst run).symm
  cases command with
  | interval =>
    have visible := isEmpty_parseNextText (show 2 ≤ 10 by decide) word
    obtain ⟨count, rest, factor, scan, supported⟩ := unitFactor_of_accepted accepted
    have scan : scanNumber (parseNextText parameter ' ' 10).1 = some (count, rest) := scan
    simp only [Command.handler, shCmdSendInterval, visible, Bool.false_eq_true, if_false, scanUnsigned, scan,
      Option.map_some, supported, Option.map_eq_some_iff] at run
    obtain ⟨seconds, -, run⟩ := run
    split at run
    · exact (congrArg Prod.fst run).symm
    · exact (congrArg Prod.fst run).symm
  | timeout => exact stores _ accepted (Option.some.inj run)
  | woic => exact stores _ accepted (Option.some.inj run)
  | batrstth => exact stores _ accepted (Option.some.inj run)
  | edrx =>
    obtain ⟨time, read⟩ := edrxTime_of_accepted accepted
    obtain ⟨result, after, same, -, succeeds⟩ := @modemSetEdrx_cases {} stored (Int16.ofNat time)
    rw [Command.handler, modemCmdEdrx_eq word read, same] at run
    cases run
    exact succeeds rfl
  | ptw =>
    obtain ⟨count, rest, scan⟩ := @scanNumber_isSome parameter accepted
    obtain ⟨result, after, same, -, succeeds⟩ := @modemSetPtw_cases {} stored (Int16.ofNat (strtoul count))
    rw [Command.handler, modemCmdPtw_eq word scan, same] at run
    cases run
    exact succeeds rfl

/-- A handler fails and changes nothing, or the value of its command is the given one. -/
def Command.Leaves (command : Command) (answers : Answers) (parameter : Text) (stored : Stored) (value : Int) : Prop :=
  ∃ res next, command.handler answers parameter stored = some (res, next) ∧
    (res < 0 ∧ next = stored ∨ res = 0 ∧ command.value next = value)

section Storing

variable {count factor : Int} {rest : Text}

private theorem interval_leaves (word : ¬ NoWord parameter)
    (accepted : ¬ Rejected .interval (Command.interval.shown parameter))
    (scan : scanNumber (Command.interval.shown parameter) = some (count, rest)) (scaled : Scaled .interval rest factor)
    (least : 0 ≤ count * factor) (most : count * factor ≤ 0xffffff) :
    Command.interval.Leaves answers parameter stored (count * factor) := by
  obtain ⟨again, other, found, read, supported⟩ := unitFactor_of_accepted accepted
  cases scan.symm.trans read
  have unit := scaled.unitFactor_eq (supported ▸ Option.some_ne_none found)
  obtain ⟨next, run, value⟩ :=
    shCmdSendInterval_eq word scan unit (scaled.count_nonneg least) scaled.factor_pos.1 most
  exact ⟨0, next, run, .inr ⟨rfl, value⟩⟩

private theorem edrx_leaves {time : ℕ} (word : ¬ NoWord parameter) (read : edrxTime parameter = some time) :
    Command.edrx.Leaves answers parameter stored (Int16.ofNat time).toInt := by
  obtain ⟨res, next, same, done, -⟩ := @modemSetEdrx_cases answers stored (Int16.ofNat time)
  refine ⟨res, next, by rw [Command.handler, modemCmdEdrx_eq word read, same], done.imp id fun done => ⟨done.1, ?_⟩⟩
  rw [Command.value, done.2]

private theorem ptw_leaves (word : ¬ NoWord parameter) (scan : scanNumber parameter = some (count, rest)) :
    Command.ptw.Leaves answers parameter stored (Int16.ofNat (strtoul count)).toInt := by
  obtain ⟨res, next, same, done, -⟩ := @modemSetPtw_cases answers stored (Int16.ofNat (strtoul count))
  refine ⟨res, next, by rw [Command.handler, modemCmdPtw_eq word scan, same], done.imp id fun done => ⟨done.1, ?_⟩⟩
  rw [Command.value, done.2]

end Storing

/-- A number in the range of its variable is stored, if the modem does not fail. -/
private theorem handler_stored (word : ¬ NoWord parameter) (accepted : ¬ Rejected command (command.shown parameter))
    (denotes : Denotes command (command.shown parameter) number) (least : 0 ≤ number) (most : number ≤ command.capacity) :
    command.Leaves answers parameter stored (command.keep number) := by
  cases denotes with
  | off edrx off =>
    subst edrx
    exact edrx_leaves word (if_pos off)
  | @number count rest factor begins scaled =>
    have scan := scanNumber_of_begins begins scaled.digitFree
    by_cases interval : command = .interval
    · subst interval
      exact interval_leaves word accepted scan scaled least most
    cases scaled.factor_eq_one interval
    rw [Int.mul_one] at *
    cases command with
    | interval => contradiction
    | timeout =>
      exact ⟨0, _, congrArg some (numberCommand_eq word scan), .inr ⟨rfl, coapTimeout_value least most⟩⟩
    | woic =>
      exact ⟨0, _, congrArg some (numberCommand_eq word scan), .inr ⟨rfl, toNat_ofNat_strtoul least most⟩⟩
    | batrstth =>
      exact ⟨0, _, congrArg some (numberCommand_eq word scan), .inr ⟨rfl, toNat_ofNat_strtoul least most⟩⟩
    | edrx =>
      have other : ¬ Off parameter := fun off => by cases scan.symm.trans off.scanNumber_eq
      have read : edrxTime parameter = some (strtoul count) := (if_neg other).trans (unsigned_eq scan)
      have kept := @edrx_leaves parameter answers stored _ word read
      rwa [toInt_ofNat_strtoul least most] at kept
    | ptw =>
      have kept := @ptw_leaves parameter answers stored _ _ word scan
      rwa [toInt_ofNat_strtoul least most] at kept

end Handlers

section Exact

variable {command : Command} {limit : ℕ} {parameter : Text}

/-- The same value for each command. -/
def Stored.filled (value : ℕ) : Stored :=
  ⟨BitVec.ofNat 32 value, UInt16.ofNat value, UInt16.ofNat value, UInt16.ofNat value, Int16.ofNat value,
    Int16.ofNat value, []⟩

/-- A parameter without a word is only kept if it has no number either: the value does not change, whatever it is. -/
theorem Kept.blank (kept : Kept command limit parameter) (noWord : NoWord parameter) : Blank parameter := by
  have unchanged : ∀ stored, Blank parameter ∨
      ∃ number, Denotes command parameter number ∧ command.value stored = command.keep number := by
    intro stored
    obtain ⟨res, next, run, done⟩ := kept {} stored
    obtain ⟨result, same, zero⟩ := @handler_noWord parameter command {} stored noWord
    rw [same] at run
    cases run
    rcases done with ⟨-, fails | blank⟩ | ⟨-, number, denotes, -, -, value⟩
    · have shown := zero rfl
      omega
    · exact .inl blank
    · exact .inr ⟨number, denotes, value⟩
  rcases unchanged (.filled 2) with blank | ⟨number, denotes, value⟩
  · exact blank
  · rcases unchanged (.filled 3) with blank | ⟨other, again, otherValue⟩
    · exact blank
    · rw [← denotes.unique again, ← value] at otherValue
      cases command <;> exact absurd otherValue (by decide)

/-- A cut number that is kept as one in the range is in the range of the variable. -/
private theorem keep_range {number cut : Int} (range : limit ≤ command.capacity) (least : 0 ≤ number)
    (most : number ≤ limit)
    (same : command.keep cut = command.keep number) : 0 ≤ cut ∧ cut ≤ command.capacity := by
  cases command with
  | timeout =>
    simp only [Command.keep, Command.capacity] at *
    split_ifs at same <;> omega
  | _ =>
    simp only [Command.keep, Command.capacity] at *
    omega

/-- A command keeps exactly the parameters that fit, for each range that its variable has. -/
theorem kept_iff_fits (range : limit ≤ command.capacity) : Kept command limit parameter ↔ Fits command limit parameter := by
  constructor
  · intro kept
    by_cases noWord : NoWord parameter
    · exact .blank (kept.blank noWord)
    by_cases rejected : Rejected command (command.shown parameter)
    · exact .rejected noWord rejected
    obtain ⟨res, next, run, done⟩ := kept {} (.filled 0)
    have succeeds := handler_accepted noWord rejected run
    rcases done with ⟨-, fails | blank⟩ | ⟨-, number, denotes, least, most, value⟩
    · omega
    · exact absurd blank.noWord noWord
    · obtain ⟨cut, shown, smaller⟩ := denotes_shown denotes rejected
      obtain ⟨cutLeast, cutMost⟩ := smaller least
      obtain ⟨result, after, same, done⟩ :=
        @handler_stored parameter cut command {} (.filled 0) noWord rejected shown cutLeast (by omega)
      rw [run] at same
      cases same
      rcases done with ⟨fails, -⟩ | ⟨-, cutValue⟩
      · omega
      · exact .stored noWord denotes shown least most (cutValue.symm.trans value)
  · intro fits answers stored
    cases fits with
    | blank spaces =>
      obtain ⟨res, same, -⟩ := @handler_noWord parameter command answers stored spaces.noWord
      exact ⟨res, stored, same, .inl ⟨rfl, .inr spaces⟩⟩
    | rejected word rejected =>
      exact ⟨einval, stored, handler_rejected word rejected, .inl ⟨rfl, .inl (by decide)⟩⟩
    | @stored number cut word denotes shown least most same =>
      by_cases rejected : Rejected command (command.shown parameter)
      · exact ⟨einval, stored, handler_rejected word rejected, .inl ⟨rfl, .inl (by decide)⟩⟩
      obtain ⟨cutLeast, cutMost⟩ := keep_range range least most same
      obtain ⟨res, next, run, done⟩ := @handler_stored parameter cut command answers stored word rejected shown cutLeast cutMost
      refine ⟨res, next, run, ?_⟩
      rcases done with ⟨fails, rfl⟩ | ⟨succeeds, value⟩
      · exact .inl ⟨rfl, .inl fails⟩
      · exact .inr ⟨succeeds, number, denotes, least, most, value.trans same⟩

/-- Two hours are an interval that is kept. -/
theorem kept_iff_fits_hours : Kept .interval 0xffffff "2h".toList := by
  have denotes : Denotes .interval "2h".toList (2 * 3600) :=
    .number ⟨[], .unsigned ['2'] (by decide) (by decide), List.forall_mem_nil _, rfl, by decide⟩ (.unit rfl ends_nil)
  have word : ¬ NoWord "2h".toList := by
    rintro (empty | separator | ⟨more, separators⟩)
    · exact absurd empty (by decide)
    · exact absurd separator (by decide)
    · cases separators
  exact (kept_iff_fits (by decide)).mpr (.stored word denotes denotes (by decide) (by decide) rfl)

/-- A timeout of 70000 seconds has the lower 16 bits of the number. -/
theorem not_kept_timeout : ¬ ∀ (command : Command) (parameter : Text), Kept command command.capacity parameter := by
  intro all
  have whole : Denotes .timeout "70000".toList (70000 * 1) :=
    .number ⟨[], .unsigned "70000".toList (by decide) (by decide), List.forall_mem_nil _, rfl, by decide⟩ (.plain ends_nil)
  have run : Command.timeout.handler {} "70000".toList (.filled 0) = some (0, { Stored.filled 0 with coapTimeout := 4464 }) := by
    decide
  obtain ⟨res, next, same, done⟩ := all .timeout "70000".toList {} (.filled 0)
  rw [run] at same
  cases same
  rcases done with ⟨unchanged, -⟩ | ⟨-, number, denotes, -, most, -⟩
  · exact absurd unchanged (by decide)
  · rw [denotes.unique whole] at most
    exact absurd most (by decide)

end Exact

end CoapsClient.Parameters
