import CoapsClient.Model.Coap.Payload

/-! # The commands of a text payload

The loop separates the lines of a payload inside of its buffer, and each line is handled as `decodeTextPayload` does it
with the text. A line that begins with a separator has no name: the loop then takes the whole rest of the payload for it,
so that commands behind such a line, or behind an empty first line, are lost.
-/

namespace CoapsClient.DtlsClient

open ShCmd (Text stricmp)
open Machine (put)

section Spans

variable {accepts : Char → Bool} {front text rest value : Text}

private theorem span_eq (stops : accepts nul = false) :
    span accepts (front ++ (text ++ nul :: rest)) front.length = some (text.takeWhile accepts).length := by
  rw [span, List.drop_left]
  induction text with
  | nil =>
    rw [List.nil_append, List.findIdx?_cons]
    simp [stops]
  | cons char text ih =>
    rw [List.cons_append, List.findIdx?_cons]
    cases accepted : accepts char with
    | true => simp [accepted, ih]
    | false => simp [accepted]

/-- In a text without NULs, only the other characters decide. -/
private theorem takeWhile_not_nul {reject : Char → Bool} (noNul : nul ∉ text) :
    text.takeWhile (fun char => char ≠ nul && !reject char) = text.takeWhile (!reject ·) := by
  induction text with
  | nil => rfl
  | cons char text ih =>
    have here : char ≠ nul := fun same => noNul (same ▸ List.mem_cons_self)
    have later := ih fun member => noNul (List.mem_cons_of_mem _ member)
    simp only [List.takeWhile_cons, ne_eq, here, not_false_eq_true, decide_true, Bool.true_and]
    rw [← later]

private theorem strcspn_eq {reject : Char → Bool} (noNul : nul ∉ text) :
    strcspn (front ++ (text ++ nul :: rest)) front.length reject = some (text.takeWhile (!reject ·)).length := by
  rw [strcspn, span_eq (by simp), takeWhile_not_nul noNul]

theorem strlen_eq (noNul : nul ∉ text) : strlen (front ++ (text ++ nul :: rest)) front.length = some text.length := by
  have all : text.takeWhile (fun char => decide (char ≠ nul)) = text :=
    List.takeWhile_eq_self_iff.mpr fun char member => decide_eq_true fun same => noNul (same ▸ member)
  rw [strlen, span_eq (by simp), all]

private theorem stringAt_eq (noNul : nul ∉ value) :
    stringAt (front ++ (value ++ nul :: rest)) front.length = some value := by
  rw [stringAt, strlen_eq noNul, List.drop_left, Option.map_some, List.take_left]

/-- The character behind a part of the text. -/
private theorem getElem?_behind : (front ++ (value ++ (text ++ nul :: rest)))[front.length + value.length]? =
    some ((text ++ [nul]).head (by simp)) := by
  have length : front.length + value.length = (front ++ value).length := List.length_append.symm
  rw [← List.append_assoc, length, List.getElem?_append_right (Nat.le_refl _), Nat.sub_self]
  cases text <;> rfl

/-- A NUL in the place of the character behind a part of the text. -/
private theorem put_behind {char : Char} : put (front ++ (value ++ char :: rest)) (front.length + value.length) nul =
    some (front ++ (value ++ nul :: rest)) := by
  have stored := @Machine.put_append _ (front ++ value) (char :: rest) 0 nul
  simpa using stored

end Spans

/-- The part of a text in front of a set of characters, and what is behind it. -/
private theorem split_text (reject : Char → Bool) (text : Text) : ∃ part tail, text = part ++ tail ∧
    text.takeWhile (!reject ·) = part ∧ text.dropWhile (!reject ·) = tail ∧
    (tail = [] ∨ ∃ char more, tail = char :: more ∧ reject char = true) := by
  refine ⟨_, _, List.takeWhile_append_dropWhile.symm, rfl, rfl, ?_⟩
  induction text with
  | nil => exact .inl rfl
  | cons char text ih =>
    cases rejected : reject char with
    | true =>
      right
      exact ⟨char, text, by simp [rejected], rejected⟩
    | false => simpa [rejected] using ih

/-- A turn whose buffer holds what was used up, and behind it what is left of the text. -/
def Leaves (turn : Turn) (front left rest : Text) (length : ℕ) : Prop :=
  ∃ used, turn.buf = front ++ used ++ (left ++ nul :: rest) ∧ turn.payload = (front ++ used).length ∧
    used.length + left.length = length

section Lines

variable {front text rest : Text} {turn : Turn}

/-- The value that the commands read. -/
def Turn.value (turn : Turn) : Option Text :=
  match turn.val with
  | none => some []
  | some val => stringAt turn.buf val

/-- The value of a line is separated from what is left of the text. -/
private theorem separateValue_eq (noNul : nul ∉ text) (buf : turn.buf = front ++ (text ++ nul :: rest))
    (position : turn.payload = front.length) (fresh : turn.val = none) :
    ∃ next left, separateValue turn = some next ∧ Leaves next front left rest text.length ∧ nul ∉ left ∧
      left.dropWhile isLineEnd = (text.dropWhile (!isLineEnd ·)).dropWhile isLineEnd ∧
      next.value = some (text.takeWhile (!isLineEnd ·)) ∧ next.cur = turn.cur := by
  obtain ⟨value, tail, rfl, takes, drops, ends⟩ := split_text isLineEnd text
  have valueNoNul : nul ∉ value := fun member => noNul (List.mem_append_left _ member)
  have found := @strcspn_eq front (value ++ tail) rest isLineEnd noNul
  unfold separateValue
  rw [drops, takes, buf, position, found, takes, Option.bind_eq_bind, Option.bind_some]
  by_cases empty : value = []
  · subst empty
    refine ⟨turn, tail, rfl, ⟨[], by simpa using buf, by simpa using position, by simp⟩, by simpa using noNul, rfl, ?_, rfl⟩
    rw [Turn.value, fresh]
  · have nonzero : value.length ≠ 0 := fun zero => empty (List.length_eq_zero_iff.mp zero)
    have read := @getElem?_behind front tail rest value
    rw [List.append_assoc, if_pos nonzero, read]
    rcases ends with rfl | ⟨char, more, rfl, lineEnd⟩
    · refine ⟨{ turn with payload := front.length + value.length, val := some front.length }, [], ?_,
        ⟨value, by simpa using buf, by simp, by simp⟩, List.not_mem_nil, rfl, ?_, rfl⟩
      · simp [buf]
      · rw [Turn.value, buf, List.append_nil]
        exact stringAt_eq valueNoNul
    · have notNul : char ≠ nul := fun same => noNul (by simp [same])
      have stored := @put_behind front (more ++ nul :: rest) value char
      refine ⟨{ turn with
        buf := front ++ (value ++ nul :: (more ++ nul :: rest))
        payload := front.length + value.length + 1
        val := some front.length }, more, ?_, ⟨value ++ [nul], by simp, by simp [Nat.add_assoc], ?_⟩, ?_, ?_, ?_, rfl⟩
      · simp [notNul, stored]
      · simp only [List.length_append, List.length_cons, List.length_nil]
        omega
      · exact fun member => noNul (by simp [member])
      · rw [List.dropWhile_cons_of_pos lineEnd]
      · exact stringAt_eq valueNoNul

/-- The line ends behind a line are skipped. -/
private theorem skipLineEnds_eq {length : ℕ} (left : Text) (leaves : Leaves turn front left rest length) :
    ∃ next, skipLineEnds turn = some next ∧ Leaves next front (left.dropWhile isLineEnd) rest length ∧
      next.buf = turn.buf ∧ next.cur = turn.cur ∧ next.val = turn.val := by
  obtain ⟨used, buf, position, total⟩ := leaves
  have parts : left.takeWhile isLineEnd ++ left.dropWhile isLineEnd = left := List.takeWhile_append_dropWhile
  have count := congrArg List.length parts
  rw [List.length_append] at count
  refine ⟨{ turn with payload := turn.payload + (left.takeWhile isLineEnd).length }, ?_,
    ⟨used ++ left.takeWhile isLineEnd, ?_, ?_, ?_⟩, rfl, rfl, rfl⟩
  · rw [skipLineEnds, buf, position, span_eq (by decide), Option.bind_eq_bind, Option.bind_some]
  · rw [buf]
    conv_lhs => rw [← parts]
    simp only [List.append_assoc]
  · simp only [position, List.length_append, Nat.add_assoc]
  · rw [List.length_append]
    omega

/-- The line that a turn has separated is the next one of the text, and what is left lies behind it. -/
structure Separates (turn : Turn) (front text rest : Text) : Prop where
  line : turn.line = some { name := (nextLine text).name, value := (nextLine text).value }
  leaves : Leaves turn front (nextLine text).rest rest text.length
  shorter : (nextLine text).rest.length < text.length
  noNul : nul ∉ (nextLine text).rest

private theorem nextLine_of_separator {char : Char} (separator : isSeparator char = true) :
    nextLine (char :: text) = { name := char :: text } := by
  simp [nextLine, separator]

private theorem nextLine_of_end {name : Text} (some' : name ≠ []) (takes : name.takeWhile (!isSeparator ·) = name)
    (drops : name.dropWhile (!isSeparator ·) = []) : nextLine name = { name } := by
  have notEmpty : name.isEmpty = false := by simpa using some'
  simp [nextLine, takes, drops, notEmpty]

private theorem nextLine_of_name {name more : Text} {sep : Char} (some' : name ≠ [])
    (takes : (name ++ sep :: more).takeWhile (!isSeparator ·) = name)
    (drops : (name ++ sep :: more).dropWhile (!isSeparator ·) = sep :: more) :
    nextLine (name ++ sep :: more) = if isAssign sep then
      { name, value := more.takeWhile (!isLineEnd ·), rest := (more.dropWhile (!isLineEnd ·)).dropWhile isLineEnd }
    else { name, rest := more.dropWhile isLineEnd } := by
  have notEmpty : name.isEmpty = false := by simpa using some'
  simp only [nextLine, takes, drops, notEmpty]
  rfl

theorem Turn.line_eq {name value : Text} (reads : stringAt turn.buf turn.cur = some name) (values : turn.value = some value) :
    turn.line = some { name, value } := by
  rw [Turn.value] at values
  rw [Turn.line, reads, Option.bind_eq_bind, Option.bind_some]
  split at values <;> simp_all

/-- A payload that goes on with a separator is taken for one name. -/
private theorem separateLine_of_separator {char : Char} (separator : isSeparator char = true) (noNul : nul ∉ char :: text) :
    ∃ turn, separateLine (front ++ (char :: text ++ nul :: rest)) front.length = some turn ∧
      Separates turn front (char :: text) rest := by
  have none := @strcspn_eq front (char :: text) rest isSeparator noNul
  rw [List.takeWhile_cons_of_neg (by simpa using separator)] at none
  have length := @strlen_eq front (char :: text) rest noNul
  refine ⟨{ buf := front ++ (char :: text ++ nul :: rest), payload := front.length + (char :: text).length
            cur := front.length }, ?_, ?_⟩
  · rw [separateLine, none, Option.bind_eq_bind, Option.bind_some, if_neg (by simp), length, Option.bind_some]
  · have next := @nextLine_of_separator text _ separator
    refine ⟨?_, ⟨char :: text, ?_, ?_, ?_⟩, ?_, ?_⟩
    · rw [next]
      exact Turn.line_eq (stringAt_eq noNul) rfl
    all_goals simp [next]

/-- A name at the end of the payload. -/
private theorem separateLine_of_end {name : Text} (some' : name ≠ []) (takes : name.takeWhile (!isSeparator ·) = name)
    (noNul : nul ∉ name) :
    ∃ turn, separateLine (front ++ (name ++ nul :: rest)) front.length = some turn ∧ Separates turn front name rest := by
  have found := @strcspn_eq front name rest isSeparator noNul
  have read := @getElem?_behind front [] rest name
  have nonzero : name.length ≠ 0 := fun zero => some' (List.length_eq_zero_iff.mp zero)
  have drops : name.dropWhile (!isSeparator ·) = [] := List.dropWhile_eq_nil_iff.mpr (List.takeWhile_eq_self_iff.mp takes)
  refine ⟨{ buf := front ++ (name ++ nul :: rest), payload := front.length + name.length, cur := front.length }, ?_, ?_⟩
  · rw [separateLine, found, takes, Option.bind_eq_bind, Option.bind_some, if_pos nonzero]
    rw [List.nil_append] at read
    rw [read]
    simp
  · have next := nextLine_of_end some' takes drops
    refine ⟨?_, ⟨name, ?_, ?_, ?_⟩, ?_, ?_⟩
    · rw [next]
      exact Turn.line_eq (stringAt_eq noNul) rfl
    all_goals simp [next, List.length_pos_iff, some']

/-- What a turn leaves behind the name of a line, it leaves behind the line. -/
theorem Leaves.separates {name left value more : Text} {sep : Char}
    (leaves : Leaves turn (front ++ (name ++ [nul])) left rest more.length) (nameNoNul : nul ∉ name) (noNul : nul ∉ left)
    (cur : turn.cur = front.length) (reads : turn.value = some value)
    (line : nextLine (name ++ sep :: more) = { name, value, rest := left }) : Separates turn front (name ++ sep :: more) rest := by
  obtain ⟨used, buf, payload, total⟩ := leaves
  have whole : turn.buf = front ++ (name ++ nul :: (used ++ (left ++ nul :: rest))) := by simp [buf]
  refine ⟨?_, ⟨name ++ [nul] ++ used, ?_, ?_, ?_⟩, ?_, ?_⟩
  · rw [line]
    refine Turn.line_eq ?_ reads
    rw [whole, cur]
    exact stringAt_eq nameNoNul
  · simp [line, buf]
  · simp [payload]
  · simp [line]
    omega
  · simp [line]
    omega
  · rwa [line]

/-- A name with a separator behind it. -/
private theorem separateLine_of_name {name more : Text} {sep : Char} (some' : name ≠ [])
    (takes : (name ++ sep :: more).takeWhile (!isSeparator ·) = name)
    (drops : (name ++ sep :: more).dropWhile (!isSeparator ·) = sep :: more) (noNul : nul ∉ name ++ sep :: more) :
    ∃ turn, separateLine (front ++ (name ++ sep :: more ++ nul :: rest)) front.length = some turn ∧
      Separates turn front (name ++ sep :: more) rest := by
  have found := @strcspn_eq front (name ++ sep :: more) rest isSeparator noNul
  have read := @getElem?_behind front (sep :: more) rest name
  have stored := @put_behind front (more ++ nul :: rest) name sep
  have nonzero : name.length ≠ 0 := fun zero => some' (List.length_eq_zero_iff.mp zero)
  have notNul : sep ≠ nul := fun same => noNul (by simp [same])
  have nameNoNul : nul ∉ name := fun member => noNul (List.mem_append_left _ member)
  have moreNoNul : nul ∉ more := fun member => noNul (by simp [member])
  -- the name with its NUL is in front of what follows
  have behind : front ++ (name ++ nul :: (more ++ nul :: rest)) = (front ++ (name ++ [nul])) ++ (more ++ nul :: rest) := by
    simp
  have position : front.length + name.length + 1 = (front ++ (name ++ [nul])).length := by simp [Nat.add_assoc]
  have begun : separateLine (front ++ (name ++ sep :: more ++ nul :: rest)) front.length =
      (if isAssign sep then
        separateValue ⟨front ++ (name ++ nul :: (more ++ nul :: rest)), front.length + name.length + 1, front.length, none⟩
      else some ⟨front ++ (name ++ nul :: (more ++ nul :: rest)), front.length + name.length + 1, front.length, none⟩).bind
        skipLineEnds := by
    rw [separateLine, found, takes, Option.bind_eq_bind, Option.bind_some, if_pos nonzero, List.append_assoc, read]
    simp only [List.cons_append, List.head_cons, Option.bind_eq_bind, Option.bind_some, ne_eq, notNul, not_false_eq_true,
      ↓reduceIte, stored]
    split <;> rfl
  rw [begun, behind, position]
  have next := nextLine_of_name some' takes drops
  cases assign : isAssign sep with
  | true =>
    rw [assign, if_pos rfl] at next
    obtain ⟨turn, left, separated, leaves, leftNoNul, same, value, cur⟩ := @separateValue_eq (front ++ (name ++ [nul])) more rest
      ⟨(front ++ (name ++ [nul])) ++ (more ++ nul :: rest), (front ++ (name ++ [nul])).length, front.length, none⟩ moreNoNul
      rfl rfl rfl
    obtain ⟨final, skipped, after, buf, finalCur, val⟩ := skipLineEnds_eq left leaves
    have values : final.value = some (more.takeWhile (!isLineEnd ·)) := by
      rw [Turn.value, val, buf]
      exact value
    refine ⟨final, by rw [if_pos rfl, separated]; exact skipped, after.separates nameNoNul ?_ (finalCur.trans cur) values ?_⟩
    · exact fun member => leftNoNul ((List.dropWhile_suffix _).mem member)
    · rw [next, same]
  | false =>
    rw [assign, if_neg (by decide)] at next
    obtain ⟨final, skipped, after, buf, finalCur, val⟩ := @skipLineEnds_eq (front ++ (name ++ [nul])) rest
      ⟨(front ++ (name ++ [nul])) ++ (more ++ nul :: rest), (front ++ (name ++ [nul])).length, front.length, none⟩ more.length
      more ⟨[], by simp, by simp, by simp⟩
    have values : final.value = some [] := by rw [Turn.value, val]
    refine ⟨final, by rw [if_neg (by decide)]; exact skipped, after.separates nameNoNul ?_ finalCur values next⟩
    exact fun member => moreNoNul ((List.dropWhile_suffix _).mem member)

/-- One turn separates the next line of the text, and goes on behind it. -/
private theorem separateLine_eq (noNul : nul ∉ text) (some' : text ≠ []) :
    ∃ turn, separateLine (front ++ (text ++ nul :: rest)) front.length = some turn ∧ Separates turn front text rest := by
  obtain ⟨name, tail, rfl, takes, drops, ends⟩ := split_text isSeparator text
  by_cases empty : name = []
  · subst empty
    obtain ⟨char, more, rfl, separator⟩ := ends.resolve_left some'
    exact separateLine_of_separator separator noNul
  · rcases ends with rfl | ⟨sep, more, rfl, _⟩
    · rw [List.append_nil] at takes noNul ⊢
      exact separateLine_of_end empty takes noNul
    · exact separateLine_of_name empty takes drops noNul

end Lines

/-- The loop stays in the buffer, ends, and handles the text as `decodeLines` does. -/
private theorem decodeInPlace_eq {fuel count : ℕ} {front text rest : Text} (noNul : nul ∉ text)
    (enough : text.length < fuel)
    (lines : text.length ≤ count) :
    ∃ used, used.length = text.length ∧ decodeInPlace fuel (front ++ (text ++ nul :: rest)) front.length =
      some (front ++ (used ++ nul :: rest), decodeLines count text) := by
  induction fuel generalizing front text count with
  | zero => exact absurd enough (Nat.not_lt_zero _)
  | succ fuel ih =>
    have read := @getElem?_behind front text rest []
    rw [List.nil_append, List.length_nil, Nat.add_zero] at read
    rw [decodeInPlace, read, Option.bind_eq_bind, Option.bind_some]
    by_cases empty : text = []
    · subst empty
      refine ⟨[], rfl, ?_⟩
      simp only [List.nil_append, List.head_cons, ↓reduceIte]
      cases count <;> rfl
    · obtain ⟨first, more, rfl⟩ := List.exists_cons_of_ne_nil empty
      have notNul : first ≠ nul := fun same => noNul (by simp [same])
      obtain ⟨turn, separated, line, ⟨used, buf, payload, total⟩, shorter, leftNoNul⟩ :=
        @separateLine_eq front (first :: more) rest noNul empty
      obtain ⟨count, rfl⟩ : ∃ less, count = less + 1 := ⟨count - 1, by rw [List.length_cons] at lines; omega⟩
      obtain ⟨later, length, looped⟩ := @ih count (front ++ used) (nextLine (first :: more)).rest leftNoNul (by omega) (by omega)
      refine ⟨used ++ later, by rw [List.length_append]; omega, ?_⟩
      have head : (first :: more ++ [nul]).head (by simp) = first := rfl
      simp only [head, notNul, ↓reduceIte, Option.bind_eq_bind, Option.bind_some, separated, line, buf, payload, looped]
      simp [decodeLines, Line.command]

/-- The lines of a payload. -/
def lines (payload : Text) : List Text := payload.splitOnP isLineEnd

/-- The name of a line: what is in front of the first separator. -/
def lineName (line : Text) : Text := line.takeWhile (!isAssign ·)

/-- A line is a command. -/
def isCmdLine (line : Text) : Bool := stricmp (lineName line) "cmd".toList = 0

/-- What a line appends: its delay, or 1000 ms, and the rest of the line. -/
def lineCommands (line : Text) : List Command :=
  if isCmdLine line then
    let (delay, cmd) := parseNextLong (line.dropWhile (!isAssign ·)).tail 1000
    [.cmd (cmd.dropWhile fun char => char == ' ' || char == '\t') delay]
  else []

/-- The calls of `sh_cmd_append` among the commands. -/
def appended (commands : List Command) : List Command :=
  commands.filter fun command => match command with
    | .cmd _ _ => true
    | .fw _ => false

/-- A line begins with a separator. -/
def beginsWithSeparator (line : Text) : Bool := line.head?.any isAssign

/-- The lines that are not looked at: all of them behind an empty first line, else those from the first one on that begins
with a separator. -/
def swallowed (payload : Text) : List Text :=
  if payload.head?.any isLineEnd then lines payload else (lines payload).dropWhile (!beginsWithSeparator ·)

section Lines

variable {text : Text}

/-- What a name and a value append is what the line with them appends. -/
private theorem appended_command {line name value rest : Text} (names : lineName line = name)
    (values : (line.dropWhile (!isAssign ·)).tail = value) : appended (Line.command { name, value, rest }) = lineCommands line := by
  unfold Line.command lineCommands isCmdLine
  rw [names, values]
  simp only
  by_cases cmd : stricmp name "cmd".toList = 0
  · rw [if_pos cmd, if_pos (decide_eq_true cmd)]
    rfl
  · have notCmd : ¬ decide (stricmp name "cmd".toList = 0) = true := fun same => cmd (of_decide_eq_true same)
    rw [if_neg cmd, if_neg notCmd]
    split <;> rfl

private theorem isSeparator_eq_false {char : Char} (other : isSeparator char = false) :
    isAssign char = false ∧ isLineEnd char = false := Bool.or_eq_false_iff.mp other

private theorem isLineEnd_of_assign {char : Char} (assign : isAssign char = true) : isLineEnd char = false := by
  simp only [isAssign, Bool.or_eq_true, beq_iff_eq] at assign
  rcases assign with (rfl | rfl) | rfl <;> decide

/-- The next line as the loop has it, and as it is in the payload. -/
private theorem nextLine_command (some' : text ≠ []) (named : text.head?.any isSeparator = false) :
    appended (nextLine text).command = lineCommands (text.takeWhile (!isLineEnd ·)) ∧
      (nextLine text).rest = (text.dropWhile (!isLineEnd ·)).dropWhile isLineEnd := by
  obtain ⟨name, tail, rfl, takes, drops, ends⟩ := split_text isSeparator text
  have plain : ∀ char ∈ name, isAssign char = false ∧ isLineEnd char = false := by
    intro char member
    rw [← takes] at member
    exact isSeparator_eq_false (by simpa using List.mem_takeWhile_imp member)
  have noAssign : ∀ char ∈ name, (!isAssign char) = true := fun char member => by simp [plain char member]
  have noEnd : ∀ char ∈ name, (!isLineEnd char) = true := fun char member => by simp [plain char member]
  have nonempty : name ≠ [] := by
    rintro rfl
    obtain ⟨char, more, rfl, separator⟩ := ends.resolve_left some'
    simp [separator] at named
  rcases ends with rfl | ⟨sep, more, rfl, separator⟩
  · rw [List.append_nil] at takes drops ⊢
    rw [nextLine_of_end nonempty takes drops, List.takeWhile_eq_self_iff.mpr noEnd, List.dropWhile_eq_nil_iff.mpr noEnd]
    refine ⟨appended_command (List.takeWhile_eq_self_iff.mpr noAssign) ?_, rfl⟩
    rw [List.dropWhile_eq_nil_iff.mpr noAssign]
    rfl
  · rw [nextLine_of_name nonempty takes drops, List.takeWhile_append_of_pos noEnd, List.dropWhile_append_of_pos noEnd]
    cases assign : isAssign sep with
    | true =>
      have goesOn : (!isLineEnd sep) = true := by rw [isLineEnd_of_assign assign]; rfl
      rw [if_pos rfl, @List.takeWhile_cons_of_pos _ (!isLineEnd ·) _ _ goesOn,
        @List.dropWhile_cons_of_pos _ (!isLineEnd ·) _ _ goesOn]
      refine ⟨appended_command ?_ ?_, rfl⟩
      · rw [lineName, List.takeWhile_append_of_pos noAssign, List.takeWhile_cons_of_neg (by simp [assign]), List.append_nil]
      · rw [List.dropWhile_append_of_pos noAssign, List.dropWhile_cons_of_neg (by simp [assign])]
        rfl
    | false =>
      have lineEnd : isLineEnd sep = true := by simpa [isSeparator, assign] using separator
      rw [if_neg (by decide), List.takeWhile_cons_of_neg (by simp [lineEnd]), List.dropWhile_cons_of_neg (by simp [lineEnd]),
        List.append_nil, List.dropWhile_cons_of_pos lineEnd]
      refine ⟨appended_command (List.takeWhile_eq_self_iff.mpr noAssign) ?_, rfl⟩
      rw [List.dropWhile_eq_nil_iff.mpr noAssign]
      rfl

/-- The lines of a text are its first one and those behind it. -/
private theorem lines_eq : lines text = text.takeWhile (!isLineEnd ·) :: (match text.dropWhile (!isLineEnd ·) with
    | [] => []
    | _ :: more => lines more) := by
  obtain ⟨line, tail, rfl, takes, drops, ends⟩ := split_text isLineEnd text
  have noEnd : ∀ char ∈ line, isLineEnd char = false := by
    intro char member
    rw [← takes] at member
    simpa using List.mem_takeWhile_imp member
  rw [takes, drops]
  rcases ends with rfl | ⟨char, more, rfl, lineEnd⟩
  · rw [lines, List.append_nil, List.splitOnP_eq_singleton noEnd]
  · rw [lines, List.splitOnP_append_cons_of_forall_mem noEnd char lineEnd]
    rfl

/-- The lines that are looked at. -/
def looked (lines : List Text) : List Text := lines.takeWhile (!beginsWithSeparator ·)

/-- Empty lines in front of others append nothing. -/
private theorem looked_dropWhile : (looked (lines (text.dropWhile isLineEnd))).flatMap lineCommands =
    (looked (lines text)).flatMap lineCommands := by
  induction text with
  | nil => rfl
  | cons char text ih =>
    cases lineEnd : isLineEnd char with
    | true =>
      rw [List.dropWhile_cons_of_pos lineEnd, ih]
      conv_rhs => rw [lines, List.splitOnP_cons_eq_if_modifyHead, if_pos lineEnd]
      rfl
    | false => rw [List.dropWhile_cons_of_neg (by simp [lineEnd])]

private theorem head?_dropWhile (ends : Char → Bool) (text : Text) : (text.dropWhile ends).head?.any ends = false := by
  have first := List.head?_dropWhile_not ends text
  cases head : (text.dropWhile ends).head? with
  | none => rfl
  | some char =>
    rw [head] at first
    exact first

/-- A line that does not begin with a separator is looked at, and so are those behind it. -/
private theorem looked_cons (named : beginsWithSeparator (text.takeWhile (!isLineEnd ·)) = false) :
    lineCommands (text.takeWhile (!isLineEnd ·)) ++ (looked (lines (text.dropWhile (!isLineEnd ·)))).flatMap lineCommands =
      (looked (lines text)).flatMap lineCommands := by
  obtain ⟨line, tail, rfl, takes, drops, ends⟩ := split_text isLineEnd text
  have first : ∀ more : List Text, looked ((line ++ tail).takeWhile (!isLineEnd ·) :: more) =
      (line ++ tail).takeWhile (!isLineEnd ·) :: looked more :=
    fun more => List.takeWhile_cons_of_pos (by simp [named])
  rw [@lines_eq (line ++ tail), first, List.flatMap_cons]
  refine congrArg (lineCommands _ ++ ·) ?_
  rw [drops]
  rcases ends with rfl | ⟨char, more, rfl, lineEnd⟩
  · rfl
  · rw [lines, List.splitOnP_cons_eq_if_modifyHead, if_pos lineEnd]
    rfl

/-- A rest of the payload that begins with a separator is no command. -/
private theorem command_of_separator {char : Char} {value rest : Text} (separator : isSeparator char = true) :
    Line.command { name := char :: text, value, rest } = [] := by
  have other : char.toLower ≠ 'c' ∧ char.toLower ≠ 'f' := by
    simp only [isSeparator, isAssign, isLineEnd, Bool.or_eq_true, beq_iff_eq] at separator
    rcases separator with ((rfl | rfl) | rfl) | (rfl | rfl) <;> decide
  have notCmd : stricmp (char :: text) "cmd".toList ≠ 0 := fun same => other.1 (ShCmd.stricmp_cons same).1
  have notFw : stricmp (char :: text) "fw".toList ≠ 0 := fun same => other.2 (ShCmd.stricmp_cons same).1
  rw [Line.command, if_neg notCmd, if_neg notFw]

/-- The loop handles the lines up to the first one that begins with a separator, unless the payload begins with a line
end. -/
private theorem appended_decodeLines {fuel : ℕ} (enough : text.length ≤ fuel) :
    appended (decodeLines fuel text) =
      if text.head?.any isLineEnd then [] else (looked (lines text)).flatMap lineCommands := by
  induction fuel generalizing text with
  | zero =>
    obtain rfl := List.length_eq_zero_iff.mp (Nat.le_zero.mp enough)
    rfl
  | succ fuel ih =>
    cases text with
    | nil => rfl
    | cons first more =>
      rw [decodeLines]
      simp only [List.isEmpty_cons, Bool.false_eq_true, ↓reduceIte]
      cases separator : isSeparator first with
      | true =>
        rw [nextLine_of_separator separator, command_of_separator separator, List.nil_append]
        have finished : decodeLines fuel [] = [] := by cases fuel <;> rfl
        rw [finished, List.head?_cons, Option.any_some]
        cases lineEnd : isLineEnd first with
        | true => rfl
        | false =>
          have assign : isAssign first = true := by simpa [isSeparator, lineEnd] using separator
          rw [if_neg (by decide), lines_eq, List.takeWhile_cons_of_pos (by simp [lineEnd]), looked,
            List.takeWhile_cons_of_neg (by simp [beginsWithSeparator, assign])]
          rfl
      | false =>
        obtain ⟨command, rest⟩ := @nextLine_command (first :: more) (List.cons_ne_nil _ _) (by simpa using separator)
        obtain ⟨notAssign, notEnd⟩ := isSeparator_eq_false separator
        have shorter : (nextLine (first :: more)).rest.length ≤ fuel := by
          rw [rest]
          have behind := (List.dropWhile_suffix isLineEnd (l := (first :: more).dropWhile (!isLineEnd ·))).length_le
          rw [@List.dropWhile_cons_of_pos _ (!isLineEnd ·) _ _ (by simp [notEnd])] at behind ⊢
          have left := (List.dropWhile_suffix (!isLineEnd ·) (l := more)).length_le
          rw [List.length_cons] at enough
          omega
        have later := ih shorter
        have open' : (nextLine (first :: more)).rest.head?.any isLineEnd = false := by
          rw [rest]
          exact head?_dropWhile _ _
        rw [open', if_neg (by decide), rest, looked_dropWhile] at later
        rw [appended, List.filter_append, ← appended, ← appended, command, rest, later, List.head?_cons, Option.any_some,
          if_neg (by simp [notEnd])]
        exact looked_cons (by simp [beginsWithSeparator, notAssign, notEnd])

/-- A line that is no command appends nothing, and one that is appends something. -/
private theorem lineCommands_eq_nil {line : Text} : lineCommands line = [] ↔ isCmdLine line = false := by
  unfold lineCommands
  cases isCmdLine line <;> simp

end Lines

/-- The payload is decoded inside of its buffer, which ends with its NUL, and the calls of `sh_cmd_append` are those of
its lines, each handled on its own. -/
def HandlesLines (payload : Text) : Prop :=
  ∃ used commands, used.length = payload.length ∧
    decodeInPlace (payload.length + 1) (payload ++ [nul]) 0 = some (used ++ [nul], commands) ∧
    appended commands = (lines payload).flatMap lineCommands

/-- For every payload: each line is handled on its own exactly if none of the lines that are not looked at is a
command. -/
theorem handlesLines_iff (payload : Text) (noNul : nul ∉ payload) :
    HandlesLines payload ↔ ∀ line ∈ swallowed payload, isCmdLine line = false := by
  obtain ⟨used, length, run⟩ := @decodeInPlace_eq (payload.length + 1) payload.length [] payload [] noNul
    (Nat.lt_succ_self _) (Nat.le_refl _)
  rw [List.nil_append, List.nil_append, List.length_nil] at run
  have decoded : HandlesLines payload ↔
      appended (decodeLines payload.length payload) = (lines payload).flatMap lineCommands := by
    constructor
    · rintro ⟨_, commands, _, run', all⟩
      rw [run] at run'
      rwa [(Prod.mk.inj (Option.some_inj.mp run')).2]
    · intro all
      exact ⟨used, _, length, run, all⟩
  have nothing : (∀ line ∈ swallowed payload, isCmdLine line = false) ↔ (swallowed payload).flatMap lineCommands = [] := by
    rw [List.flatMap_eq_nil_iff]
    exact forall₂_congr fun line _ => lineCommands_eq_nil.symm
  rw [decoded, nothing, appended_decodeLines (Nat.le_refl _), swallowed]
  split
  · exact eq_comm
  · have parts : looked (lines payload) ++ (lines payload).dropWhile (!beginsWithSeparator ·) = lines payload :=
      List.takeWhile_append_dropWhile
    conv_lhs => rhs; rw [← parts, List.flatMap_append]
    rw [eq_comm, List.append_right_eq_self]

/-- Two commands and another line between them. -/
theorem handlesLines_two : HandlesLines "cmd 500 dev\r\nx: y\ncmd=scan".toList := by
  have none : swallowed "cmd 500 dev\r\nx: y\ncmd=scan".toList = [] := by decide +kernel
  refine (handlesLines_iff _ (by decide)).mpr fun line member => ?_
  rw [none] at member
  exact absurd member List.not_mem_nil

/-- A command behind a line that begins with a blank. -/
def blankLinePayload : Text := "x: y\n z\ncmd dev".toList

/-- The command is not appended: the second line is taken for the rest of the payload. -/
theorem command_swallowed :
    (decodeInPlace (blankLinePayload.length + 1) (blankLinePayload ++ [nul]) 0).map Prod.snd = some [] ∧
      (lines blankLinePayload).flatMap lineCommands = [.cmd "dev".toList 1000] ∧ ¬ HandlesLines blankLinePayload := by
  have decoded : (decodeInPlace (blankLinePayload.length + 1) (blankLinePayload ++ [nul]) 0).map Prod.snd = some [] := by
    decide +kernel
  have all : (lines blankLinePayload).flatMap lineCommands = [.cmd "dev".toList 1000] := by decide +kernel
  refine ⟨decoded, all, ?_⟩
  rintro ⟨used, commands, _, run, each⟩
  rw [run, Option.map_some, Option.some_inj] at decoded
  rw [show commands = [] from decoded, all] at each
  exact absurd each (List.cons_ne_nil _ _).symm

end CoapsClient.DtlsClient
