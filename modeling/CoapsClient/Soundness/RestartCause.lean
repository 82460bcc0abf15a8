import CoapsClient.Machine.Lines
import CoapsClient.Model.Coap.Report

/-! # The cause of a restart

The names of a cause are written one behind the other, and the last two characters are taken back. When they do not fit,
the cause is written as a number instead, which is only noticed behind the last name.
-/

namespace CoapsClient.CoapAppl

open Machine
open ShCmd (Text)

/-- The names of the bits that are set, with a comma and a blank behind each. -/
def causeNames (cause : BitVec 32) : List Text :=
  (causes.filter fun entry => cause.getLsbD entry.1).map fun entry => entry.2 ++ ", ".toList

/-- The bits without a name. -/
def unnamed (cause : BitVec 32) : BitVec 32 := cause &&& 0xffff8c00#32

section Names

variable {writer : Writer} {cause : BitVec 32} {entries : List (ℕ × Text)}

/-- A cause without the bits of some entries. -/
def without (entries : List (ℕ × Text)) (cause : BitVec 32) : BitVec 32 :=
  entries.foldl (fun cause entry => cause &&& ~~~BitVec.twoPow 32 entry.1) cause

private theorem clear_getLsbD (bit place : ℕ) :
    (cause &&& ~~~BitVec.twoPow 32 bit).getLsbD place = (cause.getLsbD place && !decide (bit = place)) := by
  by_cases inside : place < 32
  · by_cases same : bit = place
    · simp [same, inside]
    · simp [same, inside, Ne.symm same]
  · rw [BitVec.getLsbD_of_ge _ _ (Nat.not_lt.mp inside), BitVec.getLsbD_of_ge _ _ (Nat.not_lt.mp inside), Bool.false_and]

private theorem clear_of_not {bit : ℕ} (unset : cause.getLsbD bit = false) : cause &&& ~~~BitVec.twoPow 32 bit = cause := by
  refine BitVec.eq_of_getLsbD_eq fun place _ => ?_
  rw [clear_getLsbD]
  by_cases same : bit = place
  · rw [← same, unset, Bool.false_and]
  · simp [same]

private theorem append_eq (entry : ℕ × Text) : applCauseDescriptionAppend (cause, writer) entry =
    ((if cause.getLsbD entry.1 then writer.print (entry.2 ++ ", ".toList) else some writer).map fun writer =>
      (cause &&& ~~~BitVec.twoPow 32 entry.1, writer)) := by
  unfold applCauseDescriptionAppend
  cases set' : cause.getLsbD entry.1 with
  | true => simp only [set', ↓reduceIte]
  | false =>
    simp only [set', Bool.false_eq_true, ↓reduceIte]
    rw [clear_of_not set', Option.map_some]

/-- The entries that are set are printed, and their bits are cleared. -/
theorem foldlM_append (distinct : (entries.map Prod.fst).Nodup) :
    entries.foldlM applCauseDescriptionAppend (cause, writer) =
      (((entries.filter fun entry => cause.getLsbD entry.1).map fun entry => entry.2 ++ ", ".toList).foldlM
        Writer.print writer).map fun writer => (without entries cause, writer) := by
  induction entries generalizing cause writer with
  | nil => rfl
  | cons entry entries ih =>
    obtain ⟨fresh, distinct⟩ := List.nodup_cons.mp distinct
    -- the bits of the other entries stay
    have others : ∀ other ∈ entries, (cause &&& ~~~BitVec.twoPow 32 entry.1).getLsbD other.1 = cause.getLsbD other.1 := by
      intro other member
      have different : entry.1 ≠ other.1 := fun same => fresh (same ▸ List.mem_map_of_mem member)
      rw [clear_getLsbD, decide_eq_false different, Bool.not_false, Bool.and_true]
    have filtered := List.filter_congr fun other member => others other member
    rw [List.foldlM_cons, append_eq]
    cases set' : cause.getLsbD entry.1 with
    | true =>
      simp only [List.filter_cons, set', ↓reduceIte, List.map_cons, List.foldlM_cons]
      cases printed : writer.print (entry.2 ++ ", ".toList) with
      | none => rfl
      | some next =>
        rw [← filtered]
        exact ih distinct
    | false =>
      simp only [List.filter_cons, set', Bool.false_eq_true, ↓reduceIte]
      rw [← filtered]
      exact ih distinct

private theorem without_causes : without causes cause = unnamed cause := by
  have bits : ∀ (entries : List (ℕ × Text)) (cause : BitVec 32) (place : ℕ),
      (without entries cause).getLsbD place = (cause.getLsbD place && !(entries.any fun entry => entry.1 = place)) := by
    intro entries
    induction entries with
    | nil => simp [without]
    | cons entry entries ih =>
      intro cause place
      rw [without, List.foldl_cons, ← without, ih, clear_getLsbD, List.any_cons, Bool.not_or, Bool.and_assoc]
  refine BitVec.eq_of_getLsbD_eq fun place bound => ?_
  have mask : ∀ place < 32, (0xffff8c00#32).getLsbD place = !(causes.any fun entry => entry.1 = place) := by decide
  rw [bits, unnamed, BitVec.getLsbD_and, mask place bound]

private theorem unnamed_of_nil (none' : causeNames cause = []) : unnamed cause = cause := by
  have unset : ∀ entry ∈ causes, cause.getLsbD entry.1 = false := by
    intro entry member
    have empty := List.filter_eq_nil_iff.mp (List.map_eq_nil_iff.mp none') entry member
    exact Bool.eq_false_iff.mpr empty
  have same : ∀ entries : List (ℕ × Text), (∀ entry ∈ entries, cause.getLsbD entry.1 = false) →
      without entries cause = cause := by
    intro entries
    induction entries with
    | nil => exact fun _ => rfl
    | cons entry entries ih =>
      intro unset
      rw [without, List.foldl_cons, clear_of_not (unset entry (List.mem_cons_self ..))]
      exact ih fun other member => unset other (List.mem_cons_of_mem entry member)
  rw [← without_causes, same causes unset]

/-- The names of a cause. -/
private theorem names_eq : causes.foldlM applCauseDescriptionAppend (cause, writer) =
    ((causeNames cause).foldlM Writer.print writer).map fun writer => (unnamed cause, writer) := by
  rw [foldlM_append (by decide), without_causes]
  rfl

end Names

/-- The description of names in a room: with the number if bits have no name, or the number alone. -/
def describedText (restart : Restart) (names : Text) (room : ℕ) : Text :=
  if causesOverflow room names.length (unnamed restart.cause) then causeNumber restart
  else if unnamed restart.cause ≠ 0 then names ++ causeNumber restart
  else if 2 < names.length then names.take (names.length - 2)
  else names

/-- What is written behind the names fits: the number, or the zero in the place of the last two characters. -/
def EndFits (restart : Restart) (names : Text) (room : ℕ) : Prop :=
  if causesOverflow room names.length (unnamed restart.cause) then (causeNumber restart).length ≤ room
  else if unnamed restart.cause ≠ 0 then (names ++ causeNumber restart).length ≤ room
  else names.length < room + 2

/-- The names but the last fit, and so does what is behind the last one. -/
def CauseFits (restart : Restart) (room : ℕ) : Prop :=
  (causeNames restart.cause).dropLast.flatten.length ≤ room ∧ EndFits restart (causeNames restart.cause).flatten room

def errorText (restart : Restart) : Text := decimal restart.error ++ " (".toList ++ restart.strerror ++ [')']

/-- The description of a restart, if its cause was read and there is some room. -/
def restartText (restart : Restart) (room : ℕ) : Text :=
  if restart.read ∧ 8 < room then
    if restart.error ≠ 0 then errorText restart
    else if restart.cause ≠ 0 then describedText restart (causeNames restart.cause).flatten room
    else "none".toList
  else []

def RestartFits (restart : Restart) (room : ℕ) : Prop :=
  restart.read ∧ 8 < room →
    if restart.error ≠ 0 then (errorText restart).length ≤ room else restart.cause ≠ 0 → CauseFits restart room

section Descriptions

variable {restart : Restart} {names : Text} {room : ℕ} {writer : Writer}

/-- A print at the place behind the names, whether the names fit or not. -/
private theorem print_leads {front text : Text} :
    Leads room (fun writer => writer.print text) (.of 0 front) (.of 0 (front ++ text))
    ((front ++ text).length ≤ room) :=
  Grows.print.moves.toLeads

/-- The zero in the place of the last two characters. -/
private theorem back_leads (long : 2 < names.length) (at' : writer.At room (.of 0 names)) :
    (names.length < room + 2 → ∃ next, (writer.move (writer.index - 2)).store textEnd = some next ∧
      next.At room (.of 0 (names.take (names.length - 2)))) ∧
    (¬ names.length < room + 2 → (writer.move (writer.index - 2)).store textEnd = none) := by
  have index : writer.index - 2 = ((names.length - 2 : ℕ) : ℤ) := by
    rw [at'.index, Place.of]
    dsimp only
    omega
  have positive : ¬ ((names.length - 2 : ℕ) : ℤ) < 0 := Int.not_lt.mpr (Int.natCast_nonneg _)
  rw [Writer.store, Writer.move, index]
  dsimp only
  rw [if_neg positive, Int.toNat_natCast]
  constructor
  · intro fits
    rw [put_eq (by rw [at'.length]; omega), Option.map_some]
    refine ⟨_, rfl, by rw [List.length_set, at'.length], at'.size, at'.start, ?_⟩
    rw [Place.of, List.length_take]
    dsimp only
    omega
  · intro not'
    rw [put_eq_none (by rw [at'.length]; omega), Option.map_none]

/-- The end of a description. -/
private theorem causesEnd_spec (some' : 8 < room) (at' : writer.At room (.of 0 names)) :
    (EndFits restart names room → ∃ next, printCausesEnd restart (unnamed restart.cause) writer = some next ∧
      next.At room (.of 0 (describedText restart names room))) ∧
    (¬ EndFits restart names room → writer.Outside (printCausesEnd restart (unnamed restart.cause) writer)) := by
  have start' : (writer.move 0).At room (.of 0 []) := ⟨at'.length, at'.size, at'.start, rfl⟩
  have index : writer.index = names.length := at'.index
  unfold printCausesEnd EndFits describedText
  rw [at'.size, index]
  by_cases overflow : causesOverflow room names.length (unnamed restart.cause)
  · simp only [overflow, ↓reduceIte]
    have leads := @print_leads room [] (causeNumber restart)
    exact ⟨leads.inside _ start' (Nat.zero_le _), leads.outside _ start' (Nat.zero_le _)⟩
  by_cases unnamed' : unnamed restart.cause ≠ 0
  · simp only [overflow, ↓reduceIte, unnamed', ne_eq, not_false_eq_true]
    by_cases inside : names.length ≤ room
    · have leads := @print_leads room names (causeNumber restart)
      exact ⟨leads.inside _ at' inside, leads.outside _ at' inside⟩
    · rw [at'.print_none (Nat.not_le.mp inside), List.length_append]
      exact ⟨fun fits => absurd fits (by omega), fun _ => Writer.outside_none⟩
  · simp only [overflow, ↓reduceIte, unnamed']
    by_cases long : 2 < names.length
    · have long' : (2 : ℤ) < (names.length : ℤ) := by omega
      simp only [long, long', ↓reduceIte]
      obtain ⟨inside, outside⟩ := back_leads long at'
      rw [index] at inside outside
      exact ⟨inside, fun not' => by rw [outside not']; exact Writer.outside_none⟩
    · have long' : ¬ (2 : ℤ) < (names.length : ℤ) := by omega
      simp only [long, long', ↓reduceIte]
      exact ⟨fun _ => ⟨writer, rfl, at'⟩, fun not' => absurd (by omega) not'⟩

private theorem describedText_le (some' : 8 < room) (fits : EndFits restart names room) :
    (describedText restart names room).length ≤ room := by
  unfold EndFits at fits
  unfold describedText
  by_cases overflow : causesOverflow room names.length (unnamed restart.cause)
  · simp only [overflow, ↓reduceIte] at fits ⊢
    exact fits
  by_cases unnamed' : unnamed restart.cause ≠ 0
  · simp only [overflow, ↓reduceIte, unnamed', ne_eq, not_false_eq_true] at fits ⊢
    exact fits
  · simp only [overflow, ↓reduceIte, unnamed'] at fits ⊢
    split
    · rw [List.length_take]
      omega
    · omega

/-- The names and what is behind them. -/
private theorem cause_leads (some' : 8 < room) (cause : restart.cause ≠ 0) :
    Leads room (applCauseDescription restart) (.of 0 [])
      (.of 0 (describedText restart (causeNames restart.cause).flatten room)) (CauseFits restart room) := by
  have eq : ∀ writer, applCauseDescription restart writer = ((causeNames restart.cause).foldlM Writer.print writer).bind
      (printCausesEnd restart (unnamed restart.cause)) := by
    intro writer
    rw [applCauseDescription, if_pos cause, names_eq]
    cases (causeNames restart.cause).foldlM Writer.print writer <;> rfl
  refine ⟨?_, ?_, fun _ fits => describedText_le some' fits.2⟩
  · intro writer at' _ fits
    obtain ⟨middle, run, at₁⟩ := at'.printAll ((Nat.zero_add _).trans_le fits.1)
    rw [List.length_nil, Nat.zero_add] at at₁
    rw [eq, run, Option.bind_some]
    exact (causesEnd_spec some' at₁).1 fits.2
  · intro writer at' _ not'
    by_cases front : (causeNames restart.cause).dropLast.flatten.length ≤ room
    · obtain ⟨middle, run, at₁⟩ := at'.printAll ((Nat.zero_add _).trans_le front)
      rw [List.length_nil, Nat.zero_add] at at₁
      have outside := (causesEnd_spec some' at₁).2 fun fits => not' ⟨front, fits⟩
      rw [eq, run, Option.bind_some]
      intro last run'
      obtain ⟨lost, length, size⟩ := outside last run'
      exact ⟨lost, length.trans (at₁.length.trans at'.length.symm), size.trans (at₁.size.trans at'.size.symm)⟩
    · rw [eq, at'.printAll_none (Nat.zero_le _) (by rw [List.length_nil, Nat.zero_add]; exact Nat.not_le.mp front)]
      exact Writer.outside_none

private theorem printRestartCause_leads (restart : Restart) (room : ℕ) :
    Leads room (printRestartCause restart) (.of 0 []) (.of 0 (restartText restart room)) (RestartFits restart room) := by
  have size : ∀ writer : Writer, writer.At room (.of 0 []) → printRestartCause restart writer =
      if restart.read ∧ 8 < room then
        if restart.error ≠ 0 then writer.print (errorText restart) else applCauseDescription restart writer
      else some writer := by
    intro writer at'
    rw [printRestartCause, at'.size]
    rfl
  unfold restartText RestartFits
  by_cases shown : restart.read ∧ 8 < room
  · by_cases error : restart.error ≠ 0
    · have leads := @print_leads room [] (errorText restart)
      simp only [shown, error, ne_eq, not_false_eq_true, ↓reduceIte, forall_const, and_self] at size ⊢
      exact ⟨fun writer at' => by rw [size writer at']; exact leads.inside writer at',
        fun writer at' => by rw [size writer at']; exact leads.outside writer at', leads.last⟩
    by_cases cause : restart.cause ≠ 0
    · have leads := cause_leads shown.2 cause
      simp only [shown, error, cause, ne_eq, not_false_eq_true, ↓reduceIte, forall_const, and_self] at size ⊢
      exact ⟨fun writer at' => by rw [size writer at']; exact leads.inside writer at',
        fun writer at' => by rw [size writer at']; exact leads.outside writer at', leads.last⟩
    · have leads := @print_leads room [] "none".toList
      have short : ([] ++ "none".toList).length ≤ room := by
        have four : ([] ++ "none".toList).length = 4 := rfl
        have some' := shown.2
        omega
      have none' : ∀ writer, applCauseDescription restart writer = writer.print "none".toList := fun writer => if_neg cause
      simp only [shown, error, cause, ↓reduceIte, forall_const, and_self, IsEmpty.forall_iff] at size ⊢
      refine ⟨?_, fun _ _ _ not' => absurd trivial not', fun _ _ => short⟩
      intro writer at' room' _
      rw [size writer at', none']
      exact leads.inside writer at' room' short
  · simp only [shown, ↓reduceIte] at size ⊢
    exact ⟨fun writer at' _ _ => ⟨writer, size writer at', at'⟩, fun _ _ _ not' => absurd nofun not', fun room' _ => room'⟩

private theorem print_empty {text : Text} (empty : writer.cells = []) (start : writer.index = 0) (some' : 0 < writer.size) :
    writer.print text = none := by
  rw [Writer.print, if_neg, if_neg, putAll_outside, Option.map_none]
  · rw [empty]
    exact Nat.zero_le _
  · simp
  · rw [start]
    exact Int.lt_irrefl _
  · rw [start]
    omega

/-- Behind the end of the buffer the description is outside, if the cause was read. -/
private theorem printRestartCause_none (read : restart.read = true) (some' : 8 < writer.size) (empty : writer.cells = [])
    (start : writer.index = 0) : printRestartCause restart writer = none := by
  have positive : 0 < writer.size := Nat.lt_trans (by decide) some'
  rw [printRestartCause, if_pos ⟨read, some'⟩]
  split
  · exact print_empty empty start positive
  rw [applCauseDescription]
  split
  · rename_i cause
    rw [names_eq]
    cases names : causeNames restart.cause with
    | cons name names =>
      rw [List.foldlM_cons, print_empty empty start positive]
      rfl
    | nil =>
      change printCausesEnd restart (unnamed restart.cause) writer = none
      rw [unnamed_of_nil names, printCausesEnd]
      split
      · exact @print_empty (writer.move 0) _ empty rfl positive
      · exact print_empty empty start positive
  · exact print_empty empty start positive

/-- The line of a restart in a room, which is taken back without a description. -/
def restartLine (restart : Restart) (room : ℕ) : Text :=
  if restartText restart (room - "Restart: ".toList.length) = [] then []
  else "Restart: ".toList ++ restartText restart (room - "Restart: ".toList.length) ++ ['\n']

/-- The line fits, if the cause was read: then its front alone needs room. -/
def RestartLineFits (restart : Restart) (room : ℕ) : Prop :=
  restart.read → "Restart: ".toList.length ≤ room ∧ RestartFits restart (room - "Restart: ".toList.length) ∧
    (restartLine restart room).length ≤ room

private theorem restartText_of_not_read (notRead : ¬ restart.read = true) : restartText restart room = [] :=
  if_neg fun shown => notRead shown.1

/-- The description behind the front of the line. -/
def describe (restart : Restart) (writer : Writer) : Option Writer :=
  (writer.call (applResetCauseDescription restart)).bind fun (writer, err) =>
    if 0 < err then endLine (writer.move (writer.index + err)) else some (writer.move writer.start)

/-- A cause that was not read takes the front of the line back, wherever the index is. -/
private theorem describe_of_not_read {start index : ℕ} (notRead : ¬ restart.read = true)
    (at' : writer.At room ⟨start, index⟩) :
    ∃ next, describe restart writer = some next ∧ next.At room ⟨start, start⟩ := by
  have positive : ¬ writer.index < 0 := by
    rw [at'.index]
    exact Int.not_lt.mpr (Int.natCast_nonneg _)
  have same : ∀ inner : Writer, inner.index = 0 → applResetCauseDescription restart inner = some (inner, 0) := by
    intro inner zero
    have nothing : printRestartCause restart inner = some inner := if_neg fun shown => notRead shown.1
    rw [applResetCauseDescription, nothing, ← zero]
    rfl
  refine ⟨_, by rw [describe, Writer.call, if_neg positive, same _ rfl]; rfl, ?_⟩
  refine ⟨?_, at'.size, at'.start, at'.start⟩
  change (writer.cells.take _ ++ writer.cells.drop _).length = room
  rw [List.take_append_drop, at'.length]

private theorem restart_builds (restart : Restart) (room : ℕ) :
    Builds room (applResetCauseDescription restart) (restartText restart room).length (RestartFits restart room) :=
  (printRestartCause_leads restart room).builds

/-- A description in the buffer: its line ends, or the front of the line is taken back. -/
private theorem describe_of_read {start index : ℕ} (at' : writer.At room ⟨start, index⟩) (inside : index ≤ room) :
    (RestartFits restart (room - index) → restartText restart (room - index) = [] →
      ∃ next, describe restart writer = some next ∧ next.At room ⟨start, start⟩) ∧
    (RestartFits restart (room - index) → restartText restart (room - index) ≠ [] →
      index + (restartText restart (room - index)).length < room → ∃ next, describe restart writer = some next ∧
        next.At room ⟨index + (restartText restart (room - index)).length + 1,
          index + (restartText restart (room - index)).length + 1⟩) ∧
    (¬ (RestartFits restart (room - index) ∧ (restartText restart (room - index) ≠ [] →
      index + (restartText restart (room - index)).length < room)) → describe restart writer = none) := by
  have builds := restart_builds restart (room - index)
  obtain ⟨fits', long⟩ := builds.call at' inside
  generalize restartText restart (room - index) = text at builds fits' ⊢
  refine ⟨?_, ?_, ?_⟩
  · rintro fits rfl
    obtain ⟨called, run, at₁⟩ := fits' fits
    have start' := at₁.move start
    rw [← at₁.start] at start'
    refine ⟨called.move called.start, ?_, start'⟩
    rw [describe, run]
    rfl
  · intro fits some' room'
    have positive : (0 : ℤ) < text.length := Int.natCast_pos.mpr (List.length_pos_of_ne_nil some')
    obtain ⟨called, run, at₁⟩ := fits' fits
    obtain ⟨next, run', next'⟩ := (@Writer.At.ended _ _ '\n' _ _ (at₁.move (index + text.length))).1 room'
    refine ⟨next, ?_, next'⟩
    rw [describe, run, Option.bind_some]
    dsimp only
    rw [if_pos positive, at₁.index]
    exact run'
  · intro not'
    by_cases fits : RestartFits restart (room - index)
    · have some' : text ≠ [] := fun empty => not' ⟨fits, fun some' => absurd empty some'⟩
      have positive : (0 : ℤ) < text.length := Int.natCast_pos.mpr (List.length_pos_of_ne_nil some')
      obtain ⟨called, run, at₁⟩ := fits' fits
      rw [describe, run, Option.bind_some]
      dsimp only
      rw [if_pos positive, at₁.index]
      exact (at₁.move (index + text.length)).ended.2 fun room' => not' ⟨fits, fun _ => room'⟩
    · obtain none' | ⟨called, result, run, more, at₁⟩ := long fits
      · rw [describe, none', Option.bind_none]
      · rw [describe, run, Option.bind_some]
        dsimp only
        rw [if_pos (by omega), endLine, Writer.append_eq_none, Option.map_none]
        simp only [Writer.move, at₁.length, at₁.index]
        omega

/-- Behind the end of the buffer. -/
private theorem describe_outside {start index : ℕ} (read : restart.read = true) (at' : writer.At room ⟨start, index⟩)
    (outside : room < index) (near : index ≤ room + 9) : describe restart writer = none := by
  have positive : ¬ writer.index < 0 := by
    rw [at'.index]
    exact Int.not_lt.mpr (Int.natCast_nonneg _)
  have place : writer.index.toNat = index := by rw [at'.index, Int.toNat_natCast]
  have empty : writer.cells.drop index = [] := List.drop_eq_nil_of_le (by rw [at'.length]; exact Nat.le_of_lt outside)
  have large : 8 < writer.room := by
    rw [Writer.room, at'.index, at'.size]
    dsimp only
    rw [if_neg (by omega)]
    omega
  have none' := @printRestartCause_none restart { cells := writer.cells.drop index, size := writer.room } read large empty rfl
  rw [describe, Writer.call, if_neg positive, place, applResetCauseDescription, none']
  rfl

/-- The line of a restart. -/
theorem printRestart_lines (restart : Restart) (size : ℕ) (front : Text) :
    Lines size (fun writer => (writer.print "Restart: ".toList).bind (describe restart)) front
      (front ++ restartLine restart (size - front.length)) (RestartLineFits restart (size - front.length)) := by
  have label : "Restart: ".toList.length = 9 := rfl
  have left' : size - front.length - 9 = size - (front.length + 9) := Nat.sub_sub ..
  unfold RestartLineFits restartLine
  rw [label, left']
  by_cases read : restart.read = true
  · by_cases inside : front.length + 9 ≤ size
    · have described : ∀ middle : Writer, middle.At size ⟨front.length, front.length + 9⟩ → _ := fun middle at₁ =>
        @describe_of_read restart size middle _ _ at₁ inside
      generalize restartText restart (size - (front.length + 9)) = text at described ⊢
      refine ⟨?_, ?_, ?_⟩
      · intro writer at' room fits
        obtain ⟨enough, describes, short⟩ := fits read
        obtain ⟨middle, run, at₁⟩ := @Writer.At.print _ _ "Restart: ".toList _ _ at' room
        obtain ⟨taken, ended, -⟩ := described middle at₁
        rw [run, Option.bind_some]
        by_cases empty : text = []
        · rw [if_pos empty, List.append_nil]
          exact taken describes empty
        · rw [if_neg empty] at short ⊢
          simp only [List.length_append, label, List.length_singleton] at short
          obtain ⟨next, run', next'⟩ := ended describes empty (by omega)
          refine ⟨next, run', ?_⟩
          have same : (front ++ ("Restart: ".toList ++ text ++ ['\n'])).length = front.length + 9 + text.length + 1 := by
            simp only [List.length_append, label, List.length_singleton]
            omega
          rw [Place.of, same]
          exact next'
      · intro writer at' room not'
        obtain ⟨middle, run, at₁⟩ := @Writer.At.print _ _ "Restart: ".toList _ _ at' room
        rw [run, Option.bind_some]
        refine (described middle at₁).2.2 fun fits => not' fun _ => ⟨by omega, fits.1, ?_⟩
        by_cases empty : text = []
        · rw [if_pos empty]
          exact Nat.zero_le _
        · have room' := fits.2 empty
          rw [if_neg empty]
          simp only [List.length_append, label, List.length_singleton]
          omega
      · intro room fits
        obtain ⟨-, -, short⟩ := fits read
        rw [List.length_append]
        omega
    · refine ⟨fun _ _ room fits => ?_, ?_, fun room fits => ?_⟩
      · have enough := (fits read).1
        omega
      · intro writer at' room _
        obtain ⟨middle, run, at₁⟩ := @Writer.At.print _ _ "Restart: ".toList _ _ at' room
        rw [run, Option.bind_some]
        exact describe_outside read at₁ (Nat.not_le.mp inside) (by omega)
      · have enough := (fits read).1
        omega
  · rw [restartText_of_not_read read, if_pos rfl, List.append_nil]
    refine ⟨?_, fun _ _ _ not' => absurd (fun read' => absurd read' read) not', fun room _ => room⟩
    intro writer at' room _
    obtain ⟨middle, run, at₁⟩ := @Writer.At.print _ _ "Restart: ".toList _ _ at' room
    rw [run, Option.bind_some]
    exact describe_of_not_read read at₁

end Descriptions

end CoapsClient.CoapAppl
