import CoapsClient.Machine.Writer

/-! # What leaves a buffer

Where the index of a writer is, without what is written: a step moves it, exactly when what it writes fits in the
buffer. A step that does not fit writes outside of the buffer, or leaves the index behind its end, where the next store
is outside.
-/

namespace CoapsClient.Machine

/-- The start of a line and the index. -/
structure Place where
  start : ℕ
  index : ℕ
deriving DecidableEq, Repr

/-- The place behind a text. -/
def Place.of (start : ℕ) (text : List Char) : Place := ⟨start, text.length⟩

namespace Writer

variable (writer : Writer)

/-- A writer in a buffer of a size, at a place. -/
structure At (size : ℕ) (place : Place) : Prop where
  length : writer.cells.length = size
  size : writer.size = size
  start : writer.start = place.start
  index : writer.index = place.index

/-- A writer whose next store is outside of the cells. -/
structure Lost : Prop where
  behind : writer.cells.length ≤ writer.index
  open' : (writer.cells.length : ℤ) < writer.index ∨ writer.cells.length < writer.size

/-- A step that is not in the buffer has no result, or leaves the writer lost. -/
def Outside (result : Option Writer) : Prop :=
  ∀ next, result = some next → next.Lost ∧ next.cells.length = writer.cells.length ∧ next.size = writer.size

/-- `index += builder(buf + index, len - index)`. -/
def advance (builder : Writer → Option (Writer × ℤ)) : Option Writer := do
  let (writer, count) ← writer.call builder
  some (writer.move (writer.index + count))

end Writer

variable {size : ℕ} {step next : Writer → Option Writer} {a b c : Place} {writer : Writer}
variable {text more : List Char} {char : Char}

theorem Writer.Outside.refl (lost : writer.Lost) : writer.Outside (some writer) := by
  rintro _ ⟨⟩
  exact ⟨lost, rfl, rfl⟩

theorem Writer.outside_none : writer.Outside none := nofun

theorem Writer.Outside.bind {result : Option Writer} (first : writer.Outside result)
    (second : ∀ middle : Writer, middle.Lost → middle.Outside (next middle)) : writer.Outside (result.bind next) := by
  intro last run
  obtain ⟨middle, run₁, run₂⟩ := Option.bind_eq_some_iff.mp run
  obtain ⟨lost, length, size⟩ := first middle run₁
  obtain ⟨lost', length', size'⟩ := second middle lost last run₂
  exact ⟨lost', length'.trans length, size'.trans size⟩

section Stores

variable {start index : ℕ}

/-- A print into the buffer moves the index, also when there is no room for all of the text. -/
theorem Writer.At.print (at' : writer.At size ⟨start, index⟩) (inside : index ≤ size) :
    ∃ next, writer.print text = some next ∧ next.At size ⟨start, index + text.length⟩ := by
  have moved : ∀ cells : List Char, cells.length = size →
      ({ writer with cells }.move (writer.index + text.length)).At size ⟨start, index + text.length⟩ := fun cells length =>
    ⟨length, at'.size, at'.start, by simp [Writer.move, at'.index]⟩
  rcases Nat.eq_or_lt_of_le inside with last | before
  · have end' : writer.index = writer.size := by rw [at'.index, at'.size, ← last]
    exact ⟨_, if_pos end', moved writer.cells at'.length⟩
  · have notEnd : writer.index ≠ writer.size := by
      rw [at'.index, at'.size]
      dsimp only
      omega
    have positive : ¬ writer.index < 0 := by
      rw [at'.index]
      dsimp only
      omega
    have room : writer.room = size - index := by
      rw [Writer.room, at'.index, at'.size]
      dsimp only
      split <;> omega
    set written := text.take (writer.room - 1) ++ [textEnd] with writtenEq
    have short : written.length ≤ size - index := by
      rw [writtenEq, room, List.length_append, List.length_take, List.length_singleton]
      omega
    have split' : writer.cells = writer.cells.take index ++ writer.cells.drop index := (List.take_append_drop _ _).symm
    have front : (writer.cells.take index).length = index := by
      rw [List.length_take, at'.length]
      omega
    have rest : (writer.cells.drop index).length = size - index := by rw [List.length_drop, at'.length]
    have stored : putAll writer.cells writer.index.toNat written =
        some (writer.cells.take index ++ (written ++ (writer.cells.drop index).drop written.length)) := by
      have behind := @putAll_append _ (writer.cells.take index) (writer.cells.drop index) written 0
      rw [putAll_zero (by omega), ← split', front] at behind
      rw [at'.index]
      exact behind
    refine ⟨_, ?_, moved (writer.cells.take index ++ (written ++ (writer.cells.drop index).drop written.length)) ?_⟩
    · rw [Writer.print, if_neg notEnd, if_neg positive, ← writtenEq, stored]
      rfl
    · simp only [List.length_append, List.length_drop, List.length_take, at'.length]
      omega

/-- What a print leaves in front of the index: a text in the buffer, or one that was cut off. -/
def Shown (size : ℕ) (front cells : List Char) : Prop :=
  if front.length < size then front <+: cells else front.take (size - 1) ++ [textEnd] <+: cells

theorem Shown.of_cut {front cells : List Char} (cut : front.take (size - 1) ++ [textEnd] <+: cells) :
    Shown size front cells := by
  unfold Shown
  split
  · rw [List.take_of_length_le (by omega)] at cut
    exact (List.prefix_append _ _).trans cut
  · exact cut

/-- What is printed is cut off at the end of the buffer, and has a zero behind it. -/
theorem Writer.At.print_shown {front : List Char} (at' : writer.At size ⟨start, front.length⟩) (inside : front.length ≤ size)
    (shown : Shown size front writer.cells) :
    ∃ next, writer.print text = some next ∧ next.At size ⟨start, (front ++ text).length⟩ ∧
      (0 < size → (front ++ text).take (size - 1) ++ [textEnd] <+: next.cells) := by
  obtain ⟨next, run, moved⟩ := @Writer.At.print _ _ text _ _ at' inside
  rw [← List.length_append] at moved
  refine ⟨next, run, moved, fun positive => ?_⟩
  unfold Shown at shown
  rcases Nat.eq_or_lt_of_le inside with last | before
  · rw [if_neg (by omega)] at shown
    rw [Writer.print, if_pos (by rw [at'.index, at'.size, ← last])] at run
    obtain rfl := Option.some_inj.mp run
    rwa [List.take_append_of_le_length (by omega)]
  · rw [if_pos before] at shown
    obtain ⟨rest, cells⟩ := shown
    have total := congrArg List.length cells
    rw [List.length_append, at'.length] at total
    have room : writer.room = size - front.length := by
      rw [Writer.room, at'.index, at'.size]
      dsimp only
      split <;> omega
    have stored := @putAll_append _ front rest (text.take (writer.room - 1) ++ [textEnd]) 0
    have short : (text.take (writer.room - 1) ++ [textEnd]).length ≤ rest.length := by
      rw [List.length_append, List.length_take, List.length_singleton]
      omega
    rw [putAll_zero short, cells, Nat.add_zero] at stored
    have place : writer.index.toNat = front.length := by rw [at'.index, Int.toNat_natCast]
    rw [Writer.print, if_neg (by rw [at'.index, at'.size]; dsimp only; omega), if_neg (by rw [at'.index]; dsimp only; omega),
      place, stored, Option.map_some, Option.map_some] at run
    obtain rfl := Option.some_inj.mp run
    have less : size - front.length - 1 = size - 1 - front.length := by omega
    rw [List.take_append, List.take_of_length_le (by omega), room, less]
    simp only [Writer.move, List.append_assoc]
    exact (List.prefix_append_right_inj front).mpr (by simp)

theorem Writer.At.lost (at' : writer.At size a) (behind : size < a.index) : writer.Lost := by
  constructor
  · rw [at'.length, at'.index]
    omega
  · rw [at'.length, at'.index]
    omega

/-- A lost writer stores nothing. -/
theorem Writer.Lost.store (lost : writer.Lost) : writer.store char = none := by
  have behind := lost.behind
  rw [Writer.store, if_neg (by omega), put_eq_none (by omega), Option.map_none]

theorem putAll_outside {cells : List Char} {index : ℕ} (outside : cells.length ≤ index) (some' : text ≠ []) :
    putAll cells index text = none := by
  obtain ⟨first, rest, rfl⟩ := List.exists_cons_of_ne_nil some'
  rw [putAll, put_eq_none outside, Option.bind_none]

theorem Writer.Lost.print (lost : writer.Lost) : writer.Outside (writer.print text) := by
  have behind := lost.behind
  by_cases end' : writer.index = writer.size
  · rw [Writer.print, if_pos end']
    rintro _ ⟨⟩
    refine ⟨⟨?_, ?_⟩, rfl, rfl⟩
    · simp only [Writer.move]
      omega
    · have open' := lost.open'
      simp only [Writer.move]
      omega
  · rw [Writer.print, if_neg end', if_neg (by omega), putAll_outside (by omega) (by simp), Option.map_none]
    exact Writer.outside_none

theorem Writer.At.print_none (at' : writer.At size ⟨start, index⟩) (behind : size < index) : writer.print text = none := by
  have lost := at'.lost behind
  have place := lost.behind
  rw [Writer.print, if_neg, if_neg, putAll_outside (by omega) (by simp), Option.map_none]
  · rw [at'.index]
    exact Int.not_lt.mpr (Int.natCast_nonneg _)
  · rw [at'.index, at'.size]
    dsimp only
    omega

variable {texts : List (List Char)}

/-- Texts one behind the other: only the last one may be cut off. -/
theorem Writer.At.printAll (at' : writer.At size ⟨start, index⟩) (inside : index + texts.dropLast.flatten.length ≤ size) :
    ∃ next, texts.foldlM Writer.print writer = some next ∧ next.At size ⟨start, index + texts.flatten.length⟩ := by
  induction texts generalizing writer index with
  | nil => exact ⟨writer, rfl, at'⟩
  | cons text texts ih =>
    obtain ⟨middle, run, at₁⟩ := @Writer.At.print _ _ text _ _ at' (Nat.le_trans (Nat.le_add_right _ _) inside)
    cases texts with
    | nil => exact ⟨middle, by rw [List.foldlM_cons, run]; rfl, by simpa using at₁⟩
    | cons second texts =>
      rw [List.dropLast_cons_cons, List.flatten_cons, List.length_append, ← Nat.add_assoc] at inside
      obtain ⟨next, run', next'⟩ := ih at₁ inside
      refine ⟨next, by rw [List.foldlM_cons, run]; exact run', ?_⟩
      rwa [List.flatten_cons, List.length_append, ← Nat.add_assoc]

/-- The texts, cut off at the end of the buffer, have a zero behind them. -/
theorem Writer.At.printAll_shown {front : List Char} (at' : writer.At size ⟨start, front.length⟩)
    (shown : Shown size front writer.cells) (some' : texts ≠ [])
    (inside : front.length + texts.dropLast.flatten.length ≤ size) (positive : 0 < size) :
    ∃ next, texts.foldlM Writer.print writer = some next ∧ next.cells.length = size ∧
      (front ++ texts.flatten).take (size - 1) ++ [textEnd] <+: next.cells := by
  induction texts generalizing writer front with
  | nil => contradiction
  | cons text texts ih =>
    obtain ⟨middle, run, at₁, cut⟩ :=
      @Writer.At.print_shown _ _ text _ _ at' (Nat.le_trans (Nat.le_add_right _ _) inside) shown
    rw [List.foldlM_cons, run]
    cases texts with
    | nil => exact ⟨middle, rfl, at₁.length, by simpa using cut positive⟩
    | cons second texts =>
      rw [List.dropLast_cons_cons, List.flatten_cons, List.length_append] at inside
      obtain ⟨next, run', next', all⟩ := ih at₁ (.of_cut (cut positive)) (List.cons_ne_nil _ _)
        (by rw [List.length_append]; omega)
      exact ⟨next, run', next', by rwa [List.flatten_cons, ← List.append_assoc]⟩

theorem Writer.At.printAll_none (at' : writer.At size ⟨start, index⟩) (inside : index ≤ size)
    (long : size < index + texts.dropLast.flatten.length) : texts.foldlM Writer.print writer = none := by
  induction texts generalizing writer index with
  | nil => exact absurd long (Nat.not_lt.mpr inside)
  | cons text texts ih =>
    obtain ⟨middle, run, at₁⟩ := @Writer.At.print _ _ text _ _ at' inside
    cases texts with
    | nil => exact absurd long (Nat.not_lt.mpr inside)
    | cons second texts =>
      rw [List.dropLast_cons_cons, List.flatten_cons, List.length_append, ← Nat.add_assoc] at long
      rw [List.foldlM_cons, run]
      by_cases inside' : index + text.length ≤ size
      · exact ih at₁ inside' long
      · change (second :: texts).foldlM Writer.print middle = none
        rw [List.foldlM_cons, at₁.print_none (Nat.not_le.mp inside')]
        rfl

end Stores

/-- A step that moves a writer in a buffer of a size, exactly if it fits. -/
structure Leads (size : ℕ) (step : Writer → Option Writer) (before behind : Place) (fits : Prop) : Prop where
  inside : ∀ writer : Writer, writer.At size before → before.index ≤ size → fits →
    ∃ next, step writer = some next ∧ next.At size behind
  outside : ∀ writer : Writer, writer.At size before → before.index ≤ size → ¬ fits → writer.Outside (step writer)
  last : before.index ≤ size → fits → behind.index ≤ size

/-- A step that takes nothing back: a writer that is lost stays so. -/
structure Moves (size : ℕ) (step : Writer → Option Writer) (before behind : Place) (fits : Prop) : Prop
    extends Leads size step before behind fits where
  lost : ∀ writer : Writer, writer.Lost → writer.Outside (step writer)

/-- A step that fits if the buffer reaches to the place behind it. -/
structure Grows (size : ℕ) (step : Writer → Option Writer) (before behind : Place) : Prop where
  moves : Moves size step before behind (behind.index ≤ size)
  le : before.index ≤ behind.index

/-- A step that appends a text to the line. -/
structure Prints (step : Writer → Option Writer) (text : List Char) : Prop where
  grows : ∀ size start front, Grows size step (.of start front) (.of start (front ++ text))
  start : ∀ writer next : Writer, step writer = some next → next.start = writer.start

section Steps

variable {fits fits' : Prop}

theorem Moves.congr (moves : Moves size step a b fits) (same : b = c) (iff : fits ↔ fits') :
    Moves size step a c fits' := by
  obtain rfl := same
  rwa [← propext iff]

theorem Leads.congr (leads : Leads size step a b fits) (same : b = c) (iff : fits ↔ fits') :
    Leads size step a c fits' := by
  obtain rfl := same
  rwa [← propext iff]

/-- In a buffer of its own a lost writer is behind the end: a step keeps it lost. -/
def Strays (size : ℕ) (step : Writer → Option Writer) : Prop :=
  ∀ writer : Writer, writer.Lost → writer.cells.length = size → writer.size = size → writer.Outside (step writer)

theorem Moves.strays (moves : Moves size step a b fits) : Strays size step := fun writer lost _ _ => moves.lost writer lost

theorem Strays.bind (first : Strays size step) (second : Strays size next) :
    Strays size fun writer => (step writer).bind next := by
  intro writer lost length size' last run
  obtain ⟨middle, run₁, run₂⟩ := Option.bind_eq_some_iff.mp run
  obtain ⟨lost₁, length₁, size₁⟩ := first writer lost length size' middle run₁
  obtain ⟨lost₂, length₂, size₂⟩ := second middle lost₁ (length₁.trans length) (size₁.trans size') last run₂
  exact ⟨lost₂, length₂.trans length₁, size₂.trans size₁⟩

/-- One step behind another, in a buffer of their own. -/
theorem Leads.then (first : Leads size step a b fits) (second : Leads size next b c fits') (strays : Strays size next) :
    Leads size (fun writer => (step writer).bind next) a c (fits ∧ fits') where
  inside := by
    intro writer at' room both
    obtain ⟨middle, run₁, at₁⟩ := first.inside writer at' room both.1
    obtain ⟨last, run₂, at₂⟩ := second.inside middle at₁ (first.last room both.1) both.2
    exact ⟨last, by rw [run₁]; exact run₂, at₂⟩
  outside := by
    intro writer at' room not' last run
    obtain ⟨middle, run₁, run₂⟩ := Option.bind_eq_some_iff.mp run
    by_cases fits₁ : fits
    · obtain ⟨middle', run', at₁⟩ := first.inside writer at' room fits₁
      obtain rfl := Option.some_inj.mp (run₁.symm.trans run')
      obtain ⟨lost, length, size⟩ := second.outside middle at₁ (first.last room fits₁) (fun fits₂ => not' ⟨fits₁, fits₂⟩)
        last run₂
      exact ⟨lost, by rw [length, at₁.length, at'.length], by rw [size, at₁.size, at'.size]⟩
    · obtain ⟨lost, length, size'⟩ := first.outside writer at' room fits₁ middle run₁
      obtain ⟨lost₂, length₂, size₂⟩ := strays middle lost (length.trans at'.length) (size'.trans at'.size) last run₂
      exact ⟨lost₂, length₂.trans length, size₂.trans size'⟩
  last := fun room both => second.last (first.last room both.1) both.2

theorem Moves.bind (first : Moves size step a b fits) (second : Moves size next b c fits') :
    Moves size (fun writer => (step writer).bind next) a c (fits ∧ fits') where
  toLeads := first.toLeads.then second.toLeads second.strays
  lost := fun writer lost => (first.lost writer lost).bind second.lost

theorem Grows.skip : Grows size some a a where
  moves := {
    inside := fun writer at' _ _ => ⟨writer, rfl, at'⟩
    outside := fun _ _ room not' => absurd room not'
    last := fun room _ => room
    lost := fun _ lost => .refl lost }
  le := Nat.le_refl _

theorem Grows.bind (first : Grows size step a b) (second : Grows size next b c) :
    Grows size (fun writer => (step writer).bind next) a c where
  moves := (first.moves.bind second.moves).congr rfl ⟨And.right, fun fits => ⟨Nat.le_trans second.le fits, fits⟩⟩
  le := Nat.le_trans first.le second.le

theorem Grows.print {text : List Char} {start : ℕ} {front : List Char} :
    Grows size (fun writer => writer.print text) (.of start front) (.of start (front ++ text)) where
  moves := by
    have behind : (Place.of start (front ++ text)) = ⟨start, front.length + text.length⟩ := by
      rw [Place.of, List.length_append]
    rw [behind]
    refine ⟨⟨fun writer at' room _ => at'.print room, ?_, fun _ fits => fits⟩, fun _ lost => lost.print⟩
    intro writer at' room not' next run
    obtain ⟨_, run', next'⟩ := @Writer.At.print _ _ text _ _ at' room
    obtain rfl := Option.some_inj.mp (run.symm.trans run')
    exact ⟨next'.lost (Nat.not_le.mp not'), by rw [next'.length, at'.length], by rw [next'.size, at'.size]⟩
  le := by
    rw [Place.of, Place.of, List.length_append]
    exact Nat.le_add_right _ _

/-- A store behind the text. -/
theorem Grows.append {start : ℕ} {front : List Char} :
    Grows size (fun writer => writer.append char) (.of start front) (.of start (front ++ [char])) where
  moves := by
    have behind : (Place.of start (front ++ [char])) = ⟨start, front.length + 1⟩ := by
      rw [Place.of, List.length_append, List.length_singleton]
    rw [behind]
    refine ⟨⟨?_, ?_, fun _ fits => fits⟩, ?_⟩
    · intro writer at' room fits
      have positive : ¬ writer.index < 0 := by
        rw [at'.index]
        exact Int.not_lt.mpr (Int.natCast_nonneg _)
      have stored : put writer.cells writer.index.toNat char = some (writer.cells.set writer.index.toNat char) := by
        refine put_eq ?_
        rw [at'.index, at'.length, Int.toNat_natCast]
        exact fits
      refine ⟨_, by rw [Writer.append, Writer.store, if_neg positive, stored]; rfl, ?_⟩
      exact ⟨by simp [Writer.move, at'.length], at'.size, at'.start, by simp [Writer.move, at'.index, Place.of]⟩
    · intro writer at' room not'
      have full : writer.store char = none := by
        rw [Writer.store]
        split
        · rfl
        · rw [put_eq_none, Option.map_none]
          rw [at'.index, at'.length, Int.toNat_natCast]
          exact Nat.le_of_not_lt not'
      rw [Writer.append, full]
      exact Writer.outside_none
    · intro writer lost
      rw [Writer.append, lost.store]
      exact Writer.outside_none
  le := by
    rw [Place.of, Place.of, List.length_append]
    exact Nat.le_add_right _ _

end Steps

section Lines

theorem Prints.skip : Prints some [] where
  grows _ _ front := by
    rw [List.append_nil]
    exact .skip
  start := by
    rintro _ _ ⟨⟩
    rfl

theorem Prints.print : Prints (fun writer => writer.print text) text where
  grows _ _ _ := .print
  start := by
    intro writer next run
    unfold Writer.print at run
    split at run
    · obtain rfl := Option.some_inj.mp run
      rfl
    split at run
    · cases run
    · obtain ⟨cells, _, rfl⟩ := Option.map_eq_some_iff.mp run
      rfl

theorem Prints.append : Prints (fun writer => writer.append char) [char] where
  grows _ _ _ := .append
  start := by
    intro writer next run
    obtain ⟨stored, run', rfl⟩ := Option.map_eq_some_iff.mp run
    unfold Writer.store at run'
    split at run'
    · cases run'
    · obtain ⟨cells, _, rfl⟩ := Option.map_eq_some_iff.mp run'
      rfl

theorem Prints.bind (first : Prints step text) (second : Prints next more) :
    Prints (fun writer => (step writer).bind next) (text ++ more) where
  grows size start front := by
    rw [← List.append_assoc]
    exact (first.grows size start front).bind (second.grows size start (front ++ text))
  start := by
    intro writer last run
    obtain ⟨middle, run₁, run₂⟩ := Option.bind_eq_some_iff.mp run
    exact (second.start middle last run₂).trans (first.start writer middle run₁)

/-- A text that is printed under a condition. -/
theorem Prints.ite {test : Prop} [Decidable test] (yes : Prints step text) (no : Prints next more) :
    Prints (fun writer => if test then step writer else next writer) (if test then text else more) := by
  by_cases holds : test
  · simp only [holds, ↓reduceIte]
    exact yes
  · simp only [holds, ↓reduceIte]
    exact no

theorem Prints.when {test : Prop} [Decidable test] (yes : Prints step text) :
    Prints (fun writer => if test then step writer else some writer) (if test then text else []) :=
  yes.ite .skip

section Tests

variable {start : ℕ} {front : List Char}

/-- A text that is printed when a test of the writer holds that is known at the place. -/
theorem Grows.test {test : Writer → Prop} [DecidablePred test] {known : Prop} [Decidable known] (prints : Prints step text)
    (same : ∀ writer : Writer, writer.At size (.of start front) → front.length ≤ size → (test writer ↔ known)) :
    Grows size (fun writer => if test writer then step writer else some writer) (.of start front)
      (.of start (front ++ if known then text else [])) := by
  have lost : ∀ writer : Writer, writer.Lost → writer.Outside (if test writer then step writer else some writer) := by
    intro writer lost
    split
    · exact (prints.grows size start front).moves.lost writer lost
    · exact .refl lost
  by_cases holds : known
  · have grows := prints.grows size start front
    rw [if_pos holds]
    refine ⟨⟨⟨?_, ?_, grows.moves.last⟩, lost⟩, grows.le⟩
    · intro writer at' room fits
      rw [if_pos ((same writer at' room).mpr holds)]
      exact grows.moves.inside writer at' room fits
    · intro writer at' room not'
      rw [if_pos ((same writer at' room).mpr holds)]
      exact grows.moves.outside writer at' room not'
  · rw [if_neg holds, List.append_nil]
    refine ⟨⟨⟨?_, fun _ _ room not' => absurd room not', fun room _ => room⟩, lost⟩, Nat.le_refl _⟩
    intro writer at' room fits
    exact ⟨writer, if_neg fun holds' => holds ((same writer at' room).mp holds'), at'⟩

/-- A line starts behind what a step appends. -/
theorem Grows.mark (grows : Grows size step a (.of start text)) :
    Grows size (fun writer => (step writer).map Writer.mark) a (.of text.length text) where
  moves := {
    inside := by
      intro writer at' room fits
      obtain ⟨next, run, next'⟩ := grows.moves.inside writer at' room fits
      exact ⟨next.mark, by rw [run, Option.map_some], next'.length, next'.size, next'.index, next'.index⟩
    outside := by
      intro writer at' room not' marked run
      obtain ⟨next, run₁, rfl⟩ := Option.map_eq_some_iff.mp run
      obtain ⟨lost, length, size⟩ := grows.moves.outside writer at' room not' next run₁
      exact ⟨⟨lost.behind, lost.open'⟩, length, size⟩
    last := grows.moves.last
    lost := by
      intro writer lost marked run
      obtain ⟨next, run₁, rfl⟩ := Option.map_eq_some_iff.mp run
      obtain ⟨lost', length, size⟩ := grows.moves.lost writer lost next run₁
      exact ⟨⟨lost'.behind, lost'.open'⟩, length, size⟩ }
  le := grows.le

/-- The room at a place in the buffer. -/
theorem Writer.At.room (at' : writer.At size (.of start front)) (inside : front.length ≤ size) :
    writer.room = size - front.length := by
  rw [Writer.room, at'.index, at'.size, Place.of]
  dsimp only
  split <;> omega

end Tests

end Lines

/-- A builder that gets room appends a length and returns it, exactly if it fits; else it is not in the room, or returns
more than the room. -/
structure Builds (room : ℕ) (builder : Writer → Option (Writer × ℤ)) (length : ℕ) (fits : Prop) : Prop where
  inside : fits → ∀ writer : Writer, writer.At room ⟨0, 0⟩ →
    ∃ next, builder writer = some (next, (length : ℤ)) ∧ next.cells.length = room
  outside : ¬ fits → ∀ writer : Writer, writer.At room ⟨0, 0⟩ → ∀ next result, builder writer = some (next, result) →
    (room : ℤ) < result ∧ next.cells.length = room
  le : fits → length ≤ room

/-- A builder that takes nothing back where there is no room at all. -/
def Advances (builder : Writer → Option (Writer × ℤ)) : Prop :=
  ∀ writer : Writer, writer.Lost → ∀ next result, builder writer = some (next, result) →
    0 ≤ result ∧ next.cells.length = writer.cells.length

section Calls

variable {builder : Writer → Option (Writer × ℤ)} {room start index : ℕ} {length : ℕ → ℕ} {fits : ℕ → Prop}

/-- A builder that returns its index. -/
theorem Leads.builds {place : Place} {fits : Prop} (leads : Leads room step ⟨0, 0⟩ place fits) :
    Builds room (fun writer => (step writer).bind fun writer => some (writer, writer.index)) place.index fits where
  inside := by
    intro fits writer at'
    obtain ⟨next, run, next'⟩ := leads.inside writer at' (Nat.zero_le _) fits
    refine ⟨next, ?_, next'.length⟩
    rw [run, Option.bind_some, next'.index]
  outside := by
    intro not' writer at' last result run
    obtain ⟨next, run₁, same⟩ := Option.bind_eq_some_iff.mp run
    obtain ⟨rfl, rfl⟩ := Prod.mk.inj (Option.some_inj.mp same)
    obtain ⟨lost, length, size⟩ := leads.outside writer at' (Nat.zero_le _) not' next run₁
    rw [at'.length] at length
    rw [at'.size] at size
    have open' := lost.open'
    exact ⟨by omega, length⟩
  le := leads.last (Nat.zero_le _)

theorem Moves.advances {place : Place} {fits : Prop} (moves : Moves room step a place fits) :
    Advances fun writer => (step writer).bind fun writer => some (writer, writer.index) := by
  intro writer lost last result run
  obtain ⟨next, run₁, same⟩ := Option.bind_eq_some_iff.mp run
  obtain ⟨rfl, rfl⟩ := Prod.mk.inj (Option.some_inj.mp same)
  obtain ⟨lost, length, -⟩ := moves.lost writer lost next run₁
  exact ⟨Int.le_trans (Int.natCast_nonneg _) lost.behind, length⟩

theorem Grows.builds {start : ℕ} (grows : Grows room step (.of 0 []) (.of start text))
    (eq : ∀ writer, builder writer = (step writer).bind fun writer => some (writer, writer.index)) :
    Builds room builder text.length (text.length ≤ room) := by
  rw [funext eq]
  exact grows.moves.toLeads.builds

theorem Grows.advances (grows : Grows room step a b)
    (eq : ∀ writer, builder writer = (step writer).bind fun writer => some (writer, writer.index)) : Advances builder := by
  rw [funext eq]
  exact grows.moves.advances

/-- What a call is, when the index is in the buffer or behind it. -/
theorem Writer.advance_eq (positive : 0 ≤ writer.index) {next : Writer} (run : writer.advance builder = some next) :
    ∃ inner result, builder { cells := writer.cells.drop writer.index.toNat, size := writer.room } = some (inner, result) ∧
      next.cells = writer.cells.take writer.index.toNat ++ inner.cells ∧ next.size = writer.size ∧
      next.start = writer.start ∧ next.index = writer.index + result := by
  rw [Writer.advance, Writer.call, if_neg (by omega)] at run
  obtain ⟨⟨called, count⟩, run₁, run₂⟩ := Option.bind_eq_some_iff.mp run
  obtain ⟨⟨inner, result⟩, built, same⟩ := Option.map_eq_some_iff.mp run₁
  obtain ⟨rfl, rfl⟩ := Prod.mk.inj same
  obtain rfl := Option.some_inj.mp run₂
  exact ⟨inner, result, built, rfl, rfl, rfl, rfl⟩

/-- A call in the buffer: the builder gets a buffer of the room that is left. -/
theorem Writer.At.call (at' : writer.At size ⟨start, index⟩) (inside : index ≤ size)
    (builder : Writer → Option (Writer × ℤ)) : ∃ inner : Writer, inner.At (size - index) ⟨0, 0⟩ ∧
      (builder inner = none → writer.call builder = none) ∧
      ∀ next result, builder inner = some (next, result) → next.cells.length = size - index →
        ∃ called, writer.call builder = some (called, result) ∧ called.At size ⟨start, index⟩ := by
  have positive : ¬ writer.index < 0 := by
    rw [at'.index]
    exact Int.not_lt.mpr (Int.natCast_nonneg _)
  have place : writer.index.toNat = index := by rw [at'.index, Int.toNat_natCast]
  have given : writer.room = size - index := by
    rw [Writer.room, at'.index, at'.size]
    dsimp only
    split <;> omega
  have left' : (writer.cells.drop index).length = size - index := by rw [List.length_drop, at'.length]
  refine ⟨{ cells := writer.cells.drop index, size := writer.room }, ⟨left', given, rfl, rfl⟩, ?_, ?_⟩
  · intro none
    rw [Writer.call, if_neg positive, place, none, Option.map_none]
  · intro next result built length'
    have run : writer.call builder = some ({ writer with
        cells := writer.cells.take index ++ next.cells, astray := writer.astray || next.astray }, result) := by
      rw [Writer.call, if_neg positive, place, built]
      rfl
    refine ⟨_, run, ?_, at'.size, at'.start, at'.index⟩
    simp only [List.length_append, List.length_take, at'.length, length']
    omega

/-- A call of a builder in the buffer. -/
theorem Builds.call {length : ℕ} {fits : Prop} (builds : Builds (size - index) builder length fits)
    (at' : writer.At size ⟨start, index⟩) (inside : index ≤ size) :
    (fits → ∃ called, writer.call builder = some (called, (length : ℤ)) ∧ called.At size ⟨start, index⟩) ∧
    (¬ fits → writer.call builder = none ∨ ∃ called result, writer.call builder = some (called, result) ∧
      (size : ℤ) - index < result ∧ called.At size ⟨start, index⟩) := by
  obtain ⟨inner, inner', none', called⟩ := at'.call inside builder
  constructor
  · intro fit
    obtain ⟨next, built, length'⟩ := builds.inside fit inner inner'
    exact called next _ built length'
  · intro not'
    cases built : builder inner with
    | none => exact .inl (none' built)
    | some result =>
      obtain ⟨more, length'⟩ := builds.outside not' inner inner' result.1 result.2 built
      obtain ⟨middle, run, at₁⟩ := called result.1 result.2 built length'
      exact .inr ⟨middle, result.2, run, by omega, at₁⟩

/-- What a builder appends, for the room that is left. -/
theorem Moves.advance (builds : ∀ room, Builds room builder (length room) (fits room)) (advances : Advances builder) :
    Moves size (fun writer => writer.advance builder) ⟨start, index⟩ ⟨start, index + length (size - index)⟩
      (fits (size - index)) where
  inside := by
    intro writer at' room fit
    obtain ⟨middle, run, at₁⟩ := ((builds _).call at' room).1 fit
    refine ⟨middle.move (middle.index + length (size - index)), by rw [Writer.advance, run]; rfl, ?_⟩
    exact ⟨at₁.length, at₁.size, at₁.start, by simp [Writer.move, at₁.index]⟩
  outside := by
    intro writer at' room not' last run
    obtain none' | ⟨middle, result, run₁, more, at₁⟩ := ((builds _).call at' room).2 not'
    · rw [Writer.advance, none'] at run
      cases run
    · rw [Writer.advance, run₁] at run
      obtain rfl := Option.some_inj.mp run
      have behind : (size : ℤ) < middle.index + result := by
        rw [at₁.index]
        dsimp only
        omega
      refine ⟨⟨?_, Or.inl ?_⟩, at₁.length.trans at'.length.symm, at₁.size.trans at'.size.symm⟩
      · simp only [Writer.move, at₁.length]
        exact le_of_lt behind
      · simp only [Writer.move, at₁.length]
        exact behind
  lost := by
    intro writer lost next run
    have behind := lost.behind
    have positive : 0 ≤ writer.index := Int.le_trans (Int.natCast_nonneg _) behind
    obtain ⟨inner, result, built, cells, size', -, index'⟩ := Writer.advance_eq positive run
    have empty : writer.cells.drop writer.index.toNat = [] := List.drop_eq_nil_of_le (by omega)
    rw [empty] at built
    have kept : 0 ≤ result ∧ inner.cells.length = 0 := by
      rcases Nat.eq_zero_or_pos writer.room with none | some'
      · have at' : ({ cells := [], size := writer.room } : Writer).At 0 ⟨0, 0⟩ := ⟨rfl, none, rfl, rfl⟩
        by_cases fit : fits 0
        · obtain ⟨_, built', length'⟩ := (builds 0).inside fit _ at'
          obtain ⟨rfl, rfl⟩ := Prod.mk.inj (Option.some_inj.mp (built.symm.trans built'))
          exact ⟨Int.natCast_nonneg _, length'⟩
        · obtain ⟨more, length'⟩ := (builds 0).outside fit _ at' inner result built
          exact ⟨by omega, length'⟩
      · have lost' : ({ cells := [], size := writer.room } : Writer).Lost := ⟨Int.le_refl _, Or.inr some'⟩
        exact advances _ lost' inner result built
    have total : next.cells.length = writer.cells.length := by
      rw [cells, List.length_append, kept.2, List.length_take]
      omega
    have open' := lost.open'
    exact ⟨⟨by rw [total]; omega, by rw [total, size']; omega⟩, total, size'⟩
  last := by
    intro room fit
    have le := (builds _).le fit
    dsimp only at room ⊢
    omega

/-- A builder that appends a text, which may depend on the room. -/
theorem Grows.advance {front : List Char} {more : ℕ → List Char}
    (builds : ∀ room, Builds room builder (more room).length ((more room).length ≤ room)) (advances : Advances builder) :
    Grows size (fun writer => writer.advance builder) (.of start front)
      (.of start (front ++ more (size - front.length))) := by
  have behind : Place.of start (front ++ more (size - front.length)) =
      ⟨start, front.length + (more (size - front.length)).length⟩ := by
    rw [Place.of, List.length_append]
  have moves := @Moves.advance size builder start front.length _ _ builds advances
  rw [behind]
  refine ⟨⟨⟨?_, ?_, fun _ fits => fits⟩, moves.lost⟩, Nat.le_add_right _ _⟩
  · intro writer at' room fits
    exact moves.inside writer at' room (Nat.le_sub_of_add_le' fits)
  · intro writer at' room not'
    exact moves.outside writer at' room fun fits => not' (Nat.add_le_of_le_sub' room fits)

theorem Prints.advance (builds : ∀ room, Builds room builder text.length (text.length ≤ room)) (advances : Advances builder) :
    Prints (fun writer => writer.advance builder) text where
  grows _ _ _ := .advance builds advances
  start := by
    intro writer next run
    by_cases positive : 0 ≤ writer.index
    · obtain ⟨_, _, _, _, _, start, _⟩ := Writer.advance_eq positive run
      exact start
    · rw [Writer.advance, Writer.call, if_pos (by omega)] at run
      cases run

end Calls

end CoapsClient.Machine
