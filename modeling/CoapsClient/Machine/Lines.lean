import CoapsClient.Machine.Placing

/-! # Lines in a buffer

A line is a text with a line end, which is left out with the text. A step that writes a line begins and ends at the
start of a line; without room for the line end it stores outside of the buffer.
-/

namespace CoapsClient.Machine

/-- A line with its end, or nothing. -/
def lineOf (sep : Char) (text : List Char) : List Char := if text = [] then [] else text ++ [sep]

/-- A step from the start of a line to that of another, exactly if it fits. -/
structure Lines (size : ℕ) (step : Writer → Option Writer) (front next : List Char) (fits : Prop) : Prop where
  inside : ∀ writer : Writer, writer.At size (.of front.length front) → front.length ≤ size → fits →
    ∃ last, step writer = some last ∧ last.At size (.of next.length next)
  outside : ∀ writer : Writer, writer.At size (.of front.length front) → front.length ≤ size → ¬ fits → step writer = none
  last : front.length ≤ size → fits → next.length ≤ size

variable {size : ℕ} {step next : Writer → Option Writer} {writer : Writer} {a b c text : List Char} {fits fits' : Prop}
variable {sep : Char}

theorem Lines.congr (lines : Lines size step a b fits) (iff : fits ↔ fits') : Lines size step a b fits' := by
  rwa [← propext iff]

theorem Lines.skip : Lines size some a a True where
  inside := fun writer at' _ _ => ⟨writer, rfl, at'⟩
  outside := fun _ _ _ not' => absurd trivial not'
  last := fun room _ => room

/-- What fits anyway need not be said. -/
theorem Lines.congr_of (lines : Lines size step a b True) (fits : a.length ≤ size → fits') : Lines size step a b fits' where
  inside := fun writer at' room _ => lines.inside writer at' room trivial
  outside := fun _ _ room not' => absurd (fits room) not'
  last := fun room _ => lines.last room trivial

theorem Lines.bind (first : Lines size step a b fits) (second : Lines size next b c fits') :
    Lines size (fun writer => (step writer).bind next) a c (fits ∧ fits') where
  inside := by
    intro writer at' room both
    obtain ⟨middle, run₁, at₁⟩ := first.inside writer at' room both.1
    obtain ⟨last, run₂, at₂⟩ := second.inside middle at₁ (first.last room both.1) both.2
    exact ⟨last, by rw [run₁]; exact run₂, at₂⟩
  outside := by
    intro writer at' room not'
    by_cases fits₁ : fits
    · obtain ⟨middle, run₁, at₁⟩ := first.inside writer at' room fits₁
      rw [run₁, Option.bind_some]
      exact second.outside middle at₁ (first.last room fits₁) fun fits₂ => not' ⟨fits₁, fits₂⟩
    · rw [first.outside writer at' room fits₁, Option.bind_none]
  last := fun room both => second.last (first.last room both.1) both.2

/-- Lines that fit if the buffer reaches to their end. -/
structure Writes (size : ℕ) (step : Writer → Option Writer) (front next : List Char) : Prop where
  lines : Lines size step front next (next.length ≤ size)
  le : front.length ≤ next.length

theorem Writes.bind (first : Writes size step a b) (second : Writes size next b c) :
    Writes size (fun writer => (step writer).bind next) a c where
  lines := (first.lines.bind second.lines).congr ⟨And.right, fun fits => ⟨Nat.le_trans second.le fits, fits⟩⟩
  le := Nat.le_trans first.le second.le

theorem Lines.writes (lines : Lines size step a (a ++ text) ((a ++ text).length ≤ size)) : Writes size step a (a ++ text) where
  lines := lines
  le := by
    rw [List.length_append]
    exact Nat.le_add_right _ _

theorem Writes.skip : Writes size some a (a ++ []) where
  lines := by
    rw [List.append_nil]
    exact Lines.skip.congr_of fun room => room
  le := Nat.le_of_eq (by rw [List.append_nil])

/-- Lines under a condition. -/
theorem Writes.when {test : Prop} [Decidable test] (writes : Writes size step a (a ++ text)) :
    Writes size (fun writer => if test then step writer else some writer) a (a ++ if test then text else []) := by
  by_cases holds : test
  · simp only [holds, ↓reduceIte]
    exact writes
  · simp only [holds, ↓reduceIte]
    exact .skip

/-- A store behind the end of the buffer. -/
theorem Writer.append_eq_none (outside : (writer.cells.length : ℤ) ≤ writer.index) : writer.append sep = none := by
  rw [Writer.append, Writer.store, if_neg (by omega), put_eq_none (by omega)]
  rfl

/-- The end of a line. -/
theorem Lines.ended {start : ℕ} (grows : Grows size step (.of a.length a) (.of start b)) :
    Lines size (fun writer => (step writer).bind fun writer => (writer.append sep).map Writer.mark) a (b ++ [sep])
      ((b ++ [sep]).length ≤ size) := by
  have ends := grows.bind (Grows.mark (@Grows.append _ sep _ _))
  refine ⟨ends.moves.inside, ?_, fun _ fits => fits⟩
  intro writer at' room not'
  by_cases inside : b.length ≤ size
  · obtain ⟨middle, run, at₁⟩ := grows.moves.inside writer at' room inside
    have full : middle.cells.length ≤ middle.index := by
      rw [List.length_append, List.length_singleton] at not'
      rw [at₁.length, at₁.index, Place.of]
      dsimp only
      omega
    rw [run, Option.bind_some, Writer.append_eq_none full, Option.map_none]
  · cases run : step writer with
    | none => rfl
    | some middle =>
      obtain ⟨lost, _⟩ := grows.moves.outside writer at' room inside middle run
      rw [Option.bind_some, Writer.append_eq_none lost.behind, Option.map_none]

theorem Lines.print (prints : Prints step text) :
    Lines size (fun writer => (step writer).bind fun writer => (writer.append sep).map Writer.mark) a (a ++ (text ++ [sep]))
      ((a ++ (text ++ [sep])).length ≤ size) := by
  rw [← List.append_assoc]
  exact .ended (prints.grows size a.length a)

/-- A line that ends only if it has a text. -/
theorem Lines.print_if {test : Writer → Prop} [DecidablePred test] (prints : Prints step text)
    (same : ∀ writer : Writer, writer.start ≤ writer.index → (test writer ↔ writer.start < writer.index)) :
    Lines size (fun writer => (step writer).bind fun writer =>
        if test writer then (writer.append sep).map Writer.mark else some writer) a (a ++ lineOf sep text)
      ((a ++ lineOf sep text).length ≤ size) := by
  by_cases empty : text = []
  · subst empty
    have grows := prints.grows size a.length a
    rw [lineOf, if_pos rfl, List.append_nil] at *
    refine ⟨?_, fun _ _ room not' => absurd room not', fun room _ => room⟩
    intro writer at' room _
    obtain ⟨middle, run, at₁⟩ := grows.moves.inside writer at' room room
    have here : ¬ middle.start < middle.index := by
      rw [at₁.start, at₁.index, Place.of]
      exact Int.lt_irrefl _
    refine ⟨middle, ?_, at₁⟩
    rw [run, Option.bind_some, if_neg fun holds => here ((same middle ?_).mp holds)]
    rw [at₁.start, at₁.index, Place.of]
  · have grows := prints.grows size a.length a
    have ends := @Lines.print size step a text sep prints
    rw [lineOf, if_neg empty]
    have positive := List.length_pos_of_ne_nil empty
    -- wherever the index is, it is behind the start
    have ahead : ∀ writer middle : Writer, writer.At size (.of a.length a) → a.length ≤ size → step writer = some middle →
        middle.start < middle.index := by
      intro writer middle at' room run
      rw [prints.start writer middle run, at'.start]
      by_cases fits : (a ++ text).length ≤ size
      · obtain ⟨_, run', at₁⟩ := grows.moves.inside writer at' room fits
        obtain rfl := Option.some_inj.mp (run.symm.trans run')
        rw [at₁.index, Place.of, Place.of, List.length_append]
        dsimp only
        omega
      · obtain ⟨lost, length, size'⟩ := grows.moves.outside writer at' room fits middle run
        have open' := lost.open'
        have behind := lost.behind
        rw [length, at'.length, size', at'.size] at open'
        rw [Place.of]
        dsimp only
        omega
    have equal : ∀ writer : Writer, writer.At size (.of a.length a) → a.length ≤ size →
        ((step writer).bind fun writer => if test writer then (writer.append sep).map Writer.mark else some writer) =
          (step writer).bind fun writer => (writer.append sep).map Writer.mark := by
      intro writer at' room
      refine Option.bind_congr fun middle run => ?_
      have before := ahead writer middle at' room run
      exact if_pos ((same middle (Int.le_of_lt before)).mpr before)
    refine ⟨?_, ?_, ends.last⟩
    · intro writer at' room fits
      rw [equal writer at' room]
      exact ends.inside writer at' room fits
    · intro writer at' room not'
      rw [equal writer at' room]
      exact ends.outside writer at' room not'

/-- A line end at a place, or behind the end of the buffer. -/
theorem Writer.At.ended {start index : ℕ} (at' : writer.At size ⟨start, index⟩) :
    (index < size → ∃ next, (writer.append sep).map Writer.mark = some next ∧ next.At size ⟨index + 1, index + 1⟩) ∧
    (¬ index < size → (writer.append sep).map Writer.mark = none) := by
  constructor
  · intro inside
    have positive : ¬ writer.index < 0 := by
      rw [at'.index]
      exact Int.not_lt.mpr (Int.natCast_nonneg _)
    have place : writer.index.toNat = index := by rw [at'.index, Int.toNat_natCast]
    have stored : put writer.cells writer.index.toNat sep = some (writer.cells.set index sep) := by
      rw [place, put_eq (by rw [at'.length]; exact inside)]
    refine ⟨_, by rw [Writer.append, Writer.store, if_neg positive, stored]; rfl, ?_⟩
    exact ⟨by simp [Writer.move, Writer.mark, at'.length], at'.size, by simp [Writer.move, Writer.mark, at'.index],
      by simp [Writer.move, Writer.mark, at'.index]⟩
  · intro outside
    rw [Writer.append_eq_none, Option.map_none]
    rw [at'.length, at'.index]
    dsimp only
    omega

theorem Writer.At.move {place : Place} (at' : writer.At size place) (index : ℕ) :
    (writer.move index).At size ⟨place.start, index⟩ :=
  ⟨at'.length, at'.size, at'.start, rfl⟩

/-- A line that a builder writes, which may depend on the room. -/
theorem Lines.call {builder : Writer → Option (Writer × ℤ)} {more : ℕ → List Char} {test : ℤ → Prop} [DecidablePred test]
    (builds : ∀ room, Builds room builder (more room).length ((more room).length ≤ room))
    (same : ∀ result : ℤ, 0 ≤ result → (test result ↔ 0 < result)) :
    Lines size (fun writer => (writer.call builder).bind fun (writer, result) =>
        if test result then ((writer.move (writer.index + result)).append sep).map Writer.mark else some writer) a
      (a ++ lineOf sep (more (size - a.length))) ((a ++ lineOf sep (more (size - a.length))).length ≤ size) := by
  have builds' := builds (size - a.length)
  generalize more (size - a.length) = line at builds' ⊢
  refine ⟨?_, ?_, fun _ fits => fits⟩
  · intro writer at' room fits
    by_cases empty : line = []
    · subst empty
      obtain ⟨middle, run, at₁⟩ := (builds'.call at' room).1 (Nat.zero_le _)
      rw [lineOf, if_pos rfl, List.append_nil]
      refine ⟨middle, ?_, at₁⟩
      rw [run, Option.bind_some]
      exact if_neg fun holds => Int.lt_irrefl _ ((same 0 (Int.le_refl _)).mp holds)
    · have positive := List.length_pos_of_ne_nil empty
      rw [lineOf, if_neg empty] at fits ⊢
      simp only [List.length_append, List.length_singleton] at fits
      obtain ⟨middle, run, at₁⟩ := (builds'.call at' room).1 (by omega)
      obtain ⟨last, run', at₂⟩ := (@Writer.At.ended _ _ sep _ _ (at₁.move (a.length + line.length))).1 (by omega)
      refine ⟨last, ?_, ?_⟩
      · rw [run, Option.bind_some]
        dsimp only
        rw [if_pos ((same _ (Int.natCast_nonneg _)).mpr (Int.natCast_pos.mpr positive)), at₁.index]
        exact run'
      · rw [Place.of, List.length_append, List.length_append, List.length_singleton]
        exact at₂
  · intro writer at' room not'
    have empty : line ≠ [] := fun empty => not' (by rw [lineOf, if_pos empty, List.append_nil]; exact room)
    have positive := List.length_pos_of_ne_nil empty
    rw [lineOf, if_neg empty] at not'
    simp only [List.length_append, List.length_singleton] at not'
    by_cases fit : line.length ≤ size - a.length
    · obtain ⟨middle, run, at₁⟩ := (builds'.call at' room).1 fit
      rw [run, Option.bind_some]
      dsimp only
      rw [if_pos ((same _ (Int.natCast_nonneg _)).mpr (Int.natCast_pos.mpr positive)), at₁.index]
      exact (at₁.move (a.length + line.length)).ended.2 (by omega)
    · obtain none' | ⟨middle, result, run, long, at₁⟩ := (builds'.call at' room).2 fit
      · rw [none', Option.bind_none]
      · rw [run, Option.bind_some]
        dsimp only
        rw [if_pos ((same _ (by omega)).mpr (by omega)), Writer.append_eq_none, Option.map_none]
        simp only [Writer.move, at₁.length, at₁.index]
        omega

/-- A line whose last character is taken back, with a zero in its place. -/
theorem Lines.back {char : Char} (prints : Prints step (text ++ [char])) :
    Lines size (fun writer => (step writer).bind fun writer =>
        ((writer.move (writer.index - 1)).store textEnd).bind fun writer => (writer.append sep).map Writer.mark) a
      (a ++ (text ++ [sep])) ((a ++ (text ++ [sep])).length ≤ size) := by
  have grows := prints.grows size a.length a
  have same : (a ++ (text ++ [sep])).length = (a ++ (text ++ [char])).length := by simp
  rw [same]
  refine ⟨?_, ?_, fun _ fits => by rwa [same]⟩
  · intro writer at' room fits
    obtain ⟨middle, run, at₁⟩ := grows.moves.inside writer at' room fits
    have index : middle.index - 1 = (a ++ text).length := by
      rw [at₁.index, Place.of]
      simp only [List.length_append, List.length_singleton]
      omega
    have inside : (a ++ text).length < size := by
      simp only [List.length_append, List.length_singleton] at fits ⊢
      omega
    have stored : ((middle.move (middle.index - 1)).store textEnd) =
        some { middle.move (middle.index - 1) with cells := middle.cells.set (a ++ text).length textEnd } := by
      rw [Writer.store, Writer.move, index, if_neg (Int.not_lt.mpr (Int.natCast_nonneg _)), Int.toNat_natCast]
      dsimp only
      rw [put_eq (by rw [at₁.length]; exact inside), Option.map_some]
    have before : ({ middle.move (middle.index - 1) with cells := middle.cells.set (a ++ text).length textEnd } : Writer).At
        size (.of a.length (a ++ text)) :=
      ⟨by rw [List.length_set, at₁.length], at₁.size, at₁.start, index⟩
    have ends := @Grows.mark size (fun writer => writer.append sep) _ _ _ (@Grows.append size sep a.length (a ++ text))
    obtain ⟨last, run', at₂⟩ := ends.moves.inside _ before (Nat.le_of_lt inside) (by
      rw [Place.of, List.length_append, List.length_singleton]
      exact inside)
    rw [← List.append_assoc]
    exact ⟨last, by rw [run, Option.bind_some, stored, Option.bind_some]; exact run', at₂⟩
  · intro writer at' room not'
    cases run : step writer with
    | none => rfl
    | some middle =>
      obtain ⟨lost, length, size'⟩ := grows.moves.outside writer at' room not' middle run
      have behind := lost.behind
      have open' := lost.open'
      rw [length, at'.length] at behind open'
      rw [size', at'.size] at open'
      have outside : (middle.move (middle.index - 1)).store textEnd = none := by
        rw [Writer.store]
        split
        · rfl
        · rw [put_eq_none, Option.map_none]
          simp only [Writer.move, length, at'.length]
          omega
      rw [Option.bind_some, outside, Option.bind_none]

/-- A builder of lines, which leaves out the last line end. -/
theorem Lines.builds {builder : Writer → Option (Writer × ℤ)} (lines : Lines size step [] b fits) (some' : b ≠ [])
    (eq : ∀ writer, builder writer = (step writer).bind fun writer => some (writer, writer.index - 1)) :
    Builds size builder (b.length - 1) fits where
  inside := by
    intro fit writer at'
    have positive := List.length_pos_of_ne_nil some'
    obtain ⟨last, run, at₁⟩ := lines.inside writer at' (Nat.zero_le _) fit
    refine ⟨last, ?_, at₁.length⟩
    have index : last.index - 1 = ((b.length - 1 : ℕ) : ℤ) := by
      rw [at₁.index, Place.of]
      dsimp only
      omega
    rw [eq, run, Option.bind_some, index]
  outside := by
    intro not' writer at' next result run
    rw [eq, lines.outside writer at' (Nat.zero_le _) not'] at run
    cases run
  le := by
    intro fit
    exact Nat.le_trans (Nat.sub_le _ _) (lines.last (Nat.zero_le _) fit)

end CoapsClient.Machine
