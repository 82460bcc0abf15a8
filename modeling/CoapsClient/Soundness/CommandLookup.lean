import CoapsClient.Model.Shell.Lookup

/-! # The lookup of a command

A text begins with a word if it is the word, or the word with a separator behind it. The index that `strstartsep` returns is
then the one behind both, so `sh_cmd` finds the parameter behind the word that `sh_cmd_get` has found. Two words without
separators that a text begins with are the same.
-/

namespace CoapsClient.ShCmd

/-- What is next to a word, and the number of separators that belong to it: at most one, and any text without separators. -/
def Borders (ignoreCase : Bool) (separators : Option Text) (next : Option Char) (count : ℕ) : Prop :=
  match separators, next with
  | none, _ | some _, none => count = 0
  | some separators, some sep => (∃ other ∈ separators, sameChar ignoreCase sep other = true) ∧ count = 1

/-- The text begins with the head, and this is the index behind it and its separator. -/
def Begins (value head : Text) (ignoreCase : Bool) (separators : Option Text) (index : ℕ) : Prop :=
  ∃ word rest count, value = word ++ rest ∧ Same ignoreCase word head ∧ Borders ignoreCase separators rest.head? count ∧
    index = word.length + count

/-- The text ends with the tail, and this is the number of its characters with its separator. -/
def Ends (value tail : Text) (ignoreCase : Bool) (separators : Option Text) (index : ℕ) : Prop :=
  ∃ rest word count, value = rest ++ word ∧ Same ignoreCase word tail ∧ Borders ignoreCase separators rest.getLast? count ∧
    index = word.length + count

section Comparing

variable {ignoreCase : Bool} {value head tail left right : Text} {separators : Option Text} {index : ℕ}

private theorem strstart_ne_zero (found : strstart value head ignoreCase ≠ 0) :
    ∃ word rest, value = word ++ rest ∧ Same ignoreCase word head := by
  rw [strstart] at found
  split at found
  · next begins => exact startsWith_iff.mp begins
  · exact absurd rfl found

/-- What the functions make of the index behind a word and the character there. -/
def bordered (ignoreCase : Bool) (separators : Option Text) (next : Option Char) (index : ℕ) : ℕ :=
  match separators, next with
  | none, _ | some _, none => index
  | some separators, some sep => if separators.any (sameChar ignoreCase sep) then index + 1 else 0

private theorem bordered_iff {next : Option Char} {length : ℕ} (positive : 0 < length) :
    bordered ignoreCase separators next length = index ∧ index ≠ 0 ↔
      ∃ count, Borders ignoreCase separators next count ∧ index = length + count := by
  cases separators with
  | none =>
    simp only [bordered, Borders, exists_eq_left]
    omega
  | some separators =>
    cases next with
    | none =>
      simp only [bordered, Borders, exists_eq_left]
      omega
    | some sep =>
      simp only [bordered, Borders, ← List.any_eq_true]
      by_cases separates : separators.any (sameChar ignoreCase sep) = true
      · simp only [separates, if_true, true_and, exists_eq_left]
        omega
      · rw [if_neg separates]
        refine iff_of_false (fun found => found.2 found.1.symm) ?_
        rintro ⟨count, ⟨separator, -⟩, -⟩
        exact separates separator

/-- `strstartsep` behind a word. -/
private theorem strstartsepNull_of_word {word rest : Text} (some' : head ≠ []) (same : Same ignoreCase word head) :
    strstartsepNull (word ++ rest) head ignoreCase separators = bordered ignoreCase separators rest.head? word.length := by
  have positive : word.length ≠ 0 := by
    rw [same.length]
    exact mt List.length_eq_zero_iff.mp some'
  have start := @strstart_of_word _ _ _ rest same
  cases separators with
  | none => exact start
  | some separators =>
    have next : (word ++ rest)[word.length]? = rest.head? := by
      rw [List.getElem?_append_right le_rfl, Nat.sub_self, List.head?_eq_getElem?]
    simp only [strstartsepNull, strstartsep, start, if_neg positive, next]
    cases rest.head? <;> rfl

/-- `strsepend` in front of a word. -/
private theorem strsepend_of_word {word rest : Text} (some' : tail ≠ []) (same : Same ignoreCase word tail) :
    strsepend (rest ++ word) tail ignoreCase separators = bordered ignoreCase separators rest.getLast? word.length := by
  have positive : word.length ≠ 0 := by
    rw [same.length]
    exact mt List.length_eq_zero_iff.mp some'
  have end' : strend (rest ++ word) tail ignoreCase = word.length := by
    have behind : (rest ++ word).drop ((rest ++ word).length - tail.length) = word := by
      rw [← same.length, List.length_append, Nat.add_sub_cancel, List.drop_left]
    have whole := @strstart_of_word _ _ _ [] same
    rw [List.append_nil] at whole
    rw [strend, behind, whole]
  cases separators with
  | none => exact end'
  | some separators =>
    simp only [strsepend, end', if_neg positive, List.length_append]
    obtain rfl | ⟨front, last, rfl⟩ := List.eq_nil_or_concat rest
    · have outside : ¬ (0 : ℤ) ≤ (([] : Text).length + word.length : ℕ) - word.length - 1 := by simp
      rw [if_neg outside]
      rfl
    · have pos : (((front.concat last).length + word.length : ℕ) : ℤ) - word.length - 1 = front.length := by
        rw [List.length_concat]
        omega
      have read : (front.concat last ++ word)[front.length]? = some last := by simp
      rw [pos, if_pos (Int.natCast_nonneg _), Int.toNat_natCast, read, List.concat_eq_append, List.getLast?_concat]
      rfl

/-- What ends with the tail begins with it from there. -/
private theorem strend_ne_zero (found : strend value tail ignoreCase ≠ 0) :
    ∃ rest word, value = rest ++ word ∧ Same ignoreCase word tail := by
  obtain ⟨word, rest, split, same⟩ := strstart_ne_zero found
  have lengths := congrArg List.length split
  have length := same.length
  rw [List.length_drop, List.length_append] at lengths
  have none : rest = [] := List.length_eq_zero_iff.mp (by omega)
  refine ⟨value.take (value.length - tail.length), word, ?_, same⟩
  rw [none, List.append_nil] at split
  rw [← split, List.take_append_drop]

private theorem strstartsepNull_iff (some' : head ≠ []) :
    strstartsepNull value head ignoreCase separators = index ∧ index ≠ 0 ↔ Begins value head ignoreCase separators index := by
  have positive {word : Text} (same : Same ignoreCase word head) : 0 < word.length := by
    rw [same.length]
    exact List.length_pos_iff.mpr some'
  constructor
  · rintro ⟨rfl, found⟩
    have start : strstart value head ignoreCase ≠ 0 := by
      intro none
      cases separators <;> simp [strstartsepNull, strstartsep, none] at found
    obtain ⟨word, rest, rfl, same⟩ := strstart_ne_zero start
    rw [strstartsepNull_of_word some' same] at found ⊢
    obtain ⟨count, borders, index⟩ := (bordered_iff (positive same)).mp ⟨rfl, found⟩
    exact ⟨word, rest, count, rfl, same, borders, index⟩
  · rintro ⟨word, rest, count, rfl, same, borders, index⟩
    rw [strstartsepNull_of_word some' same]
    exact (bordered_iff (positive same)).mpr ⟨count, borders, index⟩

private theorem strsepend_iff (some' : tail ≠ []) :
    strsepend value tail ignoreCase separators = index ∧ index ≠ 0 ↔ Ends value tail ignoreCase separators index := by
  have positive {word : Text} (same : Same ignoreCase word tail) : 0 < word.length := by
    rw [same.length]
    exact List.length_pos_iff.mpr some'
  constructor
  · rintro ⟨rfl, found⟩
    have start : strend value tail ignoreCase ≠ 0 := by
      intro none
      cases separators <;> simp [strsepend, none] at found
    obtain ⟨rest, word, rfl, same⟩ := strend_ne_zero start
    rw [strsepend_of_word some' same] at found ⊢
    obtain ⟨count, borders, index⟩ := (bordered_iff (positive same)).mp ⟨rfl, found⟩
    exact ⟨rest, word, count, rfl, same, borders, index⟩
  · rintro ⟨rest, word, count, rfl, same, borders, index⟩
    rw [strsepend_of_word some' same]
    exact (bordered_iff (positive same)).mpr ⟨count, borders, index⟩

end Comparing

/-- The text is the word, or begins with it and one of the separators behind it; the index is the one behind these. -/
def Names (separators : Text) (text word : Text) (index : ℕ) : Prop := Begins text word true (some separators) index

/-- The text names the entry by its command, or by its AT command if it has one. -/
def Qualifies (entry : Entry) (text : Text) : Prop :=
  (∃ index, Names [' '] text entry.cmd index) ∨ ∃ atText ∈ entry.atText, ∃ index, Names [' ', '='] text atText index

/-- All commands and AT commands of a table. -/
def words (table : List Entry) : List Text := table.flatMap fun entry => entry.cmd :: entry.atText.toList

section Entries

variable {entry : Entry} {table : List Entry} {text word : Text} {separators : Text}

private theorem names_iff (some' : word ≠ []) :
    (∃ index, Names separators text word index) ↔ strstartsep text word true separators ≠ 0 := by
  constructor
  · rintro ⟨index, begins⟩
    obtain ⟨same, found⟩ := (strstartsepNull_iff some').mpr begins
    intro none
    exact found (same.symm.trans none)
  · intro found
    exact ⟨_, (strstartsepNull_iff some').mp ⟨rfl, found⟩⟩

private theorem atText_ne_nil {atText : Text} (member : atText ∈ entry.atText) : atText ≠ [] := by
  obtain ⟨-, some'⟩ := Option.filter_eq_some_iff.mp member
  simpa using some'

private theorem index_ne_zero_iff (named : entry.cmd ≠ []) : entry.index text ≠ 0 ↔ Qualifies entry text := by
  rw [Qualifies, names_iff named]
  unfold Entry.index
  by_cases found : strstartsep text entry.cmd true [' '] = 0
  · simp only [found, if_true, ne_eq, not_true_eq_false, false_or]
    cases alias' : entry.atText with
    | none => simp
    | some atText =>
      have some' := atText_ne_nil alias'
      simp only [Option.mem_def, Option.some_inj, exists_eq_left', names_iff some']
  · simp [found]

/-- The calls of `sh_cmd` find what those of `sh_cmd_get` have found. -/
private theorem selects_iff : entry.selects text = true ↔ 0 < entry.index text := by
  unfold Entry.selects Entry.index
  by_cases found : strstartsep text entry.cmd true [' '] = 0
  · simp only [found, Nat.lt_irrefl, if_false, if_true]
    cases entry.atText <;> simp
  · simp only [Nat.pos_of_ne_zero found, if_true, if_neg found]

/-- `sh_cmd_get` with its own comparisons. -/
private theorem shCmdGet_eq : shCmdGet table text = table.find? (·.selects text) := by
  rw [shCmdGet]
  congr
  funext entry
  exact Bool.eq_iff_iff.mpr (decide_eq_true_iff.trans selects_iff.symm)

/-- The first entry that qualifies. -/
private theorem shCmdGet_eq_some_iff (named : ∀ entry ∈ table, entry.cmd ≠ []) : shCmdGet table text = some entry ↔
    ∃ front behind, table = front ++ entry :: behind ∧ Qualifies entry text ∧ ∀ other ∈ front, ¬ Qualifies other text := by
  rw [shCmdGet, List.find?_eq_some_iff_append]
  constructor
  · rintro ⟨found, front, behind, rfl, first⟩
    refine ⟨front, behind, rfl, (index_ne_zero_iff (named _ (by simp))).mp ?_, fun other member => ?_⟩
    · exact Nat.pos_iff_ne_zero.mp (of_decide_eq_true found)
    · rw [← index_ne_zero_iff (named _ (List.mem_append_left _ member))]
      simpa using first other member
  · rintro ⟨front, behind, rfl, found, first⟩
    refine ⟨?_, front, behind, rfl, fun other member => ?_⟩
    · exact decide_eq_true (Nat.pos_of_ne_zero ((index_ne_zero_iff (named _ (by simp))).mpr found))
    · have other' := first other member
      rw [← index_ne_zero_iff (named _ (List.mem_append_left _ member))] at other'
      simpa using other'

private theorem shCmdGet_eq_none_iff (named : ∀ entry ∈ table, entry.cmd ≠ []) :
    shCmdGet table text = none ↔ ∀ entry ∈ table, ¬ Qualifies entry text := by
  rw [shCmdGet, List.find?_eq_none]
  refine forall₂_congr fun entry member => ?_
  rw [← index_ne_zero_iff (named entry member), decide_eq_true_iff, Nat.pos_iff_ne_zero]

/-- The index is behind the word and its separator. -/
private theorem names_index (named : entry.cmd ≠ []) (found : Qualifies entry text) :
    Names [' '] text entry.cmd (entry.index text) ∨
      ∃ atText ∈ entry.atText, Names [' ', '='] text atText (entry.index text) := by
  have some' := (index_ne_zero_iff named).mpr found
  unfold Entry.index at some' ⊢
  by_cases none : strstartsep text entry.cmd true [' '] = 0
  · simp only [none, if_true] at some' ⊢
    cases alias' : entry.atText with
    | none => simp [alias'] at some'
    | some atText =>
      simp only [alias'] at some' ⊢
      exact .inr ⟨atText, rfl, (strstartsepNull_iff (atText_ne_nil alias')).mp ⟨rfl, some'⟩⟩
  · simp only [if_neg none] at some' ⊢
    exact .inl ((strstartsepNull_iff named).mp ⟨rfl, none⟩)

/-- The word of a text in front of its first separator. -/
def firstWord (text : Text) : Text := text.takeWhile fun char => char ≠ ' ' ∧ char ≠ '='

/-- A word without separators is the first word of a text that begins with it. -/
private theorem firstWord_of_names {index : ℕ} (free : ' ' ∉ word ∧ '=' ∉ word)
    (inside : ∀ sep ∈ separators, sep = ' ' ∨ sep = '=')
    (names : Names separators text word index) : SameText (firstWord text) word := by
  obtain ⟨front, rest, count, rfl, same, borders, -⟩ := names
  have plain : ' ' ∉ front ∧ '=' ∉ front :=
    ⟨mt (SameText.mem_iff same (by decide)).mp free.1, mt (SameText.mem_iff same (by decide)).mp free.2⟩
  have whole : front.takeWhile (fun char => decide (char ≠ ' ' ∧ char ≠ '=')) = front := by
    rw [List.takeWhile_eq_self_iff]
    intro char member
    exact decide_eq_true ⟨fun blank => plain.1 (blank ▸ member), fun equal => plain.2 (equal ▸ member)⟩
  have stops : rest.takeWhile (fun char => decide (char ≠ ' ' ∧ char ≠ '=')) = [] := by
    cases rest with
    | nil => rfl
    | cons sep rest =>
      obtain ⟨⟨other, member, equal⟩, -⟩ := borders
      have low : other.toNat < 65 := by rcases inside other member with rfl | rfl <;> decide
      have lower : sep.toLower = other.toLower := by simpa [sameChar] using equal
      rw [toLower_of_lt low, toLower_eq_iff low] at lower
      subst lower
      rcases inside sep member with rfl | rfl <;> rfl
  rw [firstWord, List.takeWhile_append, whole, stops, if_pos rfl, List.append_nil]
  exact same

/-- An entry that qualifies has the first word of the text. -/
private theorem firstWord_of_qualifies (free : ∀ word ∈ words table, ' ' ∉ word ∧ '=' ∉ word) (member : entry ∈ table)
    (found : Qualifies entry text) : ∃ word ∈ entry.cmd :: entry.atText.toList, SameText (firstWord text) word := by
  have inside {word : Text} (own : word ∈ entry.cmd :: entry.atText.toList) : ' ' ∉ word ∧ '=' ∉ word :=
    free word (List.mem_flatMap.mpr ⟨entry, member, own⟩)
  rcases found with ⟨index, names⟩ | ⟨atText, alias', index, names⟩
  · exact ⟨_, List.mem_cons_self, firstWord_of_names (inside List.mem_cons_self) (by simp) names⟩
  · have own : atText ∈ entry.cmd :: entry.atText.toList := List.mem_cons_of_mem _ (Option.mem_toList.mpr alias')
    exact ⟨_, own, firstWord_of_names (inside own) (by simp) names⟩

/-- With distinct words without separators there is at most one entry. -/
private theorem qualifies_unique (distinct : (words table).Pairwise fun left right => ¬ SameText left right)
    (free : ∀ word ∈ words table, ' ' ∉ word ∧ '=' ∉ word) (first second : Fin table.length)
    (found : Qualifies table[first] text) (other : Qualifies table[second] text) : first = second := by
  have apart := (List.pairwise_flatMap.mp distinct).2
  rw [List.pairwise_iff_getElem] at apart
  obtain ⟨left, leftOwn, leftSame⟩ := firstWord_of_qualifies free (List.getElem_mem first.isLt) found
  obtain ⟨right, rightOwn, rightSame⟩ := firstWord_of_qualifies free (List.getElem_mem second.isLt) other
  have same : SameText left right := leftSame.symm.trans rightSame
  rcases Nat.lt_trichotomy first second with before | equal | behind
  · exact absurd same (apart first second first.isLt second.isLt before left leftOwn right rightOwn)
  · exact Fin.ext equal
  · exact absurd same.symm (apart second first second.isLt first.isLt behind right rightOwn left leftOwn)

end Entries

/-- The first entry whose command or AT command the text is or begins with is found, whatever the order of a table without
duplicates, and the parameter of `sh_cmd` is directly behind the word and its separator. -/
theorem command_lookup (table : List Entry) (text : Text) (named : ∀ entry ∈ table, entry.cmd ≠ []) :
    shCmdGet table text = table.find? (·.selects text) ∧
    (∀ entry, shCmdGet table text = some entry ↔
      ∃ front behind, table = front ++ entry :: behind ∧ Qualifies entry text ∧ ∀ other ∈ front, ¬ Qualifies other text) ∧
    (shCmdGet table text = none ↔ ∀ entry ∈ table, ¬ Qualifies entry text) ∧
    (((words table).Pairwise fun left right => ¬ SameText left right) → (∀ word ∈ words table, ' ' ∉ word ∧ '=' ∉ word) →
      ∀ first second : Fin table.length, Qualifies table[first] text → Qualifies table[second] text → first = second) ∧
    (∀ entry, shCmdGet table text = some entry →
      Names [' '] text entry.cmd (entry.index text) ∨
        ∃ atText ∈ entry.atText, Names [' ', '='] text atText (entry.index text)) ∧
    (∀ value head ignoreCase separators index, head ≠ [] →
      (strstartsepNull value head ignoreCase separators = index ∧ index ≠ 0 ↔ Begins value head ignoreCase separators index)) ∧
    ∀ value tail ignoreCase separators index, tail ≠ [] →
      (strsepend value tail ignoreCase separators = index ∧ index ≠ 0 ↔ Ends value tail ignoreCase separators index) := by
  refine ⟨shCmdGet_eq, fun entry => shCmdGet_eq_some_iff named, shCmdGet_eq_none_iff named, qualifies_unique, ?_, ?_, ?_⟩
  · intro entry found
    obtain ⟨front, behind, split, qualifies, -⟩ := (shCmdGet_eq_some_iff named).mp found
    exact names_index (named entry (by simp [split])) qualifies
  · exact fun value head ignoreCase separators index some' => strstartsepNull_iff some'
  · exact fun value tail ignoreCase separators index some' => strsepend_iff some'

/-- Another case of the letters, and a parameter. -/
theorem command_lookup_small :
    shCmdGet smallTable "DEL 12".toList = some delEntry ∧ delEntry.index "DEL 12".toList = 4 ∧
    ∀ first second : Fin smallTable.length,
      Qualifies smallTable[first] "DEL 12".toList → Qualifies smallTable[second] "DEL 12".toList → first = second := by
  obtain ⟨-, -, -, single, -⟩ := command_lookup smallTable "DEL 12".toList (by decide)
  exact ⟨by decide, by decide, single (by decide) (by decide)⟩

end CoapsClient.ShCmd
