import CoapsClient.Soundness.PlmnEncoding

/-! # The record of preferred networks

`prio` appends the entry of a word and the technology independently: a word that is no network still gets a technology,
and shifts what follows. A word counts by the hexadecimal digits at its start, and 17 words fit into the array.
-/

namespace CoapsClient.ModemSim

open ShCmd (Text)

/-- Five or six decimal digits. -/
def isPlmnToken (token : Text) : Bool := (token.length = 5 ∨ token.length = 6) ∧ token.all Char.isDigit

/-- The networks that a parameter names. -/
def validTokens (parameter : Text) : List Text := (parameter.splitOn ' ').filter isPlmnToken

/-- An entry with its technology. -/
def priorityEntry (entry : Text) : Text := entry ++ hpplmnSelectorTechnology

/-- What is written is one record for each network, and half of its length is announced; without a network, nothing has
to be written. -/
def WritesNetworks (networks : List Text) : Option Request → Prop
  | none => False
  | some .nothing => True
  | some .read => networks = []
  | some (.write id bytes record) => id = simUserHpplmnId ∧
      record = networks.flatMap (fun token => priorityEntry (entryOf token)) ∧ 2 * bytes = record.length

/-- The network that a word is taken for: its hexadecimal digits, without a filler among six of them. -/
def plmnName (word : Text) : Text :=
  let digits := word.takeWhile isHexDigit
  if digits.length = 6 ∧ digits[3]? = some 'F' then digits.eraseIdx 3 else digits

section Entries

/-- A technology without an entry is never followed by complete records: what follows is shifted to the end. -/
private theorem technology_append_ne {items blocks : List Text} (entries : ∀ item ∈ items, item.length = 6 ∨ item = [])
    (whole : ∀ block ∈ blocks, block.length = 6) :
    hpplmnSelectorTechnology ++ items.flatMap priorityEntry ≠ blocks.flatMap priorityEntry := by
  have technology : hpplmnSelectorTechnology = ['4', '0', '0', '0'] := rfl
  induction items generalizing blocks with
  | nil =>
    intro same
    have length := congrArg List.length same
    cases blocks with
    | nil => simp [technology] at length
    | cons block blocks =>
      have six := whole block List.mem_cons_self
      simp [priorityEntry, technology, six] at length
      omega
  | cons item items ih =>
    intro same
    cases blocks with
    | nil => simp [technology] at same
    | cons block blocks =>
      obtain ⟨b0, b1, b2, b3, b4, b5, rfl⟩ : ∃ b0 b1 b2 b3 b4 b5, block = [b0, b1, b2, b3, b4, b5] := by
        have six := whole block List.mem_cons_self
        match block, six with
        | [b0, b1, b2, b3, b4, b5], _ => exact ⟨b0, b1, b2, b3, b4, b5, rfl⟩
      rcases entries item List.mem_cons_self with six | rfl
      · match item, six with
        | [i0, i1, i2, i3, i4, i5], _ =>
          simp only [List.flatMap_cons, priorityEntry, technology, List.cons_append, List.nil_append, List.cons.injEq] at same
          obtain ⟨_, _, _, _, _, _, rfl, rfl, rfl, rfl, later⟩ := same
          exact ih (fun item member => entries item (List.mem_cons_of_mem _ member))
            (fun block member => whole block (List.mem_cons_of_mem _ member)) later
      · simp [priorityEntry, technology] at same

/-- A record that consists of complete records was made of complete entries. -/
private theorem items_eq_of_flatMap {items blocks : List Text} (entries : ∀ item ∈ items, item.length = 6 ∨ item = [])
    (whole : ∀ block ∈ blocks, block.length = 6)
    (same : items.flatMap priorityEntry = blocks.flatMap priorityEntry) : items = blocks := by
  have later : ∀ {item : Text} {items : List Text}, (∀ next ∈ item :: items, next.length = 6 ∨ next = []) →
      ∀ next ∈ items, next.length = 6 ∨ next = [] := fun all next member => all next (List.mem_cons_of_mem _ member)
  induction items generalizing blocks with
  | nil =>
    cases blocks with
    | nil => rfl
    | cons block blocks =>
      have length := congrArg List.length same
      have six := whole block List.mem_cons_self
      simp [priorityEntry, six] at length
      omega
  | cons item items ih =>
    rcases entries item List.mem_cons_self with six | rfl
    · cases blocks with
      | nil =>
        have length := congrArg List.length same
        simp [priorityEntry, six] at length
      | cons block blocks =>
        have blockSix := whole block List.mem_cons_self
        rw [List.flatMap_cons, List.flatMap_cons, priorityEntry, priorityEntry, List.append_assoc, List.append_assoc] at same
        obtain ⟨rfl, rest⟩ := List.append_inj same (six.trans blockSix.symm)
        rw [ih (later entries) (fun block member => whole block (List.mem_cons_of_mem _ member))
          (List.append_cancel_left rest)]
    · exact absurd same (technology_append_ne (later entries) whole)

end Entries

section Words

private theorem technology_length : hpplmnSelectorTechnology.length = 4 := by decide

/-- The words that are read while there is the room for a complete record. -/
def usedWords : ℕ → List Text → List Text
  | _, [] => []
  | len, word :: words =>
    if len + 10 < prioBufSize then word :: usedWords (len + (encodedEntry word).length + 4) words else []

private theorem recordFrom_prio (len : ℕ) (words : List Text) :
    recordFrom prioBufSize (fun len => len + 10 < prioBufSize) hpplmnSelectorTechnology len words =
      ((usedWords len words).map encodedEntry).flatMap priorityEntry := by
  induction words generalizing len with
  | nil => rfl
  | cons word words ih =>
    rw [recordFrom, usedWords]
    by_cases room : len + 10 < prioBufSize
    · have item : itemAt prioBufSize hpplmnSelectorTechnology len word = priorityEntry (encodedEntry word) := by
        rw [itemAt, if_pos (by omega)]
        rfl
      rw [if_pos (decide_eq_true room), if_pos room, item, ih, priorityEntry, List.length_append, technology_length,
        List.map_cons, List.flatMap_cons, priorityEntry, Nat.add_assoc]
    · simp [room]

/-- Words with an entry each are read up to the number for which there is the room. -/
private theorem usedWords_eq {len count : ℕ} {words : List Text} (room : len + 10 * count = 170)
    (valid : (∀ word ∈ usedWords len words, (encodedEntry word).length = 6) ∨
      ∀ word ∈ words.take count, (encodedEntry word).length = 6) : usedWords len words = words.take count := by
  have size : prioBufSize = 178 := rfl
  induction words generalizing len count with
  | nil => simp [usedWords]
  | cons word words ih =>
    cases count with
    | zero => rw [usedWords, if_neg (by omega), List.take_zero]
    | succ count =>
      have here : len + 10 < prioBufSize := by omega
      rw [usedWords, if_pos here, List.take_succ_cons] at valid ⊢
      have six : (encodedEntry word).length = 6 := valid.elim (· word List.mem_cons_self) (· word List.mem_cons_self)
      rw [six] at valid ⊢
      refine congrArg (word :: ·) (ih (by omega) (valid.imp ?_ ?_)) <;>
        exact fun all word member => all word (List.mem_cons_of_mem _ member)

private theorem isPlmnToken_iff {token : Text} : isPlmnToken token = true ↔
    (token.length = 5 ∨ token.length = 6) ∧ ∀ digit ∈ token, digit.isDigit = true := by
  simp [isPlmnToken]

/-- A word is encoded as a network exactly if it is taken for that network. -/
private theorem encodedEntry_eq_iff {word token : Text} (valid : isPlmnToken token = true) :
    encodedEntry word = entryOf token ↔ plmnName word = token := by
  obtain ⟨length, decimal⟩ := isPlmnToken_iff.mp valid
  have noFiller : 'F' ∉ token := fun member => absurd (decimal 'F' member) (by decide)
  have six : (entryOf token).length = 6 := (entryOf_length.resolve_right fun other => other.1 length).2
  unfold encodedEntry plmnName
  generalize word.takeWhile isHexDigit = digits
  by_cases encoded : digits.length = 5 ∨ digits.length = 6
  · -- the filler of five digits stands where the fourth one of six does
    match digits, encoded, token, length with
    | [b0, b1, b2, b3, b4], _, [t0, t1, t2, t3, t4], _ =>
      simp [entryOf]
      tauto
    | [b0, b1, b2, b3, b4], _, [t0, t1, t2, t3, t4, t5], _ =>
      have fourth : t3 ≠ 'F' := fun same => noFiller (by simp [same])
      simp [entryOf, fourth.symm]
    | [b0, b1, b2, b3, b4, b5], _, [t0, t1, t2, t3, t4], _ =>
      by_cases filler : b3 = 'F' <;> simp [entryOf, filler]
      tauto
    | [b0, b1, b2, b3, b4, b5], _, [t0, t1, t2, t3, t4, t5], _ =>
      have fourth : t3 ≠ 'F' := fun same => noFiller (by simp [same])
      by_cases filler : b3 = 'F'
      · simp [entryOf, filler, fourth.symm]
      · simp [entryOf, filler]
        tauto
  · have nothing : entryOf digits = [] := (entryOf_length.resolve_left fun other => encoded other.1).2
    have unnamed : ¬ (digits.length = 6 ∧ digits[3]? = some 'F') := fun filler => encoded (.inr filler.1)
    rw [nothing]
    simp only [unnamed, ↓reduceIte]
    constructor
    · intro same
      rw [← same] at six
      contradiction
    · rintro rfl
      exact absurd length encoded

/-- Words are encoded as networks exactly if they are taken for these, one by one. -/
private theorem map_encodedEntry_iff {words tokens : List Text} (valid : ∀ token ∈ tokens, isPlmnToken token = true) :
    words.map encodedEntry = tokens.map entryOf ↔ words.map plmnName = tokens := by
  induction words generalizing tokens with
  | nil => cases tokens <;> simp
  | cons word words ih =>
    cases tokens with
    | nil => simp
    | cons token tokens =>
      have later := @ih tokens fun token member => valid token (List.mem_cons_of_mem _ member)
      simp only [List.map_cons, List.cons.injEq, encodedEntry_eq_iff (valid token List.mem_cons_self), later]

private theorem validTokens_valid {parameter : Text} : ∀ token ∈ validTokens parameter, isPlmnToken token = true :=
  fun _ member => (List.mem_filter.mp member).2

private theorem entryOf_token_length {token : Text} (valid : isPlmnToken token = true) : (entryOf token).length = 6 :=
  (entryOf_length.resolve_right fun other => other.1 (isPlmnToken_iff.mp valid).1).2

/-- The record is that of the networks exactly if the words for which there is the room are taken for them. -/
private theorem record_eq_iff {words tokens : List Text} (valid : ∀ token ∈ tokens, isPlmnToken token = true) :
    ((usedWords 0 words).map encodedEntry).flatMap priorityEntry = tokens.flatMap (fun token => priorityEntry (entryOf token)) ↔
      (words.take 17).map plmnName = tokens := by
  have whole : ∀ block ∈ tokens.map entryOf, block.length = 6 := by
    intro block member
    obtain ⟨token, named, rfl⟩ := List.mem_map.mp member
    exact entryOf_token_length (valid token named)
  have entries : ∀ item ∈ (usedWords 0 words).map encodedEntry, item.length = 6 ∨ item = [] := by
    intro item member
    obtain ⟨word, _, rfl⟩ := List.mem_map.mp member
    exact encodedEntry_length word
  -- words that are encoded as networks have an entry each
  have complete : ∀ {read : List Text}, read.map encodedEntry = tokens.map entryOf →
      ∀ word ∈ read, (encodedEntry word).length = 6 := by
    intro read same word member
    have found := List.mem_map_of_mem (f := encodedEntry) member
    rw [same] at found
    exact whole _ found
  have blocks : tokens.flatMap (fun token => priorityEntry (entryOf token)) = (tokens.map entryOf).flatMap priorityEntry := by
    rw [List.flatMap_map]
  rw [blocks, ← map_encodedEntry_iff valid]
  constructor
  · intro same
    have equal := items_eq_of_flatMap entries whole same
    rwa [@usedWords_eq 0 17 words rfl (.inl (complete equal))] at equal
  · intro same
    rw [@usedWords_eq 0 17 words rfl (.inr (complete same)), same]

end Words

/-- For every parameter: `prio` writes one record for each network exactly if it is not supported, or if the first 17
words that it reads are taken, one by one, for the networks of the parameter. -/
theorem writesNetworks_iff (simService : UInt8) (parameter : Text) :
    WritesNetworks (validTokens parameter) (modemCmdPrio simService parameter) ↔
      simService &&& service20Bit = 0 ∨ ((words parameter).take 17).map plmnName = validTokens parameter := by
  unfold modemCmdPrio
  split
  · next unsupported => simp [WritesNetworks, unsupported]
  · next supported =>
    have fits : ∀ len, decide (len + 10 < prioBufSize) = true →
        hpplmnSelectorTechnology = [] ∨ len + 6 + hpplmnSelectorTechnology.length ≤ prioBufSize := by
      intro len room
      rw [decide_eq_true_eq] at room
      rw [technology_length]
      exact .inr (by omega)
    rw [encodeCommand_eq fits (by decide), recordFrom_prio, or_iff_right supported,
      ← record_eq_iff validTokens_valid]
    by_cases nothing : words parameter = []
    · rw [if_pos nothing, nothing]
      have empty : validTokens parameter = [] ↔
          [] = (validTokens parameter).flatMap fun token => priorityEntry (entryOf token) := by
        rw [eq_comm (a := []), List.flatMap_eq_nil_iff, List.eq_nil_iff_forall_not_mem]
        simp [priorityEntry, hpplmnSelectorTechnology]
      exact empty
    · have first : ((usedWords 0 (words parameter)).map encodedEntry).flatMap priorityEntry ≠ [] := by
        obtain ⟨word, more, read⟩ := List.exists_cons_of_ne_nil nothing
        have room : 0 + 10 < prioBufSize := by decide
        rw [read, usedWords, if_pos room]
        simp [priorityEntry, hpplmnSelectorTechnology]
      rw [if_neg nothing, if_neg first]
      constructor
      · intro writes
        exact writes.2.1
      · intro same
        have even : ((validTokens parameter).flatMap fun token => priorityEntry (entryOf token)).length =
            (validTokens parameter).length * 10 := by
          have ten : ∀ token ∈ validTokens parameter, (priorityEntry (entryOf token)).length = 10 := by
            intro token member
            rw [priorityEntry, List.length_append, entryOf_token_length (validTokens_valid token member), technology_length]
          rw [List.length_flatMap, List.map_congr_left ten, List.map_const', List.sum_replicate_nat]
        refine ⟨rfl, same, ?_⟩
        rw [same, even]
        omega

private theorem not_writesNetworks {networks : List Text} {id bytes : ℕ} {record : Text}
    (different : record ≠ networks.flatMap fun token => priorityEntry (entryOf token)) :
    ¬ WritesNetworks networks (some (.write id bytes record)) :=
  fun writes => different writes.2.1

/-- The parameter "26202 2620 26201". -/
def shortWordParameter : Text := "26202 2620 26201".toList

/-- The technology behind the second word, which is too short, is written alone. -/
theorem short_word_shifts :
    modemCmdPrio 1 shortWordParameter = some (.write 28512 12 "62F2204000400062F2104000".toList) ∧
      validTokens shortWordParameter = ["26202".toList, "26201".toList] ∧
      ¬ WritesNetworks (validTokens shortWordParameter) (modemCmdPrio 1 shortWordParameter) := by
  have written : modemCmdPrio 1 shortWordParameter = some (.write 28512 12 "62F2204000400062F2104000".toList) := by
    decide +kernel
  have different : "62F2204000400062F2104000".toList ≠
      (validTokens shortWordParameter).flatMap fun token => priorityEntry (entryOf token) := by decide +kernel
  refine ⟨written, by decide +kernel, ?_⟩
  rw [written]
  exact not_writesNetworks different

end CoapsClient.ModemSim
