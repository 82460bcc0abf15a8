import CoapsClient.Model.Modem.Sim

/-! # Encoding lists for the SIM card

`ban` and `prio` read words from their parameter and append the entry of each to a record, `prio` with the technology
behind it. The array is cleared before, so that a record is the string in it.
-/

namespace CoapsClient.ModemSim

open ShCmd (Text parseNextText)
open Machine (put putAll)

/-- The entry of five or six digits. -/
def entryOf : Text → Text
  | [b0, b1, b2, b3, b4] => [b1, b0, 'F', b2, b4, b3]
  | [b0, b1, b2, b3, b4, b5] => [b1, b0, b3, b2, b5, b4]
  | _ => []

/-- The entry of a word, from the digits at its start. -/
def encodedEntry (word : Text) : Text := entryOf (word.takeWhile isHexDigit)

section Entry

variable {word front : Text} {room : ℕ}

/-- An entry has six characters, and there is one for five or six digits only. -/
theorem entryOf_length {digits : Text} :
    (digits.length = 5 ∨ digits.length = 6) ∧ (entryOf digits).length = 6 ∨
      ¬ (digits.length = 5 ∨ digits.length = 6) ∧ entryOf digits = [] := by
  match digits with
  | [] | [_] | [_, _] | [_, _, _] | [_, _, _, _] => exact .inr ⟨by simp, rfl⟩
  | [_, _, _, _, _] => exact .inl ⟨.inl rfl, rfl⟩
  | [_, _, _, _, _, _] => exact .inl ⟨.inr rfl, rfl⟩
  | _ :: _ :: _ :: _ :: _ :: _ :: _ :: _ => exact .inr ⟨by simp, rfl⟩

private theorem charAt_append_left {text rest : Text} {index : ℕ} (inside : index < text.length) :
    charAt (text ++ rest) index = some text[index] := by
  rw [charAt, List.append_assoc, List.getElem?_append_left inside, List.getElem?_eq_getElem inside]

/-- `encode_plmn` stores the entry of a word and a NUL, behind what was written. -/
theorem encodePlmn_eq {rest : Text} (enough : 6 < rest.length) :
    encodePlmn word (front ++ rest) front.length rest.length = some ((encodedEntry word).length,
      front ++ if encodedEntry word = [] then rest else encodedEntry word ++ nul :: rest.drop 7) := by
  obtain ⟨r0, r1, r2, r3, r4, r5, r6, tail, rfl⟩ : ∃ r0 r1 r2 r3 r4 r5 r6 tail,
      rest = r0 :: r1 :: r2 :: r3 :: r4 :: r5 :: r6 :: tail := by
    match rest, enough with
    | r0 :: r1 :: r2 :: r3 :: r4 :: r5 :: r6 :: tail, _ => exact ⟨r0, r1, r2, r3, r4, r5, r6, tail, rfl⟩
  have store : ∀ (rest : Text) (char : Char), put (front ++ rest) front.length char = (put rest 0 char).map (front ++ ·) :=
    fun rest char => @Machine.put_append _ front rest 0 char
  have whole : word = word.takeWhile isHexDigit ++ word.dropWhile isHexDigit := List.takeWhile_append_dropWhile.symm
  have read : ∀ index (inside : index < (word.takeWhile isHexDigit).length),
      charAt word index = some (word.takeWhile isHexDigit)[index] := by
    intro index inside
    conv_lhs => rw [whole]
    exact charAt_append_left inside
  unfold encodePlmn encodedEntry
  generalize word.takeWhile isHexDigit = digits at read ⊢
  match digits with
  | [] | [_] | [_, _] | [_, _, _] | [_, _, _, _] => simp [entryOf]
  | [b0, b1, b2, b3, b4] =>
    have chars : charAt word 0 = some b0 ∧ charAt word 1 = some b1 ∧ charAt word 2 = some b2 ∧ charAt word 3 = some b3 ∧
        charAt word 4 = some b4 :=
      ⟨read 0 (by simp), read 1 (by simp), read 2 (by simp), read 3 (by simp), read 4 (by simp)⟩
    simp [entryOf, chars, store, Machine.put_append]
  | [b0, b1, b2, b3, b4, b5] =>
    have chars : charAt word 0 = some b0 ∧ charAt word 1 = some b1 ∧ charAt word 2 = some b2 ∧ charAt word 3 = some b3 ∧
        charAt word 4 = some b4 ∧ charAt word 5 = some b5 :=
      ⟨read 0 (by simp), read 1 (by simp), read 2 (by simp), read 3 (by simp), read 4 (by simp), read 5 (by simp)⟩
    simp [entryOf, chars, store, Machine.put_append]
  | _ :: _ :: _ :: _ :: _ :: _ :: _ :: _ => simp [entryOf]

/-- Without the room for an entry and a NUL, nothing is stored. -/
private theorem encodePlmn_of_le {array : Text} {index : ℕ} (small : room ≤ 6) :
    encodePlmn word array index room = some (0, array) := by
  rw [encodePlmn, if_neg (by omega)]

/-- In a cleared array, the NUL behind an entry was there before. -/
private theorem encodePlmn_cleared : encodePlmn word (front ++ List.replicate room nul) front.length room =
    some ((if 6 < room then encodedEntry word else []).length, front ++ (if 6 < room then encodedEntry word else []) ++
      List.replicate (room - (if 6 < room then encodedEntry word else []).length) nul) := by
  by_cases enough : 6 < room
  · have length : (List.replicate room nul).length = room := List.length_replicate
    have encoded := @encodePlmn_eq word front (List.replicate room nul) (by omega)
    rw [length] at encoded
    rw [encoded, if_pos enough]
    rcases @entryOf_length (word.takeWhile isHexDigit) with ⟨_, six⟩ | ⟨_, none⟩
    · have some' : encodedEntry word ≠ [] := List.ne_nil_of_length_pos (by rw [encodedEntry, six]; decide)
      obtain ⟨more, rfl⟩ : ∃ more, room = more + 7 := ⟨room - 7, by omega⟩
      have behind : more + 7 - (encodedEntry word).length = more + 1 := by rw [encodedEntry, six]; omega
      rw [if_neg some', behind, List.drop_replicate, Nat.add_sub_cancel, List.replicate_succ, List.append_assoc]
    · have nothing : encodedEntry word = [] := none
      simp [nothing]
  · rw [encodePlmn_of_le (by omega), if_neg enough]
    simp

end Entry

/-- The words that are read, up to an empty one. -/
def wordsFrom : ℕ → Text → Text → List Text
  | 0, _, _ => []
  | fuel + 1, plmn, cur => if plmn = [] then [] else plmn :: wordsFrom fuel (nextPlmn cur).1 (nextPlmn cur).2

/-- The words of a parameter. -/
def words (parameter : Text) : List Text :=
  wordsFrom (parameter.length + 1) (nextPlmn parameter).1 (nextPlmn parameter).2

/-- What is appended for a word, to a record of a length. -/
def itemAt (size : ℕ) (technology : Text) (len : ℕ) (word : Text) : Text :=
  (if 6 < size - len then encodedEntry word else []) ++ technology

/-- The record of words, behind a record of a length. -/
def recordFrom (size : ℕ) (more : ℕ → Bool) (technology : Text) : ℕ → List Text → Text
  | _, [] => []
  | len, word :: words =>
    if more len then
      itemAt size technology len word ++
        recordFrom size more technology (len + (itemAt size technology len word).length) words
    else []

section Loop

variable {size : ℕ} {more : ℕ → Bool} {technology : Text}

/-- A word leaves less to read. -/
private theorem nextPlmn_length {cur : Text} (some' : (nextPlmn cur).1 ≠ []) : (nextPlmn cur).2.length < cur.length := by
  unfold nextPlmn parseNextText at *
  generalize behind : (if cur.head? = some ' ' then cur.tail else cur) = value at some' ⊢
  simp only at some' ⊢
  have shorter : value.length ≤ cur.length := by
    rw [← behind]
    split
    · rw [List.length_tail]
      omega
    · exact Nat.le_refl _
  have word : value.takeWhile (· ≠ ' ') ≠ [] := by
    intro none
    rw [none] at some'
    exact some' rfl
  have parts := congrArg List.length (@List.takeWhile_append_dropWhile _ (· ≠ ' ') value)
  rw [List.length_append] at parts
  have positive := List.length_pos_of_ne_nil word
  rw [List.length_tail]
  omega

/-- An entry is six characters or none. -/
theorem encodedEntry_length (word : Text) : (encodedEntry word).length = 6 ∨ encodedEntry word = [] :=
  entryOf_length.imp And.right And.right

/-- What is stored in front of cleared characters leaves cleared ones behind it. -/
private theorem putAll_cleared {front items : Text} {room : ℕ} (fits : items.length ≤ room) :
    putAll (front ++ List.replicate room nul) front.length items =
      some (front ++ items ++ List.replicate (room - items.length) nul) := by
  have stored := @Machine.putAll_append _ front (List.replicate room nul) items 0
  rw [Nat.add_zero, Machine.putAll_zero (by rwa [List.length_replicate]), List.drop_replicate] at stored
  rw [stored, Option.map_some, List.append_assoc]

/-- One turn of the loop. -/
private theorem encodeLoop_turn (fits : ∀ len, more len = true → technology = [] ∨ len + 6 + technology.length ≤ size)
    {fuel : ℕ} {plmn cur front : Text} (inside : front.length ≤ size) (word : plmn ≠ [])
    (goesOn : more front.length = true) :
    (front ++ itemAt size technology front.length plmn).length ≤ size ∧
    encodeLoop more technology (fuel + 1) plmn cur (front ++ List.replicate (size - front.length) nul) front.length =
      encodeLoop more technology fuel (nextPlmn cur).1 (nextPlmn cur).2
        (front ++ itemAt size technology front.length plmn ++
          List.replicate (size - (front ++ itemAt size technology front.length plmn).length) nul)
        (front ++ itemAt size technology front.length plmn).length := by
  have length : (front ++ List.replicate (size - front.length) nul).length - front.length = size - front.length := by simp
  rw [encodeLoop, if_pos ⟨word, goesOn⟩, length, encodePlmn_cleared]
  unfold itemAt
  have short := encodedEntry_length plmn
  generalize stored : (if 6 < size - front.length then encodedEntry plmn else []) = entry
  have room : front.length + entry.length + technology.length ≤ size := by
    have bound : entry.length ≤ 6 ∧ (6 < size - front.length ∨ entry.length = 0) := by
      rw [← stored]
      split
      · next enough =>
        refine ⟨?_, .inl enough⟩
        rcases short with six | none
        · omega
        · simp [none]
      · simp
    rcases fits _ goesOn with none | enough
    · rw [none, List.length_nil]
      omega
    · omega
  have appended : putAll (front ++ entry ++ List.replicate (size - front.length - entry.length) nul)
      (front.length + entry.length) technology =
        some (front ++ (entry ++ technology) ++ List.replicate (size - (front ++ (entry ++ technology)).length) nul) := by
    have stored := @putAll_cleared (front ++ entry) technology (size - front.length - entry.length) (by omega)
    rw [List.length_append] at stored
    rw [stored, List.append_assoc front]
    congr 3
    simp only [List.length_append]
    omega
  refine ⟨by simp only [List.length_append]; omega, ?_⟩
  simp only [Option.bind_eq_bind, Option.bind_some, appended]
  simp only [List.length_append, Nat.add_assoc]

/-- The loop appends the items of the words to the record, in an array that is cleared behind it. -/
private theorem encodeLoop_eq (fits : ∀ len, more len = true → technology = [] ∨ len + 6 + technology.length ≤ size)
    {fuel : ℕ} {plmn cur front record : Text} (inside : front.length ≤ size) (turn : 0 < fuel)
    (enough : plmn ≠ [] → cur.length + 1 < fuel)
    (reads : record = recordFrom size more technology front.length (wordsFrom fuel plmn cur)) :
    (front ++ record).length ≤ size ∧
    encodeLoop more technology fuel plmn cur (front ++ List.replicate (size - front.length) nul) front.length =
      some (front ++ record ++ List.replicate (size - (front ++ record).length) nul, (front ++ record).length) := by
  induction fuel generalizing plmn cur front record with
  | zero => exact absurd turn (Nat.lt_irrefl 0)
  | succ fuel ih =>
    rw [wordsFrom] at reads
    by_cases word : plmn = []
    · rw [if_pos word, recordFrom] at reads
      simp [encodeLoop, word, reads, inside]
    · rw [if_neg word, recordFrom] at reads
      by_cases goesOn : more front.length = true
      · rw [if_pos goesOn] at reads
        have left := enough word
        have later : (nextPlmn cur).1 ≠ [] → (nextPlmn cur).2.length + 1 < fuel := by
          intro next
          have shorter := nextPlmn_length next
          omega
        obtain ⟨room, turned⟩ := @encodeLoop_turn size more technology fits fuel plmn cur front inside word goesOn
        obtain ⟨bound, looped⟩ := @ih (nextPlmn cur).1 (nextPlmn cur).2 (front ++ itemAt size technology front.length plmn)
          (recordFrom size more technology (front.length + (itemAt size technology front.length plmn).length)
            (wordsFrom fuel (nextPlmn cur).1 (nextPlmn cur).2))
          room (by omega) later (by rw [List.length_append])
        rw [reads, ← List.append_assoc, turned]
        exact ⟨bound, looped⟩
      · rw [if_neg goesOn] at reads
        simp [encodeLoop, goesOn, reads, inside]

end Loop

section Commands

variable {id size : ℕ} {more : ℕ → Bool} {technology parameter : Text}

/-- An entry consists of digits of the word, and the filler. -/
private theorem mem_entryOf {digits : Text} {char : Char} (found : char ∈ entryOf digits) : char = 'F' ∨ char ∈ digits := by
  match digits with
  | [] | [_] | [_, _] | [_, _, _] | [_, _, _, _] => simp [entryOf] at found
  | [b0, b1, b2, b3, b4] =>
    simp only [entryOf, List.mem_cons, List.not_mem_nil, or_false] at found ⊢
    tauto
  | [b0, b1, b2, b3, b4, b5] =>
    simp only [entryOf, List.mem_cons, List.not_mem_nil, or_false] at found ⊢
    tauto
  | _ :: _ :: _ :: _ :: _ :: _ :: _ :: _ => simp [entryOf] at found

private theorem nul_not_mem_encodedEntry (word : Text) : nul ∉ encodedEntry word := by
  intro found
  rcases mem_entryOf found with filler | member
  · exact absurd filler (by decide)
  · exact absurd (List.mem_takeWhile_imp member) (by decide)

/-- The string in an array that is cleared behind it. -/
private theorem string_cleared {record : Text} (free : nul ∉ record) (room : ℕ) :
    string (record ++ List.replicate room nul) = record := by
  have visible : ∀ char ∈ record, decide (char ≠ nul) = true := fun char member =>
    decide_eq_true fun same => free (same ▸ member)
  rw [string, List.takeWhile_append_of_pos visible]
  cases room <;> simp [List.replicate_succ]

private theorem nul_not_mem_recordFrom (free : nul ∉ technology) (len : ℕ) (words : List Text) :
    nul ∉ recordFrom size more technology len words := by
  induction words generalizing len with
  | nil => simp [recordFrom]
  | cons word words ih =>
    rw [recordFrom]
    split
    · unfold itemAt
      split <;> simp [nul_not_mem_encodedEntry, free, ih]
    · simp

/-- A command writes the record of its words, and reads the list without one. -/
theorem encodeCommand_eq (fits : ∀ len, more len = true → technology = [] ∨ len + 6 + technology.length ≤ size)
    (free : nul ∉ technology) :
    encodeCommand id size more technology parameter =
      some (if words parameter = [] then .read
        else if recordFrom size more technology 0 (words parameter) = [] then .nothing
        else .write id ((recordFrom size more technology 0 (words parameter)).length / 2)
          (recordFrom size more technology 0 (words parameter))) := by
  have enough : (nextPlmn parameter).1 ≠ [] → (nextPlmn parameter).2.length + 1 < parameter.length + 1 := by
    intro word
    have shorter := nextPlmn_length word
    omega
  obtain ⟨_, looped⟩ := @encodeLoop_eq size more technology fits (parameter.length + 1) (nextPlmn parameter).1
    (nextPlmn parameter).2 [] (recordFrom size more technology 0 (words parameter)) (Nat.zero_le _) (Nat.succ_pos _) enough rfl
  have noNul := @nul_not_mem_recordFrom size more technology free 0 (words parameter)
  have first : words parameter = [] ↔ (nextPlmn parameter).1 = [] := by
    rw [words, wordsFrom]
    split
    · next none => simp [none]
    · next some' => simp [some']
  rw [encodeCommand]
  by_cases none : (nextPlmn parameter).1 = []
  · rw [if_pos (first.mpr none)]
    simp [none]
  · rw [if_neg (fun nothing => none (first.mp nothing))]
    simp only [List.nil_append, List.length_nil, Nat.sub_zero] at looped
    simp only [ne_eq, none, not_false_eq_true, ↓reduceIte, Option.bind_eq_bind, looped, Option.bind_some,
      string_cleared noNul, List.length_eq_zero_iff, ite_not]

end Commands

section Valid

/-- Decimal digits are taken by `encode_plmn`. -/
private theorem isHexDigit_of_isDigit {char : Char} (digit : char.isDigit = true) : isHexDigit char = true := by
  simp only [Char.isDigit, Bool.and_eq_true, decide_eq_true_eq, UInt32.le_iff_toNat_le, ge_iff_le] at digit
  have low : 48 ≤ char.toNat := digit.1
  have high : char.toNat ≤ 57 := digit.2
  rw [← Char.ofNat_toNat char]
  generalize char.toNat = code at low high
  obtain ⟨offset, rfl⟩ := Nat.exists_eq_add_of_le low
  have digits : ∀ offset < 10, isHexDigit (Char.ofNat (48 + offset)) = true := by decide
  exact digits offset (by omega)

/-- The name of a network is encoded with all its digits. -/
theorem encodedEntry_plmn (plmn : Plmn) : encodedEntry plmn.digits = entryOf plmn.digits := by
  have all : plmn.digits.takeWhile isHexDigit = plmn.digits :=
    List.takeWhile_eq_self_iff.mpr fun digit member => isHexDigit_of_isDigit (plmn.decimal digit member)
  rw [encodedEntry, all]

theorem entryOf_plmn_length (plmn : Plmn) : (entryOf plmn.digits).length = 6 :=
  (entryOf_length.resolve_right fun other => other.1 plmn.length_eq).2

variable {size limit : ℕ} {more : ℕ → Bool} {technology : Text}

/-- As long as there is the room, the record of words with an entry each is that of all of them. -/
theorem recordFrom_valid {len : ℕ} {words : List Text}
    (valid : ∀ word ∈ words, (encodedEntry word).length = 6)
    (goesOn : ∀ len, len + (6 + technology.length) ≤ limit → more len = true ∧ 6 < size - len)
    (enough : len + words.length * (6 + technology.length) ≤ limit) :
    recordFrom size more technology len words = words.flatMap fun word => encodedEntry word ++ technology := by
  induction words generalizing len with
  | nil => rfl
  | cons word words ih =>
    rw [List.length_cons, Nat.succ_mul] at enough
    obtain ⟨continues, fits⟩ := goesOn len (by omega)
    have here := valid word List.mem_cons_self
    have item : itemAt size technology len word = encodedEntry word ++ technology := by rw [itemAt, if_pos fits]
    rw [recordFrom, if_pos continues, item, List.flatMap_cons]
    congr 1
    refine ih (fun word member => valid word (List.mem_cons_of_mem _ member)) ?_
    rw [List.length_append, here]
    omega

end Valid

end CoapsClient.ModemSim
