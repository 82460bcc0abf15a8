import CoapsClient.Model.Modem.Sim
import CoapsClient.Model.Shell.Lookup

/-! # Decoding the lists of the SIM card into an array

An answer holds entries of a size, and the array gets the digits of those that are selected, each with a comma behind
it; the last comma becomes the NUL. The loops ask for the room of six digits and one character, and write two.

`get_plmns` and `get_prio_plmns` ask for the room of six digits and a NUL, and write a comma in front of that NUL. The
room is missing only when the digits and commas of the first networks fill the array completely: the callers pass 15 * 7
characters, which 15 networks of six digits do.
-/

namespace CoapsClient.ModemSim

open ShCmd (Text strstart)
open Machine (put putAll ended pieces)

/-- The digits of an entry. -/
def entryDigits (entry : Text) : Text :=
  ([1, 0, 3, 2, 5, 4].filterMap fun index => entry[index]?).filter (· ≠ 'F')

/-- A text goes on with an entry. -/
def opens (text : Text) : Bool := text.head?.any fun first => first ≠ nul ∧ first ≠ '"'

/-- The entries of a record, up to one that begins with the closing quote. -/
def entries (size : ℕ) (record : Text) : List Text := (pieces size record).takeWhile opens

/-- An entry stands for a network. -/
def isNetwork (selects : Text → Bool) (entry : Text) : Bool :=
  selects entry ∧ entry.take (modemPlmnSize - 1) ≠ plmnNone

/-- The networks of a record, by their digits. -/
def networks (size : ℕ) (selects : Text → Bool) (record : Text) : List Text :=
  ((entries size record).filter (isNetwork selects)).map entryDigits

/-- The networks of an answer. -/
def responseNetworks (size : ℕ) (selects : Text → Bool) (response : Text) : List Text :=
  if strstart response crsmSuccess false = 0 then []
  else networks size selects (response.drop (strstart response crsmSuccess false))

section Entry

variable {buf array : Text} {plmn : ℕ}

/-- The digits that are appended are stored one behind the other. -/
private theorem appendDigits_eq {order : List ℕ} (inside : ∀ index ∈ order, index < buf.length) :
    appendDigits buf array plmn order =
      (putAll array plmn ((order.filterMap fun index => buf[index]?).filter (· ≠ 'F'))).map fun array =>
        (array, plmn + ((order.filterMap fun index => buf[index]?).filter (· ≠ 'F')).length) := by
  induction order generalizing array plmn with
  | nil => rfl
  | cons index order ih =>
    have here := inside index List.mem_cons_self
    have later : ∀ index ∈ order, index < buf.length := fun index member => inside index (List.mem_cons_of_mem _ member)
    have read : buf[index]? = some buf[index] := List.getElem?_eq_getElem here
    have char : charAt buf index = some buf[index] := by rw [charAt, List.getElem?_append_left here, read]
    rw [appendDigits, char, List.filterMap_cons_some read]
    simp only [Option.bind_eq_bind, Option.bind_some, appendPlmn]
    by_cases filler : buf[index] = 'F'
    · rw [List.filter_cons_of_neg (by simpa using filler), if_neg (by simpa using filler), Option.bind_some]
      exact ih later
    · rw [List.filter_cons_of_pos (by simpa using filler), if_pos filler, putAll]
      cases put array plmn buf[index] with
      | none => rfl
      | some array =>
        simp only [Option.map_some, Option.bind_some, List.length_cons]
        rw [ih later, Nat.add_assoc, Nat.add_comm 1]

/-- An entry that is not only filler has digits, at most six. -/
private theorem entryDigits_length (long : 6 ≤ buf.length) (used : buf.take 6 ≠ plmnNone) :
    1 ≤ (entryDigits buf).length ∧ (entryDigits buf).length ≤ 6 := by
  obtain ⟨a, b, c, d, e, f, rest, rfl⟩ : ∃ a b c d e f rest, buf = a :: b :: c :: d :: e :: f :: rest := by
    match buf, long with
    | a :: b :: c :: d :: e :: f :: rest, _ => exact ⟨a, b, c, d, e, f, rest, rfl⟩
  have digits : entryDigits (a :: b :: c :: d :: e :: f :: rest) = [b, a, d, c, f, e].filter (· ≠ 'F') := rfl
  rw [digits]
  refine ⟨?_, List.length_filter_le _ _⟩
  by_contra none
  have empty : [b, a, d, c, f, e].filter (· ≠ 'F') = [] := List.length_eq_zero_iff.mp (by omega)
  simp only [List.filter_eq_nil_iff, List.mem_cons, List.not_mem_nil, or_false, decide_eq_true_eq, not_not,
    forall_eq_or_imp, forall_eq] at empty
  obtain ⟨rfl, rfl, rfl, rfl, rfl, rfl⟩ := empty
  exact used rfl

/-- `get_plmn` stores the digits of an entry and a NUL. -/
private theorem getPlmn_eq (long : 6 ≤ buf.length) (open' : opens buf = true) (used : buf.take 6 ≠ plmnNone) :
    getPlmn buf 6 array plmn = (putAll array plmn (entryDigits buf ++ [nul])).map fun array =>
      ((entryDigits buf).length, array) := by
  obtain ⟨first, rest, rfl⟩ : ∃ first rest, buf = first :: rest :=
    List.exists_cons_of_length_pos (Nat.lt_of_lt_of_le (by decide) long)
  have start : first ≠ nul ∧ first ≠ '"' := by simpa [opens] using open'
  have read : readChars (first :: rest) 6 = some ((first :: rest).take 6) := by
    rw [readChars, if_pos (by omega), List.take_append_of_le_length long]
  have inside : ∀ index ∈ [1, 0, 3, 2, 5, 4], index < (first :: rest).length := by
    intro index member
    simp only [List.mem_cons, List.not_mem_nil, or_false] at member
    omega
  have appended : appendDigits (first :: rest) array plmn [1, 0, 3, 2, 5, 4] =
      (putAll array plmn (entryDigits (first :: rest))).map fun array =>
        (array, plmn + (entryDigits (first :: rest)).length) := appendDigits_eq inside
  rw [Machine.putAll_items]
  unfold getPlmn
  simp only [charAt, List.cons_append, List.getElem?_cons_zero, Option.bind_eq_bind, Option.bind_some, start.1, start.2,
    ne_eq, not_false_eq_true, Nat.le_refl, and_self, ↓reduceIte, read, used, appended]
  cases putAll array plmn (entryDigits (first :: rest)) with
  | none => rfl
  | some array =>
    simp only [Option.map_some, Option.bind_some, putAll, Nat.add_sub_cancel_left]
    cases put array (plmn + (entryDigits (first :: rest)).length) nul <;> rfl

variable {front rest : Text} {state : Decoding}

/-- An entry is decoded behind what was written, with its comma and a NUL. -/
theorem Decoding.decode_eq (long : 6 ≤ buf.length) (open' : opens buf = true) (used : buf.take 6 ≠ plmnNone)
    (written : state.array = front ++ rest) (behind : state.plmn = front.length)
    (fits : (entryDigits buf).length + 2 ≤ rest.length) :
    state.decode buf = some { state with
      array := front ++ (entryDigits buf ++ [',']) ++ nul :: rest.drop ((entryDigits buf).length + 2)
      plmn := state.plmn + ((entryDigits buf).length + 1)
      plmnSize := state.plmnSize - ((entryDigits buf).length + 1)
      result := state.result + ((entryDigits buf).length + 1) } := by
  have digits := (entryDigits_length long used).1
  have stored : putAll (front ++ rest) front.length (entryDigits buf ++ [nul]) =
      some (front ++ (entryDigits buf ++ nul :: rest.drop ((entryDigits buf).length + 1))) := by
    have inRest := @Machine.putAll_append _ front rest (entryDigits buf ++ [nul]) 0
    rw [Nat.add_zero, Machine.putAll_zero (by rw [List.length_append, List.length_singleton]; omega)] at inRest
    simpa using inRest
  obtain ⟨old, more, split⟩ : ∃ old more, rest.drop ((entryDigits buf).length + 1) = old :: more :=
    List.exists_cons_of_length_pos (by rw [List.length_drop]; omega)
  have last : rest.drop ((entryDigits buf).length + 2) = more := by
    have next := congrArg (List.drop 1) split
    rwa [List.drop_drop] at next
  rw [split] at stored
  have comma : put (front ++ (entryDigits buf ++ nul :: old :: more)) (front.length + (entryDigits buf).length) ',' =
      some (front ++ (entryDigits buf ++ ',' :: old :: more)) := by
    have inRest := @Machine.put_append _ (front ++ entryDigits buf) (nul :: old :: more) 0 ','
    simpa using inRest
  have zero : put (front ++ (entryDigits buf ++ ',' :: old :: more)) (front.length + (entryDigits buf).length + 1) nul =
      some (front ++ (entryDigits buf ++ ',' :: nul :: more)) := by
    have inRest := @Machine.put_append _ (front ++ entryDigits buf) (',' :: old :: more) 1 nul
    simpa using inRest
  have nonzero : (entryDigits buf).length ≠ 0 := by omega
  rw [Decoding.decode, written, behind, show modemPlmnSize - 1 = 6 from rfl, getPlmn_eq long open' used, stored]
  simp only [Option.map_some, Option.bind_eq_bind, Option.bind_some, ne_eq, nonzero, not_false_eq_true, ↓reduceIte, comma,
    zero, last, List.append_assoc, List.singleton_append]

/-- Without the room for the digits and two characters, an entry is written over the end of the array. -/
theorem Decoding.decode_eq_none (long : 6 ≤ buf.length) (open' : opens buf = true) (used : buf.take 6 ≠ plmnNone)
    (written : state.array = front ++ rest) (behind : state.plmn = front.length)
    (over' : rest.length < (entryDigits buf).length + 2) : state.decode buf = none := by
  have digits := (entryDigits_length long used).1
  have inRest := @Machine.putAll_append _ front rest (entryDigits buf ++ [nul]) 0
  rw [Decoding.decode, written, behind, show modemPlmnSize - 1 = 6 from rfl, getPlmn_eq long open' used]
  rcases Nat.lt_or_ge rest.length ((entryDigits buf).length + 1) with short | room
  · rw [Nat.add_zero, Machine.putAll_eq_none (by rwa [List.length_append, List.length_singleton])] at inRest
    simp [inRest]
  · -- the NUL is the last character, and the comma takes its place
    have full : rest.drop ((entryDigits buf).length + 1) = [] := List.drop_eq_nil_of_le (by omega)
    have length : (entryDigits buf ++ [nul]).length = (entryDigits buf).length + 1 := by simp
    rw [Nat.add_zero, Machine.putAll_zero (by omega), length, full, List.append_nil] at inRest
    have comma : put (front ++ (entryDigits buf ++ [nul])) (front.length + (entryDigits buf).length) ',' =
        some (front ++ (entryDigits buf ++ [','])) := by
      have stored := @Machine.put_append _ (front ++ entryDigits buf) [nul] 0 ','
      simpa using stored
    have outside : put (front ++ (entryDigits buf ++ [','])) (front.length + (entryDigits buf).length + 1) nul = none :=
      Machine.put_eq_none (by simp; omega)
    have nonzero : (entryDigits buf).length ≠ 0 := by omega
    simp only [inRest, Option.map_some, Option.bind_eq_bind, Option.bind_some, ne_eq, nonzero, not_false_eq_true,
      ↓reduceIte, comma, outside, Option.bind_none]

end Entry

/-- The networks that are written into an array of a size: leading ones, as long as there is the room for one that
is asked for, and nothing when one of them is written over the end. -/
def fill : List Text → ℕ → Option (List Text)
  | [], _ => some []
  | digits :: networks, room =>
    if room < modemPlmnSize then some []
    else if room < digits.length + 2 then none
    else (fill networks (room - (digits.length + 1))).map (digits :: ·)

private theorem fill_of_lt {networks : List Text} {room : ℕ} (small : room < modemPlmnSize) :
    fill networks room = some [] := by
  cases networks with
  | nil => rfl
  | cons digits networks => rw [fill, if_pos small]

section Loop

variable {size : ℕ} {selects : Text → Bool} {text front rest : Text}

private theorem networks_of_lt (short : text.length < size) : networks size selects text = [] := by
  rw [networks, entries, Machine.pieces_of_lt short]
  rfl

private theorem networks_of_closed (positive : 0 < size) (closed : opens text = false) :
    networks size selects text = [] := by
  rcases Nat.lt_or_ge text.length size with short | long
  · exact networks_of_lt short
  · have first : opens (text.take size) = false := by
      rw [opens, List.head?_take, if_neg positive.ne']
      exact closed
    rw [networks, entries, Machine.pieces_eq_cons positive long, List.takeWhile_cons_of_neg (by simp [first])]
    rfl

private theorem networks_of_opens (positive : 0 < size) (long : size ≤ text.length) (open' : opens text = true) :
    networks size selects text = if isNetwork selects (text.take size) then
      entryDigits (text.take size) :: networks size selects (text.drop size) else networks size selects (text.drop size) := by
  have first : opens (text.take size) = true := by
    rw [opens, List.head?_take, if_neg positive.ne']
    exact open'
  rw [networks, entries, Machine.pieces_eq_cons positive long, List.takeWhile_cons_of_pos first, List.filter_cons]
  split <;> rfl

/-- The state of a loop: the text that is left, and what is written in front of the rest of the array. -/
def decodingAt (text front rest : Text) (result : ℕ) : Decoding :=
  ⟨text, text.length, front ++ rest, front.length, rest.length, result⟩

/-- The loop goes on while there is an entry and the room for one. -/
def GoesOn (size : ℕ) (text rest : Text) : Prop :=
  opens text = true ∧ size ≤ text.length ∧ modemPlmnSize ≤ rest.length

instance : Decidable (GoesOn size text rest) := inferInstanceAs (Decidable (_ ∧ _ ∧ _))

variable {fuel result : ℕ}

private theorem continues_eq :
    (decodingAt text front rest result).continues size = some (decide (GoesOn size text rest)) := by
  cases text with
  | nil => simp [decodingAt, Decoding.continues, charAt, GoesOn, opens]
  | cons first text =>
    have same : (first ≠ nul ∧ first ≠ '"' ∧ size ≤ (first :: text).length ∧ modemPlmnSize ≤ rest.length) ↔
        GoesOn size (first :: text) rest := by simp [GoesOn, opens, and_assoc]
    exact congrArg some (decide_eq_decide.mpr same)

private theorem readChars_eq (goesOn : GoesOn size text rest) : readChars text size = some (text.take size) := by
  have long := goesOn.2.1
  rw [readChars, if_pos (by omega), List.take_append_of_le_length long]

/-- The entry of a turn is complete, and begins as the text does. -/
private theorem take_entry (entrySize : 6 ≤ size) (goesOn : GoesOn size text rest) :
    6 ≤ (text.take size).length ∧ opens (text.take size) = true := by
  have long := goesOn.2.1
  refine ⟨by rw [List.length_take]; omega, ?_⟩
  rw [opens, List.head?_take, if_neg (by omega)]
  exact goesOn.1

private theorem decodeLoop_stop (ended : ¬ GoesOn size text rest) :
    decodeLoop size selects (fuel + 1) (decodingAt text front rest result) = some (decodingAt text front rest result) := by
  rw [decodeLoop, continues_eq]
  simp [ended]

/-- A turn over an entry that is not for a network. -/
private theorem decodeLoop_skip (goesOn : GoesOn size text rest) (other : isNetwork selects (text.take size) = false) :
    decodeLoop size selects (fuel + 1) (decodingAt text front rest result) =
      decodeLoop size selects fuel (decodingAt (text.drop size) front rest result) := by
  have skipped : ¬ (selects (text.take size) = true ∧ (text.take size).take (modemPlmnSize - 1) ≠ plmnNone) := by
    simpa [isNetwork] using other
  have list : (decodingAt text front rest result).list = text := rfl
  rw [decodeLoop, continues_eq]
  simp only [goesOn, decide_true, Option.bind_eq_bind, Option.bind_some, ↓reduceIte, list, readChars_eq goesOn, skipped]
  simp only [decodingAt, List.length_drop]

/-- A turn over the entry of a network, with the room for it. -/
private theorem decodeLoop_write (entrySize : 6 ≤ size) (goesOn : GoesOn size text rest)
    (network : isNetwork selects (text.take size) = true)
    (fits : (entryDigits (text.take size)).length + 2 ≤ rest.length) :
    decodeLoop size selects (fuel + 1) (decodingAt text front rest result) =
      decodeLoop size selects fuel (decodingAt (text.drop size) (front ++ (entryDigits (text.take size) ++ [',']))
        (nul :: rest.drop ((entryDigits (text.take size)).length + 2))
        (result + ((entryDigits (text.take size)).length + 1))) := by
  have selected : selects (text.take size) = true ∧ (text.take size).take (modemPlmnSize - 1) ≠ plmnNone := by
    simpa [isNetwork] using network
  obtain ⟨entry, first⟩ := take_entry entrySize goesOn
  have list : (decodingAt text front rest result).list = text := rfl
  have decoded := @Decoding.decode_eq _ front rest (decodingAt text front rest result) entry first selected.2 rfl rfl fits
  rw [decodeLoop, continues_eq]
  simp only [goesOn, decide_true, Option.bind_eq_bind, Option.bind_some, ↓reduceIte, list, readChars_eq goesOn, selected,
    ne_eq, not_false_eq_true, and_self, decoded]
  congr 1
  simp only [decodingAt, Decoding.mk.injEq, List.length_drop, List.length_append, List.length_cons, List.length_nil,
    true_and, and_true]
  omega

/-- A turn over the entry of a network that is written over the end. -/
private theorem decodeLoop_overrun (entrySize : 6 ≤ size) (goesOn : GoesOn size text rest)
    (network : isNetwork selects (text.take size) = true)
    (long : rest.length < (entryDigits (text.take size)).length + 2) :
    decodeLoop size selects (fuel + 1) (decodingAt text front rest result) = none := by
  have selected : selects (text.take size) = true ∧ (text.take size).take (modemPlmnSize - 1) ≠ plmnNone := by
    simpa [isNetwork] using network
  obtain ⟨entry, first⟩ := take_entry entrySize goesOn
  have list : (decodingAt text front rest result).list = text := rfl
  have failed := @Decoding.decode_eq_none _ front rest (decodingAt text front rest result) entry first selected.2 rfl rfl long
  rw [decodeLoop, continues_eq]
  simp only [goesOn, decide_true, Option.bind_eq_bind, Option.bind_some, ↓reduceIte, list, readChars_eq goesOn, selected,
    ne_eq, not_false_eq_true, and_self, failed, Option.bind_none]

/-- The loop leaves the array with the networks that it takes, each with its comma, in front of a rest. -/
def Leaves (start : ℕ) (front rest : Text) (taken : List Text) (final : Decoding) : Prop :=
  ∃ text back, back.length + (ended ',' taken).length = rest.length ∧ (taken = [] → back = rest) ∧
    final = decodingAt text (front ++ ended ',' taken) back (start + (ended ',' taken).length)

/-- The loop writes what is written into the array, or over its end. -/
private theorem decodeLoop_eq (entrySize : 6 ≤ size) (enough : text.length < fuel) :
    (fill (networks size selects text) rest.length = none →
      decodeLoop size selects fuel (decodingAt text front rest result) = none) ∧
    ∀ taken, fill (networks size selects text) rest.length = some taken →
      ∃ final, decodeLoop size selects fuel (decodingAt text front rest result) = some final ∧
        Leaves result front rest taken final := by
  have positive : 0 < size := by omega
  induction fuel generalizing text front rest result with
  | zero => exact absurd enough (Nat.not_lt_zero _)
  | succ fuel ih =>
    by_cases goesOn : GoesOn size text rest
    · obtain ⟨open', long, room⟩ := id goesOn
      have shorter : (text.drop size).length < fuel := by
        rw [List.length_drop]
        omega
      rw [networks_of_opens positive long open']
      by_cases network : isNetwork selects (text.take size) = true
      · rw [if_pos network, fill, if_neg (Nat.not_lt.mpr room)]
        by_cases overrun : rest.length < (entryDigits (text.take size)).length + 2
        · rw [if_pos overrun, decodeLoop_overrun entrySize goesOn network overrun]
          exact ⟨fun _ => rfl, fun taken filled => by contradiction⟩
        · have behind : rest.length - ((entryDigits (text.take size)).length + 1) =
              (nul :: rest.drop ((entryDigits (text.take size)).length + 2)).length := by
            rw [List.length_cons, List.length_drop]
            omega
          rw [if_neg overrun, decodeLoop_write entrySize goesOn network (by omega), behind]
          obtain ⟨fails, loops⟩ := @ih (text.drop size) (front ++ (entryDigits (text.take size) ++ [',']))
            (nul :: rest.drop ((entryDigits (text.take size)).length + 2))
            (result + ((entryDigits (text.take size)).length + 1)) shorter
          refine ⟨fun failed => fails (Option.map_eq_none_iff.mp failed), fun taken filled => ?_⟩
          obtain ⟨more, later, rfl⟩ := Option.map_eq_some_iff.mp filled
          obtain ⟨final, looped, left, back, length, _, rfl⟩ := loops more later
          refine ⟨_, looped, left, back, ?_, fun nothing => by contradiction, ?_⟩
          · rw [Machine.ended_cons, List.length_append, List.length_cons]
            omega
          · simp [Machine.ended_cons, Nat.add_assoc, Nat.add_comm 1]
      · rw [if_neg network, decodeLoop_skip goesOn (by simpa using network)]
        exact ih shorter
    · have nothing : fill (networks size selects text) rest.length = some [] := by
        by_cases closed : opens text = true
        · rcases Nat.lt_or_ge text.length size with short | long
          · rw [networks_of_lt short]
            rfl
          · exact fill_of_lt (Nat.lt_of_not_le fun room => goesOn ⟨closed, long, room⟩)
        · rw [networks_of_closed positive (by simpa using closed)]
          rfl
      rw [nothing, decodeLoop_stop goesOn]
      refine ⟨fun failed => by contradiction, fun taken filled => ?_⟩
      obtain rfl := Option.some_inj.mp filled
      exact ⟨_, rfl, text, rest, by simp, fun _ => rfl, by simp⟩

end Loop

section Response

variable {size : ℕ} {selects : Text → Bool} {response array : Text}

/-- The networks of an answer are written into the array, the NUL in the place of the last comma; without one, the
array is left as it is. -/
theorem decodeList_eq (entrySize : 6 ≤ size) :
    (fill (responseNetworks size selects response) array.length = none →
      decodeList size selects response response.length array array.length = none) ∧
    (fill (responseNetworks size selects response) array.length = some [] →
      decodeList size selects response response.length array array.length = some (0, array)) ∧
    ∀ taken, taken ≠ [] → fill (responseNetworks size selects response) array.length = some taken →
      ∃ back, back.length + (ended ',' taken).length = array.length ∧
        decodeList size selects response response.length array array.length =
          some ((ended ',' taken).length, [','].intercalate taken ++ nul :: back) := by
  unfold decodeList responseNetworks
  by_cases failed : strstart response crsmSuccess false = 0
  · rw [if_pos failed]
    refine ⟨fun filled => by contradiction, fun _ => by simp [failed], fun taken some' filled => ?_⟩
    exact absurd (Option.some_inj.mp filled).symm some'
  · rw [if_neg failed]
    obtain ⟨fails, loops⟩ := @decodeLoop_eq size selects (response.drop (strstart response crsmSuccess false)) [] array
      (response.length + 1) 0 entrySize (by rw [List.length_drop]; omega)
    have start : decodingAt (response.drop (strstart response crsmSuccess false)) [] array 0 =
        { list := response.drop (strstart response crsmSuccess false)
          len := response.length - strstart response crsmSuccess false
          array
          plmnSize := array.length } := by
      simp [decodingAt]
    rw [start] at fails loops
    simp only [failed, ↓reduceIte, Option.bind_eq_bind]
    refine ⟨fun filled => by rw [fails filled]; rfl, fun filled => ?_, fun taken some' filled => ?_⟩
    · obtain ⟨final, looped, text, back, _, same, rfl⟩ := loops [] filled
      rw [looped, same rfl]
      rfl
    · obtain ⟨final, looped, text, back, length, _, rfl⟩ := loops taken filled
      have written : ended ',' taken = [','].intercalate taken ++ [','] := Machine.ended_eq some'
      have nonzero : (decodingAt text ([] ++ ended ',' taken) back (0 + (ended ',' taken).length)).result ≠ 0 := by
        simp [decodingAt, written]
      have last : put ([] ++ ended ',' taken ++ back) (([] ++ ended ',' taken).length - 1) nul =
          some ([','].intercalate taken ++ nul :: back) := by
        have stored := @Machine.put_append _ ([','].intercalate taken) (',' :: back) 0 nul
        simpa [written] using stored
      refine ⟨back, length, ?_⟩
      rw [looped, Option.bind_some, if_pos nonzero]
      simp only [decodingAt, last, Option.bind_some, Nat.zero_add]

end Response

section Records

variable {size : ℕ} {selects : Text → Bool}

/-- The prefix of a successful answer is skipped. -/
theorem responseNetworks_success (record : Text) :
    responseNetworks size selects (crsmSuccess ++ record) = networks size selects record := by
  have same : ShCmd.Same false crsmSuccess crsmSuccess := rfl
  have success : strstart (crsmSuccess ++ record) crsmSuccess false = 7 := ShCmd.strstart_of_word same
  rw [responseNetworks, success, if_neg (by decide)]
  rfl

/-- The entries of a record that are for networks, up to the closing quote. -/
theorem networks_flatten (entrySize : 6 ≤ size) {items : List Text}
    (whole : ∀ item ∈ items, item.length = size ∧ opens item = true ∧ isNetwork selects item = true) :
    networks size selects (items.flatten ++ ['"']) = items.map entryDigits := by
  have positive : 0 < size := by omega
  induction items with
  | nil => exact networks_of_lt (by simp; omega)
  | cons item items ih =>
    obtain ⟨length, open', network⟩ := whole item List.mem_cons_self
    have later := ih fun item member => whole item (List.mem_cons_of_mem _ member)
    have nonempty : item ≠ [] := List.ne_nil_of_length_pos (by omega)
    have start : opens (item ++ (items.flatten ++ ['"'])) = true := by
      rw [opens, List.head?_append_of_ne_nil _ nonempty]
      exact open'
    rw [List.flatten_cons, List.append_assoc,
      networks_of_opens positive (by rw [List.length_append]; omega) start, ← length, List.take_left, List.drop_left,
      if_pos network, length, later, List.map_cons]

/-- Networks for which there is the room are all written. -/
theorem fill_all {plmns : List Text} {room : ℕ} (short : ∀ digits ∈ plmns, digits.length ≤ 6)
    (enough : 7 * plmns.length < room) : fill plmns room = some plmns := by
  induction plmns generalizing room with
  | nil => rfl
  | cons digits plmns ih =>
    rw [List.length_cons] at enough
    have six := short digits List.mem_cons_self
    rw [fill, if_neg (by unfold modemPlmnSize; omega), if_neg (by omega),
      ih (fun digits member => short digits (List.mem_cons_of_mem _ member)) (by omega)]
    rfl

end Records

/-- A list is decoded without an access outside of the answer and of the array, which then holds leading networks of the
answer, comma separated and with a NUL: all of them, or as many as leave no room for another one. Without a network the
array is left as it is. -/
def DecodesInto (run : Option (ℕ × Text)) (plmns : List Text) (array : Text) : Prop :=
  ∃ result after taken left, run = some (result, after) ∧ after.length = array.length ∧ plmns = taken ++ left ∧
    (left ≠ [] → array.length < (ended ',' taken).length + modemPlmnSize) ∧
    (taken = [] → result = 0 ∧ after = array) ∧
    (taken ≠ [] → ∃ back, after = [','].intercalate taken ++ nul :: back)

/-- The first networks, each with a comma, fill an array, and the last of them has six digits. -/
def FillsArray (plmns : List Text) (size : ℕ) : Prop :=
  ∃ taken last left, plmns = taken ++ last :: left ∧ last.length = 6 ∧ (ended ',' (taken ++ [last])).length = size

section Fill

variable {plmns taken : List Text} {room : ℕ}

/-- What is written are leading networks. -/
private theorem fill_some (filled : fill plmns room = some taken) : (ended ',' taken).length ≤ room ∧
    ∃ left, plmns = taken ++ left ∧ (left ≠ [] → room < (ended ',' taken).length + modemPlmnSize) := by
  induction plmns generalizing room taken with
  | nil =>
    obtain rfl := Option.some_inj.mp filled
    exact ⟨Nat.zero_le _, [], rfl, fun some' => absurd rfl some'⟩
  | cons digits plmns ih =>
    unfold fill at filled
    split at filled
    · next small =>
      obtain rfl := Option.some_inj.mp filled
      exact ⟨Nat.zero_le _, digits :: plmns, rfl, fun _ => by simpa using small⟩
    · split at filled
      · contradiction
      · obtain ⟨more, later, rfl⟩ := Option.map_eq_some_iff.mp filled
        obtain ⟨fits, left, rfl, full⟩ := ih later
        have length : (ended ',' (digits :: more)).length = digits.length + 1 + (ended ',' more).length := by
          rw [Machine.ended_cons, List.length_append, List.length_cons]
          omega
        refine ⟨by omega, left, rfl, fun some' => ?_⟩
        have room := full some'
        omega

private theorem fillsArray_cons {digits : Text} : FillsArray (digits :: plmns) room ↔
    (digits.length = 6 ∧ room = modemPlmnSize) ∨
      (digits.length + 1 ≤ room ∧ FillsArray plmns (room - (digits.length + 1))) := by
  constructor
  · rintro ⟨taken, last, left, split, six, length⟩
    cases taken with
    | nil =>
      obtain ⟨rfl, rfl⟩ := List.cons.inj split
      refine .inl ⟨six, ?_⟩
      rw [← length]
      simp [six, modemPlmnSize]
    | cons first taken =>
      obtain ⟨rfl, rfl⟩ := List.cons.inj split
      rw [List.cons_append, Machine.ended_cons, List.length_append, List.length_cons] at length
      exact .inr ⟨by omega, taken, last, left, rfl, six, by omega⟩
  · rintro (⟨six, rfl⟩ | ⟨long, taken, last, left, rfl, six, length⟩)
    · exact ⟨[], digits, plmns, rfl, six, by simp [six, modemPlmnSize]⟩
    · refine ⟨digits :: taken, last, left, rfl, six, ?_⟩
      rw [List.cons_append, Machine.ended_cons, List.length_append, List.length_cons, length]
      omega

theorem FillsArray.le (fills : FillsArray plmns room) : modemPlmnSize ≤ room := by
  obtain ⟨taken, last, left, _, six, length⟩ := fills
  rw [Machine.ended_append, Machine.ended_cons, List.length_append, List.length_append] at length
  simp only [List.length_cons, six] at length
  unfold modemPlmnSize
  omega

/-- A network is written over the end exactly if the networks up to it fill the array. -/
private theorem fill_eq_none (short : ∀ digits ∈ plmns, digits.length ≤ 6) :
    fill plmns room = none ↔ FillsArray plmns room := by
  induction plmns generalizing room with
  | nil =>
    constructor
    · intro failed
      contradiction
    · rintro ⟨taken, last, left, split, _⟩
      simp at split
  | cons digits plmns ih =>
    have six := short digits List.mem_cons_self
    have later := @ih (room - (digits.length + 1)) fun digits member => short digits (List.mem_cons_of_mem _ member)
    rw [fillsArray_cons, fill]
    unfold modemPlmnSize
    by_cases small : room < 7
    · rw [if_pos small]
      constructor
      · intro failed
        contradiction
      · rintro (⟨_, exact'⟩ | ⟨_, fills⟩)
        · omega
        · have enough := fills.le
          unfold modemPlmnSize at enough
          omega
    · rw [if_neg small]
      by_cases overrun : room < digits.length + 2
      · rw [if_pos overrun]
        exact ⟨fun _ => .inl (by omega), fun _ => rfl⟩
      · rw [if_neg overrun, Option.map_eq_none_iff, later]
        constructor
        · intro fills
          exact .inr ⟨by omega, fills⟩
        · rintro (⟨_, _⟩ | ⟨_, fills⟩)
          · omega
          · exact fills

end Fill

private theorem entryDigits_le (entry : Text) : (entryDigits entry).length ≤ 6 :=
  (List.length_filter_le _ _).trans (List.length_filterMap_le _ _)

/-- The loops of both functions: a list is decoded into its array exactly if no network fills it. -/
private theorem decodeList_decodesInto {size : ℕ} (entrySize : 6 ≤ size) (selects : Text → Bool) (response array : Text) :
    DecodesInto (decodeList size selects response response.length array array.length)
        (responseNetworks size selects response) array ↔
      ¬ FillsArray (responseNetworks size selects response) array.length := by
  obtain ⟨fails, empty, writes⟩ := @decodeList_eq size selects response array entrySize
  have short : ∀ digits ∈ responseNetworks size selects response, digits.length ≤ 6 := by
    intro digits member
    unfold responseNetworks networks at member
    split at member
    · contradiction
    · obtain ⟨entry, _, rfl⟩ := List.mem_map.mp member
      exact entryDigits_le entry
  rw [← fill_eq_none short]
  constructor
  · rintro ⟨result, after, taken, left, run, _⟩ failed
    rw [fails failed] at run
    contradiction
  · intro filled
    obtain ⟨taken, filled⟩ := Option.ne_none_iff_exists'.mp filled
    obtain ⟨fits, left, split, full⟩ := fill_some filled
    by_cases nothing : taken = []
    · subst nothing
      exact ⟨0, array, [], left, empty filled, rfl, split, full, fun _ => ⟨rfl, rfl⟩, fun some' => absurd rfl some'⟩
    · obtain ⟨back, length, run⟩ := writes taken nothing filled
      refine ⟨_, _, taken, left, run, ?_, split, full, fun none => absurd none nothing, fun _ => ⟨back, rfl⟩⟩
      rw [Machine.ended_eq nothing] at length
      simp only [List.length_append, List.length_cons, List.length_nil] at length ⊢
      omega

/-- For every answer and every array: both functions decode the list into the array exactly if the first networks, each
with its comma and the last with six digits, do not fill it. -/
theorem plmns_decodesInto (response array : Text) :
    (DecodesInto (getPlmns response response.length array array.length)
        (responseNetworks 6 (fun _ => true) response) array ↔
      ¬ FillsArray (responseNetworks 6 (fun _ => true) response) array.length) ∧
    (DecodesInto (getPrioPlmns response response.length array array.length)
        (responseNetworks 10 selectsLte response) array ↔
      ¬ FillsArray (responseNetworks 10 selectsLte response) array.length) :=
  ⟨decodeList_decodesInto (by decide) _ response array, decodeList_decodesInto (by decide) _ response array⟩

/-- An answer with 15 networks of six digits. -/
def fullResponse : Text := crsmSuccess ++ (List.replicate 15 "214365".toList).flatten ++ ['"']

/-- In the array of 15 * 7 characters that `modem_sim_read` passes, the last NUL of that list is behind the end. -/
theorem full_list_overruns :
    responseNetworks 6 (fun _ => true) fullResponse = List.replicate 15 "123456".toList ∧
      getPlmns fullResponse fullResponse.length (List.replicate 105 nul) 105 = none ∧
      ¬ DecodesInto (getPlmns fullResponse fullResponse.length (List.replicate 105 nul) 105)
        (responseNetworks 6 (fun _ => true) fullResponse) (List.replicate 105 nul) := by
  have overrun : getPlmns fullResponse fullResponse.length (List.replicate 105 nul) 105 = none := by decide +kernel
  refine ⟨by decide +kernel, overrun, fun decodes => ?_⟩
  obtain ⟨result, after, taken, left, run, _⟩ := decodes
  exact absurd (overrun.symm.trans run) (Option.some_ne_none _).symm

end CoapsClient.ModemSim
