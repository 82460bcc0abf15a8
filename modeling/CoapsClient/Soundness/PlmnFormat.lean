import CoapsClient.Soundness.CountryPlmn
import CoapsClient.Soundness.PlmnDecoding
import CoapsClient.Soundness.PlmnEncoding

/-! # Lists that are written and read again, and the layout of a network

What `ban` and `prio` write for a list of networks, and what `get_plmns` and `get_prio_plmns` make of it when the SIM
card answers with it.

TS 24.008, which `get_plmn` and `encode_plmn` name as their reference, puts the third digit of the network code into the
byte with the third digit of the country code. Both functions put the first one there, and the other two into the last
byte. They agree with each other, and with the standard for network codes of two digits.
-/

namespace CoapsClient.ModemSim

open ShCmd (Text parseNextText)
open Machine (ended)

/-- The answer of the SIM card with a record. -/
def crsmResponse (record : Text) : Text := crsmSuccess ++ (record ++ ['"'])

/-- A list of networks as the parameter of a command. -/
def plmnParameter (plmns : List Plmn) : Text := [' '].intercalate (plmns.map Plmn.digits)

/-- A command writes a record that is read again as the networks of the list, in an array with more than seven
characters for each. -/
def RoundTrips (request : Option Request) (id : ℕ) (decode : Text → ℕ → Text → ℕ → Option (ℕ × Text))
    (plmns : List Plmn) : Prop :=
  ∃ record, request = some (.write id (record.length / 2) record) ∧
    (writeText id (record.length / 2) record).length < internalBufSize ∧
    ∀ array : Text, 7 * plmns.length < array.length → ∃ result back,
      decode (crsmResponse record) (crsmResponse record).length array array.length =
        some (result, plmnText plmns ++ nul :: back)

/-- A word is read up to the space behind it. -/
private theorem nextPlmn_append {word rest : Text} (nonempty : word ≠ []) (free : ' ' ∉ word) (short : word.length ≤ 7)
    (ends : rest = [] ∨ rest.head? = some ' ') : nextPlmn (word ++ rest) = (word, rest.tail) := by
  have start : ¬ (word ++ rest).head? = some ' ' := by
    rw [List.head?_append_of_ne_nil _ nonempty]
    exact fun same => free (List.mem_of_mem_head? same)
  have visible : ∀ char ∈ word, decide (char ≠ ' ') = true := fun char member =>
    decide_eq_true fun same => free (same ▸ member)
  have taken : (word ++ rest).takeWhile (· ≠ ' ') = word := by
    rw [List.takeWhile_append_of_pos visible]
    rcases ends with rfl | space
    · simp
    · obtain ⟨more, rfl⟩ := List.head?_eq_some_iff.mp space
      simp
  have dropped : (word ++ rest).dropWhile (· ≠ ' ') = rest := by
    rw [List.dropWhile_append_of_pos visible]
    rcases ends with rfl | space
    · rfl
    · obtain ⟨more, rfl⟩ := List.head?_eq_some_iff.mp space
      simp
  simp only [nextPlmn, parseNextText, start, ↓reduceIte, taken, dropped]
  rw [List.take_of_length_le (by omega)]

/-- The words of a list with single spaces are its items. -/
private theorem words_intercalate {items : List Text} (valid : ∀ item ∈ items, item ≠ [] ∧ ' ' ∉ item ∧ item.length ≤ 7) :
    words ([' '].intercalate items) = items := by
  suffices reads : ∀ fuel, ([' '].intercalate items).length < fuel →
      wordsFrom fuel (nextPlmn ([' '].intercalate items)).1 (nextPlmn ([' '].intercalate items)).2 = items from
    reads _ (Nat.lt_succ_self _)
  induction items with
  | nil =>
    intro fuel _
    cases fuel <;> rfl
  | cons item items ih =>
    intro fuel enough
    obtain ⟨nonempty, free, short⟩ := valid item List.mem_cons_self
    have later := ih fun item member => valid item (List.mem_cons_of_mem _ member)
    obtain ⟨fuel, rfl⟩ : ∃ more, fuel = more + 1 := ⟨fuel - 1, by omega⟩
    have positive := List.length_pos_of_ne_nil nonempty
    cases items with
    | nil =>
      rw [List.intercalate_singleton] at enough ⊢
      have read := nextPlmn_append nonempty free short (.inl rfl)
      rw [List.append_nil] at read
      rw [read, wordsFrom, if_neg nonempty]
      cases fuel <;> rfl
    | cons next items =>
      rw [List.intercalate_cons_cons, List.append_assoc] at enough ⊢
      rw [nextPlmn_append nonempty free short (.inr rfl), wordsFrom, if_neg nonempty]
      rw [List.length_append, List.length_append, List.length_singleton] at enough
      exact congrArg (item :: ·) (later fuel (by omega))

section Entries

variable {technology : Text}

/-- Five or six digits come back from their entry. -/
private theorem entryDigits_entryOf {digits : Text} (length : digits.length = 5 ∨ digits.length = 6) (free : 'F' ∉ digits) :
    entryDigits (entryOf digits ++ technology) = digits := by
  match digits, length with
  | [b0, b1, b2, b3, b4], _ =>
    simp only [List.mem_cons, List.not_mem_nil, or_false, not_or, eq_comm] at free
    simp [entryDigits, entryOf, free]
  | [b0, b1, b2, b3, b4, b5], _ =>
    simp only [List.mem_cons, List.not_mem_nil, or_false, not_or, eq_comm] at free
    simp [entryDigits, entryOf, free]

variable (plmn : Plmn)

private theorem entryDigits_plmn : entryDigits (entryOf plmn.digits ++ technology) = plmn.digits :=
  entryDigits_entryOf plmn.length_eq (plmn.not_mem (by decide))

/-- The entry of a network begins with a digit. -/
private theorem entryOf_plmn_head : ∃ digit rest, entryOf plmn.digits = digit :: rest ∧ digit.isDigit = true := by
  have decimal := plmn.decimal
  match digits : plmn.digits, plmn.length_eq with
  | [b0, b1, b2, b3, b4], _ => exact ⟨b1, _, rfl, decimal b1 (by simp [digits])⟩
  | [b0, b1, b2, b3, b4, b5], _ => exact ⟨b1, _, rfl, decimal b1 (by simp [digits])⟩

/-- The entry of a network is decoded, with a technology that is selected. -/
private theorem isNetwork_plmn {selects : Text → Bool}
    (selected : ∀ entry : Text, entry.length = 6 → selects (entry ++ technology) = true) :
    opens (entryOf plmn.digits ++ technology) = true ∧ isNetwork selects (entryOf plmn.digits ++ technology) = true := by
  obtain ⟨digit, rest, entry, decimal⟩ := entryOf_plmn_head plmn
  have length := entryOf_plmn_length plmn
  have notNul : digit ≠ nul := by rintro rfl; exact absurd decimal (by decide)
  have notQuote : digit ≠ '"' := by rintro rfl; exact absurd decimal (by decide)
  have notFiller : digit ≠ 'F' := by rintro rfl; exact absurd decimal (by decide)
  refine ⟨by simp [entry, opens, notNul, notQuote], decide_eq_true ⟨selected _ length, fun none => ?_⟩⟩
  rw [entry, List.cons_append] at none
  exact notFiller (List.cons.inj none).1

/-- The networks of a record are read from the answer with it. -/
private theorem responseNetworks_plmns {size : ℕ} {selects : Text → Bool} (plmns : List Plmn)
    (entrySize : size = 6 + technology.length)
    (selected : ∀ entry : Text, entry.length = 6 → selects (entry ++ technology) = true) :
    responseNetworks size selects (crsmResponse (plmns.flatMap fun plmn => entryOf plmn.digits ++ technology)) =
      plmns.map Plmn.digits := by
  have whole : ∀ item ∈ plmns.map (fun plmn => entryOf plmn.digits ++ technology),
      item.length = size ∧ opens item = true ∧ isNetwork selects item = true := by
    intro item member
    obtain ⟨plmn, _, rfl⟩ := List.mem_map.mp member
    exact ⟨by rw [List.length_append, entryOf_plmn_length, entrySize], isNetwork_plmn plmn selected⟩
  rw [crsmResponse, responseNetworks_success, List.flatMap_def, networks_flatten (by omega) whole, List.map_map]
  exact List.map_congr_left fun plmn _ => entryDigits_plmn plmn

/-- A record of networks is decoded to the list, in an array with the room for it. -/
private theorem decodeList_plmns {size : ℕ} {selects : Text → Bool} {plmns : List Plmn} {array : Text} (some' : plmns ≠ [])
    (entrySize : size = 6 + technology.length)
    (selected : ∀ entry : Text, entry.length = 6 → selects (entry ++ technology) = true)
    (room : 7 * plmns.length < array.length) {response : Text}
    (answered : response = crsmResponse (plmns.flatMap fun plmn => entryOf plmn.digits ++ technology)) :
    ∃ result back, decodeList size selects response response.length array array.length =
      some (result, plmnText plmns ++ nul :: back) := by
  obtain ⟨_, _, writes⟩ := @decodeList_eq size selects response array (by omega)
  have short : ∀ digits ∈ plmns.map Plmn.digits, digits.length ≤ 6 := by
    intro digits member
    obtain ⟨plmn, _, rfl⟩ := List.mem_map.mp member
    have length := plmn.length_eq
    omega
  have filled := fill_all short (by rwa [List.length_map])
  rw [answered, responseNetworks_plmns plmns entrySize selected, ← answered] at writes
  obtain ⟨back, _, run⟩ := writes _ (by simpa using some') filled
  exact ⟨_, back, run⟩

end Entries

section Commands

variable {plmns : List Plmn}

private theorem words_plmnParameter (plmns : List Plmn) : words (plmnParameter plmns) = plmns.map Plmn.digits := by
  refine words_intercalate fun item member => ?_
  obtain ⟨plmn, _, rfl⟩ := List.mem_map.mp member
  have length := plmn.length_eq
  exact ⟨List.ne_nil_of_length_pos (by omega), plmn.not_mem (by decide), by omega⟩

/-- The record of a list of networks, with the room for all of them. -/
private theorem recordFrom_plmns {size limit : ℕ} {more : ℕ → Bool} {technology : Text}
    (goesOn : ∀ len, len + (6 + technology.length) ≤ limit → more len = true ∧ 6 < size - len)
    (enough : plmns.length * (6 + technology.length) ≤ limit) :
    recordFrom size more technology 0 (plmns.map Plmn.digits) =
      plmns.flatMap fun plmn => entryOf plmn.digits ++ technology := by
  have valid : ∀ word ∈ plmns.map Plmn.digits, (encodedEntry word).length = 6 := by
    intro word member
    obtain ⟨plmn, _, rfl⟩ := List.mem_map.mp member
    rw [encodedEntry_plmn, entryOf_plmn_length]
  rw [recordFrom_valid valid goesOn (by rwa [Nat.zero_add, List.length_map]), List.flatMap_map]
  simp only [encodedEntry_plmn]

/-- The numbers of bytes of a request have at most two digits. -/
private theorem toString_length : ∀ bytes < 76, (toString bytes).toList.length ≤ 2 := by decide +kernel

private theorem writeText_length (id bytes : ℕ) (record : Text) : (writeText id bytes record).length =
    12 + (toString id).toList.length + 5 + (toString bytes).toList.length + 2 + record.length + 1 := by
  unfold writeText
  simp only [List.length_append]
  rfl

/-- The request for a record of at most 150 characters is not cut. -/
private theorem writeText_fits {id : ℕ} {record : Text} (short : record.length ≤ 150)
    (identifier : (toString id).length = 5) :
    (writeText id (record.length / 2) record).length < internalBufSize := by
  have bytes := toString_length (record.length / 2) (by omega)
  rw [writeText_length, String.length_toList, identifier]
  unfold internalBufSize
  omega

/-- What a command writes for a list of networks, and what is read of it again. -/
private theorem encodeCommand_roundTrips {id size bufSize : ℕ} {more : ℕ → Bool} {technology : Text} {selects : Text → Bool}
    (some' : plmns ≠ []) (count : plmns.length ≤ maxPlmns) (technologySize : technology.length ≤ 4)
    (fits : ∀ len, more len = true → technology = [] ∨ len + 6 + technology.length ≤ bufSize) (free : nul ∉ technology)
    (goesOn : ∀ len, len + (6 + technology.length) ≤ maxPlmns * (6 + technology.length) →
      more len = true ∧ 6 < bufSize - len)
    (identifier : (toString id).length = 5) (entrySize : size = 6 + technology.length)
    (selected : ∀ entry : Text, entry.length = 6 → selects (entry ++ technology) = true) :
    RoundTrips (encodeCommand id bufSize more technology (plmnParameter plmns)) id
      (fun list len array plmnSize => decodeList size selects list len array plmnSize) plmns := by
  have record := @recordFrom_plmns plmns bufSize _ more technology goesOn (Nat.mul_le_mul_right _ count)
  have length : (plmns.flatMap fun plmn => entryOf plmn.digits ++ technology).length =
      plmns.length * (6 + technology.length) := by
    simp [List.length_flatMap, entryOf_plmn_length]
  have positive := List.length_pos_of_ne_nil some'
  have long : 6 + technology.length ≤ plmns.length * (6 + technology.length) := Nat.le_mul_of_pos_left _ positive
  have short : plmns.length * (6 + technology.length) ≤ 150 :=
    (Nat.mul_le_mul count (Nat.add_le_add_left technologySize 6)).trans (by decide)
  have word : words (plmnParameter plmns) ≠ [] := by
    rw [words_plmnParameter]
    simpa using some'
  refine ⟨plmns.flatMap fun plmn => entryOf plmn.digits ++ technology, ?_, writeText_fits (by omega) identifier, ?_⟩
  · have nonempty : (plmns.flatMap fun plmn => entryOf plmn.digits ++ technology) ≠ [] :=
      List.ne_nil_of_length_pos (by omega)
    rw [encodeCommand_eq fits free, if_neg word, words_plmnParameter, record, if_neg nonempty]
  · intro array room
    exact decodeList_plmns some' entrySize selected room rfl

end Commands

/-- For every list of up to 15 networks: what `ban` and `prio` write for it is read again as the same list. -/
theorem plmns_roundTrip (plmns : List Plmn) (some' : plmns ≠ []) (count : plmns.length ≤ 15) :
    RoundTrips (modemCmdBan (plmnParameter plmns)) 28539 getPlmns plmns ∧
      ∀ simService, simService &&& service20Bit ≠ 0 →
        RoundTrips (modemCmdPrio simService (plmnParameter plmns)) simUserHpplmnId getPrioPlmns plmns := by
  constructor
  · refine encodeCommand_roundTrips some' count (by decide) (fun _ _ => .inl rfl) (by decide) ?_ (by decide) rfl fun _ _ => rfl
    intro len short
    refine ⟨rfl, ?_⟩
    simp only [List.length_nil, maxPlmns, crsmHeaderSize] at short ⊢
    omega
  · intro simService supported
    rw [modemCmdPrio, if_neg supported]
    have four : hpplmnSelectorTechnology.length = 4 := by decide
    refine encodeCommand_roundTrips some' count four.le ?_ (by decide) ?_ (by decide) rfl ?_
    · intro len more
      rw [decide_eq_true_eq] at more
      rw [four]
      exact .inr (by omega)
    · intro len short
      rw [four] at short
      have size : prioBufSize = 178 := rfl
      have all : maxPlmns = 15 := rfl
      refine ⟨decide_eq_true ?_, ?_⟩ <;> omega
    · intro entry six
      have access : (entry ++ hpplmnSelectorTechnology).drop (modemPlmnSize - 1) = hpplmnSelectorTechnology := by
        rw [show modemPlmnSize - 1 = entry.length by rw [six]; rfl, List.drop_left]
      rw [selectsLte, access]
      decide +kernel

/-- A network of five digits and one of six. -/
def mixedPlmns : List Plmn :=
  [plmnGermany, ⟨⟨"310".toList, rfl, List.all_eq_true.mp rfl⟩, "410".toList, .inr rfl, List.all_eq_true.mp rfl⟩]

/-- Both commands with the parameter "26202 310410". -/
theorem plmns_roundTrip_mixed : RoundTrips (modemCmdBan (plmnParameter mixedPlmns)) 28539 getPlmns mixedPlmns ∧
    ∀ simService, simService &&& service20Bit ≠ 0 →
      RoundTrips (modemCmdPrio simService (plmnParameter mixedPlmns)) simUserHpplmnId getPrioPlmns mixedPlmns :=
  plmns_roundTrip mixedPlmns (List.cons_ne_nil _ _) (by decide)

/-- The nibbles of a network: (d2 d1)(m3 or F, d3)(m2 m1). -/
def layout (plmn : Plmn) : Text :=
  match plmn.mcc.digits, plmn.mnc with
  | [d1, d2, d3], [m1, m2] => [d2, d1, 'F', d3, m2, m1]
  | [d1, d2, d3], [m1, m2, m3] => [d2, d1, m3, d3, m2, m1]
  | _, _ => []

/-- Lists in the layout are read, and networks are written in it. -/
structure FollowsLayout (plmns : List Plmn) : Prop where
  reads : ∀ array : Text, 7 * plmns.length < array.length → ∃ result after,
    getPlmns (crsmResponse (plmns.flatMap layout)) (crsmResponse (plmns.flatMap layout)).length array array.length =
      some (result, after) ∧
    (plmns = [] → result = 0) ∧ (plmns ≠ [] → ∃ back, after = plmnText plmns ++ nul :: back)
  writes : ∀ plmn ∈ plmns, ∀ front rest : Text, 6 < rest.length →
    encodePlmn plmn.digits (front ++ rest) front.length rest.length =
      some (6, front ++ (layout plmn ++ nul :: rest.drop 7))

/-- The digits of a network code of three digits are all the same. -/
def SameDigits (plmn : Plmn) : Prop := plmn.mnc.length = 3 → ∃ digit, plmn.mnc = [digit, digit, digit]

section Layout

variable (plmn : Plmn)

/-- What is encoded has the layout exactly if the order of the last three digits does not matter. -/
private theorem entryOf_eq_layout : entryOf plmn.digits = layout plmn ↔ SameDigits plmn := by
  obtain ⟨d1, d2, d3, m1, m2, mcc, two | ⟨m3, three⟩⟩ := plmn.cases
  · simp [entryOf, layout, Plmn.digits, SameDigits, mcc, two]
  · simp only [entryOf, layout, Plmn.digits, SameDigits, mcc, three, List.cons_append, List.nil_append, List.cons.injEq,
      true_and, and_true, List.length_cons, List.length_nil, forall_const]
    constructor
    · rintro ⟨first, third, second⟩
      exact ⟨m1, rfl, by rw [← second], by rw [first]⟩
    · rintro ⟨digit, rfl, rfl, rfl⟩
      exact ⟨rfl, rfl, rfl⟩

/-- A network is encoded as its entry, with a NUL behind it. -/
private theorem encodePlmn_plmn (front rest : Text) (room : 6 < rest.length) :
    encodePlmn plmn.digits (front ++ rest) front.length rest.length =
      some (6, front ++ (entryOf plmn.digits ++ nul :: rest.drop 7)) := by
  have six := entryOf_plmn_length plmn
  have some' : entryOf plmn.digits ≠ [] := List.ne_nil_of_length_pos (by omega)
  rw [encodePlmn_eq room, encodedEntry_plmn, six, if_neg some']

end Layout

/-- For every list of networks: the layout is read and written exactly if each network code of three digits consists of
the same digit. -/
theorem followsLayout_iff (plmns : List Plmn) : FollowsLayout plmns ↔ ∀ plmn ∈ plmns, SameDigits plmn := by
  constructor
  · intro follows plmn member
    have written := follows.writes plmn member [] (List.replicate 7 nul) (by decide)
    rw [encodePlmn_plmn _ _ _ (by decide)] at written
    have same := congrArg Prod.snd (Option.some_inj.mp written)
    exact (entryOf_eq_layout plmn).mp (List.append_cancel_right same)
  · intro same
    have entries : plmns.flatMap layout = plmns.flatMap fun plmn => entryOf plmn.digits ++ [] := by
      refine List.flatMap_congr fun plmn member => ?_
      rw [List.append_nil, (entryOf_eq_layout plmn).mpr (same plmn member)]
    constructor
    · intro array room
      rw [entries]
      by_cases nothing : plmns = []
      · subst nothing
        obtain ⟨_, empty, _⟩ := @decodeList_eq 6 (fun _ => true) (crsmResponse []) array (by decide)
        have none := @responseNetworks_plmns [] 6 (fun _ => true) [] rfl fun _ _ => rfl
        rw [List.flatMap_nil] at none ⊢
        rw [none] at empty
        exact ⟨0, array, empty rfl, fun _ => rfl, fun some' => absurd rfl some'⟩
      · obtain ⟨result, back, run⟩ := @decodeList_plmns [] 6 (fun _ => true) plmns array nothing rfl (fun _ _ => rfl) room _ rfl
        exact ⟨result, _, run, fun none => absurd none nothing, fun _ => ⟨back, rfl⟩⟩
    · intro plmn member front rest room
      rw [encodePlmn_plmn plmn front rest room, (entryOf_eq_layout plmn).mpr (same plmn member)]

/-- The network 310 410 has the layout 13 00 14: it is written as 13 40 01, and its layout is read as 310 041. -/
theorem three_digits_swapped :
    mixedPlmns.map layout = ["62F220".toList, "130014".toList] ∧
      encodePlmn "310410".toList (List.replicate 7 nul) 0 7 = some (6, "134001".toList ++ [nul]) ∧
      getPlmns (crsmResponse "130014".toList) 14 (List.replicate 8 nul) 8 = some (7, "310041".toList ++ [nul, nul]) ∧
      ¬ FollowsLayout mixedPlmns := by
  refine ⟨by decide +kernel, by decide +kernel, by decide +kernel, fun follows => ?_⟩
  have written := follows.writes _ (List.mem_cons_of_mem _ List.mem_cons_self) [] (List.replicate 7 nul) (by decide)
  exact absurd written (by decide +kernel)

end CoapsClient.ModemSim
