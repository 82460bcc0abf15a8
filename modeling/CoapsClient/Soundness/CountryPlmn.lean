import CoapsClient.Model.Modem.Sim

/-! # The network of a country

`modem_sim_read` looks for a network of the current country in the lists of the SIM card: it calls `copy_plmn` with
the country code. `find_id` compares whole ids, and no network has the three digits of a country code, so that none
is found.
-/

namespace CoapsClient.ModemSim

open ShCmd (Text)
open Machine (put)

/-- The first network of a list, or the first one of a country. -/
def wanted (plmns : List Plmn) : Option Mcc → Option Plmn
  | none => plmns.head?
  | some mcc => plmns.find? fun plmn => plmn.mcc = mcc

/-- The network that is wanted is copied with its NUL, into an array of `len` characters; nothing is written when
there is none of the country. -/
structure SelectsPlmn (plmns : List Plmn) (array : Text) (mcc : Option Mcc) : Prop where
  copies : ∀ plmn ∈ wanted plmns mcc, copyPlmn (plmnText plmns) array array.length (mcc.map Mcc.digits) =
    some (plmn.digits.length, plmn.digits ++ nul :: array.drop (plmn.digits.length + 1))
  leaves : mcc ≠ none → wanted plmns mcc = none →
    copyPlmn (plmnText plmns) array array.length (mcc.map Mcc.digits) = some (0, array)

/-- The start of a text, up to a comma or its end, is copied behind what was written. -/
private theorem copyPlmnFrom_eq {len : ℕ} {plmn rest front back : Text} (free : ∀ char ∈ plmn, char ≠ ',' ∧ char ≠ nul)
    (ends : rest = [] ∨ rest.head? = some ',') (short : plmn.length < len) (room : plmn.length < back.length) :
    copyPlmnFrom len (plmn ++ rest) (front ++ back) front.length =
      some (front.length + plmn.length, front ++ (plmn ++ nul :: back.drop (plmn.length + 1))) := by
  obtain ⟨len, rfl⟩ : ∃ more, len = more + 1 := ⟨len - 1, by omega⟩
  induction plmn generalizing len front back with
  | nil =>
    obtain ⟨old, back, rfl⟩ := List.exists_cons_of_length_pos room
    have stored : ∀ (old char : Char), put (front ++ old :: back) front.length char = some (front ++ char :: back) := by
      intro old char
      exact @Machine.put_append _ front (old :: back) 0 char
    rcases ends with rfl | comma
    · simp [copyPlmnFrom, charAt, stored, show nul ≠ ',' by decide]
    · obtain ⟨more, rfl⟩ := List.head?_eq_some_iff.mp comma
      simp [copyPlmnFrom, charAt, stored]
  | cons char plmn ih =>
    obtain ⟨old, back, rfl⟩ := List.exists_cons_of_length_pos (Nat.zero_lt_of_lt room)
    have stored : put (front ++ old :: back) front.length char = some (front ++ char :: back) :=
      @Machine.put_append _ front (old :: back) 0 char
    obtain ⟨notComma, notNul⟩ := free char List.mem_cons_self
    rw [List.length_cons] at short room
    rw [List.length_cons] at room
    obtain ⟨len, rfl⟩ : ∃ more, len = more + 1 := ⟨len - 1, by omega⟩
    have later := @ih (front ++ [char]) back (fun char member => free char (List.mem_cons_of_mem _ member)) (by omega)
      len (by omega)
    simp only [List.append_assoc, List.singleton_append, List.length_append, List.length_singleton] at later
    rw [List.cons_append, copyPlmnFrom]
    simp only [charAt, List.cons_append, List.getElem?_cons_zero, Option.bind_eq_bind, Option.bind_some, stored, notComma,
      notNul, ↓reduceIte, Nat.succ_ne_zero, List.tail_cons]
    rw [later, List.length_cons, List.drop_succ_cons, Nat.add_assoc, Nat.add_comm 1]

/-- A list of networks is its first one, and what a copy stops at. -/
private theorem plmnText_cons (plmn : Plmn) (plmns : List Plmn) :
    ∃ rest, plmnText (plmn :: plmns) = plmn.digits ++ rest ∧ (rest = [] ∨ rest.head? = some ',') := by
  cases plmns with
  | nil => exact ⟨[], by simp [plmnText], .inl rfl⟩
  | cons next plmns =>
    exact ⟨',' :: plmnText (next :: plmns), by simp [plmnText, List.intercalate_cons_cons], .inr rfl⟩

/-- Without a country, the first network is copied. -/
private theorem copyPlmn_first (plmn : Plmn) (plmns : List Plmn) {array : Text} (room : 7 ≤ array.length) :
    copyPlmn (plmnText (plmn :: plmns)) array array.length none =
      some (plmn.digits.length, plmn.digits ++ nul :: array.drop (plmn.digits.length + 1)) := by
  obtain ⟨rest, text, ends⟩ := plmnText_cons plmn plmns
  have free : ∀ char ∈ plmn.digits, char ≠ ',' ∧ char ≠ nul := by
    intro char found
    refine ⟨?_, ?_⟩ <;> rintro rfl <;> exact absurd found (plmn.not_mem (by decide))
  have length := plmn.length_eq
  have copied := @copyPlmnFrom_eq array.length plmn.digits rest [] array free ends (by omega) (by omega)
  rw [List.nil_append, List.length_nil, Nat.zero_add, List.nil_append] at copied
  rw [copyPlmn, text]
  exact copied

/-- What `find_id` finds is a whole id. -/
private theorem findIdFrom_some {buf id : Text} {fuel start pos : ℕ} (found : findIdFrom buf id fuel start = some pos) :
    wholeId buf id pos = true ∧ id.isPrefixOf (buf.drop pos) = true := by
  induction fuel generalizing start with
  | zero => exact absurd found (by simp [findIdFrom])
  | succ fuel ih =>
    unfold findIdFrom at found
    split at found
    · contradiction
    · next next occurs =>
      split at found
      · next whole =>
        obtain rfl := Option.some_inj.mp found
        exact ⟨whole, @List.find?_some _ (fun pos => id.isPrefixOf (buf.drop pos)) _ _ occurs⟩
      · exact ih found

/-- No whole id of a list of networks is a country code. -/
private theorem findId_mcc (plmns : List Plmn) (mcc : Mcc) : findId (plmnText plmns) mcc.digits = none := by
  rw [Option.eq_none_iff_forall_ne_some]
  intro pos found
  obtain ⟨whole, starts⟩ := findIdFrom_some found
  simp only [wholeId, Bool.decide_and, Bool.decide_or, Bool.and_eq_true, Bool.or_eq_true, decide_eq_true_eq,
    mcc.length_eq] at whole
  have free : ∀ item ∈ plmns.map Plmn.digits, ',' ∉ item := by
    intro item member
    obtain ⟨plmn, _, rfl⟩ := List.mem_map.mp member
    exact plmn.not_mem (by decide)
  obtain ⟨rest, suffix, text⟩ := Machine.drop_intercalate free whole.1
  have behind : (plmnText plmns).drop pos = [','].intercalate rest := text
  have fourth : (plmnText plmns)[pos + 3]? = ([','].intercalate rest)[3]? := by rw [← behind, List.getElem?_drop]
  cases rest with
  | nil =>
    have length := (List.isPrefixOf_iff_prefix.mp starts).length_le
    rw [behind, List.intercalate_nil, mcc.length_eq] at length
    exact absurd length (by decide)
  | cons item rest =>
    -- the network behind the border has a fourth digit
    obtain ⟨plmn, _, rfl⟩ := List.mem_map.mp (suffix.subset List.mem_cons_self)
    have long : 3 < plmn.digits.length := by
      have length := plmn.length_eq
      omega
    have digit : ([','].intercalate (plmn.digits :: rest))[3]? = some plmn.digits[3] := by
      cases rest with
      | nil => rw [List.intercalate_singleton, List.getElem?_eq_getElem long]
      | cons next rest =>
        rw [List.intercalate_cons_cons, List.append_assoc, List.getElem?_append_left long, List.getElem?_eq_getElem long]
    rw [fourth, digit] at whole
    rcases whole.2 with comma | ends
    · have member : ',' ∈ plmn.digits := Option.some_inj.mp comma ▸ List.getElem_mem long
      exact plmn.not_mem (by decide) member
    · contradiction

/-- For every list, every country and every array with room for a network: the wanted one is selected exactly if none
is wanted for a country. -/
theorem selectsPlmn_iff (plmns : List Plmn) (array : Text) (mcc : Option Mcc) (room : 7 ≤ array.length) :
    SelectsPlmn plmns array mcc ↔ ∀ country ∈ mcc, ∀ plmn ∈ plmns, plmn.mcc ≠ country := by
  cases mcc with
  | none =>
    refine ⟨fun _ => by simp, fun _ => ⟨?_, fun given => absurd rfl given⟩⟩
    intro plmn first
    obtain ⟨rest, rfl⟩ : ∃ rest, plmns = plmn :: rest := by
      cases plmns with
      | nil => contradiction
      | cons head rest => exact ⟨rest, by rw [Option.some_inj.mp first]⟩
    exact copyPlmn_first plmn rest room
  | some country =>
    have copied : copyPlmn (plmnText plmns) array array.length (some country.digits) = some (0, array) := by
      simp only [copyPlmn, findId_mcc]
    have missing : wanted plmns (some country) = none ↔ ∀ plmn ∈ plmns, plmn.mcc ≠ country := by
      simp [wanted]
    have countries : (∀ wants ∈ some country, ∀ plmn ∈ plmns, plmn.mcc ≠ wants) ↔ wanted plmns (some country) = none := by
      simp [missing]
    rw [countries]
    constructor
    · intro selects
      by_contra found
      obtain ⟨plmn, first⟩ := Option.ne_none_iff_exists'.mp found
      have result := copied.symm.trans (selects.copies plmn first)
      have length := plmn.length_eq
      have zero : 0 = plmn.digits.length := congrArg Prod.fst (Option.some_inj.mp result)
      omega
    · intro none
      refine ⟨fun plmn first => ?_, fun _ _ => copied⟩
      rw [none] at first
      contradiction

/-- Three digits of a country. -/
def mccGermany : Mcc := ⟨"262".toList, rfl, List.all_eq_true.mp rfl⟩

/-- A network of that country, with two digits. -/
def plmnGermany : Plmn := ⟨mccGermany, "02".toList, .inl rfl, List.all_eq_true.mp rfl⟩

/-- A network of another country, with three digits. -/
def plmnUsa : Plmn := ⟨⟨"311".toList, rfl, List.all_eq_true.mp rfl⟩, "480".toList, .inr rfl, List.all_eq_true.mp rfl⟩

/-- A country that has none of the networks. -/
def mccAustria : Mcc := ⟨"232".toList, rfl, List.all_eq_true.mp rfl⟩

/-- None of several networks is selected for a country that has none of them. -/
theorem selectsPlmn_foreign :
    SelectsPlmn [plmnGermany, plmnUsa, plmnGermany] (List.replicate 15 nul) (some mccAustria) := by
  refine (selectsPlmn_iff _ _ (some mccAustria) (by decide)).mpr ?_
  intro country wanted plmn member
  obtain rfl := Option.some.inj wanted
  have differ : ∀ plmn ∈ [plmnGermany, plmnUsa, plmnGermany], plmn.mcc ≠ mccAustria := by decide
  exact differ plmn member

/-- The network 26202 is of country 262, and is not found. -/
theorem country_not_selected :
    copyPlmn "26202".toList (List.replicate 7 nul) 7 (some "262".toList) = some (0, List.replicate 7 nul) ∧
      ¬ SelectsPlmn [plmnGermany] (List.replicate 7 nul) (some mccGermany) := by
  have nothing : copyPlmn "26202".toList (List.replicate 7 nul) 7 (some "262".toList) =
      some (0, List.replicate 7 nul) := by decide +kernel
  refine ⟨nothing, fun selects => ?_⟩
  have copied := selects.copies plmnGermany (by decide +kernel)
  exact absurd (nothing.symm.trans copied) (by decide +kernel)

end CoapsClient.ModemSim
