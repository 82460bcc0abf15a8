import CoapsClient.Machine.Separated
import CoapsClient.Model.Coap.Query
import CoapsClient.Soundness.ImeiExpansion

/-! # The query of a report

A query is a list of parameters, and the part of `coap_appl_client_prepare_post` for it removes the first parameter
`read` from the list, or only looks for it. It looks for the text, so that a `?read` inside of an earlier parameter is
taken for the parameter; and a query that leaves no place for the leading `?` is passed on without it.
-/

namespace CoapsClient.CoapAppl

open Machine (cstring put ended)
open ApplSettings (Settings Config chars strstr)

/-- The parameters of a query, with or without the leading `?`. -/
def parameters (query : List UInt8) : List (List UInt8) :=
  (if query.head? = some questionMark then query.tail else query).splitOn ampersand

/-- The query of some parameters, with the leading `?`. -/
def queryText (params : List (List UInt8)) : List UInt8 :=
  if params = [] then [] else questionMark :: [ampersand].intercalate params

/-- The parameter `read` or `read=..`. -/
def isRead (param : List UInt8) : Bool := param = read || (read ++ [equalsSign]).isPrefixOf param

/-- What is behind the first `?` in a parameter that has a `read` behind it. -/
def hiddenRead : List UInt8 → Option (List UInt8)
  | [] => none
  | byte :: rest => if byte = questionMark ∧ isRead rest then some rest else hiddenRead rest

/-- The text for the query, if there is a query. -/
def path (query : List UInt8) (params : List (List UInt8)) : Option (List UInt8) :=
  if query = [] then none else some (queryText params)

/-- A parameter that is not `read` and hides none. -/
def isOther (param : List UInt8) : Bool := !isRead param && (hiddenRead param).isNone

/-- The first parameter that is `read` or hides one is `read`, or hides the one that is behind it. -/
def ReadsFirst (params : List (List UInt8)) : Prop :=
  match params.dropWhile isOther with
  | [] => True
  | param :: rest => isRead param ∨ rest.head? = hiddenRead param

/-- The leading `?` is there, or has a place. -/
def Fits (query : List UInt8) : Prop :=
  query.head? = some questionMark ∨ query.length + 1 < maxSettingsValueLength

/-- A byte in front of a parameter. -/
def opens (byte : UInt8) : Bool := byte = questionMark || byte = ampersand

/-- What may be behind the name of the parameter. -/
def closes (text : List UInt8) : Bool := text.head?.all fun byte => byte = ampersand || byte = equalsSign

/-- A parameter `read` at the start of a text. -/
def readsAt (text : List UInt8) : Bool := read.isPrefixOf text && closes (text.drop 4)

/-- The index of the first parameter `read` in a text behind a byte. -/
def findRead : UInt8 → List UInt8 → Option ℕ
  | _, [] => none
  | before, byte :: text =>
    if opens before && readsAt (byte :: text) then some 0 else (findRead byte text).map (· + 1)

private theorem read_eq : read = [114, 101, 97, 100] := rfl

private theorem read_length : read.length = 4 := rfl

section Finding

variable {before : UInt8} {text skip tail param : List UInt8}

/-- Without the text there is no parameter. -/
private theorem findRead_none (missing : ¬ read <:+: text) : findRead before text = none := by
  induction text generalizing before with
  | nil => rfl
  | cons byte text ih =>
    have notHere : read.isPrefixOf (byte :: text) = false :=
      Bool.eq_false_iff.mpr fun here => missing (List.isPrefixOf_iff_prefix.mp here).isInfix
    have later : findRead byte text = none := ih fun inside => missing (inside.trans (List.suffix_cons _ _).isInfix)
    simp [findRead, readsAt, notHere, later]

/-- The text itself holds no second one. -/
private theorem findRead_read : findRead before (read ++ tail) =
    if opens before && closes tail then some 0 else (findRead 100 tail).map (· + 4) := by
  have drop : (read ++ tail).drop 4 = tail := rfl
  have here : readsAt (read ++ tail) = closes tail := by
    rw [readsAt, drop, List.isPrefixOf_iff_prefix.mpr (List.prefix_append _ _), Bool.true_and]
  have whole : read ++ tail = 114 :: 101 :: 97 :: 100 :: tail := rfl
  have inner : findRead 114 (101 :: 97 :: 100 :: tail) = (findRead 100 tail).map (· + 3) := by
    simp [findRead, opens, questionMark, ampersand, Option.map_map, Function.comp_def]
  rw [whole] at here ⊢
  rw [findRead, here, inner]
  split
  · rfl
  · cases findRead 100 tail <;> rfl

/-- The first text decides, and otherwise it is looked for behind it. -/
private theorem findRead_first (first : ∀ earlier < skip.length, ¬ read <+: (skip ++ (read ++ tail)).drop earlier) :
    findRead before (skip ++ (read ++ tail)) =
      if opens (skip.getLastD before) && closes tail then some skip.length
      else (findRead 100 tail).map (skip.length + 4 + ·) := by
  induction skip generalizing before with
  | nil =>
    rw [List.nil_append, findRead_read]
    simp [Nat.add_comm]
  | cons byte skip ih =>
    have notHere : read.isPrefixOf (byte :: (skip ++ (read ++ tail))) = false :=
      Bool.eq_false_iff.mpr fun here => first 0 (Nat.succ_pos _) (List.isPrefixOf_iff_prefix.mp here)
    have later := @ih byte fun earlier order => first (earlier + 1) (Nat.succ_lt_succ order)
    rw [List.cons_append, findRead, readsAt, notHere, Bool.false_and, Bool.and_false, if_neg (by decide), later,
      List.getLastD_cons]
    split
    · rfl
    · cases findRead 100 tail with
      | none => rfl
      | some index => simp only [Option.map_some, List.length_cons, Option.some_inj]; omega

end Finding

section Params

variable {before : UInt8} {text param found : List UInt8} {params : List (List UInt8)}

/-- An `&` ends a parameter. -/
private theorem readsAt_ampersand : readsAt (param ++ ampersand :: text) = readsAt param := by
  rcases param with _ | ⟨first, _ | ⟨second, _ | ⟨third, _ | ⟨fourth, _ | ⟨byte, param⟩⟩⟩⟩⟩
  all_goals simp [readsAt, read_eq, ampersand, closes, List.isPrefixOf]

/-- A parameter is `read` when it reads at its start. -/
private theorem isRead_eq (free : ampersand ∉ param) : isRead param = readsAt param := by
  cases start : read.isPrefixOf param with
  | true =>
    obtain ⟨tail, rfl⟩ := List.isPrefixOf_iff_prefix.mp start
    cases tail with
    | nil => rfl
    | cons byte tail =>
      have other : byte ≠ ampersand := fun same => free (by simp [same])
      simp only [isRead, readsAt, closes, start, List.drop_left' read_length, List.head?_cons, Option.all_some, other]
      rw [Bool.eq_iff_iff]
      simp [read_eq, List.isPrefixOf, @eq_comm _ equalsSign]
  | false =>
    have noPrefix : ¬ read <+: param := fun isPrefix => by simp [List.isPrefixOf_iff_prefix.mpr isPrefix] at start
    have other : param ≠ read := fun same => noPrefix (same ▸ List.prefix_rfl)
    have assigned : (read ++ [equalsSign]).isPrefixOf param = false :=
      Bool.eq_false_iff.mpr fun isPrefix =>
        noPrefix ((List.prefix_append _ _).trans (List.isPrefixOf_iff_prefix.mp isPrefix))
    simp [isRead, readsAt, start, other, assigned]

private theorem findRead_ampersand : findRead before (param ++ ampersand :: text) =
    ((findRead before param).or ((findRead ampersand text).map (param.length + 1 + ·))) := by
  induction param generalizing before with
  | nil => simp [findRead, readsAt, read_eq, ampersand, Nat.add_comm]
  | cons byte param ih =>
    have here := @readsAt_ampersand text (byte :: param)
    rw [List.cons_append] at here
    rw [List.cons_append, findRead, findRead, here, ih]
    split
    · rfl
    · cases findRead byte param with
      | some index => rfl
      | none =>
        cases findRead ampersand text with
        | none => rfl
        | some index => simp; omega

/-- A `read` inside of a parameter is behind a `?` in it. -/
private theorem hiddenRead_some (hidden : hiddenRead param = some found) :
    isRead found = true ∧ ∃ front, param = front ++ questionMark :: found := by
  induction param with
  | nil => cases hidden
  | cons byte rest ih =>
    rw [hiddenRead] at hidden
    split at hidden
    · next isHere =>
      obtain rfl := Option.some_inj.mp hidden
      exact ⟨isHere.2, [], by rw [isHere.1]; rfl⟩
    · obtain ⟨isFound, front, rfl⟩ := ih hidden
      exact ⟨isFound, byte :: front, rfl⟩

/-- The parameter is found at its start, and else where it hides one. -/
private theorem findRead_param (free : ampersand ∉ param) : findRead before param =
    if opens before && isRead param then some 0
    else (hiddenRead param).map fun found => param.length - found.length := by
  induction param generalizing before with
  | nil => simp [findRead, isRead, read_eq, hiddenRead]
  | cons byte rest ih =>
    have other : byte ≠ ampersand := fun same => free (by simp [same])
    have opened : opens byte = decide (byte = questionMark) := by simp [opens, other]
    have later := @ih byte fun member => free (List.mem_cons_of_mem _ member)
    rw [findRead, ← isRead_eq free, later, hiddenRead, opened]
    split
    · rfl
    have inner : ∀ found, hiddenRead rest = some found → rest.length - found.length + 1 = rest.length + 1 - found.length := by
      intro found hidden
      obtain ⟨_, front, rfl⟩ := hiddenRead_some hidden
      simp
      omega
    by_cases isHere : byte = questionMark ∧ isRead rest = true
    · simp [isHere]
    · have notHere : (decide (byte = questionMark) && isRead rest) = false := by simpa using isHere
      rw [notHere, if_neg (by decide), if_neg isHere]
      cases hidden : hiddenRead rest with
      | none => rfl
      | some found => simpa using inner found hidden

/-- What is found in some parameters: behind others, and in one of them behind a name that ends with `?`, or at its
start. -/
structure Finds (params before : List (List UInt8)) (name found : List UInt8) (behind : List (List UInt8)) : Prop where
  whole : params = before ++ (name ++ found) :: behind
  others : ∀ param ∈ before, isOther param = true
  isRead : isRead found = true
  hidden : name = [] ∨ isOther (name ++ found) = false ∧ CoapAppl.isRead (name ++ found) = false ∧
    hiddenRead (name ++ found) = some found ∧ ∃ front, name = front ++ [questionMark]
  index : ∀ byte, opens byte = true →
    findRead byte ([ampersand].intercalate params) = some ((ended ampersand before).length + name.length)

/-- Parameters that are others hold none. -/
private theorem findRead_others (free : ∀ param ∈ params, ampersand ∉ param)
    (others : ∀ param ∈ params, isOther param = true)
    (opened : opens before = true) : findRead before ([ampersand].intercalate params) = none := by
  induction params generalizing before with
  | nil => rfl
  | cons param rest ih =>
    have other := others param List.mem_cons_self
    rw [isOther, Bool.and_eq_true, Bool.not_eq_true', Option.isNone_iff_eq_none] at other
    have alone : findRead before param = none := by
      rw [findRead_param (free param List.mem_cons_self), other.1, other.2, Bool.and_false]
      rfl
    cases rest with
    | nil => rwa [List.intercalate_singleton]
    | cons next rest =>
      have later := @ih ampersand (fun param member => free param (List.mem_cons_of_mem _ member))
        (fun param member => others param (List.mem_cons_of_mem _ member)) rfl
      rw [List.intercalate_cons_cons, List.append_assoc, List.singleton_append, findRead_ampersand, alone, later]
      rfl

/-- Either all parameters are others, or there is a first that is not. -/
private theorem others_or_finds (free : ∀ param ∈ params, ampersand ∉ param) :
    (∀ param ∈ params, isOther param = true) ∨ ∃ before name found behind, Finds params before name found behind := by
  induction params with
  | nil => exact .inl fun _ member => absurd member List.not_mem_nil
  | cons param rest ih =>
    have here := free param List.mem_cons_self
    -- the index is that in the first parameter, if it holds one
    have first : ∀ byte index, findRead byte param = some index →
        findRead byte ([ampersand].intercalate (param :: rest)) = some index := by
      intro byte index found
      cases rest with
      | nil => rwa [List.intercalate_singleton]
      | cons next rest =>
        rw [List.intercalate_cons_cons, List.append_assoc, List.singleton_append, findRead_ampersand, found]
        rfl
    cases isFirst : isRead param with
    | true =>
      refine .inr ⟨[], [], param, rest, rfl, by simp, isFirst, .inl rfl, fun byte opened => first byte 0 ?_⟩
      rw [findRead_param here, isFirst, opened]
      rfl
    | false =>
      cases hidden : hiddenRead param with
      | some found =>
        obtain ⟨isFound, front, rfl⟩ := hiddenRead_some hidden
        have split : front ++ questionMark :: found = front ++ [questionMark] ++ found := by simp
        refine .inr ⟨[], front ++ [questionMark], found, rest, by rw [← split]; rfl, by simp, isFound, .inr ?_,
          fun byte opened => first byte _ ?_⟩
        · rw [← split]
          exact ⟨by simp [isOther, hidden], isFirst, hidden, front, rfl⟩
        · rw [findRead_param here, isFirst, hidden, Bool.and_false]
          simp
          omega
      | none =>
        have other : isOther param = true := by simp [isOther, isFirst, hidden]
        rcases ih fun param member => free param (List.mem_cons_of_mem _ member) with others | ⟨before, name, found, behind, finds⟩
        · exact .inl fun param member => (List.mem_cons.mp member).elim (· ▸ other) (others param)
        · refine .inr ⟨param :: before, name, found, behind, by rw [finds.whole]; rfl,
            fun param member => (List.mem_cons.mp member).elim (· ▸ other) (finds.others param), finds.isRead, finds.hidden,
            fun byte opened => ?_⟩
          have alone : findRead byte param = none := by
            rw [findRead_param here, isFirst, hidden, Bool.and_false]
            rfl
          have later := finds.index ampersand rfl
          have some' : rest ≠ [] := by
            rw [finds.whole]
            simp
          rw [List.intercalate_cons_of_ne_nil some', List.append_assoc, List.singleton_append, findRead_ampersand, alone, later]
          simp
          omega

end Params

section Arrays

variable {front text rest skip tail : List UInt8} {char before : UInt8} {noResponse : Bool} {err fuel : ℕ}

private theorem cstring_terminated (noZero : 0 ∉ text) : cstring (text ++ 0 :: rest) = text := by
  have ended : cstring (text ++ [0]) = text :=
    (Machine.cstring_append_zeros 1).trans (Machine.cstring_eq noZero)
  rw [List.append_cons, Machine.cstring_append (by simp), ended]

private theorem textAt_eq (noZero : 0 ∉ text) : textAt (front ++ (text ++ 0 :: rest)) front.length = some text := by
  rw [textAt, List.drop_left, if_pos (by simp), cstring_terminated noZero]

private theorem strstrFrom_eq (noZero : 0 ∉ text) :
    strstrFrom (front ++ (text ++ 0 :: rest)) front.length read = some ((strstr text read).map (front.length + ·)) := by
  rw [strstrFrom, textAt_eq noZero, Option.map_some]

/-- The byte behind a part of the text ends a parameter, or does not. -/
private theorem behind_eq (noZero : 0 ∉ tail) : ∃ behind,
    (front ++ (tail ++ 0 :: rest))[front.length]? = some behind ∧
      (closes tail = true ↔ behind = 0 ∨ behind = ampersand ∨ behind = equalsSign) := by
  rw [List.getElem?_append_right (Nat.le_refl _), Nat.sub_self]
  cases tail with
  | nil => exact ⟨0, rfl, by simp [closes]⟩
  | cons byte tail =>
    have nonzero : byte ≠ 0 := fun same => noZero (by simp [same])
    exact ⟨byte, rfl, by simp [closes, nonzero]⟩

private theorem byteBefore_eq (some' : front ≠ []) :
    byteBefore (front ++ rest) front.length = some (front.getLastD 0) := by
  have positive : 0 < front.length := List.length_pos_iff.mpr some'
  rw [byteBefore, if_pos positive, List.getElem?_append_left (by omega), List.getLastD_eq_getLast?,
    List.getLast?_eq_getElem?]
  rw [List.getElem?_eq_getElem (by omega), Option.getD_some]

/-- What the loop does with what it finds. -/
def readResult (noResponse : Bool) (value : List UInt8) (err : ℕ) : Option ℕ → Option (List UInt8 × Bool)
  | none => some (value, false)
  | some found => if noResponse then (removeRead value err found).map (·, false) else some (value, true)

/-- One turn of the loop, behind which it looks for the text again. -/
private theorem readLoop_succ {found : ℕ} {behind : UInt8} {value : List UInt8} {cur : ℕ}
    (finds : strstrFrom value cur read = some (some found)) (ahead : byteBefore value found = some before)
    (behindEq : value[found + 4]? = some behind)
    (closesIff : closes tail = true ↔ behind = 0 ∨ behind = ampersand ∨ behind = equalsSign) :
    readLoop noResponse err (fuel + 1) value cur =
      if opens before && closes tail then readResult noResponse value err (some found)
      else readLoop noResponse err fuel value (found + 4) := by
  have opensIff : opens before = true ↔ before = questionMark ∨ before = ampersand := by simp [opens]
  simp only [readLoop, finds, ahead, behindEq, Option.bind_eq_bind, Option.bind_some, ← opensIff, ← closesIff, readResult]
  cases opens before <;> cases closes tail <;> cases noResponse <;> simp [Option.map_eq_bind]

/-- The loop finds the parameter, when it does not look in front of the array. -/
private theorem readLoop_eq (noZero : 0 ∉ text) (enough : text.length < fuel) (inside : front = [] → ¬ read <+: text) :
    readLoop noResponse err fuel (front ++ (text ++ 0 :: rest)) front.length =
      readResult noResponse (front ++ (text ++ 0 :: rest)) err
        ((findRead (front.getLastD 0) text).map (front.length + ·)) := by
  induction fuel generalizing front text with
  | zero => exact absurd enough (Nat.not_lt_zero _)
  | succ fuel ih =>
    have looks := @strstrFrom_eq front text rest noZero
    cases found : strstr text read with
    | none =>
      rw [found, Option.map_none] at looks
      rw [readLoop, looks, findRead_none (ApplSettings.strstr_none found)]
      rfl
    | some cur =>
      obtain ⟨skip, tail, whole, rfl, first⟩ := ApplSettings.strstr_some found
      rw [found, Option.map_some] at looks
      rw [List.append_assoc] at whole
      subst whole
      have tailNoZero : 0 ∉ tail := fun member => noZero (by simp [member])
      have positive : front ++ skip ≠ [] := by
        intro empty
        obtain ⟨rfl, rfl⟩ := List.append_eq_nil_iff.mp empty
        exact inside rfl (by rw [List.nil_append]; exact List.prefix_append _ _)
      -- what is in front of the text that was found, and what is behind it
      have ahead := @byteBefore_eq (front ++ skip) (read ++ tail ++ 0 :: rest) positive
      obtain ⟨behind, behindEq, closesIff⟩ := @behind_eq (front ++ skip ++ read) rest tail tailNoZero
      have last : (front ++ skip).getLastD 0 = skip.getLastD (front.getLastD 0) := by
        cases skip <;> simp
      have lastRead : (front ++ skip ++ read).getLastD 0 = 100 := by simp [read_eq]
      have four : (front ++ skip ++ read).length = front.length + skip.length + 4 := by
        simp [read_eq, Nat.add_assoc]
      have later := @ih (front ++ skip ++ read) tail tailNoZero (by simp [read_eq] at enough ⊢; omega)
        (fun empty => by simp [read_eq] at empty)
      rw [lastRead] at later
      simp only [List.append_assoc, List.length_append] at looks ahead behindEq four later
      rw [four] at behindEq later
      rw [List.append_assoc, List.append_assoc, readLoop_succ looks ahead behindEq closesIff, findRead_first first, ← last, later]
      split
      · rfl
      · rw [Option.map_map]
        congr 2
        funext index
        simp only [Function.comp_apply]
        omega

/-- Bytes that lie in the array are moved to its text. -/
private theorem memmove_eq {gone : List UInt8} : memmove (front ++ (gone ++ (tail ++ rest))) front.length
    (front.length + gone.length) tail.length = some (front ++ (tail ++ (gone ++ (tail ++ rest)).drop tail.length)) := by
  have source : Machine.loadAt (front ++ (gone ++ (tail ++ rest))) (front.length + gone.length) tail.length = tail := by
    rw [Machine.loadAt, ← List.drop_drop, List.drop_left, List.drop_left, List.take_left]
  have inside : front.length + gone.length + tail.length ≤ (front ++ (gone ++ (tail ++ rest))).length := by
    simp only [List.length_append]
    omega
  rw [memmove, if_pos ⟨inside, by omega⟩, Machine.memmove, source, Machine.storeAt, List.take_left, List.drop_length_add_append,
    List.append_assoc]

/-- A parameter with another one behind it is removed with its `&`. -/
private theorem removeRead_ampersand {gone : List UInt8} (noZero : 0 ∉ gone ++ ampersand :: tail) (free : ampersand ∉ gone)
    (length : err = (front ++ (gone ++ ampersand :: tail)).length + 1) :
    ∃ rest', removeRead (front ++ (gone ++ ampersand :: tail ++ 0 :: rest)) err front.length =
      some (front ++ (tail ++ 0 :: rest')) := by
  have found : (gone ++ ampersand :: tail).findIdx? (· = ampersand) = some gone.length := by
    have before : gone.findIdx? (· = ampersand) = none :=
      List.findIdx?_eq_none_iff.mpr fun byte member => decide_eq_false fun same => free (same ▸ member)
    rw [List.findIdx?_append, before, List.findIdx?_cons]
    simp
  have moved := @memmove_eq front rest (tail ++ [0]) (gone ++ [ampersand])
  have count : err - (front.length + gone.length + 1) = (tail ++ [0]).length := by
    simp only [length, List.length_append, List.length_cons, List.length_nil]
    omega
  have source : front.length + (gone ++ [ampersand]).length = front.length + gone.length + 1 := by
    rw [List.length_append, List.length_singleton, Nat.add_assoc]
  rw [source] at moved
  refine ⟨(gone ++ [ampersand] ++ (tail ++ [0] ++ rest)).drop (tail ++ [0]).length, ?_⟩
  rw [removeRead, strchrFrom, textAt_eq noZero, Option.map_some, found, Option.map_some, Option.bind_eq_bind, Option.bind_some]
  simp only [count]
  simpa using moved

/-- The last parameter is cut off with the byte in front of it. -/
private theorem removeRead_last {byte : UInt8} (noZero : 0 ∉ text) (free : ampersand ∉ text) :
    removeRead (front ++ [byte] ++ (text ++ 0 :: rest)) err (front ++ [byte]).length =
      some (front ++ 0 :: (text ++ 0 :: rest)) := by
  have missing : text.findIdx? (· = ampersand) = none :=
    List.findIdx?_eq_none_iff.mpr fun other member => decide_eq_false fun same => free (same ▸ member)
  rw [removeRead, strchrFrom, textAt_eq noZero, Option.map_some, missing, Option.map_none, Option.bind_eq_bind,
    Option.bind_some, List.length_append, List.length_singleton]
  have stored := @Machine.put_append _ front ([byte] ++ (text ++ 0 :: rest)) 0 0
  simpa using stored

end Arrays

section Queries

variable {config : Config} {settings : Settings config} {params before behind : List (List UInt8)}
variable {name found rest query : List UInt8} {err : ℕ}

/-- The parameters that are left when one is removed that is found behind a name. -/
def leftParams (before : List (List UInt8)) (name : List UInt8) : List (List UInt8) → List (List UInt8)
  | next :: behind => before ++ (name ++ next) :: behind
  | [] => if name = [] then before else before ++ [name.dropLast]

private theorem queryText_eq (nonempty : params ≠ []) : queryText params = questionMark :: [ampersand].intercalate params :=
  if_neg nonempty

/-- The text of the parameter is removed, and with it what separates it. -/
private theorem removeRead_eq (finds : Finds params before name found behind) (free : ∀ param ∈ params, ampersand ∉ param)
    (noZero : 0 ∉ queryText params) (length : err = (queryText params).length + 1) :
    ∃ rest', removeRead (queryText params ++ 0 :: rest) err ((ended ampersand before).length + name.length + 1) =
      some (queryText (leftParams before name behind) ++ 0 :: rest') := by
  obtain rfl := finds.whole
  have some' : before ++ (name ++ found) :: behind ≠ [] := by simp
  have foundFree : ampersand ∉ found := fun member =>
    free (name ++ found) (by simp) (List.mem_append_right _ member)
  rw [queryText_eq some', Machine.intercalate_append (List.cons_ne_nil _ _)] at noZero length ⊢
  cases behind with
  | cons next behind =>
    rw [leftParams, queryText_eq (by simp), Machine.intercalate_append (List.cons_ne_nil _ _)]
    rw [List.intercalate_cons_cons] at noZero length ⊢
    have parts : [ampersand].intercalate ((name ++ next) :: behind) = name ++ [ampersand].intercalate (next :: behind) := by
      cases behind <;> simp [List.intercalate_cons_cons]
    obtain ⟨rest', removed⟩ := @removeRead_ampersand (questionMark :: ended ampersand before ++ name) rest
      ([ampersand].intercalate (next :: behind)) err found (fun member => noZero (by simp only [List.append_assoc, List.mem_cons, List.mem_append] at member ⊢; tauto))
      foundFree (by simpa using length)
    refine ⟨rest', ?_⟩
    rw [parts]
    simpa [Nat.add_assoc, Nat.add_comm, Nat.add_left_comm] using removed
  | nil =>
    rw [List.intercalate_singleton] at noZero ⊢
    have foundNoZero : 0 ∉ found := fun member => noZero (by simp [member])
    -- the byte in front of the text is the leading `?`, an `&`, or the `?` of the name
    have split : ∃ byte, questionMark :: (ended ampersand before ++ name) =
        queryText (leftParams before name []) ++ [byte] := by
      rcases finds.hidden with rfl | ⟨_, _, _, front, rfl⟩
      · rw [leftParams, if_pos rfl, List.append_nil]
        by_cases first : before = []
        · exact ⟨questionMark, by rw [first]; rfl⟩
        · exact ⟨ampersand, by rw [Machine.ended_eq first, queryText_eq first]; rfl⟩
      · refine ⟨questionMark, ?_⟩
        rw [leftParams, if_neg (by simp), List.dropLast_concat, queryText_eq (by simp),
          Machine.intercalate_append (List.cons_ne_nil _ _), List.intercalate_singleton]
        simp
    obtain ⟨byte, split⟩ := split
    have removed := @removeRead_last (queryText (leftParams before name [])) found rest err byte foundNoZero foundFree
    rw [← split] at removed
    refine ⟨found ++ 0 :: rest, ?_⟩
    simpa using removed

private theorem getCoapQuery_eq : ∃ rest, applSettingsGetCoapQuery settings maxSettingsValueLength =
      ⟨settings.coapQuery.string.length, settings.coapQuery.string ++ 0 :: rest, settings.coapQuery.string.length + 1⟩ ∧
    rest.length + settings.coapQuery.string.length + 1 = maxSettingsValueLength ∧ ∀ byte ∈ rest, byte = 0 := by
  have shorter := settings.coapQuery.string_length_lt
  have count : 64 - settings.coapQuery.string.length = 63 - settings.coapQuery.string.length + 1 := by omega
  refine ⟨List.replicate (63 - settings.coapQuery.string.length) 0, ?_, ?_, fun byte member => List.eq_of_mem_replicate member⟩
  · rw [applSettingsGetCoapQuery, ApplSettings.applSettingsCopy, maxSettingsValueLength]
    change (if 64 < settings.coapQuery.string.length + 1 then _ else _) = _
    rw [if_neg (by omega)]
    refine congrArg₂ (fun value read => (⟨_, value, read⟩ : ApplSettings.Got)) ?_ rfl
    rw [← List.replicate_succ, ← count]
    exact Machine.Cells.load_bytes shorter.le
  · rw [List.length_replicate, maxSettingsValueLength]
    omega

/-- The query of the parameters is that of the settings, with the leading `?`. -/
private theorem queryText_parameters : queryText (parameters query) =
    questionMark :: (if query.head? = some questionMark then query.tail else query) := by
  have some' : parameters query ≠ [] := List.splitOn_ne_nil _ _
  rw [queryText_eq some', parameters, List.intercalate_splitOn]

/-- A query that has its `?`, or a place for it, has it then. -/
private theorem addQuestionMark_eq (some' : query ≠ []) (fits : Fits query)
    (size : rest.length + query.length + 1 = maxSettingsValueLength) :
    ∃ rest', addQuestionMark (query ++ 0 :: rest) (query.length + 1) =
      some (queryText (parameters query) ++ 0 :: rest', (queryText (parameters query)).length + 1) := by
  obtain ⟨first, others, rfl⟩ := List.exists_cons_of_ne_nil some'
  rw [queryText_parameters]
  by_cases mark : first = questionMark
  · subst mark
    exact ⟨rest, by simp [addQuestionMark]⟩
  · have place : (first :: others).length + 1 < maxSettingsValueLength :=
      fits.resolve_left fun same => mark (by simpa using same)
    obtain ⟨zero, left, rfl⟩ : ∃ zero left, rest = zero :: left := by
      refine List.exists_cons_of_ne_nil fun empty => ?_
      rw [empty, List.length_nil] at size
      omega
    have moved : memmove (first :: others ++ 0 :: zero :: left) 1 0 ((first :: others).length + 1) =
        some (first :: (first :: others ++ 0 :: left)) := by
      have source : Machine.loadAt (first :: others ++ 0 :: zero :: left) 0 ((first :: others).length + 1) =
          first :: others ++ [0] := by
        rw [Machine.loadAt, List.drop_zero, List.take_length_add_append]
        rfl
      have behind : (first :: others ++ 0 :: zero :: left).drop (1 + (first :: others ++ [0]).length) = left := by
        have shift : 1 + (first :: others ++ [0]).length = (first :: others).length + 2 := by
          simp only [List.length_append, List.length_cons, List.length_nil]
          omega
        rw [shift, List.drop_length_add_append]
        rfl
      rw [memmove, if_pos (by simp; omega), Machine.memmove, source, Machine.storeAt, behind]
      simp
    refine ⟨left, ?_⟩
    simp only [addQuestionMark, List.cons_append, List.getElem?_cons_zero, Option.bind_eq_bind, Option.bind_some] at moved ⊢
    rw [if_pos ⟨mark, by simp⟩, moved]
    simp [mark]

private theorem not_mem_queryText {byte : UInt8} (mark : byte ≠ questionMark) (separator : byte ≠ ampersand) :
    byte ∉ queryText params ↔ ∀ param ∈ params, byte ∉ param := by
  rcases List.eq_nil_or_concat params with rfl | ⟨front, last, rfl⟩
  · simp [queryText]
  · rw [List.concat_eq_append, queryText_eq (by simp), Machine.intercalate_append (List.cons_ne_nil _ _), List.intercalate_singleton]
    simp [ended, mark, separator, or_imp, forall_and]

/-- What is left are the bytes of the parameters. -/
private theorem not_mem_leftParams {byte : UInt8} (finds : Finds params before name found behind)
    (free : ∀ param ∈ params, byte ∉ param) : ∀ param ∈ leftParams before name behind, byte ∉ param := by
  obtain rfl := finds.whole
  have nameFree : byte ∉ name := fun member => free (name ++ found) (by simp) (List.mem_append_left _ member)
  intro param member
  cases behind with
  | cons next behind =>
    rcases List.mem_append.mp member with member | member
    · exact free param (by simp [member])
    rcases List.mem_cons.mp member with rfl | member
    · simpa [nameFree] using free next (by simp)
    · exact free param (by simp [member])
  | nil =>
    rw [leftParams] at member
    split at member
    · exact free param (by simp [member])
    rcases List.mem_append.mp member with member | member
    · exact free param (by simp [member])
    · rw [List.mem_singleton.mp member]
      exact fun inside => nameFree (List.dropLast_subset _ inside)

/-- The loop over the query in the array. -/
private theorem readLoop_queryText {noResponse : Bool} (nonempty : params ≠ []) (noZero : 0 ∉ queryText params) :
    readLoop noResponse err ((queryText params ++ 0 :: rest).length + 1) (queryText params ++ 0 :: rest) 0 =
      readResult noResponse (queryText params ++ 0 :: rest) err
        ((findRead questionMark ([ampersand].intercalate params)).map (· + 1)) := by
  have inside : ¬ read <+: queryText params := by
    rw [queryText_eq nonempty]
    simp [read_eq, questionMark]
  have looks := @readLoop_eq [] _ rest noResponse err ((queryText params ++ 0 :: rest).length + 1) noZero
    (by simp only [List.length_append]; omega) fun _ => inside
  have first : findRead 0 (queryText params) =
      (findRead questionMark ([ampersand].intercalate params)).map (· + 1) := by
    rw [queryText_eq nonempty, findRead]
    simp [opens, questionMark, ampersand]
  simpa [first, Function.comp_def] using looks

private theorem textAt_zero (noZero : 0 ∉ query) :
    textAt (query ++ 0 :: rest) 0 = some query := @textAt_eq [] query rest noZero

/-- The parameters of a query without zeros. -/
private theorem parameters_free (noZero : 0 ∉ query) :
    (∀ param ∈ parameters query, ampersand ∉ param) ∧ 0 ∉ queryText (parameters query) := by
  refine ⟨Machine.not_mem_of_mem_splitOn, ?_⟩
  rw [queryText_parameters, List.mem_cons, not_or]
  refine ⟨by decide, ?_⟩
  split
  · exact fun member => noZero (List.mem_of_mem_tail member)
  · exact noZero

/-- A query in the array, with its `?`. -/
private theorem prepareQuery_of_fits (noResponse : Bool) (some' : settings.coapQuery.string ≠ [])
    (fits : Fits settings.coapQuery.string) :
    ∃ rest, prepareQuery settings noResponse =
      (readResult noResponse (queryText (parameters settings.coapQuery.string) ++ 0 :: rest)
        ((queryText (parameters settings.coapQuery.string)).length + 1)
        ((findRead questionMark ([ampersand].intercalate (parameters settings.coapQuery.string))).map (· + 1))).bind
      fun result => (textAt result.1 0).map fun path => ⟨some path, result.2⟩ := by
  obtain ⟨behind, got, size, _⟩ := @getCoapQuery_eq _ settings
  obtain ⟨rest, added⟩ := addQuestionMark_eq some' fits size
  have noZero : 0 ∉ settings.coapQuery.string := fun member => Machine.cstring_nonzero 0 member rfl
  have looks := @readLoop_queryText (parameters settings.coapQuery.string) rest
    ((queryText (parameters settings.coapQuery.string)).length + 1) noResponse (List.splitOn_ne_nil _ _)
    (parameters_free noZero).2
  have nonzero : ((settings.coapQuery.string.length : ℕ) : ℤ) ≠ 0 := by simpa using some'
  have count : ((settings.coapQuery.string.length : ℤ) + 1).toNat = settings.coapQuery.string.length + 1 := by omega
  refine ⟨rest, ?_⟩
  simp only [prepareQuery, got, ne_eq, nonzero, not_false_eq_true, ↓reduceIte, count, added, Option.bind_eq_bind,
    Option.bind_some, looks]
  refine Option.bind_congr fun result _ => ?_
  rw [Option.map_eq_bind]
  rfl

/-- A query that is only looked at. -/
private theorem prepareQuery_response (some' : settings.coapQuery.string ≠ []) (fits : Fits settings.coapQuery.string) :
    prepareQuery settings false = some ⟨some (queryText (parameters settings.coapQuery.string)),
      (findRead questionMark ([ampersand].intercalate (parameters settings.coapQuery.string))).isSome⟩ := by
  have noZero : 0 ∉ settings.coapQuery.string := fun member => Machine.cstring_nonzero 0 member rfl
  obtain ⟨rest, run⟩ := prepareQuery_of_fits false some' fits
  rw [run]
  cases findRead questionMark ([ampersand].intercalate (parameters settings.coapQuery.string)) with
  | none =>
    rw [Option.map_none, readResult, Option.bind_some, textAt_zero (parameters_free noZero).2]
    rfl
  | some index =>
    rw [Option.map_some, readResult, if_neg (by decide), Option.bind_some, textAt_zero (parameters_free noZero).2]
    rfl

/-- A query without a `read` is sent as it is. -/
private theorem prepareQuery_others (some' : settings.coapQuery.string ≠ []) (fits : Fits settings.coapQuery.string)
    (others : ∀ param ∈ parameters settings.coapQuery.string, isOther param = true) :
    prepareQuery settings true = some ⟨some (queryText (parameters settings.coapQuery.string)), false⟩ := by
  have noZero : 0 ∉ settings.coapQuery.string := fun member => Machine.cstring_nonzero 0 member rfl
  obtain ⟨rest, run⟩ := prepareQuery_of_fits true some' fits
  rw [run, findRead_others (parameters_free noZero).1 others rfl, Option.map_none, readResult, Option.bind_some,
    textAt_zero (parameters_free noZero).2]
  rfl

/-- What is found is removed. -/
private theorem prepareQuery_finds (some' : settings.coapQuery.string ≠ []) (fits : Fits settings.coapQuery.string)
    (finds : Finds (parameters settings.coapQuery.string) before name found behind) :
    prepareQuery settings true = some ⟨some (queryText (leftParams before name behind)), false⟩ := by
  have noZero : 0 ∉ settings.coapQuery.string := fun member => Machine.cstring_nonzero 0 member rfl
  obtain ⟨free, textNoZero⟩ := parameters_free noZero
  obtain ⟨rest, run⟩ := prepareQuery_of_fits true some' fits
  obtain ⟨rest', removed⟩ := @removeRead_eq _ _ _ _ _ rest _ finds free textNoZero rfl
  have params := (not_mem_queryText (by decide) (by decide)).mp textNoZero
  have left := (not_mem_queryText (by decide) (by decide)).mpr (not_mem_leftParams finds params)
  rw [run, finds.index questionMark rfl, Option.map_some, readResult, if_pos rfl, removed, Option.map_some, Option.bind_some,
    textAt_zero left]
  rfl

/-- A query that has no place for its `?` stays as it is, unless the loop leaves the array. -/
private theorem readLoop_keeps {fuel cur : ℕ} {value value' : List UInt8} {readEtag : Bool}
    (run : readLoop false err fuel value cur = some (value', readEtag)) : value' = value := by
  induction fuel generalizing cur with
  | zero => cases run
  | succ fuel ih =>
    simp only [readLoop, Option.bind_eq_bind, Option.bind_eq_some_iff] at run
    obtain ⟨looked, _, run⟩ := run
    cases looked with
    | none => exact (Prod.mk.inj (Option.some_inj.mp run)).1.symm
    | some found =>
      simp only [Option.bind_eq_some_iff] at run
      obtain ⟨ahead, _, run⟩ := run
      split at run
      · obtain ⟨behind, _, run⟩ := Option.bind_eq_some_iff.mp run
        split at run
        · exact (Prod.mk.inj (Option.some_inj.mp run)).1.symm
        · exact ih run
      · exact ih run

private theorem prepareQuery_of_not_fits {path : Option (List UInt8)} {readEtag : Bool}
    (long : ¬ Fits settings.coapQuery.string)
    (run : prepareQuery settings false = some ⟨path, readEtag⟩) : path = some settings.coapQuery.string := by
  obtain ⟨behind, got, size, _⟩ := @getCoapQuery_eq _ settings
  have noZero : 0 ∉ settings.coapQuery.string := fun member => Machine.cstring_nonzero 0 member rfl
  obtain ⟨mark, full⟩ := not_or.mp long
  have shorter := settings.coapQuery.string_length_lt
  rw [maxSettingsValueLength] at full size
  have nonzero : ((settings.coapQuery.string.length : ℕ) : ℤ) ≠ 0 := by omega
  have count : ((settings.coapQuery.string.length : ℤ) + 1).toNat = settings.coapQuery.string.length + 1 := by omega
  obtain ⟨first, others, query⟩ := List.exists_cons_of_length_pos (l := settings.coapQuery.string) (by omega)
  have same : addQuestionMark (settings.coapQuery.string ++ 0 :: behind) (settings.coapQuery.string.length + 1) =
      some (settings.coapQuery.string ++ 0 :: behind, settings.coapQuery.string.length + 1) := by
    rw [addQuestionMark]
    simp only [query, List.cons_append, List.getElem?_cons_zero, Option.bind_eq_bind, Option.bind_some]
    rw [if_neg]
    rintro ⟨_, place⟩
    rw [query, List.length_cons] at size full
    simp only [List.length_cons, List.length_append] at place
    omega
  simp only [prepareQuery, got, ne_eq, nonzero, not_false_eq_true, ↓reduceIte, count, same, Option.bind_eq_bind,
    Option.bind_some] at run
  obtain ⟨⟨value, etag⟩, looked, run⟩ := Option.bind_eq_some_iff.mp run
  obtain rfl := readLoop_keeps looked
  rw [textAt_zero noZero, Option.bind_some] at run
  exact (Query.mk.inj (Option.some_inj.mp run)).1.symm

/-- The list of parameters decides what is found first. -/
private theorem readsFirst_iff (finds : Finds params before name found behind) :
    ReadsFirst params ↔ name = [] ∨ behind.head? = some found := by
  have dropped : params.dropWhile isOther = (name ++ found) :: behind := by
    have notOther : isOther (name ++ found) = false := by
      rcases finds.hidden with rfl | ⟨other, _⟩
      · simp [isOther, finds.isRead]
      · exact other
    rw [finds.whole, List.dropWhile_append_of_pos finds.others, List.dropWhile_cons_of_neg (by simp [notOther])]
  rw [ReadsFirst, dropped]
  rcases finds.hidden with rfl | ⟨_, notRead, hidden, front, rfl⟩
  · simp [finds.isRead]
  · change isRead _ = true ∨ behind.head? = hiddenRead _ ↔ _
    rw [notRead, hidden]
    simp

/-- Two queries of parameters without separators are the same for the same parameters only. -/
private theorem queryText_inj {others : List (List UInt8)} (nonempty : params ≠ []) (nonempty' : others ≠ [])
    (free : ∀ param ∈ params, ampersand ∉ param) (free' : ∀ param ∈ others, ampersand ∉ param) :
    queryText params = queryText others ↔ params = others := by
  refine ⟨fun same => ?_, congrArg queryText⟩
  rw [queryText_eq nonempty, queryText_eq nonempty', List.cons_inj_right] at same
  rw [← List.splitOn_intercalate ampersand free nonempty, same, List.splitOn_intercalate ampersand free' nonempty']

/-- What is left is the list without its first `read` exactly if the list decides. -/
private theorem leftParams_eq (finds : Finds params before name found behind) (free : ∀ param ∈ params, ampersand ∉ param) :
    queryText (leftParams before name behind) = queryText (params.eraseP isRead) ↔
      name = [] ∨ behind.head? = some found := by
  have others : ∀ param ∈ before, ¬ isRead param = true := by
    intro param member
    have other := finds.others param member
    simp only [isOther, Bool.and_eq_true, Bool.not_eq_true'] at other
    simp [other.1]
  obtain rfl := finds.whole
  rw [List.eraseP_append_right _ others]
  rcases finds.hidden with rfl | ⟨_, notRead, hidden, front, rfl⟩
  · have erased : (([] ++ found) :: behind).eraseP isRead = behind := List.eraseP_cons_of_pos finds.isRead
    rw [erased]
    cases behind with
    | nil => simp [leftParams]
    | cons next behind => simp [leftParams]
  · rw [List.eraseP_cons_of_neg (by rw [notRead]; decide)]
    have leftFree := not_mem_leftParams finds free
    have erasedFree : ∀ param ∈ before ++ (front ++ [questionMark] ++ found) :: behind.eraseP isRead, ampersand ∉ param := by
      intro param member
      refine free param ?_
      simp only [List.mem_append, List.mem_cons] at member ⊢
      exact member.imp_right (Or.imp_right List.mem_of_mem_eraseP)
    rw [queryText_inj (by cases behind <;> simp [leftParams]) (by simp) leftFree erasedFree]
    cases behind with
    | nil => simp [leftParams]
    | cons next behind =>
      simp only [leftParams, List.append_cancel_left_eq, List.cons.injEq, List.head?_cons,
        Option.some_inj, List.append_eq_nil_iff, List.cons_ne_nil, and_false, false_or]
      refine ⟨And.left, fun same => ⟨same, ?_⟩⟩
      rw [same, List.eraseP_cons_of_pos finds.isRead]

/-- The query without the first `read` is what is sent, and else the whole query, with the option only if there is a
`read`. -/
structure RewritesQuery (settings : Settings config) : Prop where
  noResponse : ∃ readEtag, prepareQuery settings true =
    some ⟨path settings.coapQuery.string ((parameters settings.coapQuery.string).eraseP isRead), readEtag⟩
  response : ∃ readEtag, prepareQuery settings false =
      some ⟨path settings.coapQuery.string (parameters settings.coapQuery.string), readEtag⟩ ∧
    (readEtag = true → ∃ param ∈ parameters settings.coapQuery.string, isRead param = true)

/-- For every stored query: its list of parameters is used, without the first `read` when no response is expected,
exactly if its `?` is there or has a place, and the first `?read` of the list is that of a parameter, or hides the
parameter that is behind it. -/
theorem rewritesQuery_iff (settings : Settings config) : RewritesQuery settings ↔
    Fits settings.coapQuery.string ∧ ReadsFirst (parameters settings.coapQuery.string) := by
  have noZero : 0 ∉ settings.coapQuery.string := fun member => Machine.cstring_nonzero 0 member rfl
  obtain ⟨free, textNoZero⟩ := parameters_free noZero
  by_cases some' : settings.coapQuery.string = []
  · obtain ⟨behind, got, _⟩ := @getCoapQuery_eq _ settings
    have nothing : ∀ noResponse, prepareQuery settings noResponse = some {} := by
      intro noResponse
      rw [prepareQuery, got, some']
      rfl
    rw [some']
    refine iff_of_true ⟨⟨false, ?_⟩, false, ?_, nofun⟩ ⟨.inr (by decide), trivial⟩
    all_goals
      rw [nothing, some']
      rfl
  by_cases fits : Fits settings.coapQuery.string
  · have whole := prepareQuery_response some' fits
    rcases others_or_finds free with others | ⟨before, name, found, behind, finds⟩
    · have unread : ∀ param ∈ parameters settings.coapQuery.string, ¬ isRead param = true := by
        intro param member
        have other := others param member
        simp only [isOther, Bool.and_eq_true, Bool.not_eq_true'] at other
        simp [other.1]
      have all : ReadsFirst (parameters settings.coapQuery.string) := by
        rw [ReadsFirst, List.dropWhile_eq_nil_iff.mpr others]
        trivial
      refine iff_of_true ⟨⟨false, ?_⟩, false, ?_, nofun⟩ ⟨fits, all⟩
      · rw [prepareQuery_others some' fits others, List.eraseP_of_forall_not unread, path, if_neg some']
      · rw [whole, findRead_others free others rfl, path, if_neg some']
        rfl
    · have decides := leftParams_eq finds free
      have removed := prepareQuery_finds some' fits finds
      rw [readsFirst_iff finds, ← decides]
      constructor
      · intro rewrites
        obtain ⟨readEtag, run⟩ := rewrites.noResponse
        rw [removed, path, if_neg some', Option.some_inj] at run
        exact ⟨fits, Option.some_inj.mp (Query.mk.inj run).1⟩
      · rintro ⟨_, same⟩
        refine ⟨⟨false, ?_⟩, true, ?_, fun _ => ?_⟩
        · rw [removed, same, path, if_neg some']
        · rw [whole, finds.index questionMark rfl, path, if_neg some']
          rfl
        · rcases decides.mp same with rfl | next
          · exact ⟨found, by simp [finds.whole], finds.isRead⟩
          · obtain ⟨behind, rfl⟩ := List.head?_eq_some_iff.mp next
            exact ⟨found, by simp [finds.whole], finds.isRead⟩
  · refine iff_of_false (fun rewrites => ?_) fun conditions => fits conditions.1
    obtain ⟨readEtag, run, _⟩ := rewrites.response
    have same := prepareQuery_of_not_fits fits run
    rw [path, if_neg some', Option.some_inj, queryText_parameters] at same
    have notMark := (not_or.mp fits).1
    rw [if_neg notMark] at same
    simpa using congrArg List.length same

end Queries

/-- Settings with a query. -/
def withQuery (query : List UInt8) : Settings (ApplSettings.tinydtls fun _ => none) :=
  { ApplSettings.boot (ApplSettings.tinydtls fun _ => none) with coapQuery := .load _ query ApplSettings.place64 }

/-- A query of the maximum length, without the leading `?`. -/
def longQuery : List UInt8 := chars "read=" ++ List.replicate 58 120

/-- The byte in front of the array is read for a query that leaves no place for its `?`; and a `?read` inside of a
parameter is removed. -/
theorem long_query_left_array :
    prepareQuery (withQuery longQuery) true = none ∧ ¬ RewritesQuery (withQuery longQuery) ∧
      prepareQuery (withQuery (chars "?id=a?read=1&b")) true = some ⟨some (chars "?id=a?b"), false⟩ ∧
        ¬ RewritesQuery (withQuery (chars "?id=a?read=1&b")) := by
  have left : prepareQuery (withQuery longQuery) true = none := by decide +kernel
  have removed : prepareQuery (withQuery (chars "?id=a?read=1&b")) true = some ⟨some (chars "?id=a?b"), false⟩ := by
    decide +kernel
  refine ⟨left, fun rewrites => ?_, removed, fun rewrites => ?_⟩
  · obtain ⟨_, run⟩ := rewrites.noResponse
    rw [left] at run
    cases run
  · obtain ⟨_, run⟩ := rewrites.noResponse
    have other : path (withQuery (chars "?id=a?read=1&b")).coapQuery.string
        ((parameters (withQuery (chars "?id=a?read=1&b")).coapQuery.string).eraseP isRead) =
          some (chars "?id=a?read=1&b") := by decide +kernel
    rw [removed, other] at run
    exact absurd (Query.mk.inj (Option.some_inj.mp run)).1 (by decide)

/-- A parameter that only contains the text, in front of the parameter. -/
example : prepareQuery (withQuery (chars "bread=1&ready&read&z")) true =
    some ⟨some (chars "?bread=1&ready&z"), false⟩ := by decide +kernel

end CoapsClient.CoapAppl
