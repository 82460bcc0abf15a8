import CoapsClient.Machine.Buffer
import CoapsClient.Model.Settings.Commands
import Mathlib.Data.Int.Bitwise
import CoapsClient.Machine.Separated

/-! # Networks and services of the SIM card

The texts of `modem_sim.c`: the lists of networks (PLMNs) and the service table that the SIM card answers, and the
lists that `ban` and `prio` write to it. The characters of a text are read with the NUL behind them; an access
outside of a text or of an array has no value. A `long` has 32 bits.

What the lists of `modem_sim.c` are about: a network is named by a country code of three digits and a network code
of two or three.
-/

namespace CoapsClient.ModemSim

open ShCmd (Text strstart parseNextText)
open ApplSettings (numberSign scanDigits digitValue isSpace)
open Machine (put putAll)

/-- The NUL at the end of a string. -/
def nul : Char := Char.ofNat 0

/-- The character of a string at an index. -/
def charAt (text : Text) (index : ℕ) : Option Char := (text ++ [nul])[index]?

/-- The characters that `memcpy` and `memcmp` read. -/
def readChars (text : Text) (count : ℕ) : Option Text :=
  if count ≤ text.length + 1 then some ((text ++ [nul]).take count) else none

/-- The digits behind `0x`, when there are any. -/
def skipHexMark : Text → Text
  | '0' :: mark :: digit :: rest =>
    if (mark = 'x' ∨ mark = 'X') ∧ digitValue digit < 16 then digit :: rest else '0' :: mark :: digit :: rest
  | text => text

/-- `strtol` with base 16. -/
def strtolHex (text : Text) : Int :=
  let (sign, body) := numberSign (text.dropWhile isSpace)
  max (-2147483648) (min (sign * (scanDigits 16 0 (skipHexMark body)).1) 2147483647)

/-- `has_service`. -/
def hasService (serviceTable : Text) (len service : ℕ) : Option Bool :=
  let index := service / 8 * 2
  if index + 1 > len then some false
  else do
    let first ← charAt serviceTable index
    let second ← charAt serviceTable (index + 1)
    let flags := strtolHex [first, second]
    let bit : ℕ := 1 <<< ((service - 1) % 8)
    some (decide (flags.land bit ≠ 0))

/-- `check_service`. -/
def checkService (serviceMask bit : UInt8) (serviceTable : Text) (len service : ℕ) : Option UInt8 :=
  if serviceMask &&& bit ≠ 0 then do
    let available ← hasService serviceTable len service
    some (if available then serviceMask else serviceMask &&& ~~~bit)
  else some serviceMask

/-- `MODEM_PLMN_SIZE`. -/
def modemPlmnSize : ℕ := 7

/-- `MODEM_PLMN_SELECTOR_SIZE`. -/
def modemPlmnSelectorSize : ℕ := modemPlmnSize + 4

/-- `CRSM_SUCCESS`. -/
def crsmSuccess : Text := "144,0,\"".toList

/-- `PLMN_NONE`. -/
def plmnNone : Text := "FFFFFF".toList

/-- `strstr` behind a start: the index of the first occurrence. -/
def strstrFrom (buf id : Text) (start : ℕ) : Option ℕ :=
  (List.range' start (buf.length + 1 - start)).find? fun pos => id.isPrefixOf (buf.drop pos)

/-- An id that starts at a position is one of the list. -/
def wholeId (buf id : Text) (pos : ℕ) : Bool :=
  (pos = 0 ∨ buf[pos - 1]? = some ',') ∧ (buf[pos + id.length]? = some ',' ∨ buf[pos + id.length]? = none)

/-- The loop of `find_id`. -/
def findIdFrom (buf id : Text) : ℕ → ℕ → Option ℕ
  | 0, _ => none
  | fuel + 1, start =>
    match strstrFrom buf id start with
    | none => none
    | some pos => if wholeId buf id pos then some pos else findIdFrom buf id fuel (pos + 1)

/-- `find_id`: the index of an id in a list of ids. -/
def findId (buf id : Text) : Option ℕ := findIdFrom buf id (buf.length + 2) 0

/-- The loop of `copy_plmn`: the result is also the index in the array. -/
def copyPlmnFrom : ℕ → Text → Text → ℕ → Option (ℕ × Text)
  | 0, _, plmn, result => some (result, plmn)
  | len + 1, buf, plmn, result => do
    let char ← charAt buf 0
    let plmn ← put plmn result char
    if char = ',' then
      let plmn ← put plmn result nul
      some (result, plmn)
    else if char = nul then some (result, plmn)
    else if len = 0 then
      let plmn ← put plmn result nul
      some (result, plmn)
    else copyPlmnFrom len buf.tail plmn (result + 1)

/-- `copy_plmn`. -/
def copyPlmn (buf plmn : Text) (len : ℕ) (mcc : Option Text) : Option (ℕ × Text) :=
  match mcc with
  | none => copyPlmnFrom len buf plmn 0
  | some mcc =>
    match findId buf mcc with
    | none => some (0, plmn)
    | some pos => copyPlmnFrom len (buf.drop pos) plmn 0

/-- `append_plmn`: the array, and the index behind the digit. -/
def appendPlmn (array : Text) (plmn : ℕ) (digit : Char) : Option (Text × ℕ) :=
  if digit ≠ 'F' then (put array plmn digit).map fun array => (array, plmn + 1) else some (array, plmn)

/-- The digits of an entry, in the order in which they are appended. -/
def appendDigits (buf : Text) (array : Text) (plmn : ℕ) : List ℕ → Option (Text × ℕ)
  | [] => some (array, plmn)
  | index :: order => do
    let digit ← charAt buf index
    let (array, plmn) ← appendPlmn array plmn digit
    appendDigits buf array plmn order

/-- `get_plmn`: the digits of an entry, written at an index of the array. -/
def getPlmn (buf : Text) (len : ℕ) (array : Text) (plmn : ℕ) : Option (ℕ × Text) := do
  let first ← charAt buf 0
  if first ≠ nul ∧ first ≠ '"' ∧ 6 ≤ len then
    let entry ← readChars buf 6
    if entry ≠ plmnNone then
      let (array, cur) ← appendDigits buf array plmn [1, 0, 3, 2, 5, 4]
      let array ← put array cur nul
      return (cur - plmn, array)
  some (0, array)

/-- What the loops of `get_prio_plmns` and `get_plmns` change. -/
structure Decoding where
  list : Text
  len : ℕ
  array : Text
  plmn : ℕ := 0
  plmnSize : ℕ
  result : ℕ := 0
deriving DecidableEq, Repr

/-- The condition of the loops, for entries of a size. -/
def Decoding.continues (size : ℕ) (state : Decoding) : Option Bool :=
  (charAt state.list 0).map fun first =>
    decide (first ≠ nul ∧ first ≠ '"' ∧ size ≤ state.len ∧ modemPlmnSize ≤ state.plmnSize)

/-- What the loops do with an entry. -/
def Decoding.decode (state : Decoding) (access : Text) : Option Decoding := do
  let (select, array) ← getPlmn access (modemPlmnSize - 1) state.array state.plmn
  if select ≠ 0 then
    let array ← put array (state.plmn + select) ','
    let array ← put array (state.plmn + select + 1) nul
    let select := select + 1
    some { state with
      array, plmn := state.plmn + select, plmnSize := state.plmnSize - select, result := state.result + select }
  else some { state with array }

/-- The loops of `get_prio_plmns` and `get_plmns`: entries of a size, of which some are decoded. -/
def decodeLoop (size : ℕ) (selects : Text → Bool) : ℕ → Decoding → Option Decoding
  | 0, _ => none
  | fuel + 1, state => do
    if ← state.continues size then
      let access ← readChars state.list size
      let state ←
        if selects access ∧ access.take (modemPlmnSize - 1) ≠ plmnNone then state.decode access else some state
      decodeLoop size selects fuel { state with list := state.list.drop size, len := state.len - size }
    else some state

/-- The list of networks that is decoded from an answer, into an array of `plmn_size` characters. -/
def decodeList (size : ℕ) (selects : Text → Bool) (list : Text) (len : ℕ) (array : Text) (plmnSize : ℕ) :
    Option (ℕ × Text) := do
  let success := strstart list crsmSuccess false
  if success = 0 then some (0, array)
  else
    let state ← decodeLoop size selects (len + 1)
      { list := list.drop success, len := len - success, array, plmnSize }
    if state.result ≠ 0 then
      let array ← put state.array (state.plmn - 1) nul
      some (state.result, array)
    else some (state.result, state.array)

/-- The technologies of a selector: none, or LTE with others. -/
def selectsLte (access : Text) : Bool :=
  let select := strtolHex (access.drop (modemPlmnSize - 1))
  select = 0 ∨ select.land 0x4000 ≠ 0

/-- `get_prio_plmns`. -/
def getPrioPlmns (list : Text) (len : ℕ) (array : Text) (plmnSize : ℕ) : Option (ℕ × Text) :=
  decodeList (modemPlmnSelectorSize - 1) selectsLte list len array plmnSize

/-- `get_plmns`. -/
def getPlmns (list : Text) (len : ℕ) (array : Text) (plmnSize : ℕ) : Option (ℕ × Text) :=
  decodeList (modemPlmnSize - 1) (fun _ => true) list len array plmnSize

/-- The digits that `encode_plmn` takes. -/
def isHexDigit (char : Char) : Bool := char ∈ "0123456789ABCDEF".toList

/-- `encode_plmn`: the entry for a network, written at an index of the array with `len` characters behind it. -/
def encodePlmn (buf : Text) (encodedPlmn : Text) (index len : ℕ) : Option (ℕ × Text) :=
  let l := (buf.takeWhile isHexDigit).length
  if (l = 5 ∨ l = 6) ∧ 6 < len then do
    let encodedPlmn ← put encodedPlmn index (← charAt buf 1)
    let encodedPlmn ← put encodedPlmn (index + 1) (← charAt buf 0)
    let encodedPlmn ← put encodedPlmn (index + 3) (← charAt buf 2)
    let encodedPlmn ←
      if l = 6 then do
        let encodedPlmn ← put encodedPlmn (index + 2) (← charAt buf 3)
        let encodedPlmn ← put encodedPlmn (index + 4) (← charAt buf 5)
        put encodedPlmn (index + 5) (← charAt buf 4)
      else do
        let encodedPlmn ← put encodedPlmn (index + 2) 'F'
        let encodedPlmn ← put encodedPlmn (index + 4) (← charAt buf 4)
        put encodedPlmn (index + 5) (← charAt buf 3)
    let encodedPlmn ← put encodedPlmn (index + 6) nul
    some (6, encodedPlmn)
  else some (0, encodedPlmn)

/-- `MAX_PLMNS`. -/
def maxPlmns : ℕ := 15

/-- `CRSM_HEADER_SIZE`. -/
def crsmHeaderSize : ℕ := 28

/-- `HPPLMN_SELECTOR_TECHNOLOGY`. -/
def hpplmnSelectorTechnology : Text := "4000".toList

/-- `SIM_USER_HPPLMN_ID`. -/
def simUserHpplmnId : ℕ := 28512

/-- `SERVICE_20_BIT`. -/
def service20Bit : UInt8 := 1

/-- The next word of a command, in `plmn[8]`, and what follows it. -/
def nextPlmn (cur : Text) : Text × Text := parseNextText cur ' ' 8

/-- The loops of `modem_cmd_ban` and `modem_cmd_prio`, with what is appended to an entry: the array and its length. -/
def encodeLoop (more : ℕ → Bool) (technology : Text) : ℕ → Text → Text → Text → ℕ → Option (Text × ℕ)
  | 0, _, _, _, _ => none
  | fuel + 1, plmn, cur, buf, len =>
    if plmn ≠ [] ∧ more len then do
      let (count, buf) ← encodePlmn plmn buf len (buf.length - len)
      let len := len + count
      let buf ← putAll buf len technology
      let len := len + technology.length
      let (plmn, cur) := nextPlmn cur
      encodeLoop more technology fuel plmn cur buf len
    else some (buf, len)

/-- What a command sends to the SIM card: nothing, the reading of its list, or the writing of a record to a file, with
the number of bytes that is announced. -/
inductive Request where
  | nothing
  | read
  | write (id bytes : ℕ) (record : Text)
deriving DecidableEq, Repr

/-- The text of a request to write a record. -/
def writeText (id bytes : ℕ) (record : Text) : Text :=
  "AT+CRSM=214,".toList ++ (toString id).toList ++ ",0,0,".toList ++ (toString bytes).toList ++ ",\"".toList ++
    record ++ ['"']

/-- `INTERNAL_BUF_SIZE`: `modem_at_cmdf` writes the text of a request to a buffer of this size. -/
def internalBufSize : ℕ := 256

/-- The string at the start of an array. -/
def string (array : Text) : Text := array.takeWhile (· ≠ nul)

/-- What `modem_cmd_ban` and `modem_cmd_prio` request, from a cleared array of a size. -/
def encodeCommand (id size : ℕ) (more : ℕ → Bool) (technology : Text) (parameter : Text) : Option Request := do
  let (plmn, cur) := nextPlmn parameter
  if plmn ≠ [] then
    let (buf, len) ← encodeLoop more technology (parameter.length + 1) plmn cur (List.replicate size nul) 0
    some (if len ≠ 0 then .write id (len / 2) (string buf) else .nothing)
  else some .read

/-- `modem_cmd_ban`. -/
def modemCmdBan (parameter : Text) : Option Request :=
  encodeCommand 28539 (crsmHeaderSize + maxPlmns * 6) (fun _ => true) [] parameter

/-- The size of the array of `modem_cmd_prio`. -/
def prioBufSize : ℕ := crsmHeaderSize + maxPlmns * 10

/-- `modem_cmd_prio`. -/
def modemCmdPrio (simService : UInt8) (parameter : Text) : Option Request :=
  if simService &&& service20Bit = 0 then some .nothing
  else encodeCommand simUserHpplmnId prioBufSize (fun len => len + 10 < prioBufSize) hpplmnSelectorTechnology parameter

/-- A country code. -/
structure Mcc where
  digits : Text
  length_eq : digits.length = 3
  decimal : ∀ digit ∈ digits, digit.isDigit = true
deriving DecidableEq

/-- A network. -/
structure Plmn where
  mcc : Mcc
  mnc : Text
  mnc_length : mnc.length = 2 ∨ mnc.length = 3
  mnc_decimal : ∀ digit ∈ mnc, digit.isDigit = true
deriving DecidableEq

/-- The name of a network. -/
def Plmn.digits (plmn : Plmn) : Text := plmn.mcc.digits ++ plmn.mnc

/-- A list of networks as a text. -/
def plmnText (plmns : List Plmn) : Text := [','].intercalate (plmns.map Plmn.digits)

section Digits

variable (plmn : Plmn)

theorem Plmn.decimal : ∀ digit ∈ plmn.digits, digit.isDigit = true := by
  intro digit found
  exact (List.mem_append.mp found).elim (plmn.mcc.decimal digit) (plmn.mnc_decimal digit)

theorem Plmn.length_eq : plmn.digits.length = 5 ∨ plmn.digits.length = 6 := by
  have mcc := plmn.mcc.length_eq
  have mnc := plmn.mnc_length
  rw [Plmn.digits, List.length_append]
  omega

theorem Plmn.not_mem {char : Char} (other : char.isDigit = false) : char ∉ plmn.digits := by
  intro found
  rw [plmn.decimal char found] at other
  contradiction

/-- The digits of a network, one by one. -/
theorem Plmn.cases : ∃ d1 d2 d3 m1 m2, plmn.mcc.digits = [d1, d2, d3] ∧
    (plmn.mnc = [m1, m2] ∨ ∃ m3, plmn.mnc = [m1, m2, m3]) := by
  obtain ⟨d1, d2, d3, mcc⟩ := List.length_eq_three.mp plmn.mcc.length_eq
  rcases plmn.mnc_length with short | long
  · obtain ⟨m1, m2, mnc⟩ := List.length_eq_two.mp short
    exact ⟨d1, d2, d3, m1, m2, mcc, .inl mnc⟩
  · obtain ⟨m1, m2, m3, mnc⟩ := List.length_eq_three.mp long
    exact ⟨d1, d2, d3, m1, m2, mcc, .inr ⟨m3, mnc⟩⟩

end Digits

end CoapsClient.ModemSim
