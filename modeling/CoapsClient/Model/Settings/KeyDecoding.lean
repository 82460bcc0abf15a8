import CoapsClient.Machine.Region
import CoapsClient.Model.Settings.Reset

/-! # The decoders of the keys

`appl_settings_decode_public_key` and `appl_settings_decode_private_key` as they work on the memory that holds their
buffer, with the bytes that `is_zero` reads from its start. Both decode a text into an array that has room for the
longest form of their key, and take the key from it. What they log is left out, with the description they write over
that array for it.
-/

namespace CoapsClient.ApplSettings

open Machine

/-- `is_zero` at an address: the result, and how many bytes are read. The loop reads a byte before it looks at the
length. -/
def isZeroAt (memory : List UInt8) : ℕ → ℕ → Bool × ℕ
  | _, 0 => (true, 1)
  | key, len + 1 =>
    if memory.getD key 0 = 0 then ((isZeroAt memory (key + 1) len).1, (isZeroAt memory (key + 1) len).2 + 1)
    else (false, 1)

/-- The forms of a key: raw, or behind one of the ASN.1 headers in a text of the length of that form. -/
structure KeyForms where
  size : ℕ
  /-- The size of `temp`. -/
  room : ℕ
  asn1 : List (ℕ × List UInt8)
  positive : 0 < size
  raw_fits : size ≤ room
  longer : ∀ form ∈ asn1, size < form.1
  fits : ∀ form ∈ asn1, form.2.length + size ≤ room
  distinct : ∀ first ∈ asn1, ∀ second ∈ asn1, first.1 = second.1 → first = second

def publicKeyForms : KeyForms where
  size := 64
  room := 91
  asn1 := [(91, pubCertAsn1Header)]
  positive := by decide
  raw_fits := by decide
  longer := by decide
  fits := by decide
  distinct := by decide

def privateKeyForms : KeyForms where
  size := 32
  room := 67
  asn1 := [(67, privAsn1Header), (51, privAsn1Key)]
  positive := by decide
  raw_fits := by decide
  longer := by decide
  fits := by decide
  distinct := by decide

/-- The key in a decoded text of the given length, and the length that is used from there on: that of the key, or that
of the text when its header is another one. -/
def KeyForms.key (forms : KeyForms) (res : Int) (temp : List UInt8) : Int × Option (List UInt8) :=
  match forms.asn1.find? fun form => res = form.1 with
  | some (_, header) =>
    if temp.take header.length = header then (forms.size, some ((temp.drop header.length).take forms.size))
    else (res, none)
  | none => if res = forms.size then (forms.size, some (temp.take forms.size)) else (0, none)

/-- What a decoder leaves: its result, the memory, and how many bytes it read from the start of its buffer. -/
structure Decoded where
  rc : Int
  memory : List UInt8
  read : ℕ
deriving DecidableEq, Repr

variable {config : Config} (build : Build config)

/-- `temp` behind the decoding of a text. -/
def decodedTemp (value : List UInt8) (room : ℕ) : List UInt8 :=
  ((Cells.zero room).store 0 (decodeValue build value room).2).bytes

/-- A decoder, into a buffer at an address. -/
def decodeKey (forms : KeyForms) (value memory : List UInt8) (buf len : ℕ) : Decoded :=
  let memory := storeAt memory buf (List.replicate len 0)
  if forms.size ≤ len then
    let (res, key) := forms.key (decodeValue build value forms.room).1 (decodedTemp build value forms.room)
    let memory := key.elim memory (storeAt memory buf)
    let (zero, read) := isZeroAt memory buf res.toNat
    { rc := if zero then 0 else res, memory, read }
  else { rc := 0, memory, read := 0 }

/-- `appl_settings_decode_public_key`. -/
def applSettingsDecodePublicKey (value memory : List UInt8) (buf len : ℕ) : Decoded :=
  decodeKey build publicKeyForms value memory buf len

/-- `appl_settings_decode_private_key`. -/
def applSettingsDecodePrivateKey (value memory : List UInt8) (buf len : ℕ) : Decoded :=
  decodeKey build privateKeyForms value memory buf len

section Zeros

variable (before behind : List UInt8)

/-- Looking at a whole array. -/
theorem isZeroAt_bytes (bytes : List UInt8) :
    isZeroAt (before ++ bytes ++ behind) before.length bytes.length = (isZero bytes, zeroRead bytes) := by
  induction bytes generalizing before with
  | nil => rfl
  | cons byte bytes ih =>
    have here : (before ++ byte :: bytes ++ behind).getD before.length 0 = byte := by simp
    have rest : isZeroAt (before ++ byte :: bytes ++ behind) (before.length + 1) bytes.length =
        (isZero bytes, zeroRead bytes) := by
      have later := ih (before ++ [byte])
      rwa [List.append_assoc before, List.singleton_append, List.length_append, List.length_singleton] at later
    rw [List.length_cons, isZeroAt, here, rest]
    by_cases zero : byte = 0
    · simp [zero, isZero, zeroRead]
    · simp [zero, isZero, zeroRead]

/-- Looking at more than a cleared array leaves it. -/
theorem isZeroAt_beyond {size len : ℕ} (longer : size ≤ len) :
    size < (isZeroAt (before ++ List.replicate size 0 ++ behind) before.length len).2 := by
  induction size generalizing before len with
  | zero => cases len with
    | zero => exact Nat.one_pos
    | succ len =>
      rw [isZeroAt]
      split
      · exact Nat.succ_pos _
      · exact Nat.one_pos
  | succ size ih =>
    obtain ⟨len, rfl⟩ : ∃ rest, len = rest + 1 := ⟨len - 1, by omega⟩
    have here : (before ++ List.replicate (size + 1) 0 ++ behind).getD before.length 0 = 0 := by
      simp [List.replicate_succ]
    have later := ih (before ++ [0]) (show size ≤ len by omega)
    rw [List.append_assoc before, List.singleton_append, ← List.replicate_succ, List.length_append,
      List.length_singleton] at later
    rw [isZeroAt, if_pos here]
    exact Nat.succ_lt_succ later

end Zeros

/-- What is read of an array that is not zero stays in it. -/
theorem zeroRead_le {bytes : List UInt8} (nonzero : isZero bytes = false) : zeroRead bytes ≤ bytes.length := by
  have shorter : (bytes.takeWhile (· = 0)).length ≤ bytes.length := (List.takeWhile_prefix _).length_le
  refine Nat.lt_of_le_of_ne shorter fun full => ?_
  have same : bytes.takeWhile (· = 0) = bytes := (List.takeWhile_prefix _).eq_of_length full
  have all : isZero bytes = true := List.all_eq_true.mpr (List.takeWhile_eq_self_iff.mp same)
  exact absurd (nonzero.symm.trans all) (by decide)

section Reset

variable {build} (value before behind : List UInt8)

theorem decodedTemp_length (room : ℕ) : (decodedTemp build value room).length = room := Cells.size_eq _

/-- The start of a value that is longer than the array. -/
private theorem load_long {size : ℕ} {bytes : List UInt8} (long : size ≤ bytes.length) :
    (Cells.load size bytes).bytes = bytes.take size := by
  simp only [Cells.load, Nat.sub_eq_zero_of_le long, List.replicate_zero, List.append_nil]

theorem KeyForms.key_length {forms : KeyForms} {res : Int} {temp key : List UInt8}
    (room : temp.length = forms.room) (found : (forms.key res temp).2 = some key) : key.length = forms.size := by
  simp only [KeyForms.key] at found
  split at found
  · next form header first =>
    have fits : header.length + forms.size ≤ forms.room := forms.fits _ (List.mem_of_find?_eq_some first)
    split at found
    · obtain rfl := Option.some_inj.mp found
      rw [List.length_take, List.length_drop]
      omega
    · contradiction
  · have fits := forms.raw_fits
    split at found
    · obtain rfl := Option.some_inj.mp found
      rw [List.length_take]
      omega
    · contradiction

/-- A decoder clears its buffer first. -/
theorem cleared_buffer {size : ℕ} (buffer : Cells size) :
    storeAt (before ++ buffer.bytes ++ behind) before.length (List.replicate size 0) =
      before ++ List.replicate size 0 ++ behind :=
  storeAt_whole before behind (by rw [List.length_replicate, buffer.size_eq])

/-- A decoder writes its key, or zeros, and nothing else. -/
private theorem decodeKey_memory (forms : KeyForms) (buffer : Cells forms.size) :
    (decodeKey build forms value (before ++ buffer.bytes ++ behind) before.length forms.size).memory =
      before ++ ((forms.key (decodeValue build value forms.room).1 (decodedTemp build value forms.room)).2.getD
        (List.replicate forms.size 0)) ++ behind := by
  simp only [decodeKey, cleared_buffer, Nat.le_refl, if_true]
  cases found : (forms.key (decodeValue build value forms.room).1 (decodedTemp build value forms.room)).2 with
  | none => rfl
  | some key =>
    have length := KeyForms.key_length (decodedTemp_length value forms.room) found
    exact storeAt_whole before behind (by rw [List.length_replicate, length])

section Forms

variable {forms : KeyForms} {res : Int} {temp : List UInt8}

/-- What is left of a text of the length of a form: the key behind the header of the form, or zeros. -/
theorem KeyForms.key_form {form : ℕ × List UInt8} (room : temp.length = forms.room)
    (found : forms.asn1.find? (fun form => res = form.1) = some form) :
    (forms.key res temp).2.getD (List.replicate forms.size 0) =
      (if temp.take form.2.length = form.2 then Cells.load forms.size (temp.drop form.2.length)
        else Cells.zero forms.size).bytes := by
  have fits := forms.fits form (List.mem_of_find?_eq_some found)
  have long : forms.size ≤ (temp.drop form.2.length).length := by
    rw [List.length_drop]
    omega
  simp only [KeyForms.key, found]
  split
  · exact (load_long long).symm
  · exact Cells.zero_bytes.symm

/-- What is left of any other text: the key itself, or zeros. -/
theorem KeyForms.key_raw (room : temp.length = forms.room)
    (none : forms.asn1.find? (fun form => res = form.1) = none) :
    (forms.key res temp).2.getD (List.replicate forms.size 0) =
      (if res = forms.size then Cells.load forms.size temp else Cells.zero forms.size).bytes := by
  simp only [KeyForms.key, none]
  split
  · exact (load_long (room ▸ forms.raw_fits)).symm
  · exact Cells.zero_bytes.symm

end Forms

/-- The public key in the buffer is the one that a reset leaves. -/
theorem decodePublicKey_memory (buffer : Cells 64) :
    (applSettingsDecodePublicKey build value (before ++ buffer.bytes ++ behind) before.length 64).memory =
      before ++ (decodePublicKey build value).bytes ++ behind := by
  refine (decodeKey_memory value before behind publicKeyForms buffer).trans ?_
  have room : (decodedTemp build value 91).length = 91 := decodedTemp_length value 91
  have temp : ((Cells.zero 91).store 0 (decodeValue build value 91).2).bytes = decodedTemp build value 91 := rfl
  congr 2
  simp only [decodePublicKey, temp]
  change (publicKeyForms.key (decodeValue build value 91).1 (decodedTemp build value 91)).2.getD _ = _
  generalize (decodeValue build value 91).1 = res
  generalize decodedTemp build value 91 = bytes at room ⊢
  by_cases asn1 : res = 91
  · have found : publicKeyForms.asn1.find? (fun form => res = form.1) = some (91, pubCertAsn1Header) := by
      simp [publicKeyForms, asn1]
    rw [if_pos asn1]
    exact KeyForms.key_form room found
  · have none : publicKeyForms.asn1.find? (fun form => res = form.1) = none := by
      simp [publicKeyForms, asn1]
    rw [if_neg asn1]
    exact KeyForms.key_raw room none

/-- The private key in the buffer is the one that a reset leaves. -/
theorem decodePrivateKey_memory (buffer : Cells 32) :
    (applSettingsDecodePrivateKey build value (before ++ buffer.bytes ++ behind) before.length 32).memory =
      before ++ (decodePrivateKey build value).2.bytes ++ behind := by
  refine (decodeKey_memory value before behind privateKeyForms buffer).trans ?_
  have room : (decodedTemp build value 67).length = 67 := decodedTemp_length value 67
  have temp : ((Cells.zero 67).store 0 (decodeValue build value 67).2).bytes = decodedTemp build value 67 := rfl
  congr 2
  simp only [decodePrivateKey, temp]
  change (privateKeyForms.key (decodeValue build value 67).1 (decodedTemp build value 67)).2.getD _ = _
  generalize (decodeValue build value 67).1 = res
  generalize decodedTemp build value 67 = bytes at room ⊢
  by_cases long : res = 67
  · have found : privateKeyForms.asn1.find? (fun form => res = form.1) = some (67, privAsn1Header) := by
      simp [privateKeyForms, long]
    refine (KeyForms.key_form room found).trans ?_
    rw [if_pos long]
    by_cases header : bytes.take 35 = privAsn1Header
    · rw [if_pos header, if_pos (show bytes.take privAsn1Header.length = privAsn1Header from header)]
      rfl
    · rw [if_neg header, if_neg (show ¬ bytes.take privAsn1Header.length = privAsn1Header from header)]
      rfl
  · by_cases short : res = 51
    · have found : privateKeyForms.asn1.find? (fun form => res = form.1) = some (51, privAsn1Key) := by
        simp [privateKeyForms, short]
      refine (KeyForms.key_form room found).trans ?_
      rw [if_neg long, if_pos short]
      by_cases header : bytes.take 7 = privAsn1Key
      · rw [if_pos header, if_pos (show bytes.take privAsn1Key.length = privAsn1Key from header)]
        rfl
      · rw [if_neg header, if_neg (show ¬ bytes.take privAsn1Key.length = privAsn1Key from header)]
        rfl
    · have none : privateKeyForms.asn1.find? (fun form => res = form.1) = none := by
        simp [privateKeyForms, long, short]
      refine (KeyForms.key_raw room none).trans ?_
      rw [if_neg long, if_neg short]
      by_cases raw : res = 32
      · rw [if_pos raw, if_pos (show res = (privateKeyForms.size : Int) from raw)]
        rfl
      · rw [if_neg raw, if_neg (show ¬ res = (privateKeyForms.size : Int) from raw)]
        rfl

end Reset

end CoapsClient.ApplSettings
