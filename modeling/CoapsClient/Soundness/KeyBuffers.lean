import CoapsClient.Model.Settings.KeyDecoding

/-! # Decoded keys

The variable that holds the length of a decoded text becomes the length of the key, but not when the text has the
length of an ASN.1 form with another header. `is_zero` then looks at more than the cleared buffer, and so it does when
the key is zero, for it reads the byte behind the last one before it looks at the length. In all other cases the
decoders leave a whole key or nothing, and stay in their buffers.
-/

namespace CoapsClient.ApplSettings

open Machine

variable {config : Config}

section Forms

variable (forms : KeyForms) (res : Int) (temp : List UInt8)

/-- A key is taken from the raw form or from one of the ASN.1 forms. -/
def KeyForms.Taken (key : List UInt8) : Prop :=
  (res = forms.size ∧ key = temp.take forms.size) ∨
    ∃ form ∈ forms.asn1, res = form.1 ∧ temp.take form.2.length = form.2 ∧
      key = (temp.drop form.2.length).take forms.size

/-- A text has the length of an ASN.1 form and another header. -/
def KeyForms.OtherHeader : Prop :=
  ∃ form ∈ forms.asn1, res = form.1 ∧ temp.take form.2.length ≠ form.2

/-- A text gives a key that is zero. -/
def KeyForms.ZeroKey : Prop := ∃ key, forms.Taken res temp key ∧ isZero key = true

variable {forms res temp}

/-- The form of a length is found. -/
theorem KeyForms.find_form {form : ℕ × List UInt8} (found : form ∈ forms.asn1) (length : res = form.1) :
    forms.asn1.find? (fun form => res = form.1) = some form := by
  cases first : forms.asn1.find? (fun form => res = form.1) with
  | none => exact absurd (decide_eq_true length) (List.find?_eq_none.mp first form found)
  | some other =>
    have same : res = other.1 := by simpa using List.find?_some first
    rw [forms.distinct other (List.mem_of_find?_eq_some first) form found (by omega)]

theorem KeyForms.find_none (other : ∀ form ∈ forms.asn1, res ≠ form.1) :
    forms.asn1.find? (fun form => res = form.1) = none := by
  refine List.find?_eq_none.mpr fun form found => ?_
  simpa using other form found

theorem KeyForms.key_taken {key : List UInt8} (taken : forms.Taken res temp key) :
    forms.key res temp = ((forms.size : Int), some key) := by
  rcases taken with ⟨length, rfl⟩ | ⟨form, found, length, header, rfl⟩
  · have other : ∀ form ∈ forms.asn1, res ≠ form.1 := by
      intro form found
      have := forms.longer form found
      omega
    simp only [KeyForms.key, KeyForms.find_none other, if_pos length]
  · simp only [KeyForms.key, KeyForms.find_form found length, if_pos header]

theorem KeyForms.key_otherHeader (other : forms.OtherHeader res temp) :
    forms.key res temp = (res, none) ∧ forms.size < res := by
  obtain ⟨form, found, length, header⟩ := other
  refine ⟨by simp only [KeyForms.key, KeyForms.find_form found length, if_neg header], ?_⟩
  have := forms.longer form found
  omega

/-- What is neither a key nor close to one is nothing. -/
theorem KeyForms.key_missing (noKey : ∀ key, ¬ forms.Taken res temp key) (plain : ¬ forms.OtherHeader res temp) :
    forms.key res temp = (0, none) := by
  have other : ∀ form ∈ forms.asn1, res ≠ form.1 := by
    intro form found length
    by_cases header : temp.take form.2.length = form.2
    · exact noKey _ (.inr ⟨form, found, length, header, rfl⟩)
    · exact plain ⟨form, found, length, header⟩
  have notRaw : res ≠ forms.size := fun raw => noKey _ (.inl ⟨raw, rfl⟩)
  simp only [KeyForms.key, KeyForms.find_none other, if_neg notRaw]

/-- A key has its size. -/
theorem KeyForms.Taken.length_eq {key : List UInt8} (taken : forms.Taken res temp key) (room : temp.length = forms.room) :
    key.length = forms.size := by
  rcases taken with ⟨_, rfl⟩ | ⟨form, found, _, _, rfl⟩
  · have := forms.raw_fits
    rw [List.length_take]
    omega
  · have := forms.fits form found
    rw [List.length_take, List.length_drop]
    omega

/-- A text gives one key at most. -/
theorem KeyForms.Taken.unique {first second : List UInt8} (taken : forms.Taken res temp first)
    (again : forms.Taken res temp second) : first = second := by
  have same := (KeyForms.key_taken taken).symm.trans (KeyForms.key_taken again)
  exact Option.some_inj.mp (Prod.mk.inj same).2

theorem KeyForms.Taken.plain {key : List UInt8} (taken : forms.Taken res temp key) : ¬ forms.OtherHeader res temp := by
  intro other
  have same := (KeyForms.key_taken taken).symm.trans (KeyForms.key_otherHeader other).1
  exact absurd (Prod.mk.inj same).2 (Option.some_ne_none key)

end Forms

/-- A decoder returns zero and leaves zeros, or the size of the key that it took and the key; nothing in front of the
buffer or behind it is written, and nothing behind it is read. -/
structure KeyDecoded (forms : KeyForms) (res : Int) (temp before behind : List UInt8) (outcome : Decoded) : Prop where
  decoded : (outcome.rc = 0 ∧ outcome.memory = before ++ List.replicate forms.size 0 ++ behind) ∨
    ∃ key, forms.Taken res temp key ∧ key.length = forms.size ∧ outcome.rc = forms.size ∧
      outcome.memory = before ++ key ++ behind
  inside : outcome.read ≤ forms.size

section Decoding

variable (build : Build config) (value before behind : List UInt8) {forms : KeyForms} (buffer : Cells forms.size)

/-- A key that is taken is stored, and looked at up to the byte behind its zeros. -/
private theorem decodeKey_taken {key : List UInt8}
    (taken : forms.Taken (decodeValue build value forms.room).1 (decodedTemp build value forms.room) key) :
    decodeKey build forms value (before ++ buffer.bytes ++ behind) before.length forms.size =
      { rc := if isZero key then 0 else forms.size, memory := before ++ key ++ behind, read := zeroRead key } := by
  have length := taken.length_eq (decodedTemp_length value forms.room)
  have looked := isZeroAt_bytes before behind key
  rw [length] at looked
  have stored : storeAt (before ++ List.replicate forms.size 0 ++ behind) before.length key =
      before ++ key ++ behind := storeAt_whole before behind (by rw [List.length_replicate, length])
  simp only [decodeKey, cleared_buffer, Nat.le_refl, if_true, KeyForms.key_taken taken, Option.elim_some, stored,
    Int.toNat_natCast, looked]

/-- A text with another header leaves a cleared buffer, and more than it is looked at. -/
private theorem decodeKey_otherHeader
    (other : forms.OtherHeader (decodeValue build value forms.room).1 (decodedTemp build value forms.room)) :
    forms.size < (decodeKey build forms value (before ++ buffer.bytes ++ behind) before.length forms.size).read := by
  obtain ⟨key, longer⟩ := KeyForms.key_otherHeader other
  simp only [decodeKey, cleared_buffer, Nat.le_refl, if_true, key, Option.elim_none]
  exact isZeroAt_beyond before behind (by omega)

/-- Any other text leaves a cleared buffer, of which one byte is looked at. -/
private theorem decodeKey_missing
    (noKey : ∀ key, ¬ forms.Taken (decodeValue build value forms.room).1 (decodedTemp build value forms.room) key)
    (plain : ¬ forms.OtherHeader (decodeValue build value forms.room).1 (decodedTemp build value forms.room)) :
    decodeKey build forms value (before ++ buffer.bytes ++ behind) before.length forms.size =
      { rc := 0, memory := before ++ List.replicate forms.size 0 ++ behind, read := 1 } := by
  have looked : isZeroAt (before ++ List.replicate forms.size 0 ++ behind) before.length 0 = (true, 1) := rfl
  simp only [decodeKey, cleared_buffer, Nat.le_refl, if_true, KeyForms.key_missing noKey plain, Option.elim_none,
    Int.toNat_zero, looked]

/-- Each decoder keeps to its buffer exactly when the text is none of ASN.1 length with another header and gives no
key that is zero. -/
private theorem decodeKey_iff :
    KeyDecoded forms (decodeValue build value forms.room).1 (decodedTemp build value forms.room) before behind
        (decodeKey build forms value (before ++ buffer.bytes ++ behind) before.length forms.size) ↔
      ¬ forms.OtherHeader (decodeValue build value forms.room).1 (decodedTemp build value forms.room) ∧
        ¬ forms.ZeroKey (decodeValue build value forms.room).1 (decodedTemp build value forms.room) := by
  by_cases other : forms.OtherHeader (decodeValue build value forms.room).1 (decodedTemp build value forms.room)
  · refine iff_of_false (fun kept => ?_) (fun kept => kept.1 other)
    exact absurd kept.inside (Nat.not_le.mpr (decodeKey_otherHeader build value before behind buffer other))
  · by_cases gives : ∃ key, forms.Taken (decodeValue build value forms.room).1 (decodedTemp build value forms.room) key
    · obtain ⟨key, taken⟩ := gives
      have length := taken.length_eq (decodedTemp_length value forms.room)
      rw [decodeKey_taken build value before behind buffer taken]
      cases zero : isZero key with
      | false =>
        refine iff_of_true ⟨.inr ⟨key, taken, length, rfl, rfl⟩, length ▸ zeroRead_le zero⟩ ⟨other, ?_⟩
        rintro ⟨second, again, isZero⟩
        rw [again.unique taken, zero] at isZero
        contradiction
      | true =>
        have whole : zeroRead key = forms.size + 1 := by
          rw [zeroRead, List.takeWhile_eq_self_iff.mpr (List.all_eq_true.mp zero), length]
        refine iff_of_false (fun kept => ?_) (fun kept => kept.2 ⟨key, taken, zero⟩)
        exact absurd (whole.symm.le.trans kept.inside) (Nat.not_succ_le_self forms.size)
    · have noKey := not_exists.mp gives
      rw [decodeKey_missing build value before behind buffer noKey other]
      refine iff_of_true ⟨.inl ⟨rfl, rfl⟩, forms.positive⟩ ⟨other, ?_⟩
      rintro ⟨key, taken, _⟩
      exact noKey key taken

/-- Both decoders keep to their buffers, and leave a key or nothing, exactly when the decoded text is none of ASN.1
length with another header and gives no key that is zero. -/
theorem keys_decoded_iff (publicBuffer : Cells 64) (privateBuffer : Cells 32) :
    (KeyDecoded publicKeyForms (decodeValue build value 91).1 (decodedTemp build value 91) before behind
        (applSettingsDecodePublicKey build value (before ++ publicBuffer.bytes ++ behind) before.length 64) ↔
      ¬ publicKeyForms.OtherHeader (decodeValue build value 91).1 (decodedTemp build value 91) ∧
        ¬ publicKeyForms.ZeroKey (decodeValue build value 91).1 (decodedTemp build value 91)) ∧
    (KeyDecoded privateKeyForms (decodeValue build value 67).1 (decodedTemp build value 67) before behind
        (applSettingsDecodePrivateKey build value (before ++ privateBuffer.bytes ++ behind) before.length 32) ↔
      ¬ privateKeyForms.OtherHeader (decodeValue build value 67).1 (decodedTemp build value 67) ∧
        ¬ privateKeyForms.ZeroKey (decodeValue build value 67).1 (decodedTemp build value 67)) :=
  ⟨@decodeKey_iff _ build value before behind publicKeyForms publicBuffer,
    @decodeKey_iff _ build value before behind privateKeyForms privateBuffer⟩

end Decoding

/-- A decoder that fails has no count. -/
private theorem noCount_le (size count : ℕ) (found : none = some count) : count ≤ size := by
  contradiction

/-- A build that knows quoted texts only. -/
def quotedBuild : Build (tinydtls fun _ => none) where
  initSettings := true
  unlockPassword := none
  server := none
  scheme := none
  resource := none
  query := none
  deviceIdentity := none
  pskIdentity := none
  pskSecret := .missing
  privateKey := .missing
  trustedPublicKey := none
  provisioningKey := []
  hex2bin := fun _ _ => (0, [])
  hex2bin_le := fun _ size => Nat.zero_le size
  base64Decode := fun _ _ => (none, [])
  base64Decode_le := fun _ => noCount_le

/-- A quoted text of 51 characters. -/
def longQuote : List UInt8 := quote :: List.replicate 51 97 ++ [quote]

/-- A quoted text of 51 characters is taken for a private key with another header: 51 is returned for a cleared buffer
of 32 bytes, and a byte behind it is read. -/
theorem other_header_kept :
    applSettingsDecodePrivateKey quotedBuild longQuote (List.replicate 32 7 ++ [1]) 0 32 =
        ⟨51, List.replicate 32 0 ++ [1], 33⟩ ∧
      ¬ KeyDecoded privateKeyForms (decodeValue quotedBuild longQuote 67).1 (decodedTemp quotedBuild longQuote 67) [] [1]
        (applSettingsDecodePrivateKey quotedBuild longQuote (List.replicate 32 7 ++ [1]) 0 32) := by
  have left : applSettingsDecodePrivateKey quotedBuild longQuote (List.replicate 32 7 ++ [1]) 0 32 =
      ⟨51, List.replicate 32 0 ++ [1], 33⟩ := by decide +kernel
  refine ⟨left, fun kept => ?_⟩
  have inside := kept.inside
  rw [left] at inside
  revert inside
  decide

end CoapsClient.ApplSettings
