import CoapsClient.Machine.Region
import CoapsClient.Model.Settings.Reset
import CoapsClient.Machine.Print

/-! # The identity and the text of a provisioning

`appl_settings_expand_imei` as it works on its buffer: the copy of the value, and the two moves that put the identity
into the place of `${imei}`. In a cleared buffer it leaves the array and the length of `expandImei`, whatever lies in
front of the buffer and behind it.

`appl_settings_get_provisioning_internal` writes the lines a server needs to know the device. The encoder, the hash and
the signature are not part of the source and enter as functions; the signature by its numbers and their ASN.1 integers.
What is printed to the console is left out.
-/

namespace CoapsClient.ApplSettings

open Machine
open Math (bigEndian)

/-- `appl_settings_expand_imei`, of the buffer at an address; the value and the identity are the strings at the start
of the given bytes. -/
def applSettingsExpandImei (imei memory : List UInt8) (buf size : ℕ) (value : List UInt8) : ℕ × List UInt8 :=
  let memory := strncpy memory buf value (size - 1)
  let idLen := (stringAt memory buf).length
  match strstr (stringAt memory buf) imeiPart with
  | none => (idLen, memory)
  | some cur =>
    let freeLen := size - idLen + 6
    let imeiLen := if (cstring imei).length > freeLen then freeLen else (cstring imei).length
    let memory := memmove memory (buf + cur + imeiLen) (buf + cur + 7) (idLen - 6 - cur)
    let memory := storeAt memory (buf + cur) ((cstring imei).take imeiLen)
    (idLen + imeiLen - 7, memory)

section Expanded

variable {imei value : List UInt8} {size : ℕ} {room : 0 < size}

theorem expandImei_none (none : strstr (CText.load size value room).string imeiPart = none) :
    (expandImei imei size room value).text = .load size value room ∧
      (expandImei imei size room value).length = (CText.load size value room).string.length := by
  simp only [expandImei]
  split
  · exact ⟨rfl, rfl⟩
  · next found => exact absurd (none.symm.trans found) (by simp)

theorem expandImei_some {cur : ℕ} (found : strstr (CText.load size value room).string imeiPart = some cur) :
    (expandImei imei size room value).text.bytes =
        (replaced (imei.take (size - (CText.load size value room).string.length + 6)) (.load size value room)
          cur).bytes ∧
      (expandImei imei size room value).length = (CText.load size value room).string.length +
        (imei.take (size - (CText.load size value room).string.length + 6)).length - 7 := by
  simp only [expandImei]
  split
  · next none => exact absurd (none.symm.trans found) (by simp)
  · next other found' =>
    obtain rfl := Option.some_inj.mp (found'.symm.trans found)
    exact ⟨rfl, rfl⟩

end Expanded

/-- The moves stay in the buffer and are those of the array. -/
theorem applSettingsExpandImei_eq (before behind imei value : List UInt8) {size : ℕ} (room : 0 < size) :
    applSettingsExpandImei imei (before ++ (Cells.zero size).bytes ++ behind) before.length size value =
      ((expandImei (cstring imei) size room (cstring value)).length,
        before ++ (expandImei (cstring imei) size room (cstring value)).text.bytes ++ behind) := by
  simp only [applSettingsExpandImei, strncpy_zero before behind room value, stringAt_text]
  set text := CText.load size (cstring value) room with textEq
  cases found : strstr text.string imeiPart with
  | none =>
    obtain ⟨same, length⟩ := @expandImei_none (cstring imei) _ _ _ found
    simp only [same, length, textEq]
  | some cur =>
    obtain ⟨bytes, length⟩ := @expandImei_some (cstring imei) _ _ _ _ found
    have place : cur + 7 ≤ text.string.length := strstr_le found
    have shorter := text.string_length_lt
    rw [bytes, length, ← textEq]
    set kept := (cstring imei).take (size - text.string.length + 6) with keptEq
    have count : (if (cstring imei).length > size - text.string.length + 6 then size - text.string.length + 6
        else (cstring imei).length) = kept.length := by
      rw [keptEq, List.length_take]
      split <;> omega
    have free : kept.length ≤ size - text.string.length + 6 := by
      rw [keptEq, List.length_take]
      exact Nat.min_le_left _ _
    have start : (cstring imei).take kept.length = kept :=
      (List.prefix_iff_eq_take.mp (List.take_prefix _ (cstring imei))).symm
    simp only [count, start, Nat.add_assoc]
    rw [memmove_cells before behind text.toCells (by omega) (by omega), storeAt_cells before behind _ (by omega)]
    rfl

/-- The options of a provisioning, and the functions that it uses. The options are strings of the source, and
`base64_encode` writes no zero in front of the one at the end. -/
structure Provisioning where
  /-- `CONFIG_PROVISIONING_GROUP`. -/
  group : Option (List UInt8)
  group_nonzero : ∀ text ∈ group, 0 ∉ text
  /-- `CONFIG_DTLS_PROVISIONING_DOMAIN`. -/
  domain : Option (List UInt8)
  domain_nonzero : ∀ text ∈ domain, 0 ∉ text
  base64Encode : List UInt8 → List UInt8
  base64Encode_nonzero : ∀ data, 0 ∉ base64Encode data
  sha256 : List UInt8 → List UInt8
  /-- `dtls_ecdsa_create_sig_hash`. -/
  createSigHash : Cells 32 → List UInt8 → ℕ × ℕ
  /-- `dtls_ec_key_asn1_from_uint32`. -/
  asn1Integer : ℕ → List UInt8

variable {config : Config} (prov : Provisioning)

/-- `appl_settings_add_ecdsa_signature_elem`: SHA-256 with ECDSA, the length, and a sequence of both integers. -/
def addEcdsaSignatureElem (points : ℕ × ℕ) : List UInt8 :=
  let r := prov.asn1Integer points.1
  let s := prov.asn1Integer points.2
  [4, 3] ++ bigEndian 2 (r.length + s.length + 2) ++ [0x30] ++ bigEndian 1 (r.length + s.length) ++ r ++ s

/-- A key pair is set. -/
def keyPair (settings : Settings config) : Bool :=
  !isZero settings.ecdsaPrivKey.bytes && !isZero settings.ecdsaPubKey.bytes

/-- The domain that is used: one of more than 64 characters is not. -/
def provisioningDomain : List UInt8 :=
  let domain := prov.domain.getD []
  if domain.length > 64 then [] else domain

/-- The public key with its ASN.1 header. -/
def publicCert (settings : Settings config) : List UInt8 := pubCertAsn1Header ++ settings.ecdsaPubKey.bytes

/-- The signature element over the domain and the public key. -/
def signatureElem (settings : Settings config) : List UInt8 :=
  let domain := provisioningDomain prov
  let hash := prov.sha256 (bigEndian 1 domain.length ++ domain ++ publicCert settings)
  addEcdsaSignatureElem prov (prov.createSigHash settings.ecdsaPrivKey hash)

/-- The first line, without its newline. -/
def idLine (settings : Settings config) : List UInt8 :=
  settings.deviceId.string ++ chars "=" ++ prov.group.getD (chars "Auto")

/-- What is in front of the key in the line of the PSK credentials. -/
def pskHead (settings : Settings config) : List UInt8 :=
  chars ".psk='" ++ cstring settings.psk.id.bytes ++ chars "',"

/-- What is in front of the signature. -/
def sigHead : List UInt8 := if provisioningDomain prov ≠ [] then chars ".sigdom=" else chars ".sig="

/-- The line of the domain, without its newline. -/
def domainLine : List UInt8 := chars ".dom=" ++ provisioningDomain prov

/-- The PSK part of `appl_settings_get_provisioning_internal`. -/
def pskPart (settings : Settings config) (shProt : Bool) (len : ℕ) (out : Output) : Output :=
  if settings.psk.complete then
    if shProt then out
    else (out.line len (pskHead settings) (prov.base64Encode (settings.psk.key.bytes.take settings.psk.keyLength))).2
  else out

/-- The domain is written to the start of the buffer. -/
def domainPart (len : ℕ) (out : Output) : Output :=
  if provisioningDomain prov ≠ [] then
    { buffer := snprintf out.buffer 0 len (domainLine prov)
      index := out.index + (domainLine prov).length : Output }.newline
  else out

/-- The lines of the public key and its signature. -/
def keyPart (settings : Settings config) (len : ℕ) (out : Output) : Output :=
  let rpk := out.line len (chars ".rpk=") (prov.base64Encode (publicCert settings))
  if rpk.1 then (rpk.2.line len (sigHead prov) (prov.base64Encode (signatureElem prov settings))).2 else rpk.2

/-- `appl_settings_get_provisioning_internal`, into a buffer; the result is the index of the output. -/
def getProvisioningInternal (settings : Settings config) (shProtected cmd : Bool) (buffer : List UInt8) : Output :=
  let len := buffer.length
  let out := ((⟨buffer, 0⟩ : Output).print len (idLine prov settings)).newline
  let out := pskPart prov settings (cmd && shProtected) len out
  if keyPair settings then keyPart prov settings len (domainPart prov len out) else out

end CoapsClient.ApplSettings
