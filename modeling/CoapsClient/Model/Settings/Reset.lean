import CoapsClient.Model.Settings.Settings
import CoapsClient.Machine.Path

/-! # Factory reset and key generation

What else changes the settings of `appl_settings.c`: the factory reset with the values of the build, the
generated keys, the reboot codes, and the end of the provisioning. The decoders for hexadecimal and base64
texts are not part of the source; they enter by their result and the bytes they write.
-/

namespace CoapsClient.ApplSettings

open Machine
open Math (bigEndian)

/-- Where a key comes from. -/
inductive KeySource where
  | generate
  | value (text : List UInt8)
  | missing

/-- The values of the build for a factory reset, and the decoders of the texts. -/
structure Build (config : Config) where
  /-- `CONFIG_INIT_SETTINGS`. -/
  initSettings : Bool
  unlockPassword : Option (List UInt8)
  /-- `CONFIG_COAP_SERVER_HOSTNAME` or `CONFIG_COAP_SERVER_ADDRESS_STATIC`. -/
  server : Option (List UInt8)
  scheme : Option (List UInt8)
  resource : Option (List UInt8)
  query : Option (List UInt8)
  deviceIdentity : Option (List UInt8)
  pskIdentity : Option (List UInt8)
  pskSecret : KeySource
  privateKey : KeySource
  trustedPublicKey : Option (List UInt8)
  provisioningKey : List UInt8
  /-- `hex2bin` into an array of the given size: the number of bytes, 0 for an error, and what it writes. -/
  hex2bin : List UInt8 → ℕ → ℕ × List UInt8
  hex2bin_le : ∀ text size, (hex2bin text size).1 ≤ size
  /-- `base64_decode` into an array of the given size: the number of bytes, unless it returns an error, and
  what it writes. -/
  base64Decode : List UInt8 → ℕ → Option ℕ × List UInt8
  base64Decode_le : ∀ text size count, (base64Decode text size).1 = some count → count ≤ size

variable {config : Config} (build : Build config)

/-- `'`. -/
def quote : UInt8 := 39

/-- `appl_settings_decode_value` into an array of the given size: the result and what it writes. -/
def decodeValue (value : List UInt8) (size : ℕ) : Int × List UInt8 :=
  match value with
  | [] => (0, [])
  | first :: rest =>
    if first = quote then
      if 1 < value.length ∧ value.getLast? = some quote then
        let count := min (value.length - 2) (size - 1)
        (count, rest.take count ++ [0])
      else (einval, [])
    else if first = 58 then
      if value.take 3 = chars ":0x" ∧ value.length % 2 = 1 then
        ((build.hex2bin (value.drop 3) size).1, (build.hex2bin (value.drop 3) size).2)
      else (einval, [])
    else
      match (build.base64Decode value size).1 with
      | some count => (count, (build.base64Decode value size).2)
      | none => (einval, (build.base64Decode value size).2)

/-- `ecdsa_pub_cert_asn1_header`. -/
def pubCertAsn1Header : List UInt8 :=
  [0x30, 0x59, 0x30, 0x13, 0x06, 0x07, 0x2A, 0x86, 0x48, 0xCE, 0x3D, 0x02, 0x01, 0x06, 0x08, 0x2A, 0x86, 0x48,
    0xCE, 0x3D, 0x03, 0x01, 0x07, 0x03, 0x42, 0x00, 0x04]

/-- `ecdsa_priv_asn1_header`. -/
def privAsn1Header : List UInt8 :=
  [0x30, 0x41, 0x02, 0x01, 0x00, 0x30, 0x13, 0x06, 0x07, 0x2A, 0x86, 0x48, 0xCE, 0x3D, 0x02, 0x01, 0x06, 0x08,
    0x2A, 0x86, 0x48, 0xCE, 0x3D, 0x03, 0x01, 0x07, 0x04, 0x27, 0x30, 0x25, 0x02, 0x01, 0x01, 0x04, 0x20]

/-- `ecdsa_priv_asn1_key`. -/
def privAsn1Key : List UInt8 := [0x30, 0x31, 0x02, 0x01, 0x01, 0x04, 0x20]

/-- `appl_settings_decode_public_key`, the key it leaves. -/
def decodePublicKey (value : List UInt8) : Cells 64 :=
  let res := (decodeValue build value 91).1
  let temp := ((Cells.zero 91).store 0 (decodeValue build value 91).2).bytes
  if res = 91 then
    if temp.take 27 = pubCertAsn1Header then .load _ (temp.drop 27) else .zero _
  else if res = 64 then .load _ temp
  else .zero _

/-- `appl_settings_decode_private_key`: the result and the key it leaves. A text of the right length with
another header gives no key and a result that is not the length of one. -/
def decodePrivateKey (value : List UInt8) : Int × Cells 32 :=
  let res := (decodeValue build value 67).1
  let temp := ((Cells.zero 67).store 0 (decodeValue build value 67).2).bytes
  let key : Option (Cells 32) :=
    if res = 67 then
      if temp.take 35 = privAsn1Header then some (.load _ (temp.drop 35)) else none
    else if res = 51 then
      if temp.take 7 = privAsn1Key then some (.load _ (temp.drop 7)) else none
    else if res = 32 then some (.load _ temp)
    else none
  match key with
  | some key => (if isZero key.bytes then 0 else 32, key)
  | none => (if res = 67 ∨ res = 51 then res else 0, .zero _)

/-- The index of the first occurrence of a text. -/
def strstr (text part : List UInt8) : Option ℕ :=
  (List.range (text.length + 1)).find? fun index => part.isPrefixOf (text.drop index)

/-- `${imei}`. -/
def imeiPart : List UInt8 := [36, 123, 105, 109, 101, 105, 125]

/-- A text with the length that is reported for it. -/
structure Expanded (size : ℕ) where
  text : CText size
  length : ℕ
  length_lt : length < size

section Expand

variable {size : ℕ}

/-- The bytes that are moved behind the identity: the rest of the string with its zero. -/
def moved (text : CText size) (cur : ℕ) : List UInt8 :=
  (text.bytes.drop (cur + 7)).take (text.string.length - 6 - cur)

/-- The array with the identity in the place of `${imei}`. -/
def replaced (imei : List UInt8) (text : CText size) (cur : ℕ) : Cells size :=
  (text.toCells.store (cur + imei.length) (moved text cur)).store cur imei

theorem strstr_le {text part : List UInt8} {cur : ℕ} (found : strstr text part = some cur) :
    cur + part.length ≤ text.length := by
  simp only [strstr] at found
  have start := List.find?_some found
  have shorter := (List.isPrefixOf_iff_prefix.mp start).length_le
  have inside := List.mem_range.mp (List.mem_of_find?_eq_some found)
  rw [List.length_drop] at shorter
  omega

/-- The zero of the string is moved with it. -/
private theorem replaced_terminated {imei : List UInt8} {text : CText size} {cur : ℕ}
    (found : cur + 7 ≤ text.string.length) (free : imei.length + text.string.length ≤ size + 6) :
    0 ∈ (replaced imei text cur).bytes := by
  have shorter := text.string_length_lt
  have length : (moved text cur).length = text.string.length - 6 - cur := by
    rw [moved, List.length_take, List.length_drop, text.size_eq]
    omega
  have zero : (moved text cur)[text.string.length - (cur + 7)]? = some 0 := by
    rw [moved, List.getElem?_take_of_lt (by omega), List.getElem?_drop,
      show cur + 7 + (text.string.length - (cur + 7)) = text.string.length by omega]
    exact cstring_end text.terminated
  refine List.mem_of_getElem? (i := imei.length + text.string.length - 7) ?_
  rw [replaced, Cells.getElem?_store _ (by omega), if_neg (by omega), Cells.getElem?_store _ (by omega),
    if_pos (by omega), show imei.length + text.string.length - 7 - (cur + imei.length) =
      text.string.length - (cur + 7) by omega]
  exact zero

/-- `appl_settings_expand_imei` into a cleared array. -/
def expandImei (imei : List UInt8) (size : ℕ) (room : 0 < size) (value : List UInt8) : Expanded size :=
  let text := CText.load size value room
  match found : strstr text.string imeiPart with
  | none => ⟨text, text.string.length, text.string_length_lt⟩
  | some cur =>
    let imei := imei.take (size - text.string.length + 6)
    have place : cur + 7 ≤ text.string.length := strstr_le found
    have shorter := text.string_length_lt
    have free : imei.length + text.string.length ≤ size + 6 := by
      rw [List.length_take]
      omega
    ⟨⟨replaced imei text cur, replaced_terminated place free⟩, text.string.length + imei.length - 7, by omega⟩

end Expand

/-- What is random in a step: the secret and the key pair that is generated, by its private key. -/
structure Random where
  secret : Cells 12
  pair : Option (Cells 32)

section Secrets

variable {build} {size : ℕ}

private theorem decodeValue_le (value : List UInt8) : (decodeValue build value size).1 ≤ size := by
  have negative : einval ≤ (size : Int) := Int.le_trans (by decide) (Int.natCast_nonneg size)
  simp only [decodeValue]
  split
  · exact Int.natCast_nonneg size
  · split
    · split
      · exact Int.ofNat_le.mpr ((Nat.min_le_right _ _).trans (Nat.sub_le size 1))
      · exact negative
    · split
      · split
        · exact Int.ofNat_le.mpr (build.hex2bin_le _ _)
        · exact negative
      · split
        · next decoded => exact Int.ofNat_le.mpr (build.base64Decode_le _ _ _ decoded)
        · exact negative

end Secrets

/-- The PSK secret of the build: its length or an error, and what is written to `psk_key`. -/
def pskSecret (random : Random) : Int × List UInt8 :=
  match build.pskSecret with
  | .generate => (12, random.secret.bytes)
  | .value text => decodeValue build text config.keyLen
  | .missing => (0, [])

private theorem pskSecret_le (random : Random) : (pskSecret build random).1 ≤ config.keyLen := by
  simp only [pskSecret]
  split
  · exact Int.ofNat_le.mpr config.keyLen_ge
  · exact decodeValue_le _
  · exact Int.natCast_nonneg _

/-- The PSK credentials of the build. -/
def resetPsk (random : Random) (settings : Settings config) : Settings config :=
  let identity : Expanded (config.identityLen + 1) :=
    match build.pskIdentity with
    | none => ⟨.load _ [] config.identityPlace, 0, config.identityPlace⟩
    | some value => expandImei settings.deviceImei.string _ config.identityPlace value
  let secret := pskSecret build random
  let key := (Cells.zero config.keyLen).store 0 secret.2
  { settings with
    psk :=
      if identity.length = 0 then { Psk.none config with id := identity.text.toCells }
      else if 0 < secret.1 then
        { id := identity.text.toCells
          idLength := identity.length
          idLength_le := Nat.le_of_lt_succ identity.length_lt
          key
          keyLength := secret.1.toNat
          keyLength_le := Int.toNat_le.mpr (pskSecret_le build random) }
      else { Psk.none config with key } }

/-- `sh_cmd_settings_generate_psk`. -/
def generatePsk (random : Random) (settings : Settings config) : Settings config :=
  { settings with
    psk := { settings.psk with
      key := .load _ random.secret.bytes
      keyLength := 12
      keyLength_le := config.keyLen_ge } }

/-- `sh_cmd_settings_generate_ec`. -/
def generateEc (random : Random) (settings : Settings config) : Settings config :=
  match random.pair with
  | none => { settings with ecdsaPrivKey := .zero _, ecdsaPubKey := .zero _ }
  | some key => { settings with ecdsaPrivKey := key, ecdsaPubKey := derivePublicKey config key }

/-- The private key of the build. -/
def resetEcdsa (random : Random) (settings : Settings config) : Settings config :=
  match build.privateKey with
  | .generate => generateEc random settings
  | .missing => { settings with ecdsaPrivKey := .zero _, ecdsaPubKey := .zero _ }
  | .value text =>
    let decoded := decodePrivateKey build text
    if decoded.1 = 32 then
      { settings with ecdsaPrivKey := decoded.2, ecdsaPubKey := derivePublicKey config decoded.2 }
    else if 0 < decoded.1 then { settings with ecdsaPrivKey := .zero _, ecdsaPubKey := .zero _ }
    else { settings with ecdsaPrivKey := decoded.2, ecdsaPubKey := .zero _ }

/-- The trusted key of the build. -/
def resetTrust (settings : Settings config) : Settings config :=
  { settings with trustedPubKey := build.trustedPublicKey.elim (.zero _) (decodePublicKey build) }

/-- `appl_settings_init_provisioning`. -/
def initProvisioning : Bool :=
  let decoded := decodePrivateKey build build.provisioningKey
  decoded.1 = 32 ∧ (config.publicKey decoded.2).isSome

/-- The unlock password of the build. -/
def resetUnlock (settings : Settings config) : Settings config :=
  { settings with unlockPassword := .load _ (build.unlockPassword.getD []) config.keyPlace }

/-- A text of the build in which `${imei}` is replaced. -/
def expanded (imei : CText (config.identityLen + 1)) (size : ℕ) (room : 0 < size) :
    Option (List UInt8) → CText size
  | none => .load size [] room
  | some value => (expandImei imei.string size room value).text

/-- The destination of the build. -/
def resetDest (settings : Settings config) : Settings config :=
  { settings with
    scheme := .load _ (build.scheme.getD (chars "coaps")) place12
    destination := .load _ (build.server.getD []) place64
    destinationPort := config.portDefault
    destinationSecurePort := config.securePortDefault
    coapPath := expanded settings.deviceImei 64 place64 build.resource
    coapQuery := expanded settings.deviceImei 64 place64 build.query }

/-- The identity of the device of the build. -/
def resetId (settings : Settings config) : Settings config :=
  { settings with
    deviceId := expanded settings.deviceImei _ config.identityPlace build.deviceIdentity
    batteryProfile := config.batteryDefault }

/-- The `SETTINGS_RESET` flags. -/
structure Flags where
  dest : Bool := false
  id : Bool := false
  unlock : Bool := false
  psk : Bool := false
  ecdsa : Bool := false
  trust : Bool := false
  provisioning : Bool := false
deriving DecidableEq, Repr

/-- `settings_save`: the export of what is saved drops incomplete credentials. -/
def settingsSave (settings : Settings config) : Settings config := (applSettingsHandleExport settings).2

/-- The parts of the reset behind the destination. -/
def resetKeys (flags : Flags) (random : Random) (settings : Settings config) : Settings config :=
  let settings := if flags.id then resetId build settings else settings
  let settings := if flags.psk then resetPsk build random settings else settings
  let settings := if flags.ecdsa then resetEcdsa build random settings else settings
  let settings := if flags.trust then resetTrust build settings else settings
  if flags.provisioning ∧ initProvisioning build then { settings with provisioning := 1 } else settings

/-- Something was reset that has to be saved. -/
def Flags.saves (flags : Flags) : Bool :=
  flags.dest || flags.id || flags.unlock || flags.psk || flags.ecdsa || flags.trust ||
    (flags.provisioning && initProvisioning build)

/-- The end of `appl_setting_factory_reset`. -/
def saveReset (flags : Flags) (settings : Settings config) : Settings config :=
  if flags.saves build ∨ settings.initialized = 0 then settingsSave { settings with initialized := 1 }
  else settings

/-- `appl_setting_factory_reset`. Without initial settings, a password or a destination is not given up. -/
def applSettingFactoryReset (flags : Flags) (random : Random) (settings : Settings config) :
    Int × Settings config :=
  if flags.unlock ∧ ¬ build.initSettings ∧ settings.unlockPassword.string ≠ [] then (ecanceled, settings)
  else
    let settings := if flags.unlock then resetUnlock build settings else settings
    if flags.dest ∧ ¬ build.initSettings ∧ settings.destination.string ≠ [] then (ecanceled, settings)
    else
      let settings := if flags.dest then resetDest build settings else settings
      (1, saveReset build flags (resetKeys build flags random settings))

/-- `appl_settings_add_reboot_code`, at a time in seconds. -/
def addRebootCode (now code : ℕ) (settings : Settings config) : Settings config :=
  let now := if now % 2 ^ 48 = 0 then 1 else now % 2 ^ 48
  { settings with
    rebootCodes := .load _ (bigEndian 6 now ++ bigEndian 2 code ++ settings.rebootCodes.bytes.take 24) }

/-- What changes the settings. -/
inductive Op (config : Config) where
  | set (name : Name) (value : List UInt8)
  | del (name : Name)
  | reset (build : Build config) (flags : Flags) (random : Random)
  | genPsk (random : Random)
  | genEc (random : Random)
  | addReboot (now code : ℕ)
  | provisioningDone
  | imei (value : List UInt8)
  | save

def step (settings : Settings config) : Op config → Settings config
  | .set name value => (applSettingsHandleSet settings name value).2
  | .del name => (applSettingsHandleSet settings name []).2
  | .reset build flags random => (applSettingFactoryReset build flags random settings).2
  | .genPsk random => generatePsk random settings
  | .genEc random => generateEc random settings
  | .addReboot now code => addRebootCode now code settings
  | .provisioningDone => { settings with provisioning := 0 }
  | .imei value => { settings with deviceImei := .load _ value config.identityPlace }
  | .save => settingsSave settings

/-- An operation takes the settings to the ones behind it. -/
def Step (settings : Settings config) (op : Op config) (next : Settings config) : Prop :=
  step settings op = next

end CoapsClient.ApplSettings
