import CoapsClient.Machine.CString
import CoapsClient.Math.BigEndian

/-! # The settings of the application

The settings of `appl_settings.c` with the handlers that set, get and export one of them, in a build with
`DTLS_PSK`, `DTLS_ECC`, `CONFIG_SH_CMD_UNLOCK` and `CONFIG_DTLS_ECDSA_AUTO_PROVISIONING`. An array carries
its size, a text the zero in it, and the credentials the bounds of their lengths. The ports are the two
bytes they have in the memory.

The values pass through a buffer of 64 bytes, and no array is larger. Logs and the mutex are left out.
-/

namespace CoapsClient.ApplSettings

open Machine

/-- The text of a name. -/
abbrev Name := List Char

/-- The keys of the settings. -/
inductive Key where
  | init
  | prov
  | bat
  | port
  | sport
  | apn
  | scheme
  | dest
  | path
  | query
  | reboots
  | id
  | unlock
  | pskId
  | pskKey
  | ecPriv
  | ecPub
  | ecTrPub
deriving DecidableEq, Repr

/-- The `SETTINGS_KEY` labels. -/
def Key.label : Key → Name
  | init => "init".toList
  | prov => "prov".toList
  | bat => "bat".toList
  | port => "port".toList
  | sport => "sport".toList
  | apn => "apn".toList
  | scheme => "scheme".toList
  | dest => "dest".toList
  | path => "path".toList
  | query => "query".toList
  | reboots => "reboots".toList
  | id => "id".toList
  | unlock => "unlock".toList
  | pskId => "psk_id".toList
  | pskKey => "psk_key".toList
  | ecPriv => "ec_priv".toList
  | ecPub => "ec_pub".toList
  | ecTrPub => "ec_tr_pub".toList

/-- The keys in the order the handlers try them. -/
def keys : List Key :=
  [.init, .prov, .bat, .port, .sport, .apn, .scheme, .dest, .path, .query, .reboots, .id, .unlock, .pskId,
    .pskKey, .ecPriv, .ecPub, .ecTrPub]

/-- `settings_name_next`: the first part of a name and what follows behind a separator. -/
def settingsNameNext (name : Name) : Name × Option Name :=
  let head := name.takeWhile fun char => char ≠ '=' ∧ char ≠ '/'
  match name.drop head.length with
  | '/' :: next => (head, some next)
  | _ => (head, none)

/-- The key of a name, by `appl_settings_key_match`. -/
def keyOf (name : Name) : Option Key :=
  match settingsNameNext name with
  | (_, some _) => none
  | (head, none) => keys.find? fun key => key.label = head

private theorem keyOf_label (key : Key) : keyOf key.label = some key := by
  cases key <;> decide

/-- The sizes that tinydtls sets and the initial values of the build. -/
structure Config where
  /-- `DTLS_PSK_MAX_CLIENT_IDENTITY_LEN`. -/
  identityLen : ℕ
  identityLen_lt : identityLen < 64
  /-- `DTLS_PSK_MAX_KEY_LEN`. -/
  keyLen : ℕ
  keyLen_lt : keyLen < 64
  keyLen_ge : 12 ≤ keyLen
  /-- `BATTERY_TYPE_DEFAULT`. -/
  batteryDefault : UInt8
  /-- `DEFAUL_COAP_SERVER_PORT` and `DEFAUL_COAP_SERVER_SECURE_PORT`. -/
  portDefault : Cells 2
  securePortDefault : Cells 2
  /-- `dtls_ecdsa_generate_public_key2`: the public key, when it makes one. -/
  publicKey : Cells 32 → Option (Cells 64)

section Places

/-- There is a place for the zero in every text. -/
theorem place12 : 0 < 12 := Nat.succ_pos 11

theorem place64 : 0 < 64 := Nat.succ_pos 63

variable (config : Config)

theorem Config.identityPlace : 0 < config.identityLen + 1 := Nat.succ_pos config.identityLen

theorem Config.keyPlace : 0 < config.keyLen + 1 := Nat.succ_pos config.keyLen

end Places

/-- The sizes and ports of the build without options, with the given public keys. -/
def tinydtls (publicKey : Cells 32 → Option (Cells 64)) : Config where
  identityLen := 32
  identityLen_lt := by decide
  keyLen := 16
  keyLen_lt := by decide
  keyLen_ge := by decide
  batteryDefault := 0
  portDefault := .load 2 [0x33, 0x16]
  securePortDefault := .load 2 [0x34, 0x16]
  publicKey

/-- `-ENOENT`. -/
def enoent : Int := -2
/-- `-EINVAL`. -/
def einval : Int := -22
/-- `-ECANCELED`. -/
def ecanceled : Int := -140

/-- `psk_id` and `psk_key` with their lengths. -/
structure Psk (config : Config) where
  id : Cells (config.identityLen + 1)
  idLength : ℕ
  idLength_le : idLength ≤ config.identityLen
  key : Cells config.keyLen
  keyLength : ℕ
  keyLength_le : keyLength ≤ config.keyLen

/-- No PSK credentials. -/
def Psk.none (config : Config) : Psk config where
  id := .zero _
  idLength := 0
  idLength_le := Nat.zero_le _
  key := .zero _
  keyLength := 0
  keyLength_le := Nat.zero_le _

/-- The variables of the module. -/
structure Settings (config : Config) where
  initialized : UInt8
  provisioning : UInt8
  batteryProfile : UInt8
  apn : CText 64
  scheme : CText 12
  destination : CText 64
  destinationPort : Cells 2
  destinationSecurePort : Cells 2
  deviceImei : CText (config.identityLen + 1)
  deviceId : CText (config.identityLen + 1)
  coapPath : CText 64
  coapQuery : CText 64
  rebootCodes : Cells 32
  unlockPassword : CText (config.keyLen + 1)
  psk : Psk config
  ecdsaPrivKey : Cells 32
  ecdsaPubKey : Cells 64
  trustedPubKey : Cells 64

/-- The text of a string of the source. -/
def chars (text : String) : List UInt8 := text.toList.map fun char => UInt8.ofNat char.toNat

/-- The module behind a boot, before the settings are loaded. -/
def boot (config : Config) : Settings config where
  initialized := 0
  provisioning := 0
  batteryProfile := config.batteryDefault
  apn := .load _ [] place64
  scheme := .load _ (chars "coaps") place12
  destination := .load _ [] place64
  destinationPort := config.portDefault
  destinationSecurePort := config.securePortDefault
  deviceImei := .load _ [] config.identityPlace
  deviceId := .load _ [] config.identityPlace
  coapPath := .load _ [] place64
  coapQuery := .load _ [] place64
  rebootCodes := .zero _
  unlockPassword := .load _ [] config.keyPlace
  psk := .none config
  ecdsaPrivKey := .zero _
  ecdsaPubKey := .zero _
  trustedPubKey := .zero _

/-- `is_zero`. -/
def isZero (bytes : List UInt8) : Bool := bytes.all (· = 0)

/-- The bytes that `is_zero` looks at: the loop reads a byte before it checks the length. -/
def zeroRead (bytes : List UInt8) : ℕ := (bytes.takeWhile (· = 0)).length + 1

variable {config : Config}

/-- A single byte, or the default for any other number of bytes. -/
def readByte (default : UInt8) : List UInt8 → UInt8
  | [byte] => byte
  | _ => default

/-- The byte that is read of a value: the first one. -/
def setByte (default : UInt8) (value : List UInt8) : UInt8 := readByte default (value.take 1)

/-- The public key of a private key, in a cleared array. -/
def derivePublicKey (config : Config) (key : Cells 32) : Cells 64 := (config.publicKey key).getD (.zero _)

/-- The new `psk_id`: the value up to its place, and how much was read. -/
def Psk.setId (psk : Psk config) (value : List UInt8) : Psk config :=
  { psk with
    id := .load _ (value.take config.identityLen)
    idLength := (value.take config.identityLen).length
    idLength_le := by
      rw [List.length_take]
      omega }

/-- The new `psk_key`: one byte less than the array has. -/
def Psk.setKey (psk : Psk config) (value : List UInt8) : Psk config :=
  { psk with
    key := .load _ (value.take (config.keyLen - 1))
    keyLength := (value.take (config.keyLen - 1)).length
    keyLength_le := by
      rw [List.length_take]
      omega }

/-- `appl_settings_handle_set` for a key; the read callback copies the value up to the number of bytes it is
asked for. -/
def setKey (settings : Settings config) (value : List UInt8) : Key → Int × Settings config
  | .init => (0, { settings with initialized := setByte 0 value })
  | .prov => (0, { settings with provisioning := setByte 0 value })
  | .bat => (0, { settings with batteryProfile := setByte config.batteryDefault value })
  | .port => (0, { settings with destinationPort := .load _ value })
  | .sport => (0, { settings with destinationSecurePort := .load _ value })
  | .apn => (0, { settings with apn := .load _ value place64 })
  | .scheme => (0, { settings with scheme := .load _ value place12 })
  | .dest => (0, { settings with destination := .load _ value place64 })
  | .path => (0, { settings with coapPath := .load _ value place64 })
  | .query => (0, { settings with coapQuery := .load _ value place64 })
  | .reboots => (0, { settings with rebootCodes := .load _ value })
  | .id => (0, { settings with deviceId := .load _ value config.identityPlace })
  | .unlock =>
    (0, if (value.take config.keyLen).length = 0 then settings
      else { settings with unlockPassword := .load _ value config.keyPlace })
  | .pskId => (0, { settings with psk := settings.psk.setId value })
  | .pskKey => (0, { settings with psk := settings.psk.setKey value })
  | .ecPriv =>
    let key : Cells 32 := .load _ value
    (0, { settings with
      ecdsaPrivKey := key
      ecdsaPubKey := if (value.take 32).length = 0 then .zero _ else derivePublicKey config key })
  | .ecPub => (enoent, settings)
  | .ecTrPub => (0, { settings with trustedPubKey := .load _ value })

/-- `appl_settings_handle_set`. -/
def applSettingsHandleSet (settings : Settings config) (name : Name) (value : List UInt8) :
    Int × Settings config :=
  match keyOf name with
  | none => (enoent, settings)
  | some key => setKey settings value key

/-- PSK credentials are kept with both parts only. -/
def Psk.complete (psk : Psk config) : Bool := 0 < psk.idLength ∧ 0 < psk.keyLength

/-- The pairs of the PSK credentials. -/
def Psk.pairs (psk : Psk config) : List (Key × List UInt8) :=
  if psk.complete then
    [(.pskId, psk.id.bytes.take psk.idLength), (.pskKey, psk.key.bytes.take psk.keyLength)]
  else []

/-- `appl_settings_handle_export`: the exported pairs, and the settings without incomplete credentials. -/
def applSettingsHandleExport (settings : Settings config) : List (Key × List UInt8) × Settings config :=
  ([(.init, [settings.initialized]),
    (.port, settings.destinationPort.bytes),
    (.sport, settings.destinationSecurePort.bytes),
    (.id, settings.deviceId.string),
    (.scheme, settings.scheme.string),
    (.dest, settings.destination.string),
    (.path, settings.coapPath.string),
    (.query, settings.coapQuery.string),
    (.reboots, settings.rebootCodes.bytes),
    (.apn, settings.apn.string),
    (.bat, [settings.batteryProfile]),
    (.unlock, settings.unlockPassword.string)] ++
    settings.psk.pairs ++
    [(.ecPriv, settings.ecdsaPrivKey.bytes),
      (.ecTrPub, settings.trustedPubKey.bytes),
      (.prov, [settings.provisioning])],
    if settings.psk.complete then settings else { settings with psk := .none config })

/-- The pairs of an export are set one after the other. -/
def loadAll (settings : Settings config) (pairs : List (Key × List UInt8)) : Settings config :=
  pairs.foldl (fun settings pair => (applSettingsHandleSet settings pair.1.label pair.2).2) settings

section Loading

variable (settings : Settings config)

@[simp] theorem loadAll_nil : loadAll settings [] = settings := rfl

@[simp] theorem loadAll_cons (key : Key) (value : List UInt8) (rest : List (Key × List UInt8)) :
    loadAll settings ((key, value) :: rest) = loadAll (setKey settings value key).2 rest := by
  simp only [loadAll, List.foldl_cons, applSettingsHandleSet, keyOf_label]

theorem loadAll_append (first second : List (Key × List UInt8)) :
    loadAll settings (first ++ second) = loadAll (loadAll settings first) second :=
  List.foldl_append ..

end Loading

/-- The result of a get: the value of the function, what is left in the buffer, and how many bytes of the
variable were read. -/
structure Got where
  rc : Int
  value : List UInt8
  read : ℕ
deriving DecidableEq, Repr

/-- `appl_settings_copy`, of the variable at the start of the given memory. -/
def applSettingsCopy (memory : List UInt8) (len : ℕ) : Got :=
  let string := cstring memory
  if len < string.length + 1 then ⟨einval, List.replicate len 0, string.length + 1⟩
  else ⟨string.length, (Cells.load len string).bytes, string.length + 1⟩

/-- A variable of a fixed size is copied as a whole. -/
def copyAll (bytes : List UInt8) (len : ℕ) : Got :=
  if len < bytes.length then ⟨einval, List.replicate len 0, 0⟩
  else ⟨bytes.length, (Cells.load len bytes).bytes, bytes.length⟩

/-- A public key is copied, when it is there. -/
def copyKey (bytes : List UInt8) (len : ℕ) : Got :=
  if isZero bytes then ⟨0, List.replicate len 0, zeroRead bytes⟩ else copyAll bytes len

/-- `appl_settings_handle_get` for a key, into a buffer of `len` bytes; `behind` is the memory behind the
variable. -/
def getKey (settings : Settings config) (isProtected : Bool) (behind : List UInt8) (len : ℕ) : Key → Got
  | .init => copyAll [settings.initialized] len
  | .prov => copyAll [settings.provisioning] len
  | .bat => copyAll [settings.batteryProfile] len
  | .port => copyAll settings.destinationPort.bytes len
  | .sport => copyAll settings.destinationSecurePort.bytes len
  | .apn => applSettingsCopy (settings.apn.bytes ++ behind) len
  | .scheme => applSettingsCopy (settings.scheme.bytes ++ behind) len
  | .dest => applSettingsCopy (settings.destination.bytes ++ behind) len
  | .path => applSettingsCopy (settings.coapPath.bytes ++ behind) len
  | .query => applSettingsCopy (settings.coapQuery.bytes ++ behind) len
  | .reboots => applSettingsCopy (settings.rebootCodes.bytes ++ behind) len
  | .id => applSettingsCopy (settings.deviceId.bytes ++ behind) len
  | .pskId => applSettingsCopy (settings.psk.id.bytes ++ behind) len
  | .pskKey =>
    if settings.psk.keyLength = 0 ∨ isProtected then ⟨0, List.replicate len 0, 0⟩
    else applSettingsCopy (settings.psk.key.bytes ++ behind) len
  | .ecPriv => ⟨0, List.replicate len 0, zeroRead settings.ecdsaPrivKey.bytes⟩
  | .ecPub => copyKey settings.ecdsaPubKey.bytes len
  | .ecTrPub => copyKey settings.trustedPubKey.bytes len
  | .unlock => ⟨0, List.replicate len 0, 1⟩

/-- `appl_settings_handle_get`. -/
def applSettingsHandleGet (settings : Settings config) (isProtected : Bool) (behind : List UInt8)
    (name : Name) (len : ℕ) : Got :=
  match keyOf name with
  | none => ⟨enoent, List.replicate len 0, 0⟩
  | some key => getKey settings isProtected behind len key

end CoapsClient.ApplSettings
