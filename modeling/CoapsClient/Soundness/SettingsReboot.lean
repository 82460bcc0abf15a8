import CoapsClient.Model.Settings.Reset

/-! # Settings behind a reboot

What `appl_settings_handle_export` hands out is set again in a module that has just booted. All settings
come back, but a PSK secret that fills its array: `psk_key` has no place for a zero, and the set leaves one.
Credentials with one part only are dropped by the export itself.
-/

namespace CoapsClient.ApplSettings

open Machine

variable {config : Config}

/-- The exported settings are set in a module that has just booted. -/
def reboot (settings : Settings config) : Settings config :=
  loadAll (boot config) (applSettingsHandleExport settings).1

/-- The same settings, as far as they are used. -/
structure SameSettings (settings other : Settings config) : Prop where
  initialized : other.initialized = settings.initialized
  provisioning : other.provisioning = settings.provisioning
  batteryProfile : other.batteryProfile = settings.batteryProfile
  apn : other.apn.string = settings.apn.string
  scheme : other.scheme.string = settings.scheme.string
  destination : other.destination.string = settings.destination.string
  destinationPort : other.destinationPort = settings.destinationPort
  destinationSecurePort : other.destinationSecurePort = settings.destinationSecurePort
  deviceId : other.deviceId.string = settings.deviceId.string
  coapPath : other.coapPath.string = settings.coapPath.string
  coapQuery : other.coapQuery.string = settings.coapQuery.string
  rebootCodes : other.rebootCodes = settings.rebootCodes
  unlockPassword : other.unlockPassword.string = settings.unlockPassword.string
  pskIdLength : other.psk.idLength = settings.psk.idLength
  pskId : other.psk.id.bytes.take other.psk.idLength = settings.psk.id.bytes.take settings.psk.idLength
  pskKeyLength : other.psk.keyLength = settings.psk.keyLength
  pskKey : other.psk.key.bytes.take other.psk.keyLength = settings.psk.key.bytes.take settings.psk.keyLength
  ecdsaPrivKey : other.ecdsaPrivKey = settings.ecdsaPrivKey
  ecdsaPubKey : other.ecdsaPubKey = settings.ecdsaPubKey
  trustedPubKey : other.trustedPubKey = settings.trustedPubKey

/-- There are no credentials, or both parts are there and the secret does not fill its array. -/
def Psk.Survives (psk : Psk config) : Prop :=
  (psk.idLength = 0 ∧ psk.keyLength = 0) ∨
    (0 < psk.idLength ∧ 0 < psk.keyLength ∧ psk.keyLength < config.keyLen)

instance (psk : Psk config) : Decidable psk.Survives := inferInstanceAs (Decidable (_ ∨ _))

/-- The public key is the one of the private key. -/
def PubDerived (settings : Settings config) : Prop :=
  settings.ecdsaPubKey = derivePublicKey config settings.ecdsaPrivKey

section Derived

variable {settings next : Settings config} {build : Build config}

private theorem derivePublicKey_zero (noKey : config.publicKey (.zero 32) = none) :
    derivePublicKey config (.zero 32) = .zero 64 := by
  rw [derivePublicKey, noKey, Option.getD_none]

private theorem eq_zero_of_isZero {size : ℕ} {cells : Cells size} (zero : isZero cells.bytes = true) :
    cells = .zero size := by
  refine Cells.ext ?_
  have all : ∀ byte ∈ cells.bytes, byte = 0 := by simpa [isZero] using zero
  have bytes : cells.bytes = List.replicate size 0 := List.eq_replicate_iff.mpr ⟨cells.size_eq, all⟩
  rw [bytes, Cells.zero, Cells.load_bytes (Nat.zero_le _), List.nil_append, List.length_nil, Nat.sub_zero]

private theorem setKey_derived (noKey : config.publicKey (.zero 32) = none) (derived : PubDerived settings)
    (value : List UInt8) (key : Key) : PubDerived (setKey settings value key).2 := by
  cases key with
  | ecPriv =>
    simp only [setKey, PubDerived]
    split
    · next nothing =>
      rw [eq_nil_of_take (by decide) nothing]
      exact (derivePublicKey_zero noKey).symm
    · rfl
  | unlock =>
    simp only [setKey]
    split <;> exact derived
  | _ => exact derived

private theorem applSettingsHandleSet_derived (noKey : config.publicKey (.zero 32) = none)
    (derived : PubDerived settings)
    (name : Name) (value : List UInt8) : PubDerived (applSettingsHandleSet settings name value).2 := by
  simp only [applSettingsHandleSet]
  split
  · exact derived
  · exact setKey_derived noKey derived value _

private theorem generateEc_derived (noKey : config.publicKey (.zero 32) = none) (random : Random) :
    PubDerived (generateEc random settings) := by
  simp only [generateEc]
  split
  · exact (derivePublicKey_zero noKey).symm
  · rfl

/-- A text that gives no key leaves a cleared one. -/
private theorem decodePrivateKey_zero (value : List UInt8) (missing : ¬ 0 < (decodePrivateKey build value).1) :
    (decodePrivateKey build value).2 = .zero 32 := by
  simp only [decodePrivateKey] at missing ⊢
  split
  · next found =>
    rw [found] at missing
    simp only at missing
    split at missing
    · next zero => exact eq_zero_of_isZero zero
    · exact absurd (by decide) missing
  · rfl

private theorem resetEcdsa_derived (noKey : config.publicKey (.zero 32) = none) (random : Random) :
    PubDerived (resetEcdsa build random settings) := by
  have cleared : PubDerived { settings with ecdsaPrivKey := .zero 32, ecdsaPubKey := .zero 64 } :=
    (derivePublicKey_zero noKey).symm
  simp only [resetEcdsa]
  split
  · exact generateEc_derived noKey random
  · exact cleared
  · split
    · rfl
    · split
      · exact cleared
      · next missing =>
        rw [decodePrivateKey_zero _ missing]
        exact cleared

end Derived

section Restored

variable (settings : Settings config)

/-- The credentials of an export, set in a module without any. -/
def Psk.restored (psk : Psk config) : Psk config :=
  if psk.complete then
    ((Psk.none config).setId (psk.id.bytes.take psk.idLength)).setKey (psk.key.bytes.take psk.keyLength)
  else .none config

/-- The settings that an export and a reboot leave. -/
def restored : Settings config where
  initialized := settings.initialized
  provisioning := settings.provisioning
  batteryProfile := settings.batteryProfile
  apn := .load _ settings.apn.string place64
  scheme := .load _ settings.scheme.string place12
  destination := .load _ settings.destination.string place64
  destinationPort := .load _ settings.destinationPort.bytes
  destinationSecurePort := .load _ settings.destinationSecurePort.bytes
  deviceImei := .load _ [] config.identityPlace
  deviceId := .load _ settings.deviceId.string config.identityPlace
  coapPath := .load _ settings.coapPath.string place64
  coapQuery := .load _ settings.coapQuery.string place64
  rebootCodes := .load _ settings.rebootCodes.bytes
  unlockPassword := .load _ settings.unlockPassword.string config.keyPlace
  psk := settings.psk.restored
  ecdsaPrivKey := .load _ settings.ecdsaPrivKey.bytes
  ecdsaPubKey := derivePublicKey config (.load _ settings.ecdsaPrivKey.bytes)
  trustedPubKey := .load _ settings.trustedPubKey.bytes

/-- A password is set when there is one; without one the array is still cleared. -/
private theorem setKey_unlock (value : List UInt8) (unset : settings.unlockPassword = .load _ [] config.keyPlace) :
    (setKey settings value .unlock).2 =
      { settings with unlockPassword := .load _ value config.keyPlace } := by
  simp only [setKey]
  split
  · next nothing =>
    have place : 0 < config.keyLen := Nat.lt_of_lt_of_le (by decide) config.keyLen_ge
    rw [eq_nil_of_take place nothing, ← unset]
  · rfl

private theorem setKey_ecPriv (key : Cells 32) :
    (setKey settings key.bytes .ecPriv).2 =
      { settings with
        ecdsaPrivKey := .load _ key.bytes
        ecdsaPubKey := derivePublicKey config (.load _ key.bytes) } := by
  have full : (key.bytes.take 32).length ≠ 0 := by
    rw [List.length_take, key.size_eq]
    decide
  simp only [setKey, if_neg full]

private theorem loadAll_psk (unset : settings.psk = .none config) (psk : Psk config) :
    loadAll settings psk.pairs = { settings with psk := psk.restored } := by
  by_cases complete : psk.complete = true
  · simp only [Psk.pairs, Psk.restored, if_pos complete, loadAll_cons, loadAll_nil, setKey, unset]
  · simp only [Psk.pairs, Psk.restored, if_neg complete, loadAll_nil, ← unset]

/-- Every exported value is set once, each in its own variable. -/
private theorem reboot_eq : reboot settings = restored settings := by
  simp only [reboot, applSettingsHandleExport, loadAll_append, loadAll_cons, loadAll_nil]
  rw [setKey_unlock _ _ rfl, loadAll_psk _ rfl, setKey_ecPriv]
  simp only [setKey]
  rfl

/-- The lengths and bytes of the credentials come back when they survive. -/
theorem Psk.restored_iff (psk : Psk config) :
    (psk.restored.idLength = psk.idLength ∧ psk.restored.keyLength = psk.keyLength) ↔ psk.Survives := by
  have identity := psk.idLength_le
  have secret := psk.keyLength_le
  have place := config.keyLen_ge
  by_cases complete : psk.complete = true
  · obtain ⟨id, key⟩ : 0 < psk.idLength ∧ 0 < psk.keyLength := by simpa [Psk.complete] using complete
    simp only [Psk.restored, if_pos complete, Psk.setKey, Psk.setId, Psk.Survives, List.length_take,
      psk.id.size_eq, psk.key.size_eq]
    omega
  · have part : ¬ (0 < psk.idLength ∧ 0 < psk.keyLength) := by simpa [Psk.complete] using complete
    simp only [Psk.restored, if_neg complete, Psk.none, Psk.Survives]
    omega

theorem Psk.restored_bytes (psk : Psk config) (survives : psk.Survives) :
    psk.restored.id.bytes.take psk.idLength = psk.id.bytes.take psk.idLength ∧
      psk.restored.key.bytes.take psk.keyLength = psk.key.bytes.take psk.keyLength := by
  rcases survives with ⟨id, key⟩ | ⟨id, key, short⟩
  · rw [id, key]
    exact ⟨rfl, rfl⟩
  · have complete : psk.complete = true := by simp [Psk.complete, id, key]
    simp only [Psk.restored, if_pos complete]
    exact ⟨Cells.take_load_take _ psk.idLength_le (Nat.le_succ _), Cells.take_load_take _ (by omega) (Nat.sub_le _ _)⟩

end Restored

section Reached

variable {settings next : Settings config} {op : Op config}

private theorem settingsSave_derived (derived : PubDerived settings) : PubDerived (settingsSave settings) := by
  simp only [settingsSave, applSettingsHandleExport]
  split <;> exact derived

/-- A part of the factory reset that is left out keeps the public key as well. -/
private theorem optional_derived (flag : Bool) (part : Settings config → Settings config)
    (keeps : ∀ settings, PubDerived settings → PubDerived (part settings)) (derived : PubDerived settings) :
    PubDerived (if flag then part settings else settings) := by
  split
  · exact keeps settings derived
  · exact derived

/-- Of the parts of a factory reset, only the one for the private key touches it. -/
private theorem resetKeys_derived (noKey : config.publicKey (.zero 32) = none) (build : Build config) (flags : Flags)
    (random : Random) (derived : PubDerived settings) :
    PubDerived (resetKeys build flags random settings) := by
  have id := optional_derived flags.id (resetId build) (fun _ before => before) derived
  have psk := optional_derived flags.psk (resetPsk build random) (fun _ before => before) id
  have ecdsa := optional_derived flags.ecdsa (resetEcdsa build random)
    (fun _ _ => resetEcdsa_derived noKey random) psk
  have trust := optional_derived flags.trust (resetTrust build) (fun _ before => before) ecdsa
  simp only [resetKeys]
  split
  · exact trust
  · exact trust

private theorem saveReset_derived (build : Build config) (flags : Flags) (derived : PubDerived settings) :
    PubDerived (saveReset build flags settings) := by
  simp only [saveReset]
  split
  · exact settingsSave_derived derived
  · exact derived

private theorem applSettingFactoryReset_derived (noKey : config.publicKey (.zero 32) = none) (build : Build config)
    (flags : Flags) (random : Random) (derived : PubDerived settings) :
    PubDerived (applSettingFactoryReset build flags random settings).2 := by
  have unlock := optional_derived flags.unlock (resetUnlock build) (fun _ before => before) derived
  simp only [applSettingFactoryReset]
  split
  · exact derived
  · generalize (if flags.unlock = true then resetUnlock build settings else settings) = unlocked at unlock ⊢
    split
    · exact unlock
    · have dest := optional_derived flags.dest (resetDest build) (fun _ before => before) unlock
      exact saveReset_derived build flags (resetKeys_derived noKey build flags random dest)

private theorem step_derived (noKey : config.publicKey (.zero 32) = none) (derived : PubDerived settings)
    (moved : Step settings op next) : PubDerived next := by
  obtain rfl := moved
  cases op with
  | set name value => exact applSettingsHandleSet_derived noKey derived name value
  | del name => exact applSettingsHandleSet_derived noKey derived name []
  | reset build flags random => exact applSettingFactoryReset_derived noKey build flags random derived
  | genPsk random => exact derived
  | genEc random => exact generateEc_derived noKey random
  | addReboot now code => exact derived
  | provisioningDone => exact derived
  | imei value => exact derived
  | save => exact settingsSave_derived derived

end Reached

/-- In every reachable state, the settings survive the export and the reboot exactly when the credentials
do. -/
theorem settings_survive_iff {ops : List (Op config)} {settings : Settings config}
    (noKey : config.publicKey (.zero 32) = none) (run : Path Step (boot config) ops settings) :
    SameSettings settings (reboot settings) ↔ settings.psk.Survives := by
  have derived : PubDerived settings :=
    run.invariant PubDerived (fun _ _ _ derived moved => step_derived noKey derived moved)
      (derivePublicKey_zero noKey).symm
  rw [reboot_eq]
  constructor
  · intro same
    exact settings.psk.restored_iff.mp ⟨same.pskIdLength, same.pskKeyLength⟩
  · intro survives
    obtain ⟨idLength, keyLength⟩ := settings.psk.restored_iff.mpr survives
    obtain ⟨id, key⟩ := settings.psk.restored_bytes survives
    exact {
      initialized := rfl
      provisioning := rfl
      batteryProfile := rfl
      apn := CText.string_load_string _
      scheme := CText.string_load_string _
      destination := CText.string_load_string _
      destinationPort := Cells.load_self _
      destinationSecurePort := Cells.load_self _
      deviceId := CText.string_load_string _
      coapPath := CText.string_load_string _
      coapQuery := CText.string_load_string _
      rebootCodes := Cells.load_self _
      unlockPassword := CText.string_load_string _
      pskIdLength := idLength
      pskId := (congrArg (List.take · _) idLength).trans id
      pskKeyLength := keyLength
      pskKey := (congrArg (List.take · _) keyLength).trans key
      ecdsaPrivKey := Cells.load_self _
      ecdsaPubKey := (congrArg (derivePublicKey config) (Cells.load_self _)).trans derived.symm
      trustedPubKey := Cells.load_self _ }

/-- The key of the base point, which is the public key of the private key 1. -/
private def basePoint : List UInt8 :=
  [0x6B, 0x17, 0xD1, 0xF2, 0xE1, 0x2C, 0x42, 0x47, 0xF8, 0xBC, 0xE6, 0xE5, 0x63, 0xA4, 0x40, 0xF2, 0x77, 0x03,
    0x7D, 0x81, 0x2D, 0xEB, 0x33, 0xA0, 0xF4, 0xA1, 0x39, 0x45, 0xD8, 0x98, 0xC2, 0x96, 0x4F, 0xE3,
    0x42, 0xE2, 0xFE, 0x1A, 0x7F, 0x9B, 0x8E, 0xE7, 0xEB, 0x4A, 0x7C, 0x0F, 0x9E, 0x16, 0x2B, 0xCE, 0x33,
    0x57, 0x6B, 0x31, 0x5E, 0xCE, 0xCB, 0xB6, 0x40, 0x68, 0x37, 0xBF, 0x51, 0xF5]

/-- The private key 1. -/
private def privateOne : Cells 32 := .load 32 (List.replicate 31 0 ++ [1])

/-- The public keys of the private keys 0 and 1. -/
private def plain : Config := tinydtls fun key => if key = privateOne then some (.load 64 basePoint) else none

/-- The value of a hexadecimal digit. -/
private def hexDigit (digit : UInt8) : UInt8 := if digit < 58 then digit - 48 else (digit ||| 32) - 87

/-- The bytes of hexadecimal digits. -/
private def hexBytes : List UInt8 → List UInt8
  | high :: low :: rest => (hexDigit high * 16 + hexDigit low) :: hexBytes rest
  | _ => []

/-- The default build with the given secret. -/
private def secretBuild (secret : List UInt8) : Build plain where
  initSettings := true
  unlockPassword := some (chars "unlock")
  server := some (chars "californium.eclipseprojects.io")
  scheme := some (chars "coaps")
  resource := some (chars "echo")
  query := none
  deviceIdentity := some (chars "cali.${imei}")
  pskIdentity := some (chars "cali.${imei}")
  pskSecret := .value secret
  privateKey := .generate
  trustedPublicKey := none
  provisioningKey := []
  hex2bin := fun text size =>
    if (hexBytes text).length ≤ size then ((hexBytes text).length, hexBytes text) else (0, [])
  hex2bin_le := by
    intro text size
    split
    · assumption
    · exact Nat.zero_le _
  base64Decode := fun _ _ => (none, [])
  base64Decode_le := nofun

/-- The first initialisation of a device. -/
private def firstStart (secret : List UInt8) : List (Op plain) :=
  [.imei (chars "350000000000001"),
    .reset (secretBuild secret) ⟨true, true, true, true, true, true, true⟩ ⟨.zero 12, some privateOne⟩]

/-- The secret `'.fornium'` of eight characters comes back. -/
theorem default_secret_survives :
    ∃ settings, Path Step (boot plain) (firstStart (chars "'.fornium'")) settings ∧
      settings.psk.key.bytes.take settings.psk.keyLength = chars ".fornium" ∧
      settings.deviceId.string = chars "cali.350000000000001" ∧
      SameSettings settings (reboot settings) := by
  have run : Path Step (boot plain) (firstStart (chars "'.fornium'")) _ := .cons rfl (.cons rfl (.nil _))
  exact ⟨_, run, by decide +kernel, by decide +kernel,
    (settings_survive_iff (by decide +kernel) run).mpr (by decide +kernel)⟩

/-- A hexadecimal secret of 16 bytes fills `psk_key`, and comes back with 15. -/
theorem full_secret_is_cut :
    ∃ settings, Path Step (boot plain) (firstStart (chars ":0x000102030405060708090a0b0c0d0e0f")) settings ∧
      settings.psk.keyLength = 16 ∧ (reboot settings).psk.keyLength = 15 ∧
      settings.psk.key.bytes.getLast? = some 15 ∧ (reboot settings).psk.key.bytes.getLast? = some 0 ∧
      ¬ SameSettings settings (reboot settings) := by
  have run : Path Step (boot plain) (firstStart (chars ":0x000102030405060708090a0b0c0d0e0f")) _ :=
    .cons rfl (.cons rfl (.nil _))
  refine ⟨_, run, by decide +kernel, by decide +kernel, by decide +kernel, by decide +kernel, fun same => ?_⟩
  exact absurd same.pskKeyLength (by decide +kernel)

end CoapsClient.ApplSettings
