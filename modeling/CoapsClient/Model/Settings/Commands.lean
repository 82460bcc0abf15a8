import CoapsClient.Model.Settings.Settings
import CoapsClient.Model.Shell.Text

/-! # The commands that set a value

`set` and `sethex` take a key and a text, convert the text and hand the bytes to the handler of the settings and to
what keeps them over a boot. `settings_runtime_set` is that of Zephyr with the one handler of the application;
`settings_save_one` and `hex2bin` are parameters. `strtol` is that of a `long` with 32 bits.
-/

namespace CoapsClient.ApplSettings

open ShCmd (Text parseNextText)

/-- `isspace`. -/
def isSpace (char : Char) : Bool := char = ' ' ∨ 9 ≤ char.toNat ∧ char.toNat ≤ 13

/-- The value of a character as a digit. -/
def digitValue (char : Char) : ℕ :=
  if char.isDigit then char.toNat - 48
  else if char.isLower then char.toNat - 87
  else if char.isUpper then char.toNat - 55
  else 36

/-- The digits at the start of a text, and what follows them. -/
def scanDigits (base : ℕ) : ℕ → Text → ℕ × Text
  | value, [] => (value, [])
  | value, char :: rest =>
    if digitValue char < base then scanDigits base (value * base + digitValue char) rest
    else (value, char :: rest)

/-- The base of a number without one, and its digits. -/
def numberBase : Text → ℕ × Text
  | '0' :: mark :: digit :: rest =>
    if (mark = 'x' ∨ mark = 'X') ∧ digitValue digit < 16 then (16, digit :: rest)
    else (8, '0' :: mark :: digit :: rest)
  | '0' :: rest => (8, '0' :: rest)
  | text => (10, text)

/-- The sign of a number. -/
def numberSign : Text → Int × Text
  | '-' :: rest => (-1, rest)
  | '+' :: rest => (1, rest)
  | text => (1, text)

/-- `strtol` without a base: the number, cut to the range of `long`, and the text behind it; zero and the whole
text when there is no number. -/
def strtol (text : Text) : Int × Text :=
  let (sign, body) := numberSign (text.dropWhile isSpace)
  let (base, digits) := numberBase body
  let (value, rest) := scanDigits base 0 digits
  if rest.length = digits.length then (0, text)
  else (max (-2147483648) (min (sign * value) 2147483647), rest)

/-- The low bytes of a number, as they are in the memory. -/
def numberBytes (width : ℕ) (number : Int) : List UInt8 :=
  (List.range width).map fun index => UInt8.ofNat (number / 256 ^ index % 256).toNat

/-- `SETTINGS_SERVICE_NAME`. -/
def serviceName : Name := "csrv".toList

/-- `MAX_SETTINGS_KEY_LENGTH`. -/
def maxSettingsKeyLength : ℕ := 24

/-- The full name of a key. -/
def fullName (key : Key) : Name := serviceName ++ '/' :: key.label

/-- `appl_settings_expand_key`, in a buffer of `maxLen` bytes. -/
def expandKey (key : Name) (maxLen : ℕ) : Name :=
  if '/' ∈ key then key
  else if key.length + (serviceName.length + 1) + 1 ≤ maxLen then serviceName ++ '/' :: key
  else key

/-- `settings_name_steq` with the service name: the name is of the handler, and what follows the separator. -/
def handlerName (name : Name) : Option (Option Name) :=
  if serviceName.isPrefixOf name then
    match name.drop serviceName.length with
    | '/' :: rest => some (some rest)
    | '=' :: _ => some none
    | [] => some none
    | _ => none
  else none

/-- The key that a full name is handled as. -/
def handledKey (name : Name) : Option Key :=
  match handlerName name with
  | some (some rest) => keyOf rest
  | _ => none

/-- What is saved for the names. -/
abbrev Saved := Name → Option (List UInt8)

/-- What is not part of the source: `settings_save_one`, which leaves what is saved when it fails, and `hex2bin`
with its result and the bytes it writes. -/
structure Backend where
  save : Saved → Name → List UInt8 → Int × Saved
  save_failed : ∀ saved name value, (save saved name value).1 < 0 → (save saved name value).2 = saved
  hex2bin : Text → ℕ → ℕ × List UInt8

/-- The values of the settings, and what is saved of them. -/
structure Stores (config : Config) where
  runtime : Settings config
  saved : Saved

/-- `SETTINGS_MAX_VAL_LEN`. -/
def settingsMaxValLen : ℕ := 256

variable {config : Config}

/-- `settings_runtime_set`. A name that ends with the service name has no key. -/
def settingsRuntimeSet (settings : Settings config) (name : Name) (value : List UInt8) : Int × Settings config :=
  match handlerName name with
  | none => (einval, settings)
  | some none => (enoent, settings)
  | some (some key) => applSettingsHandleSet settings key value

/-- The value is set, and saved when that was done. -/
def setAndSave (backend : Backend) (stores : Stores config) (name : Name) (value : List UInt8) :
    Int × Stores config :=
  let (res, runtime) := settingsRuntimeSet stores.runtime name value
  if res = 0 then
    let (res, saved) := backend.save stores.saved name value
    (res, { runtime, saved })
  else (res, { stores with runtime })

/-- The bytes of a number, for the keys that are one. -/
def numberWidth (name : Name) : Option ℕ :=
  if name = fullName .bat then some 1
  else if name = fullName .port ∨ name = fullName .sport then some 2
  else none

/-- What `set` makes of a text. -/
def setValue (name : Name) (cur : Text) : List UInt8 :=
  match numberWidth name with
  | some width => numberBytes width (strtol cur).1
  | none => cur.map fun char => UInt8.ofNat char.toNat

/-- What `sethex` makes of a text. -/
def sethexValue (backend : Backend) (cur : Text) : List UInt8 :=
  (backend.hex2bin cur settingsMaxValLen).2.take (backend.hex2bin cur settingsMaxValLen).1

/-- The key of a parameter, as it is written, and the text behind it. -/
def parseValue (parameter : Text) : Name × Text := parseNextText parameter ' ' (maxSettingsKeyLength + 1)

/-- `sh_cmd_settings_set`. -/
def shCmdSettingsSet (backend : Backend) (stores : Stores config) (parameter : Text) : Int × Stores config :=
  let (key, cur) := parseValue parameter
  if key = [] ∨ cur = [] then (einval, stores)
  else
    let name := expandKey key (maxSettingsKeyLength + 1)
    setAndSave backend stores name (setValue name cur)

/-- `sh_cmd_settings_sethex`. -/
def shCmdSettingsSethex (backend : Backend) (stores : Stores config) (parameter : Text) : Int × Stores config :=
  let (key, cur) := parseValue parameter
  if key = [] ∨ cur = [] then (einval, stores)
  else setAndSave backend stores (expandKey key (maxSettingsKeyLength + 1)) (sethexValue backend cur)

/-- The variables of a key are already those of a value. -/
def Holds (settings : Settings config) (value : List UInt8) : Key → Prop
  | .init => settings.initialized = setByte 0 value
  | .prov => settings.provisioning = setByte 0 value
  | .bat => settings.batteryProfile = setByte config.batteryDefault value
  | .port => settings.destinationPort = .load _ value
  | .sport => settings.destinationSecurePort = .load _ value
  | .apn => settings.apn = .load _ value place64
  | .scheme => settings.scheme = .load _ value place12
  | .dest => settings.destination = .load _ value place64
  | .path => settings.coapPath = .load _ value place64
  | .query => settings.coapQuery = .load _ value place64
  | .reboots => settings.rebootCodes = .load _ value
  | .id => settings.deviceId = .load _ value config.identityPlace
  | .unlock => value.take config.keyLen = [] ∨ settings.unlockPassword = .load _ value config.keyPlace
  | .pskId => settings.psk = settings.psk.setId value
  | .pskKey => settings.psk = settings.psk.setKey value
  | .ecPriv =>
    settings.ecdsaPrivKey = .load _ value ∧
      settings.ecdsaPubKey = if (value.take 32).length = 0 then .zero _ else derivePublicKey config (.load _ value)
  | .ecPub => True
  | .ecTrPub => settings.trustedPubKey = .load _ value

/-- The value of the public key cannot be set. -/
theorem setKey_result (settings : Settings config) (value : List UInt8) (key : Key) :
    (setKey settings value key).1 = if key = .ecPub then enoent else 0 := by
  cases key <;> rfl

/-- Setting a value changes nothing when the variables hold it already. -/
theorem setKey_unchanged (settings : Settings config) (value : List UInt8) (key : Key) :
    (setKey settings value key).2 = settings ↔ Holds settings value key := by
  cases settings
  cases key
  case unlock =>
    simp only [setKey, Holds, List.length_eq_zero_iff]
    split
    · next empty => exact iff_of_true rfl (.inl empty)
    · next bytes => simp [bytes, eq_comm]
  all_goals simp [setKey, Holds, eq_comm]

/-- A text is hexadecimal and fits a buffer. -/
def IsHex (text : Text) (size : ℕ) : Prop :=
  (∀ char ∈ text, digitValue char < 16) ∧ (text.length + 1) / 2 ≤ size

instance (text : Text) (size : ℕ) : Decidable (IsHex text size) :=
  @instDecidableAnd _ _ (List.decidableBAll (fun char => digitValue char < 16) text) inferInstance

/-- The bytes of an even number of hexadecimal digits. -/
def hexPairs : Text → List UInt8
  | high :: low :: rest => UInt8.ofNat (digitValue high * 16 + digitValue low) :: hexPairs rest
  | _ => []

/-- A device that saves every value and deletes empty ones. -/
def savingBackend : Backend where
  save saved name value := (0, fun other => if other = name then (if value = [] then none else some value) else saved other)
  save_failed := fun _ _ _ fails => absurd fails (lt_irrefl 0)
  hex2bin text size :=
    if IsHex text size then
      ((text.length + 1) / 2, hexPairs (if text.length % 2 = 1 then '0' :: text else text))
    else (0, [])

/-- A device behind its first boot. -/
def freshStores : Stores (tinydtls fun _ => none) := ⟨boot _, fun _ => none⟩

end CoapsClient.ApplSettings
