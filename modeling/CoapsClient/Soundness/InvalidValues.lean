import CoapsClient.Model.Settings.Commands

/-! # Invalid values

Neither command looks at how a conversion ended: `set` takes the number in front of the first invalid character and
cuts it to the type of the key, `sethex` takes the empty value. The converted value is set and saved like any other
one, so that an invalid text is refused only where every value is, or where the value was there before and saving it
fails.
-/

namespace CoapsClient.ApplSettings

open ShCmd (Text)

/-- The commands that set a value. -/
inductive ValueCommand where
  | set
  | sethex
deriving DecidableEq, Repr

variable {config : Config}

def ValueCommand.run (command : ValueCommand) (backend : Backend) (stores : Stores config) (parameter : Text) :
    Int × Stores config :=
  match command with
  | set => shCmdSettingsSet backend stores parameter
  | sethex => shCmdSettingsSethex backend stores parameter

/-- The full name of the key of a parameter. -/
def nameOf (parameter : Text) : Name := expandKey (parseValue parameter).1 (maxSettingsKeyLength + 1)

/-- The text of a parameter. -/
def textOf (parameter : Text) : Text := (parseValue parameter).2

/-- The value that a command converts a text to. -/
def ValueCommand.value (backend : Backend) (parameter : Text) : ValueCommand → List UInt8
  | set => setValue (nameOf parameter) (textOf parameter)
  | sethex => sethexValue backend (textOf parameter)

/-- The bytes of a key that is a number. -/
def numericWidth : Key → Option ℕ
  | .bat => some 1
  | .port => some 2
  | .sport => some 2
  | _ => none

/-- A text is a number of so many bytes: all of it is one, and it is in the range. -/
def IsNumber (text : Text) (width : ℕ) : Prop :=
  text ≠ [] ∧ (strtol text).2 = [] ∧ 0 ≤ (strtol text).1 ∧ (strtol text).1 < 256 ^ width

instance (text : Text) (width : ℕ) : Decidable (IsNumber text width) := inferInstanceAs (Decidable (_ ∧ _))

/-- A text is not valid for a command. -/
def ValueCommand.Invalid (parameter : Text) : ValueCommand → Prop
  | set => ∃ key width, handledKey (nameOf parameter) = some key ∧ numericWidth key = some width ∧
      ¬ IsNumber (textOf parameter) width
  | sethex => ¬ IsHex (textOf parameter) settingsMaxValLen

/-- An error is returned, and all values are left as they are. -/
structure Refused (stores : Stores config) (outcome : Int × Stores config) : Prop where
  error : outcome.1 < 0
  runtime : outcome.2.runtime = stores.runtime
  saved : outcome.2.saved = stores.saved

/-- The parameter has no key or no text. -/
def Incomplete (parameter : Text) : Prop := (parseValue parameter).1 = [] ∨ textOf parameter = []

instance (parameter : Text) : Decidable (Incomplete parameter) := inferInstanceAs (Decidable (_ ∨ _))

/-- The key of the parameter is one that can be set. -/
def Settable (parameter : Text) : Prop := ∃ key, handledKey (nameOf parameter) = some key ∧ key ≠ .ecPub

/-- The key has the value, and saving it fails. -/
def KeptAnyway (backend : Backend) (stores : Stores config) (parameter : Text) (value : List UInt8) : Prop :=
  (∀ key, handledKey (nameOf parameter) = some key → Holds stores.runtime value key) ∧
    (backend.save stores.saved (nameOf parameter) value).1 < 0

section Setting

variable (settings : Settings config) {name : Name} (value : List UInt8)

/-- A name that is not handled as a key is refused. -/
private theorem settingsRuntimeSet_unknown (unknown : handledKey name = none) :
    (settingsRuntimeSet settings name value).1 < 0 ∧ (settingsRuntimeSet settings name value).2 = settings := by
  have invalid : einval < 0 := by decide
  have missing : enoent < 0 := by decide
  simp only [handledKey] at unknown
  simp only [settingsRuntimeSet]
  split
  · exact ⟨invalid, rfl⟩
  · exact ⟨missing, rfl⟩
  · next key handled =>
    rw [handled] at unknown
    simp only [applSettingsHandleSet, unknown]
    exact ⟨missing, trivial⟩

private theorem settingsRuntimeSet_known {key : Key} (known : handledKey name = some key) :
    settingsRuntimeSet settings name value = setKey settings value key := by
  simp only [handledKey] at known
  simp only [settingsRuntimeSet]
  split at known
  · next rest handled => simp only [handled, applSettingsHandleSet, known]
  · contradiction

/-- What a value does that reaches the handler: it is refused when its key cannot be set, or when it changes nothing
and cannot be saved. -/
private theorem setAndSave_refused {backend : Backend} {stores : Stores config} :
    Refused stores (setAndSave backend stores name value) ↔
      (¬ ∃ key, handledKey name = some key ∧ key ≠ .ecPub) ∨
        (∀ key, handledKey name = some key → Holds stores.runtime value key) ∧
          (backend.save stores.saved name value).1 < 0 := by
  cases known : handledKey name with
  | none =>
    obtain ⟨error, same⟩ := settingsRuntimeSet_unknown stores.runtime value known
    have notOk : (settingsRuntimeSet stores.runtime name value).1 ≠ 0 := error.ne
    refine iff_of_true ?_ (.inl (by simp))
    simp only [setAndSave, if_neg notOk]
    exact ⟨error, same, rfl⟩
  | some key =>
    have result := setKey_result stores.runtime value key
    simp only [setAndSave, settingsRuntimeSet_known stores.runtime value known]
    by_cases public_key : key = .ecPub
    · subst public_key
      have missing : enoent < 0 := by decide
      exact iff_of_true ⟨missing, rfl, rfl⟩ (.inl (by simp))
    · rw [if_neg public_key] at result
      simp only [result, if_true]
      constructor
      · intro refused
        refine .inr ⟨?_, refused.error⟩
        intro other same
        obtain rfl := Option.some_inj.mp same
        exact (setKey_unchanged ..).mp refused.runtime
      · rintro (unsettable | ⟨holds, fails⟩)
        · exact absurd ⟨key, rfl, public_key⟩ unsettable
        · exact ⟨fails, (setKey_unchanged ..).mpr (holds key rfl), backend.save_failed _ _ _ fails⟩

end Setting

/-- A command refuses its parameter when that has no key or text, when the key cannot be set, or when the converted
value changes nothing and cannot be saved. -/
private theorem refused_iff (command : ValueCommand) (backend : Backend) (stores : Stores config) (parameter : Text) :
    Refused stores (command.run backend stores parameter) ↔
      Incomplete parameter ∨ ¬ Settable parameter ∨
        KeptAnyway backend stores parameter (command.value backend parameter) := by
  have shape : command.run backend stores parameter =
      if Incomplete parameter then (einval, stores)
      else setAndSave backend stores (nameOf parameter) (command.value backend parameter) := by
    cases command <;> rfl
  rw [shape]
  split
  · next incomplete =>
    have invalid : einval < 0 := by decide
    exact iff_of_true ⟨invalid, rfl, rfl⟩ (.inl incomplete)
  · next complete =>
    rw [setAndSave_refused]
    exact ⟨.inr, fun accepted => accepted.resolve_left complete⟩

/-- What is left of a text that is not valid: the number in front of the first invalid character, cut to the type of
the key, or nothing. -/
def ValueCommand.remnant (parameter : Text) : ValueCommand → List UInt8
  | set => setValue (nameOf parameter) (textOf parameter)
  | sethex => []

/-- A text that is not valid is refused exactly when the parameter is incomplete, when the key cannot be set, or when
the key has the value that is left of the text and saving that fails. -/
theorem invalid_refused_iff (command : ValueCommand) (backend : Backend)
    (hex : ∀ text size, ¬ IsHex text size → (backend.hex2bin text size).1 = 0) (stores : Stores config)
    (parameter : Text) (invalid : command.Invalid parameter) :
    Refused stores (command.run backend stores parameter) ↔
      Incomplete parameter ∨ ¬ Settable parameter ∨
        KeptAnyway backend stores parameter (command.remnant parameter) := by
  have left : command.value backend parameter = command.remnant parameter := by
    cases command with
    | set => rfl
    | sethex => simp only [ValueCommand.value, sethexValue, hex _ _ invalid, List.take_zero, ValueCommand.remnant]
  rw [refused_iff, left]

/-- A text that is not hexadecimal is refused for a key that is not known. -/
theorem unknown_key_refused :
    Refused freshStores (ValueCommand.sethex.run savingBackend freshStores "token 0xyz".toList) := by
  have invalid : ¬ IsHex (textOf "token 0xyz".toList) settingsMaxValLen := by decide
  refine (invalid_refused_iff .sethex savingBackend ?_ freshStores "token 0xyz".toList invalid).mpr (.inr (.inl ?_))
  · intro text size invalid
    exact congrArg Prod.fst (if_neg invalid)
  · rintro ⟨key, known, _⟩
    have unknown : handledKey (nameOf "token 0xyz".toList) = none := by decide
    exact absurd (unknown.symm.trans known) (by simp)

/-- A port that is no number becomes port zero, one that is too large another one, and a key that is not hexadecimal
is emptied; all is saved and no error is returned. -/
theorem invalid_values_set :
    (ValueCommand.set.Invalid "port coaps".toList ∧
      (ValueCommand.set.run savingBackend freshStores "port coaps".toList).1 = 0 ∧
      (ValueCommand.set.run savingBackend freshStores "port coaps".toList).2.runtime.destinationPort.bytes = [0, 0] ∧
      (ValueCommand.set.run savingBackend freshStores "port coaps".toList).2.saved (fullName .port) = some [0, 0]) ∧
    (ValueCommand.set.Invalid "sport 70000".toList ∧
      (ValueCommand.set.run savingBackend freshStores "sport 70000".toList).1 = 0 ∧
      (ValueCommand.set.run savingBackend freshStores "sport 70000".toList).2.runtime.destinationSecurePort.bytes =
        [0x70, 0x11]) ∧
    (let stores := (ValueCommand.sethex.run savingBackend freshStores "psk_key 0102".toList).2
    ValueCommand.sethex.Invalid "psk_key 0x03".toList ∧ stores.runtime.psk.keyLength = 2 ∧
      (ValueCommand.sethex.run savingBackend stores "psk_key 0x03".toList).1 = 0 ∧
      (ValueCommand.sethex.run savingBackend stores "psk_key 0x03".toList).2.runtime.psk.keyLength = 0 ∧
      (ValueCommand.sethex.run savingBackend stores "psk_key 0x03".toList).2.saved (fullName .pskKey) = none) := by
  have notHex : ¬ IsHex (textOf "psk_key 0x03".toList) settingsMaxValLen := by decide
  refine ⟨⟨⟨.port, 2, ?_⟩, ?_⟩, ⟨⟨.sport, 2, ?_⟩, ?_⟩, notHex, ?_⟩
  all_goals decide +kernel

end CoapsClient.ApplSettings
