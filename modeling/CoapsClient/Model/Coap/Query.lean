import CoapsClient.Machine.Buffer
import CoapsClient.Machine.Region
import CoapsClient.Model.Settings.Reset

/-! # The query of a report

`coap_appl_client_prepare_post` takes the stored query into an array of `MAX_SETTINGS_VALUE_LENGTH` bytes and works on
it there: the `?` in front is added, and the parameter `read` is looked for, and removed when no response is expected.
An access outside of the array has no value. Logs are left out.
-/

namespace CoapsClient.CoapAppl

open Machine (cstring put)
open ApplSettings (Settings Config applSettingsCopy chars strstr)

/-- `MAX_SETTINGS_VALUE_LENGTH`. -/
def maxSettingsValueLength : ℕ := 64

def questionMark : UInt8 := 63
def ampersand : UInt8 := 38
def equalsSign : UInt8 := 61

/-- The name of the parameter. -/
def read : List UInt8 := chars "read"

/-- The string at an index, when it ends in the array. -/
def textAt (value : List UInt8) (index : ℕ) : Option (List UInt8) :=
  if 0 ∈ value.drop index then some (cstring (value.drop index)) else none

/-- The byte in front of an index. -/
def byteBefore (value : List UInt8) (index : ℕ) : Option UInt8 := if 0 < index then value[index - 1]? else none

/-- `memmove`, inside of the array. -/
def memmove (value : List UInt8) (dest source count : ℕ) : Option (List UInt8) :=
  if source + count ≤ value.length ∧ dest + count ≤ value.length then some (Machine.memmove value dest source count)
  else none

/-- `strstr` behind an index. -/
def strstrFrom (value : List UInt8) (cur : ℕ) (part : List UInt8) : Option (Option ℕ) :=
  (textAt value cur).map fun text => (strstr text part).map (cur + ·)

/-- `strchr` behind an index. -/
def strchrFrom (value : List UInt8) (cur : ℕ) (char : UInt8) : Option (Option ℕ) :=
  (textAt value cur).map fun text => (text.findIdx? (· = char)).map (cur + ·)

/-- The leading `?` is added; `err` is the length with the terminating zero. -/
def addQuestionMark (value : List UInt8) (err : ℕ) : Option (List UInt8 × ℕ) := do
  let first ← value[0]?
  if first ≠ questionMark ∧ err < value.length then
    let value ← memmove value 1 0 err
    let value ← put value 0 questionMark
    some (value, err + 1)
  else some (value, err)

/-- The parameter at an index is removed. -/
def removeRead (value : List UInt8) (err read : ℕ) : Option (List UInt8) := do
  match ← strchrFrom value read ampersand with
  | some separator =>
    let tail := separator + 1
    memmove value read tail (err - tail)
  | none => if 0 < read then put value (read - 1) 0 else none

/-- The loop that looks for the parameter: the array that it leaves, and `read_etag`. -/
def readLoop (noResponse : Bool) (err : ℕ) : ℕ → List UInt8 → ℕ → Option (List UInt8 × Bool)
  | 0, _, _ => none
  | fuel + 1, value, cur => do
    match ← strstrFrom value cur read with
    | none => some (value, false)
    | some found =>
      let before ← byteBefore value found
      if before = questionMark ∨ before = ampersand then
        let behind ← value[found + 4]?
        if behind = 0 ∨ behind = ampersand ∨ behind = equalsSign then
          if noResponse then
            let value ← removeRead value err found
            some (value, false)
          else some (value, true)
        else readLoop noResponse err fuel value (found + 4)
      else readLoop noResponse err fuel value (found + 4)

/-- The text that `coap_packet_set_path` takes for the query, if there is one, and `read_etag`. -/
structure Query where
  path : Option (List UInt8) := none
  readEtag : Bool := false
deriving DecidableEq, Repr

variable {config : Config}

/-- `appl_settings_get_coap_query`. -/
def applSettingsGetCoapQuery (settings : Settings config) (len : ℕ) : ApplSettings.Got :=
  applSettingsCopy settings.coapQuery.bytes len

/-- The part of `coap_appl_client_prepare_post` for the query. -/
def prepareQuery (settings : Settings config) (noResponse : Bool) : Option Query := do
  let got := applSettingsGetCoapQuery settings maxSettingsValueLength
  if got.rc ≠ 0 then
    let (value, err) ← addQuestionMark got.value (got.rc + 1).toNat
    let (value, readEtag) ← readLoop noResponse err (value.length + 1) value 0
    let path ← textAt value 0
    some { path, readEtag }
  else some {}

end CoapsClient.CoapAppl
