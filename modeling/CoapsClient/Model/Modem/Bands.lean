import CoapsClient.Machine.Writer
import CoapsClient.Model.Modem.Coverage

/-! # The bands of the modem

The command `band`. A band is a character of a mask, counted from its end. A store in front of an array has no value,
nor has one behind a buffer. The reset of the PSM and the short inactivity behind a lock are left out.
-/

namespace CoapsClient.ModemBands

open ShCmd (Text stricmp parseNextText)
open DtlsClient (parseNextLong)
open Machine (Writer Numeral put)
open Modem (parseNextQtext)

/-- `bands` of `modem_cmd_band`. -/
def noBands : Text := List.replicate 88 '0'

/-- `bands[sizeof(bands) - band - 1] = '1'` for a positive number; `sizeof` counts the zero at the end. -/
def setBand (bands : Text) (band : Int) : Option Text :=
  if 0 < band then
    let index := (bands.length + 1 : ℕ) - band - 1
    if index < 0 then none else put bands index.toNat '1'
  else some bands

/-- The loop of `modem_cmd_band`: as long as there is a number. The buffer of a number has 5 characters. -/
def readBands : ℕ → Text → Text → Text → Option Text
  | 0, _, _, _ => none
  | fuel + 1, value, cur, bands =>
      let (band, behind) := parseNextLong value 0
      if behind.length < value.length then
        (setBand bands band).bind fun bands =>
          let (value, cur) := parseNextText cur ' ' 5
          readBands fuel value cur bands
      else some bands

/-- What `modem_cmd_band` is asked for. -/
inductive Request where
  | show
  | all
  | lock (bands : Text)
deriving DecidableEq, Repr

/-- The parameters of `modem_cmd_band`. -/
def readRequest (config : Text) : Option Request :=
  let (value, cur) := parseNextText config ' ' 5
  if value.isEmpty then some .show
  else if stricmp value "all".toList = 0 then some .all
  else (readBands (config.length + 1) value cur noBands).map .lock

/-- The text of a band. -/
def bandText (band : ℕ) : Text := (Numeral.ofInt band).text ++ [' ']

/-- The loop of `modem_cmd_print_bands`, over a line with any content. -/
def modemCmdPrintBands (line bands : Text) : Option Writer :=
  (List.range' 1 (bands.length - 1)).foldlM (fun writer band =>
    if bands[bands.length - band]? = some '1' then writer.print (bandText band) else some writer) (.new line)

/-- The command that locks the modem to the bands of a mask. -/
def lockCommand (bands : Text) : Text := "AT%XBANDLOCK=1,\"".toList ++ bands ++ "\"".toList

/-- What the modem answers. -/
structure Answers where
  /-- `modem_at_push_off`. -/
  push : Int := 0
  /-- The answer to `AT%XBANDLOCK?`, or an error. -/
  bandLock : Except Int Text := .error 0
deriving DecidableEq

/-- `modem_cmd_band`: the commands that are sent, with a line of the given content. -/
def modemCmdBand (answers : Answers) (line config : Text) : Option (List Text) :=
  (readRequest config).bind fun
    | .show =>
        match answers.bandLock with
        | .ok (char :: buf) =>
            (modemCmdPrintBands line (parseNextQtext (char :: buf) '"' 128).1).map fun writer =>
              if writer.index = 0 then ["AT%XBANDLOCK?".toList, "AT%XCBAND=?".toList] else ["AT%XBANDLOCK?".toList]
        | _ => some ["AT%XBANDLOCK?".toList]
    | .all => some (if answers.push = 0 then ["AT%XBANDLOCK=0".toList] else [])
    | .lock bands => some (if answers.push = 0 then [lockCommand bands] else [])

end CoapsClient.ModemBands
