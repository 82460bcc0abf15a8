import CoapsClient.Machine.Buffer
import CoapsClient.Model.Dtls.Appl

/-! # The text payload in its buffer

`coap_appl_client_decode_text_payload` separates the lines of a payload in place: it writes a NUL behind each name and
each value, and the commands read them as strings. The payload lies in an array, a position is an index, and an access
outside of the array has no value.
-/

namespace CoapsClient.DtlsClient

open ShCmd (Text)
open Machine (put)

/-- The NUL at the end of a payload. -/
def nul : Char := Char.ofNat 0

/-- The number of characters from a position on that are accepted, up to one that is not. -/
def span (accepts : Char → Bool) (buf : Text) (position : ℕ) : Option ℕ :=
  (buf.drop position).findIdx? fun char => !accepts char

/-- `strcspn`, for a set of characters. -/
def strcspn (buf : Text) (position : ℕ) (reject : Char → Bool) : Option ℕ :=
  span (fun char => char ≠ nul && !reject char) buf position

/-- `strlen`. -/
def strlen (buf : Text) (position : ℕ) : Option ℕ := span (· ≠ nul) buf position

/-- The string at a position. -/
def stringAt (buf : Text) (position : ℕ) : Option Text :=
  (strlen buf position).map fun length => (buf.drop position).take length

/-- What one turn of the loop leaves: the payload, the position behind the line, and those of its name and its value. -/
structure Turn where
  buf : Text
  payload : ℕ
  cur : ℕ
  val : Option ℕ := none
deriving DecidableEq, Repr

/-- The line ends behind a line are skipped. -/
def skipLineEnds (turn : Turn) : Option Turn := do
  let count ← span isLineEnd turn.buf turn.payload
  some { turn with payload := turn.payload + count }

/-- The value behind a separator. -/
def separateValue (turn : Turn) : Option Turn := do
  let pos ← strcspn turn.buf turn.payload isLineEnd
  if pos ≠ 0 then
    let char ← turn.buf[turn.payload + pos]?
    if char ≠ nul then
      let buf ← put turn.buf (turn.payload + pos) nul
      some { turn with buf, payload := turn.payload + pos + 1, val := some turn.payload }
    else some { turn with payload := turn.payload + pos, val := some turn.payload }
  else some turn

/-- One turn of the loop, at a position with a character: its line is separated. -/
def separateLine (buf : Text) (payload : ℕ) : Option Turn := do
  let pos ← strcspn buf payload isSeparator
  if pos ≠ 0 then
    let sep ← buf[payload + pos]?
    if sep ≠ nul then
      let buf ← put buf (payload + pos) nul
      let turn : Turn := { buf, payload := payload + pos + 1, cur := payload }
      let turn ← if isAssign sep then separateValue turn else some turn
      skipLineEnds turn
    else some { buf, payload := payload + pos, cur := payload }
  else
    -- the character is a separator, so that the rest of the payload is not empty
    let pos ← strlen buf payload
    some { buf, payload := payload + pos, cur := payload }

/-- The name and the value of a turn, as the commands read them. -/
def Turn.line (turn : Turn) : Option Line := do
  let name ← stringAt turn.buf turn.cur
  let value ← match turn.val with
    | none => some []
    | some val => stringAt turn.buf val
  some { name, value }

/-- The loop of `coap_appl_client_decode_text_payload`: the payload that it leaves, and the commands. -/
def decodeInPlace : ℕ → Text → ℕ → Option (Text × List Command)
  | 0, _, _ => none
  | fuel + 1, buf, payload => do
    let char ← buf[payload]?
    if char = nul then some (buf, [])
    else
      let turn ← separateLine buf payload
      let line ← turn.line
      let (buf, commands) ← decodeInPlace fuel turn.buf turn.payload
      some (buf, line.command ++ commands)

end CoapsClient.DtlsClient
