import Mathlib.Tactic.Common
import Mathlib.Data.List.Basic
import CoapsClient.Machine.Buffer
import CoapsClient.Machine.Writer

/-! # Command texts and the quotes around them

The string functions of `parse.c` that the shell and the update client use. A text is the characters before the
terminating zero, one for each byte; the index functions return zero for a mismatch, as the C code
does. `tolower` is that of the C locale.

`strtrunc` and `strtrunc2` of `parse.c`, on the characters of a text and the zero behind them. A read or a store outside of
these has no value. Indices are signed, and a size that is negative is one of 32 bits.
-/

namespace CoapsClient.ShCmd

open Machine (put textEnd)

/-- A zero-terminated string. -/
abbrev Text := List Char

/-- `CONFIG_SH_CMD_MAX_LEN`. -/
def maxLen : ℕ := 512
/-- `CONFIG_SH_AT_RESPONSE_MAX_LEN`. -/
def atResponseMaxLen : ℕ := 256

def sameChar (ignoreCase : Bool) (left right : Char) : Bool :=
  if ignoreCase then left.toLower == right.toLower else left == right

/-- The loop of `strstart`: the head is used up. -/
def startsWith (ignoreCase : Bool) : Text → Text → Bool
  | _, [] => true
  | [], _ :: _ => false
  | char :: value, cur :: head => sameChar ignoreCase char cur && startsWith ignoreCase value head

/-- `strstart`. -/
def strstart (value head : Text) (ignoreCase : Bool) : ℕ :=
  if startsWith ignoreCase value head then head.length else 0

/-- `strend`. -/
def strend (value tail : Text) (ignoreCase : Bool) : ℕ :=
  strstart (value.drop (value.length - tail.length)) tail ignoreCase

/-- `strstartsep`. -/
def strstartsep (value head : Text) (ignoreCase : Bool) (separators : Text) : ℕ :=
  let index := strstart value head ignoreCase
  if index = 0 then 0
  else match value[index]? with
    | none => index
    | some sep => if separators.any (sameChar ignoreCase sep) then index + 1 else 0

/-- `stricmp`: zero for texts that are equal but for their case. -/
def stricmp : Text → Text → Int
  | [], [] => 0
  | [], cur :: _ => -cur.toLower.toNat
  | char :: _, [] => char.toLower.toNat
  | char :: value1, cur :: value2 =>
      if char.toLower = cur.toLower then stricmp value1 value2
      else char.toLower.toNat - cur.toLower.toNat

/-- Texts that compare as equal have the same first character. -/
theorem stricmp_cons {char cur : Char} {left right : Text}
    (same : stricmp (char :: left) (cur :: right) = 0) :
    char.toLower = cur.toLower ∧ stricmp left right = 0 := by
  simp only [stricmp] at same
  split at same
  · next equal => exact ⟨equal, same⟩
  · next differs => exact absurd (Char.toNat_inj.mp (by omega)) differs

/-- The characters in front of the letters are their own lower case. -/
theorem toLower_of_lt {char : Char} (low : char.toNat < 65) : char.toLower = char := by
  delta Char.toLower
  split
  · next letter =>
    have least : 65 ≤ char.toNat := letter.1
    omega
  · rfl

/-- `parse_next_text`: the word up to the separator, cut to the buffer, and the text behind it. -/
def parseNextText (value : Text) (sep : Char) (len : ℕ) : Text × Text :=
  let value := if value.head? = some sep then value.tail else value
  ((value.takeWhile (· ≠ sep)).take (len - 1), (value.dropWhile (· ≠ sep)).tail)

/-- `strncpy` into `sh_cmd_buf`, whose last byte stays zero. -/
def copied (text : Text) : Text := text.take (maxLen - 1)

/-- `line_length`: the text without its line ends. -/
def trimmed (text : Text) : Text :=
  (text.reverse.dropWhile fun char => char == '\n' || char == '\r').reverse

/-- What `at_cmd_resp_callback` leaves in `at_response_buf`. -/
def atResponse (response : Text) : Text := trimmed (response.take (atResponseMaxLen - 1))

theorem copied_eq {text : Text} (short : text.length < maxLen) : copied text = text :=
  List.take_of_length_le (by unfold maxLen at *; omega)

/-- `strlen`. -/
def strlen (value : Text) : ℕ := (value.takeWhile (· ≠ textEnd)).length

/-- `value[index]`. -/
def readAt (value : Text) (index : ℤ) : Option Char := if 0 ≤ index then value[index.toNat]? else none

/-- `value[index] = char`. -/
def storeAt (value : Text) (index : ℤ) (char : Char) : Option Text := if 0 ≤ index then put value index.toNat char else none

/-- `memmove(value, value + 1, size)`. -/
def moveDown (value : Text) (size : ℕ) : Option Text :=
  if 1 + size ≤ value.length then some (value.tail.take size ++ value.drop size) else none

/-- The inner block of `strtrunc2`, behind the comparison of the first character. It has an `index` of its own. -/
def truncate (value : Text) (quote2 : Char) : Option Text := do
  let index : ℤ := strlen value
  let last ← readAt value (index - 1)
  if last = quote2 then
    let index := index - 2
    let value ← moveDown value (index % 4294967296).toNat
    storeAt value index textEnd
  else some value

/-- `strtrunc2`: what it returns, and the text behind it. -/
def strtrunc2 (value : Text) (quote1 quote2 : Char) : Option (ℤ × Text) := do
  let index : ℤ := 0
  let first ← readAt value 0
  (if first = quote1 then truncate value quote2 else some value).map fun value => (index, value)

/-- `strtrunc`. -/
def strtrunc (value : Text) (quote : Char) : Option (ℤ × Text) := strtrunc2 value quote quote

end CoapsClient.ShCmd
