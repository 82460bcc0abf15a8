import CoapsClient.Model.Update.Client
import CoapsClient.Machine.Numeral

/-! # Responses of the application client

`coap_appl_client_parse_data` up to the commands that the text of a response appends to the command
queue. The time, the ETag and the forward code of a response change nothing here and are left out.
-/

namespace CoapsClient.DtlsClient

open ShCmd (Text stricmp)
open ApplUpdate (Reply ParseResult coapClientMatch codeContent)
open Machine (Numeral Sign ofDigits)

/-- What one line of a text payload adds to the work of the shell. -/
inductive Command where
  /-- `sh_cmd_append`, with its delay. -/
  | cmd (text : Text) (delay : Int)
  /-- `appl_update_coap_cmd`. -/
  | fw (config : Text)
deriving DecidableEq, Repr

def isSpace (char : Char) : Bool := char == ' ' || ('\t' ≤ char && char ≤ '\r')

/-- The sign in front of a number, and the text behind it. -/
def sign : Text → Int × Text
  | '-' :: text => (-1, text)
  | '+' :: text => (1, text)
  | text => (1, text)

def decimal (digits : Text) : ℕ :=
  digits.foldl (fun value digit => value * 10 + (digit.toNat - '0'.toNat)) 0

/-- The range of a `long`. -/
def clampLong (value : Int) : Int := max (-2147483648) (min 2147483647 value)

/-- `parse_next_long` in base 10: the number, or the given one if there is none, and the text behind. -/
def parseNextLong (value : Text) (result : Int) : Int × Text :=
  let (factor, text) := sign (value.dropWhile isSpace)
  let digits := text.takeWhile Char.isDigit
  if digits.isEmpty then (result, value)
  else (clampLong (factor * decimal digits), text.dropWhile Char.isDigit)

section Numerals

variable {rest : Text}

theorem decimal_eq (digits : Text) : decimal digits = ofDigits digits := rfl

theorem isSpace_of_isDigit {char : Char} (digit : char.isDigit = true) : isSpace char = false := by
  simp only [Char.isDigit, isSpace, Bool.and_eq_true, decide_eq_true_eq, ge_iff_le, Char.le_def, UInt32.le_iff_toNat_le,
    Bool.or_eq_false_iff, beq_eq_false_iff_ne, Bool.and_eq_false_iff, decide_eq_false_iff_not, ne_eq] at digit ⊢
  constructor
  · rintro rfl
    revert digit
    decide
  · right
    intro low
    exact absurd (digit.1.trans low) (by decide)

/-- A numeral is not behind white space. -/
theorem dropWhile_isSpace_numeral (numeral : Numeral) :
    (numeral.text ++ rest).dropWhile isSpace = numeral.text ++ rest := by
  obtain ⟨char, tail, starts, first⟩ := numeral.text_cons
  have visible : isSpace char = false := by
    rcases first with digit | rfl | rfl
    · exact isSpace_of_isDigit digit
    · decide
    · decide
  rw [starts, List.cons_append, List.dropWhile_cons_of_neg (by simp [visible])]

/-- The sign of a numeral, before a text that does not begin with one. -/
theorem sign_text (signed : Sign) {digits : Text} (decimal : ∀ digit ∈ digits, digit.isDigit = true)
    (nonempty : digits ≠ []) : sign (signed.text ++ (digits ++ rest)) = (signed.factor, digits ++ rest) := by
  cases signed with
  | plus => rfl
  | minus => rfl
  | none =>
    obtain ⟨digit, digits, rfl⟩ := List.exists_cons_of_ne_nil nonempty
    have number := decimal digit List.mem_cons_self
    change sign (digit :: (digits ++ rest)) = (1, digit :: (digits ++ rest))
    unfold sign
    split
    · simp_all
    · simp_all
    · rfl

/-- The sign that is read is the one in front of the rest. -/
theorem sign_eq (text : Text) : ∃ signed : Sign, text = signed.text ++ (sign text).2 ∧ signed.factor = (sign text).1 := by
  unfold sign
  split
  · exact ⟨.minus, rfl, rfl⟩
  · exact ⟨.plus, rfl, rfl⟩
  · exact ⟨.none, rfl, rfl⟩

end Numerals

def isLineEnd (char : Char) : Bool := char == '\n' || char == '\r'
/-- The characters between a name and its value. -/
def isAssign (char : Char) : Bool := char == ' ' || char == ':' || char == '='
def isSeparator (char : Char) : Bool := isAssign char || isLineEnd char

structure Line where
  name : Text
  value : Text := []
  rest : Text := []
deriving DecidableEq, Repr

/-- One turn of the loop of `coap_appl_client_decode_text_payload`. A text that starts with a
separator is used up as one name. -/
def nextLine (payload : Text) : Line :=
  let name := payload.takeWhile (!isSeparator ·)
  if name.isEmpty then { name := payload }
  else match payload.dropWhile (!isSeparator ·) with
    | [] => { name }
    | sep :: payload =>
        if isAssign sep then
          let value := payload.takeWhile (!isLineEnd ·)
          { name, value, rest := payload.dropWhile (!isLineEnd ·) |>.dropWhile isLineEnd }
        else { name, rest := payload.dropWhile isLineEnd }

def Line.command (line : Line) : List Command :=
  if stricmp line.name "cmd".toList = 0 then
    let (delay, cmd) := parseNextLong line.value 1000
    [.cmd (cmd.dropWhile fun char => char == ' ' || char == '\t') delay]
  else if stricmp line.name "fw".toList = 0 then [.fw line.value]
  else []

/-- The loop of `coap_appl_client_decode_text_payload`, for at most `fuel` lines. -/
def decodeLines : ℕ → Text → List Command
  | 0, _ => []
  | fuel + 1, payload =>
      if payload.isEmpty then []
      else (nextLine payload).command ++ decodeLines fuel (nextLine payload).rest

/-- `coap_appl_client_decode_text_payload`: each turn uses up at least one character. -/
def decodeTextPayload (payload : Text) : List Command := decodeLines payload.length payload

structure Response extends Reply where
  /-- `CUSTOM_COAP_OPTION_READ_RESPONSE_CODE`. -/
  readCode : Option ℕ := none
deriving DecidableEq, Repr

/-- `COAP_RESPONSE_CODE_CHANGED`. -/
def codeChanged : ℕ := 68
/-- `COAP_CONTENT_FORMAT_TEXT_PLAIN`. -/
def formatTextPlain : Int := 0
/-- `sizeof(appl_context.message_buf)`. -/
def messageBufLen : ℕ := 1280

/-- The code that decides about the payload. -/
def Response.payloadCode (reply : Response) : ℕ :=
  if reply.code = codeChanged then (reply.readCode.map (· % 256)).getD reply.code else reply.code

/-- The text in front of the first zero. -/
def payloadText (payload : List UInt8) : Text :=
  (payload.takeWhile (· ≠ 0)).map fun byte => Char.ofNat byte.toNat

/-- The commands in the payload of a response. -/
def Response.commands (reply : Response) : List Command :=
  if reply.payloadCode = codeContent ∧ reply.contentFormat.getD (-1) = formatTextPlain
      ∧ reply.payload.length < messageBufLen then
    decodeTextPayload (payloadText reply.payload)
  else []

/-- `coap_client_prepare_ack`, with whether the ACK could be built. -/
def prepareAck (result : ParseResult) (ack : Bool) : ParseResult :=
  if result = .conResponse then if ack then .conResponse else .response else result

/-- `coap_appl_client_parse_data`: the result and the commands that were appended; a malformed
message has no result. -/
def applParseData (mid token : ℕ) (ack : Bool) : Option Response → Option ParseResult × List Command
  | none => (none, [])
  | some reply =>
      let result := coapClientMatch reply.toReply mid token
      if result.isResponse then (some (prepareAck result ack), reply.commands) else (some result, [])

end CoapsClient.DtlsClient
