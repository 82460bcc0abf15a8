import CoapsClient.Model.Update.Client
import CoapsClient.Machine.Path

/-! # Tokens and message ids

`coap_client.c` with the three CoAP handlers that use it. Each handler has a context with the token and
the message id of its last request; all of them draw the token from one counter, which starts at a
random value. A message is matched against one context at a time, by its bytes.

`requests` records the requests in the order they were prepared; no branch reads it. A request whose
encoding fails behind that has used up its token and is recorded too.
-/

namespace CoapsClient.CoapClient

open ApplUpdate (MessageType ParseResult Reply)

/-- The CoAP handlers. -/
inductive Handler where
  | appl
  | update
  | prov
deriving DecidableEq, Repr

/-- `COAP_CONTEXT`, as far as it is matched. -/
structure Context where
  token : UInt32 := 0
  mid : UInt16 := 0
deriving DecidableEq, Repr

structure Request where
  handler : Handler
  token : UInt32
  mid : UInt16
deriving DecidableEq, Repr

structure Clients where
  tokenFactory : UInt32 := 0
  appl : Context := {}
  update : Context := {}
  prov : Context := {}
  requests : List Request := []
deriving DecidableEq, Repr

def Clients.context (clients : Clients) : Handler → Context
  | .appl => clients.appl
  | .update => clients.update
  | .prov => clients.prov

def Clients.setContext (clients : Clients) (handler : Handler) (context : Context) : Clients :=
  match handler with
  | .appl => { clients with appl := context }
  | .update => { clients with update := context }
  | .prov => { clients with prov := context }

/-- The last request of a handler. -/
def Clients.latest (clients : Clients) (handler : Handler) : Option Request :=
  (clients.requests.filter (·.handler = handler)).getLast?

/-- The bytes of a token in memory, and in a message. -/
def tokenBytes (token : UInt32) : List UInt8 :=
  [token.toUInt8, (token >>> 8).toUInt8, (token >>> 16).toUInt8, (token >>> 24).toUInt8]

/-- The header of a message; the token has the length the header says. -/
structure Packet where
  type : MessageType
  code : UInt8
  mid : UInt16
  token : List UInt8
deriving DecidableEq, Repr

/-- `COAP_CODE_EMPTY`. -/
def codeEmpty : UInt8 := 0

/-- `coap_client_match`. -/
def coapClientMatch (reply : Packet) (expectedMid : UInt16) (expectedToken : UInt32) : ParseResult :=
  if reply.code = codeEmpty then
    if reply.type = .con then .ign
    else if expectedMid = reply.mid then
      match reply.type with
      | .ack => .ack
      | .rst => .rst
      | _ => .ign
    else .none
  else if reply.token.length ≠ (tokenBytes expectedToken).length
      ∨ (tokenBytes expectedToken).take reply.token.length ≠ reply.token then .none
  else if reply.type = .con then .conResponse
  else .response

/-- `coap_client_next_token`. -/
def coapClientNextToken (clients : Clients) : Clients × UInt32 :=
  ({ clients with tokenFactory := clients.tokenFactory + 1 }, clients.tokenFactory)

/-- The token and the message id of a new request; `mid` is what `coap_next_id` returns. -/
def prepare (clients : Clients) (handler : Handler) (mid : UInt16) : Clients :=
  let (clients, token) := coapClientNextToken clients
  let clients := clients.setContext handler { token, mid }
  { clients with requests := clients.requests ++ [{ handler, token, mid }] }

/-- `coap_appl_client_prepare_post`. -/
def coapApplClientPreparePost (clients : Clients) (mid : UInt16) : Clients := prepare clients .appl mid

/-- `coap_prov_client_prepare_post`, with whether there is something to provision. -/
def coapProvClientPreparePost (clients : Clients) (provisioning : Bool) (mid : UInt16) : Clients :=
  if provisioning then prepare clients .prov mid else clients

/-- `appl_update_coap_next`, with whether a request of the download is due. -/
def applUpdateCoapNext (clients : Clients) (requestNext : Bool) (mid : UInt16) : Clients :=
  if requestNext then prepare clients .update mid else clients

inductive Event where
  | applPost (mid : UInt16)
  | provPost (provisioning : Bool) (mid : UInt16)
  | updateNext (requestNext : Bool) (mid : UInt16)
  /-- A message for a handler; its result leaves the contexts alone. -/
  | receive (handler : Handler) (reply : Packet)
deriving DecidableEq, Repr

/-- One step of the handlers. -/
def step (clients : Clients) : Event → Clients
  | .applPost mid => coapApplClientPreparePost clients mid
  | .provPost provisioning mid => coapProvClientPreparePost clients provisioning mid
  | .updateNext requestNext mid => applUpdateCoapNext clients requestNext mid
  | .receive _ _ => clients

def Step (clients : Clients) (event : Event) (next : Clients) : Prop := step clients event = next

/-- The value of the bytes of a token. -/
def tokenValue : List UInt8 → Option ℕ
  | [first, second, third, fourth] =>
      some (first.toNat + 256 * (second.toNat + 256 * (third.toNat + 256 * fourth.toNat)))
  | _ => none

private theorem eight : (8 : UInt32).toNat % 32 = 8 := rfl
private theorem sixteen : (16 : UInt32).toNat % 32 = 16 := rfl
private theorem twentyFour : (24 : UInt32).toNat % 32 = 24 := rfl

private theorem tokenValue_tokenBytes (token : UInt32) : tokenValue (tokenBytes token) = some token.toNat := by
  have word := token.toNat_lt
  simp only [tokenBytes, tokenValue, UInt32.toNat_toUInt8, UInt32.toNat_shiftRight, eight, sixteen,
    twentyFour,
    Nat.shiftRight_eq_div_pow, Option.some.injEq]
  omega

/-- Four bytes with the value of a token are its bytes. -/
private theorem tokenValue_eq_some_iff {bytes : List UInt8} {token : UInt32} :
    tokenValue bytes = some token.toNat ↔ bytes = tokenBytes token := by
  constructor
  · intro value
    match bytes, value with
    | [first, second, third, fourth], value =>
      have value := Option.some.inj value
      have lower := first.toNat_lt
      have middle := second.toNat_lt
      have upper := third.toNat_lt
      have top := fourth.toNat_lt
      simp only [tokenBytes, List.cons.injEq, and_true, ← UInt8.toNat_inj, UInt32.toNat_toUInt8,
        UInt32.toNat_shiftRight, eight, sixteen, twentyFour, Nat.shiftRight_eq_div_pow]
      omega
  · rintro rfl
    exact tokenValue_tokenBytes token

/-- A message matches a token by its length and its bytes. -/
private theorem token_differs_iff {reply : Packet} {token : UInt32} :
    (reply.token.length ≠ (tokenBytes token).length ∨
      (tokenBytes token).take reply.token.length ≠ reply.token) ↔ reply.token ≠ tokenBytes token := by
  constructor
  · rintro differs same
    rw [same, List.take_length] at differs
    simp at differs
  · intro differs
    by_cases length : reply.token.length = (tokenBytes token).length
    · rw [length, List.take_length]
      exact .inr (Ne.symm differs)
    · exact .inl length

/-- The message as the handlers see it. -/
def Packet.reply (packet : Packet) : Reply :=
  { type := packet.type, code := packet.code.toNat, mid := packet.mid.toNat,
    token := tokenValue packet.token }

/-- The match of the handlers is the match of the bytes. -/
theorem coapClientMatch_eq (packet : Packet) (mid : UInt16) (token : UInt32) :
    ApplUpdate.coapClientMatch packet.reply mid.toNat token.toNat = coapClientMatch packet mid token := by
  have code : packet.code.toNat = ApplUpdate.codeEmpty ↔ packet.code = codeEmpty :=
    ⟨fun same => UInt8.toNat_inj.mp same, fun same => congrArg UInt8.toNat same⟩
  have mids : mid.toNat = packet.mid.toNat ↔ mid = packet.mid := UInt16.toNat_inj
  have tokens : tokenValue packet.token ≠ some token.toNat ↔ packet.token ≠ tokenBytes token :=
    not_congr tokenValue_eq_some_iff
  simp only [ApplUpdate.coapClientMatch, Packet.reply, coapClientMatch, code, mids, tokens, token_differs_iff]
  by_cases empty : packet.code = codeEmpty
  · refine (if_pos empty).trans (Eq.trans ?_ (if_pos empty).symm)
    cases packet.type with
    | con => rfl
    | non => rfl
    | ack => rfl
    | rst => rfl
  · simp only [if_neg empty]
    split
    · rfl
    · rfl

end CoapsClient.CoapClient
