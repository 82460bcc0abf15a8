import CoapsClient.Model.Coap.Client
import Mathlib.Algebra.Group.Nat.Defs
import Mathlib.Data.List.Nodup

/-! # Responses belong to the last request

The token of a request is its number in the run, behind the random start of the counter. Until the
counter comes round no two requests of any handler have the same token, so a message that matches the
context of a handler is a response to the last request of that handler and to no other.
-/

namespace CoapsClient.CoapClient

open Machine

/-- What the record says about the counter and the contexts. -/
structure Recorded (random : UInt32) (clients : Clients) : Prop where
  factory : clients.tokenFactory = random + UInt32.ofNat clients.requests.length
  tokens : clients.requests.map Request.token =
    (List.range clients.requests.length).map fun index => random + UInt32.ofNat index
  context : ∀ handler request, clients.latest handler = some request →
    clients.context handler = { token := request.token, mid := request.mid }

variable {random : UInt32} {clients : Clients}

/-- Numbers below the size of the counter count different tokens. -/
private theorem token_inj {random : UInt32} {left right : ℕ} (leftWord : left < 2 ^ 32) (rightWord : right < 2 ^ 32)
    (same : random + UInt32.ofNat left = random + UInt32.ofNat right) : left = right := by
  have equal := congrArg UInt32.toNat same
  simp only [UInt32.toNat_add, UInt32.toNat_ofNat'] at equal
  omega

/-- Before the counter comes round every request has its own token. -/
theorem Recorded.nodup (recorded : Recorded random clients) (few : clients.requests.length < 2 ^ 32) :
    (clients.requests.map Request.token).Nodup := by
  rw [recorded.tokens]
  refine List.Nodup.map_on ?_ List.nodup_range
  intro left leftBound right rightBound same
  rw [List.mem_range] at leftBound rightBound
  exact token_inj (by omega) (by omega) same

private theorem prepare_requests (handler : Handler) (mid : UInt16) :
    (prepare clients handler mid).requests =
      clients.requests ++ [{ handler, token := clients.tokenFactory, mid }] := by
  cases handler <;> rfl

private theorem prepare_tokenFactory (handler : Handler) (mid : UInt16) :
    (prepare clients handler mid).tokenFactory = clients.tokenFactory + 1 := by
  cases handler <;> rfl

private theorem prepare_context (handler other : Handler) (mid : UInt16) :
    (prepare clients handler mid).context other =
      if other = handler then { token := clients.tokenFactory, mid } else clients.context other := by
  cases handler <;> cases other <;> rfl

/-- The last request of a handler is the new one, or what it was. -/
private theorem prepare_latest (handler other : Handler) (mid : UInt16) :
    (prepare clients handler mid).latest other =
      if other = handler then some { handler, token := clients.tokenFactory, mid }
      else clients.latest other := by
  simp only [Clients.latest, prepare_requests, List.filter_append]
  split
  · next same => simp [same]
  · next differs => simp [Ne.symm differs]

theorem Recorded.prepare (recorded : Recorded random clients) (handler : Handler) (mid : UInt16) :
    Recorded random (prepare clients handler mid) := by
  have length : (CoapClient.prepare clients handler mid).requests.length = clients.requests.length + 1 := by
    rw [prepare_requests, List.length_append, List.length_singleton]
  refine ⟨?_, ?_, ?_⟩
  · rw [prepare_tokenFactory, length, recorded.factory, UInt32.ofNat_add, UInt32.add_assoc]
    rfl
  · rw [length, List.range_succ, List.map_append, prepare_requests, List.map_append, recorded.tokens,
      List.map_singleton, List.map_singleton, recorded.factory]
  · intro other request latest
    rw [prepare_latest] at latest
    rw [prepare_context]
    split
    · next same =>
      rw [if_pos same] at latest
      obtain rfl := Option.some.inj latest
      rfl
    · next differs =>
      rw [if_neg differs] at latest
      exact recorded.context other request latest

/-- Every step keeps what the record says. -/
theorem Recorded.step {event : Event} {next : Clients} (recorded : Recorded random clients)
    (moved : Step clients event next) : Recorded random next := by
  subst moved
  cases event with
  | applPost mid => exact recorded.prepare .appl mid
  | provPost provisioning mid =>
    simp only [CoapClient.step, coapProvClientPreparePost]
    split
    · exact recorded.prepare .prov mid
    · exact recorded
  | updateNext requestNext mid =>
    simp only [CoapClient.step, applUpdateCoapNext]
    split
    · exact recorded.prepare .update mid
    · exact recorded
  | receive handler reply => exact recorded

end CoapsClient.CoapClient
