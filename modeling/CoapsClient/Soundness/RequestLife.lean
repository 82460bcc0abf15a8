import CoapsClient.Model.Dtls.Steps

/-! # The life of a request

A `Ledger` says what the record of a run may look like: when a completion may follow, and whether a
request may go on after it was cancelled. A client keeps the ledger as long as it completes requests
only while one is pending. The peer decides about that: a response that comes too late, an alert or the
end of a handshake that no request waits for complete a request that is over. `Orderly` excludes them.
-/

namespace CoapsClient.DtlsClient

open ApplUpdate (ParseResult)

/-- A request starts. -/
def Mark.starts : Mark → Bool
  | .start => true
  | _ => false

/-- The request is completed. -/
def Mark.completes : Mark → Bool
  | .success => true
  | .failure => true
  | _ => false

/-- What is asked of the record of a run. -/
structure Ledger where
  good : List Mark → Prop
  /-- The request may be completed. -/
  ready : List Mark → Prop
  /-- A request may go on without a message. -/
  resumes : Bool
  good_snoc : ∀ {marks mark}, good marks → (mark.completes → ready marks) → good (marks ++ [mark])
  ready_start : ∀ {marks}, ready (marks ++ [.start])
  ready_snoc : ∀ {marks mark}, ready marks → ¬ mark.completes → (mark = .cancel → resumes) →
    ready (marks ++ [mark])

/-- A request that is cancelled finds the network disconnected, if the ledger lets none go on. -/
def Ledger.Silences (ledger : Ledger) (env : Env) (connected : Bool) : Prop :=
  ledger.resumes = false → env.sending.messageLen = 0 → connected = false

/-- The client keeps the ledger. Between the end of a handshake and the request that waits for it,
the client is `late`. -/
structure Disciplined (ledger : Ledger) (late : Bool) (client : Client) : Prop where
  good : ledger.good client.marks
  ready : client.requestState.pending → ledger.ready client.marks
  incoming : client.requestState = .incomingData → ledger.resumes = false → ledger.ready client.marks
  flight : client.dtlsFlight ≠ 0 → client.dtlsPending ∧ client.requestState.pending
  next : client.dtlsNextFlight → client.dtlsFlight ≠ 0
  waiting : client.sendRequestPending →
    client.dtlsPending ∨ (late ∧ client.requestState = .none ∧ ledger.ready client.marks)

/-- The fields a ledger is about. -/
structure View where
  marks : List Mark
  requestState : RequestState
  dtlsFlight : ℕ
  dtlsNextFlight : Bool
  dtlsPending : Bool
  sendRequestPending : Bool
deriving DecidableEq

def Client.view (client : Client) : View where
  marks := client.marks
  requestState := client.requestState
  dtlsFlight := client.dtlsFlight
  dtlsNextFlight := client.dtlsNextFlight
  dtlsPending := client.dtlsPending
  sendRequestPending := client.sendRequestPending

/-- The fields that no record the client writes changes. -/
structure Link where
  requestState : RequestState
  dtlsPending : Bool
  lteConnected : Bool
  noResponse : Bool
  socket : Bool
deriving DecidableEq

def Client.link (client : Client) : Link where
  requestState := client.requestState
  dtlsPending := client.dtlsPending
  lteConnected := client.lteConnected
  noResponse := client.noResponse
  socket := client.socket

section Link

variable {env : Env} {client : Client}

private theorem sendToPeer_link (len : ℕ) (sendto : Sendto) :
    (sendToPeer env client len sendto).1.link = client.link := by
  unfold sendToPeer networkAdjustInitialTimeout startFlight
  cases sendto with
  | sent =>
    dsimp only
    repeat' split
    all_goals rfl
  | limited => rfl
  | failed => rfl

private theorem dtlsSendToPeer_link (record : Record) :
    (dtlsSendToPeer env client record).1.link = client.link := by
  unfold dtlsSendToPeer
  split
  · have flushed : (if maxDtlsBuf < client.dtlsBufferLen + record.len then
        { (sendToPeer env client client.dtlsBufferLen record.sendto).1 with dtlsBufferLen := 0 }
        else client).link = client.link := by
      split
      · exact sendToPeer_link _ _
      · rfl
    dsimp only
    split
    · exact (sendToPeer_link _ _).trans flushed
    · exact flushed
  · exact sendToPeer_link _ _

private theorem writeRecords_link (records : List Record) :
    (writeRecords env client records).link = client.link := by
  unfold writeRecords
  induction records generalizing client with
  | nil => rfl
  | cons record records ih => exact ih.trans (dtlsSendToPeer_link record)

/-- No flight is going on. -/
def Client.Landed (client : Client) : Prop := client.dtlsFlight = 0 ∧ client.dtlsNextFlight = false

private theorem sendToPeer_landed (landed : client.Landed) (len : ℕ) (sendto : Sendto) :
    (sendToPeer env client len sendto).1.Landed := by
  unfold sendToPeer networkAdjustInitialTimeout startFlight
  cases sendto with
  | sent =>
    simp only [landed.2, Bool.false_eq_true, if_false]
    split
    · split <;> exact ⟨landed.1, rfl⟩
    · exact ⟨landed.1, rfl⟩
  | limited => exact landed
  | failed => exact landed

private theorem dtlsSendToPeer_landed (landed : client.Landed) (record : Record) :
    (dtlsSendToPeer env client record).1.Landed := by
  unfold dtlsSendToPeer
  rw [if_neg (by rw [landed.1]; decide)]
  exact sendToPeer_landed landed _ _

private theorem writeRecords_landed (landed : client.Landed) (records : List Record) :
    (writeRecords env client records).Landed := by
  unfold writeRecords
  induction records generalizing client with
  | nil => exact landed
  | cons record records ih => exact ih (dtlsSendToPeer_landed landed record)

private theorem librarySend_link :
    { (librarySend env client).link with dtlsPending := client.dtlsPending } = client.link := by
  unfold librarySend
  rw [writeRecords_link]
  unfold dtlsConnectEvent
  repeat' split
  all_goals rfl

private theorem librarySend_landed (landed : client.Landed) : (librarySend env client).Landed := by
  unfold librarySend
  refine writeRecords_landed ?_ _
  unfold dtlsConnectEvent
  repeat' split
  all_goals exact landed

end Link

namespace Disciplined

variable {ledger : Ledger} {late : Bool} {config : Config} {env : Env} {client next : Client}

theorem of_view (kept : Disciplined ledger late client) (same : next.view = client.view) :
    Disciplined ledger late next := by
  have marks : next.marks = client.marks := congrArg View.marks same
  have state : next.requestState = client.requestState := congrArg View.requestState same
  have flight : next.dtlsFlight = client.dtlsFlight := congrArg View.dtlsFlight same
  have nextFlight : next.dtlsNextFlight = client.dtlsNextFlight := congrArg View.dtlsNextFlight same
  have pending : next.dtlsPending = client.dtlsPending := congrArg View.dtlsPending same
  have waits : next.sendRequestPending = client.sendRequestPending :=
    congrArg View.sendRequestPending same
  constructor
  · rw [marks]
    exact kept.good
  · rw [state, marks]
    exact kept.ready
  · rw [state, marks]
    exact kept.incoming
  · rw [flight, pending, state]
    exact kept.flight
  · rw [nextFlight, flight]
    exact kept.next
  · rw [waits, pending, state, marks]
    exact kept.waiting

/-- A client that is not late waits for a handshake only while there is one. -/
theorem waits (kept : Disciplined ledger false client) : client.sendRequestPending → client.dtlsPending :=
  fun waiting => (kept.waiting waiting).resolve_right fun isLate => absurd isLate.1 (by simp)

/-- A client with another state than `NONE` is not late. -/
private theorem punctual (kept : Disciplined ledger late client) (started : client.requestState ≠ .none) :
    Disciplined ledger false client :=
  { kept with
    waiting := fun waiting => .inl ((kept.waiting waiting).resolve_right fun isLate => started isLate.2.1) }

theorem weaken (kept : Disciplined ledger false client) : Disciplined ledger late client :=
  { kept with waiting := fun waiting => .inl (kept.waits waiting) }

/-- The client is in no handshake while no request is pending. -/
theorem flight_eq_zero (kept : Disciplined ledger late client) (idle : client.requestState.pending = false) :
    client.dtlsFlight = 0 := by
  by_contra flying
  simp [(kept.flight flying).2] at idle

private theorem coapNext_view (client : Client) (interval : ℕ) :
    (coapNext client interval).view = { client.view with
      requestState := if client.ltePowerOff || client.ltePowerOnOff then .none else .waitSuspend } := by
  unfold coapNext scheduleNext setNextSendInterval
  dsimp only
  repeat' split
  all_goals rfl

/-- `dtls_coap_next` leaves no pending request, and no handshake if there was none. -/
private theorem coapNext_disciplined (interval : ℕ) (good : ledger.good client.marks)
    (flight : client.dtlsFlight = 0) (nextFlight : client.dtlsNextFlight = false)
    (waits : client.sendRequestPending → client.dtlsPending) :
    Disciplined ledger late (coapNext client interval) := by
  have view := coapNext_view client interval
  have marks : (coapNext client interval).marks = client.marks := congrArg View.marks view
  have state : (coapNext client interval).requestState =
      if client.ltePowerOff || client.ltePowerOnOff then .none else .waitSuspend :=
    congrArg View.requestState view
  have sameFlight : (coapNext client interval).dtlsFlight = client.dtlsFlight :=
    congrArg View.dtlsFlight view
  have sameNext : (coapNext client interval).dtlsNextFlight = client.dtlsNextFlight :=
    congrArg View.dtlsNextFlight view
  have pending : (coapNext client interval).dtlsPending = client.dtlsPending :=
    congrArg View.dtlsPending view
  have request : (coapNext client interval).sendRequestPending = client.sendRequestPending :=
    congrArg View.sendRequestPending view
  constructor
  · rw [marks]
    exact good
  · rw [state]
    split <;> simp [RequestState.pending]
  · rw [state]
    split <;> simp
  · simp [sameFlight, flight]
  · simp [sameNext, nextFlight]
  · rw [request, pending]
    exact fun waiting => .inl (waits waiting)

private theorem resultHandler_view (config : Config) (env : Env) (client : Client) (success : Bool) :
    { (resultHandler config env client success).1.view with dtlsPending := client.dtlsPending } =
      client.view := by
  unfold resultHandler
  cases client.handler with
  | none => rfl
  | appl => rfl
  | prov =>
    dsimp only
    split <;> rfl
  | update =>
    dsimp only
    repeat' split
    all_goals rfl

private theorem resultHandler_failure (config : Config) (env : Env) (client : Client) :
    (resultHandler config env client false).1.view = client.view := by
  unfold resultHandler
  cases client.handler <;> rfl

private theorem resultHandler_dtlsPending (success : Bool) (pending : client.dtlsPending = true) :
    (resultHandler config env client success).1.dtlsPending = true := by
  unfold resultHandler
  cases client.handler with
  | none => exact pending
  | appl => exact pending
  | prov =>
    dsimp only
    split
    · simp [setDtlsPending, pending]
    · exact pending
  | update =>
    dsimp only
    repeat' split
    all_goals exact pending

private theorem nextFlight_eq_false (kept : Disciplined ledger late client) (flight : client.dtlsFlight = 0) :
    client.dtlsNextFlight = false := by
  by_contra flying
  exact kept.next (by simpa using flying) flight

private theorem coapSuccess_disciplined (kept : Disciplined ledger false client)
    (ready : ledger.ready client.marks) (flight : client.dtlsFlight = 0) :
    Disciplined ledger false (coapSuccess config env client) := by
  have good : ledger.good (client.marks ++ [.success]) := ledger.good_snoc kept.good fun _ => ready
  unfold coapSuccess
  dsimp only
  generalize marked : { clearFailures (client.mark .success) with initialSuccess := true } = success
  have view := resultHandler_view config env success true
  have raised : success.dtlsPending = true → (resultHandler config env success true).1.dtlsPending = true :=
    resultHandler_dtlsPending true
  generalize (resultHandler config env success true).1 = handled at view raised ⊢
  have marks : handled.marks = success.marks := congrArg View.marks view
  have sameFlight : handled.dtlsFlight = success.dtlsFlight := congrArg View.dtlsFlight view
  have sameNext : handled.dtlsNextFlight = success.dtlsNextFlight := congrArg View.dtlsNextFlight view
  have request : handled.sendRequestPending = success.sendRequestPending :=
    congrArg View.sendRequestPending view
  subst marked
  apply coapNext_disciplined
  · exact marks ▸ good
  · exact sameFlight.trans flight
  · exact sameNext.trans (kept.nextFlight_eq_false flight)
  · intro waiting
    exact raised (kept.waits (request.symm.trans waiting))

theorem coapFailure_disciplined (kept : Disciplined ledger false client)
    (ready : ledger.ready client.marks) :
    Disciplined ledger false (coapFailure config env client) := by
  have good : ledger.good (client.marks ++ [.failure]) := ledger.good_snoc kept.good fun _ => ready
  unfold coapFailure
  have counted : (if (client.mark .failure).initialSuccess then incFailures (client.mark .failure)
      else client.mark .failure).view = (client.mark .failure).view := by
    unfold incFailures
    repeat' split
    all_goals rfl
  dsimp only
  generalize (if (client.mark .failure).initialSuccess then incFailures (client.mark .failure)
      else client.mark .failure) = failed at counted ⊢
  have view := (resultHandler_failure config env failed).trans counted
  generalize (resultHandler config env failed false).1 = handled at view ⊢
  have marks : handled.marks = client.marks ++ [.failure] := congrArg View.marks view
  have flight : handled.dtlsFlight = client.dtlsFlight := congrArg View.dtlsFlight view
  have pending : handled.dtlsPending = client.dtlsPending := congrArg View.dtlsPending view
  have request : handled.sendRequestPending = client.sendRequestPending :=
    congrArg View.sendRequestPending view
  have nextFlight : handled.dtlsNextFlight = client.dtlsNextFlight := congrArg View.dtlsNextFlight view
  rw [← marks] at good
  have waits := kept.waits
  rw [← request, ← pending] at waits
  split
  · exact coapNext_disciplined _ good rfl rfl waits
  · rename_i connected
    have landed : client.dtlsFlight = 0 := by
      by_contra flying
      exact connected (pending.trans (kept.flight flying).1)
    exact coapNext_disciplined _ good (flight.trans landed)
      (nextFlight.trans (kept.nextFlight_eq_false landed)) waits

theorem setRequestState_eq {state : RequestState} (other : state ≠ .receive) :
    setRequestState config env client state = { client with requestState := state } := by
  unfold setRequestState
  split
  · rename_i same
    rw [← same]
  · rw [if_neg (by simp [other])]

/-- The next state belongs to the request that may still be completed. -/
theorem setPending (kept : Disciplined ledger false client) (ready : ledger.ready client.marks)
    {state : RequestState} (pending : state.pending = true) :
    Disciplined ledger false { client with requestState := state } where
  good := kept.good
  ready := fun _ => ready
  incoming := by
    rintro rfl
    simp [RequestState.pending] at pending
  flight := fun flying => ⟨(kept.flight flying).1, pending⟩
  next := kept.next
  waiting := fun waiting => .inl (kept.waits waiting)

/-- The next state belongs to no request. -/
theorem setIdle (kept : Disciplined ledger false client) (flight : client.dtlsFlight = 0)
    {state : RequestState} (idle : state = .none ∨ state = .waitSuspend) :
    Disciplined ledger false { client with requestState := state } where
  good := kept.good
  ready := by rcases idle with rfl | rfl <;> simp [RequestState.pending]
  incoming := by rcases idle with rfl | rfl <;> simp
  flight := fun flying => absurd flight flying
  next := kept.next
  waiting := fun waiting => .inl (kept.waits waiting)

/-- `RECEIVE` completes a request without a response. -/
theorem setReceive (kept : Disciplined ledger false client) (ready : ledger.ready client.marks) :
    Disciplined ledger false (setRequestState config env client .receive) := by
  unfold setRequestState
  split
  · exact kept
  · split
    · rename_i completes
      exact kept.coapSuccess_disciplined ready completes.2.2
    · exact kept.setPending ready rfl

theorem mark (kept : Disciplined ledger late client) {mark : Mark} (plain : ¬ mark.completes)
    (other : mark ≠ .cancel) : Disciplined ledger late (client.mark mark) where
  good := ledger.good_snoc kept.good fun completes => absurd completes plain
  ready := fun pending => ledger.ready_snoc (kept.ready pending) plain fun same => absurd same other
  incoming := fun expected silent =>
    ledger.ready_snoc (kept.incoming expected silent) plain fun same => absurd same other
  flight := kept.flight
  next := kept.next
  waiting := fun waiting => (kept.waiting waiting).imp_right fun ⟨isLate, idle, ready⟩ =>
    ⟨isLate, idle, ledger.ready_snoc ready plain fun same => absurd same other⟩

private theorem startFlight_disciplined (kept : Disciplined ledger late client) :
    Disciplined ledger late (startFlight client) := by
  unfold startFlight
  split
  · rename_i flying
    exact {
      good := kept.good
      ready := kept.ready
      incoming := kept.incoming
      flight := fun _ => kept.flight (kept.next flying)
      next := by simp
      waiting := kept.waiting }
  · exact kept

private theorem sendToPeer_disciplined (kept : Disciplined ledger late client) (len : ℕ) (sendto : Sendto) :
    Disciplined ledger late (sendToPeer env client len sendto).1 := by
  unfold sendToPeer
  cases sendto with
  | failed => exact kept.of_view rfl
  | limited => exact kept.of_view rfl
  | sent =>
    have sent : Disciplined ledger late (startFlight { client with
        lteConnectedToSend := false, lteSend := !client.lteConnected }) :=
      startFlight_disciplined (kept.of_view rfl)
    dsimp only
    split
    · unfold networkAdjustInitialTimeout
      dsimp only
      rw [if_pos (.inl rfl)]
      exact sent.of_view rfl
    · exact sent

private theorem dtlsSendToPeer_disciplined (kept : Disciplined ledger late client) (record : Record) :
    Disciplined ledger late (dtlsSendToPeer env client record).1 := by
  unfold dtlsSendToPeer
  split
  · have flushed : Disciplined ledger late (if maxDtlsBuf < client.dtlsBufferLen + record.len then
        { (sendToPeer env client client.dtlsBufferLen record.sendto).1 with dtlsBufferLen := 0 }
        else client) := by
      split
      · exact (kept.sendToPeer_disciplined _ _).of_view rfl
      · exact kept
    dsimp only
    split
    · refine sendToPeer_disciplined ?_ _ _
      exact flushed.of_view rfl
    · exact flushed.of_view rfl
  · exact kept.sendToPeer_disciplined _ _

private theorem writeRecords_disciplined (kept : Disciplined ledger late client) (records : List Record) :
    Disciplined ledger late (writeRecords env client records) := by
  unfold writeRecords
  induction records generalizing client with
  | nil => exact kept
  | cons record records ih => exact ih (kept.dtlsSendToPeer_disciplined record)

private theorem dtlsConnectEvent_disciplined (kept : Disciplined ledger late client) :
    Disciplined ledger late (dtlsConnectEvent client) := by
  unfold dtlsConnectEvent
  split
  · exact kept
  · exact {
      good := kept.good
      ready := kept.ready
      incoming := kept.incoming
      flight := fun flying => ⟨rfl, (kept.flight flying).2⟩
      next := kept.next
      waiting := fun _ => .inl rfl }

private theorem librarySend_disciplined (kept : Disciplined ledger late client) :
    Disciplined ledger late (librarySend env client) := by
  unfold librarySend
  refine writeRecords_disciplined ?_ _
  split
  · exact kept.dtlsConnectEvent_disciplined
  · exact kept

private theorem resendFlight_core : (resendFlight config env client).1.core = client.core := by
  unfold resendFlight
  have written : (writeRecords env { client with dtlsNextFlight := false } env.sending.records).core =
      client.core := writeRecords_core _
  dsimp only
  split
  · exact written
  · rw [setRequestState_eq (by simp)]
    exact (sendToPeer_core _ _).trans written

private theorem startHandshake_core : (startHandshake config env client).1.core = client.core := by
  unfold startHandshake
  have closed : (writeRecords env client env.sending.closing).core = client.core := writeRecords_core _
  dsimp only
  rw [setRequestState_eq (by simp)]
  exact librarySend_core.trans closed

private theorem resendFlight_disciplined (kept : Disciplined ledger false client)
    (ready : ledger.ready client.marks) : Disciplined ledger false (resendFlight config env client).1 := by
  unfold resendFlight
  have landed : Disciplined ledger false { client with dtlsNextFlight := false } :=
    { kept with next := by simp }
  have written : Disciplined ledger false
      (writeRecords env { client with dtlsNextFlight := false } env.sending.records) :=
    landed.writeRecords_disciplined _
  have core : (writeRecords env { client with dtlsNextFlight := false } env.sending.records).core =
      client.core := writeRecords_core _
  have marks : (writeRecords env { client with dtlsNextFlight := false } env.sending.records).marks =
      client.marks := congrArg Core.marks core
  rw [← marks] at ready
  dsimp only
  split
  · exact written
  · rw [setRequestState_eq (by simp)]
    exact (sendToPeer_disciplined (written.setPending ready rfl) _ _).of_view rfl

private theorem startHandshake_disciplined (kept : Disciplined ledger false client)
    (ready : ledger.ready client.marks) (pending : client.dtlsPending = true) :
    Disciplined ledger false (startHandshake config env client).1 := by
  unfold startHandshake
  have closed : Disciplined ledger false (writeRecords env client env.sending.closing) :=
    kept.writeRecords_disciplined _
  have marks : (writeRecords env client env.sending.closing).marks = client.marks :=
    congrArg Core.marks (writeRecords_core _)
  rw [← marks] at ready
  have same : (writeRecords env client env.sending.closing).dtlsPending = client.dtlsPending :=
    congrArg Link.dtlsPending (writeRecords_link _)
  rw [← same] at pending
  dsimp only
  rw [setRequestState_eq (by simp)]
  refine librarySend_disciplined ?_
  exact {
    good := closed.good
    ready := fun _ => ready
    incoming := by simp
    flight := fun _ => ⟨pending, rfl⟩
    next := by simp
    waiting := fun _ => .inl pending }

theorem checkSocket_view (socketError : Bool) : (checkSocket client socketError).1.view = client.view := by
  unfold checkSocket
  split <;> rfl

/-- The end of `sendto_peer`, unless the request was cancelled while the network is connected. -/
private theorem sentToPeer_disciplined (kept : Disciplined ledger false client) (result : Int)
    (going : ledger.ready client.marks ∨ (0 ≤ result ∧ client.lteConnected = false)) :
    Disciplined ledger false (sentToPeer config env client result) := by
  unfold sentToPeer
  split
  · rename_i failed
    have ready := going.resolve_right fun silent => by omega
    have view : (checkSocket client env.sending.socketError).1.view = client.view := checkSocket_view _
    have marks : (checkSocket client env.sending.socketError).1.marks = client.marks :=
      congrArg View.marks view
    rw [← marks] at ready
    dsimp only
    split
    · exact kept.of_view view
    · exact (kept.of_view view).coapFailure_disciplined ready
  · split
    · rename_i connected
      exact kept.setReceive (going.resolve_right fun silent => by simp [silent.2] at connected)
    · exact kept

/-- A cancelled request. -/
theorem cancelled (kept : Disciplined ledger false client) (flight : client.dtlsFlight = 0) :
    Disciplined ledger false { client.mark .cancel with requestState := .waitSuspend } where
  good := ledger.good_snoc kept.good (by simp [Mark.completes])
  ready := by simp [RequestState.pending]
  incoming := by simp
  flight := fun flying => absurd flight flying
  next := kept.next
  waiting := fun waiting => .inl (kept.waits waiting)

/-- Only the handler has nothing to send; an ACK is never empty. -/
private theorem messageLen_eq_zero (empty : getMessage env client = 0) : env.sending.messageLen = 0 := by
  unfold getMessage at empty
  split at empty
  · simp [ackLen] at empty
  · exact empty

/-- `sendto_peer` for a request that may still be completed. -/
theorem sendtoPeer_disciplined (kept : Disciplined ledger false client)
    (ready : ledger.ready client.marks)
    (silent : ledger.Silences env client.lteConnected) :
    Disciplined ledger false (sendtoPeer config env client) := by
  unfold sendtoPeer transmit
  dsimp only
  split
  · rename_i pending
    split
    · have marks : (resendFlight config env client).1.marks = client.marks :=
        congrArg Core.marks resendFlight_core
      exact sentToPeer_disciplined (kept.resendFlight_disciplined ready) _ (.inl (marks ▸ ready))
    · have marks : (startHandshake config env client).1.marks = client.marks :=
        congrArg Core.marks startHandshake_core
      exact sentToPeer_disciplined (kept.startHandshake_disciplined ready pending) _ (.inl (marks ▸ ready))
  · rename_i connected
    have landed : client.dtlsFlight = 0 := by
      by_contra flying
      exact connected (kept.flight flying).1
    unfold sendMessage
    split
    · rename_i empty
      rw [setRequestState_eq (by simp)]
      refine sentToPeer_disciplined ?_ _ ?_
      · exact kept.cancelled landed
      · cases resumes : ledger.resumes with
        | true => exact .inl (ledger.ready_snoc ready (by simp [Mark.completes]) fun _ => resumes)
        | false => exact .inr ⟨Int.le_refl 0, silent resumes (messageLen_eq_zero empty)⟩
    · split
      · have marks : (librarySend env client).marks = client.marks :=
          congrArg Core.marks librarySend_core
        exact sentToPeer_disciplined kept.librarySend_disciplined _ (.inl (marks ▸ ready))
      · have marks : (sendToPeer env client (getMessage env client) env.sending.sendto).1.marks =
            client.marks := congrArg Core.marks (sendToPeer_core _ _)
        exact sentToPeer_disciplined (kept.sendToPeer_disciplined _ _) _ (.inl (marks ▸ ready))

end Disciplined

/-- A result of `parse_data` that completes no request that is over: a response is handed over in no
handshake, and one that asks for an ACK does not come too late. -/
def orderlyResult (state : RequestState) (flight : ℕ) : Option ParseResult → Bool
  | some .response => !state.pending || flight == 0
  | some .conResponse => state == .none || (state.pending && flight == 0)
  | _ => true

/-- A call of the library that completes no request that is over: an alert and the end of a handshake
find a pending request. -/
def orderlyCall (client : Client) : Callback → Bool
  | .read message =>
      orderlyResult client.requestState client.dtlsFlight (parseData client message).2
  | .alert => client.reboots || client.requestState.pending
  | .connected => client.reboots || client.requestState.pending
  | _ => true

/-- Sending the ACK does not complete the request that `dtls_loop` completes behind it. -/
def orderlyAck (config : Config) (env : Env) (client : Client) : Bool :=
  !client.dtlsPending && !(client.lteConnected && client.noResponse) &&
    (decide (0 ≤ (transmit config env { client with sendsAck := true }).2) || !client.socket ||
      env.sending.socketError)

namespace Disciplined

variable {ledger : Ledger} {late : Bool} {config : Config} {env : Env} {client next : Client}

private theorem parseData_disciplined (kept : Disciplined ledger late client) (message : Message) :
    Disciplined ledger late (parseData client message).1 := by
  unfold parseData
  split
  · generalize applParseData client.applMid client.applToken message.ack message.packet = result
    have answered : Disciplined ledger late (if (result.1.map ParseResult.isResponse).getD false
        then client.mark (.response client.applToken) else client) := by
      split
      · exact kept.mark (by simp [Mark.completes]) (by simp)
      · exact kept
    dsimp only
    split
    · exact answered
    · exact answered.mark (by simp [Mark.completes]) (by simp)
  · exact kept

private theorem parseData_view (client : Client) (message : Message) :
    { (parseData client message).1.view with marks := client.marks } = client.view := by
  unfold parseData
  split
  · dsimp only
    split <;> split <;> rfl
  · rfl

theorem checkWakeup_view (wakeup : Bool) : (checkWakeup config client wakeup).view = client.view := by
  unfold checkWakeup dtlsCmdTrigger dtlsTrigger
  repeat' split
  all_goals rfl

/-- Only a pending request is completed. -/
private theorem readFromPeer_disciplined (kept : Disciplined ledger late client) {message : Message}
    (orderly : orderlyCall client (.read message) = true) :
    Disciplined ledger late (readFromPeer config env client message) := by
  unfold readFromPeer
  change orderlyResult _ _ _ = true at orderly
  have parsed := kept.parseData_disciplined message
  have view := parseData_view client message
  have state : (parseData client message).1.requestState = client.requestState :=
    congrArg View.requestState view
  have flight : (parseData client message).1.dtlsFlight = client.dtlsFlight :=
    congrArg View.dtlsFlight view
  rw [← state, ← flight] at orderly
  generalize parseData client message = result at parsed orderly ⊢
  obtain ⟨client, result⟩ := result
  have started : client.requestState.pending = true → client.requestState ≠ .none := by
    intro pending none
    simp [none, RequestState.pending] at pending
  cases result with
  | none =>
    dsimp only
    split
    · exact parsed.of_view (checkWakeup_view _)
    · exact parsed
  | some result =>
    cases result with
    | none => exact parsed
    | ign => exact parsed
    | rst =>
      dsimp only
      split
      · rename_i pending
        exact ((parsed.punctual (started pending)).coapFailure_disciplined (parsed.ready pending)).weaken
      · exact parsed
    | ack =>
      dsimp only
      split
      · rename_i sent
        have pending : client.requestState.pending = true := by
          rcases sent with sent | sent <;> simp [sent, RequestState.pending]
        rw [setRequestState_eq (by simp)]
        exact ((parsed.punctual (started pending)).setPending (parsed.ready pending) rfl).weaken
      · exact parsed
    | response =>
      dsimp only
      split
      · rename_i pending
        have landed : client.dtlsFlight = 0 := by simpa [orderlyResult, pending] using orderly
        exact ((parsed.punctual (started pending)).coapSuccess_disciplined (parsed.ready pending)
          landed).weaken
      · exact parsed
    | conResponse =>
      dsimp only
      split
      · rename_i other
        have pending : client.requestState.pending = true := by
          simp only [orderlyResult, Bool.or_eq_true, beq_iff_eq, other, false_or, Bool.and_eq_true] at orderly
          exact orderly.1
        rw [setRequestState_eq (by simp)]
        exact ((parsed.punctual (started pending)).setPending (parsed.ready pending) rfl).weaken
      · exact parsed

/-- One call of the library. The end of a handshake leaves the client late. -/
private theorem callback_disciplined (kept : Disciplined ledger true client) {call : Callback}
    (orderly : orderlyCall client call = true) :
    Disciplined ledger true (callback config env client call) := by
  have started : client.requestState.pending = true → client.requestState ≠ .none := by
    intro pending none
    simp [none, RequestState.pending] at pending
  cases call with
  | write record => exact kept.dtlsSendToPeer_disciplined record
  | read message => exact kept.readFromPeer_disciplined orderly
  | alert =>
    unfold callback
    dsimp only
    split
    · exact kept
    · rename_i running
      have pending : client.requestState.pending = true := by simpa [orderlyCall, running] using orderly
      exact ((kept.punctual (started pending)).coapFailure_disciplined (kept.ready pending)).weaken
  | connect => exact kept.dtlsConnectEvent_disciplined
  | connected =>
    unfold callback
    dsimp only
    split
    · exact kept
    · rename_i running
      have pending : client.requestState.pending = true := by simpa [orderlyCall, running] using orderly
      rw [setRequestState_eq (by simp)]
      exact {
        good := kept.good
        ready := by simp [RequestState.pending]
        incoming := by simp
        flight := fun flying => absurd rfl flying
        next := by simp
        waiting := fun _ => .inr ⟨rfl, rfl, kept.ready pending⟩ }

private theorem along_disciplined (kept : Disciplined ledger true client) {calls : List Callback}
    (orderly : Along config env (fun client call => orderlyCall client call = true) client calls) :
    Disciplined ledger true (calls.foldl (callback config env) client) := by
  induction calls generalizing client with
  | nil => exact kept
  | cons call calls ih => exact ih (kept.callback_disciplined orderly.1) orderly.2

private theorem receivedFlight_disciplined (kept : Disciplined ledger true client) (flush : Sendto) :
    Disciplined ledger true (receivedFlight config env client flush) := by
  unfold receivedFlight
  split
  · exact kept
  · rename_i flying
    have pending := (kept.flight flying).2
    have ready := kept.ready pending
    have punctual : Disciplined ledger false client := by
      refine kept.punctual fun none => ?_
      simp [none, RequestState.pending] at pending
    dsimp only
    split
    · exact (punctual.setReceive ready).weaken
    · rw [setRequestState_eq (show RequestState.send ≠ .receive by simp)]
      have sent : Disciplined ledger false (sendToPeer env { client with requestState := .send }
          client.dtlsBufferLen flush).1 :=
        sendToPeer_disciplined (punctual.setPending ready rfl) _ _
      have marks : (sendToPeer env { client with requestState := .send } client.dtlsBufferLen
          flush).1.marks = client.marks := congrArg Core.marks (sendToPeer_core _ _)
      rw [← marks] at ready
      refine weaken (setReceive ?_ ?_)
      · exact sent.of_view rfl
      · exact ready

private theorem recvfromPeer_disciplined (kept : Disciplined ledger false client) {datagram : Option Datagram}
    (orderly : Receives config env (fun client call => orderlyCall client call = true) client datagram) :
    Disciplined ledger true (recvfromPeer config env client datagram) := by
  cases datagram with
  | none => exact kept.weaken
  | some datagram =>
    unfold recvfromPeer
    simp only [Receives] at orderly
    dsimp only
    split
    · rename_i dtls
      rw [if_pos dtls] at orderly
      refine receivedFlight_disciplined (along_disciplined ?_ orderly) _
      unfold Client.noteFlight
      split
      · rename_i flying
        exact { kept.weaken with next := fun _ => flying }
      · exact kept.weaken
    · rename_i udp
      rw [if_neg udp] at orderly
      exact kept.weaken.readFromPeer_disciplined orderly

/-- A message of the handler is handed over outside of a handshake. -/
private theorem sendMessage_spec (kept : Disciplined ledger false client) (config : Config) (env : Env)
    (connected : client.dtlsPending = false) (message : getMessage env client ≠ 0) :
    Disciplined ledger false (sendMessage config env client).1 ∧
      (sendMessage config env client).1.core = client.core ∧
      (sendMessage config env client).1.Landed ∧
      { (sendMessage config env client).1.link with dtlsPending := client.dtlsPending } = client.link := by
  have landed : client.Landed := by
    have flight : client.dtlsFlight = 0 := by
      by_contra flying
      simp [(kept.flight flying).1] at connected
    exact ⟨flight, kept.nextFlight_eq_false flight⟩
  unfold sendMessage
  rw [if_neg message]
  split
  · exact ⟨kept.librarySend_disciplined, librarySend_core, librarySend_landed landed, librarySend_link⟩
  · refine ⟨kept.sendToPeer_disciplined _ _, sendToPeer_core _ _, sendToPeer_landed landed _ _, ?_⟩
    rw [sendToPeer_link]
    rfl

/-- `sendto_peer` completes no request if it neither fails nor sends one without a response. -/
private theorem sentToPeer_uncompleted (config : Config) {result : Int}
    (sent : (0 ≤ result ∨ client.socket = false) ∨ env.sending.socketError = true)
    (answered : client.lteConnected = false ∨ client.noResponse = false) :
    (sentToPeer config env client result).marks = client.marks ∧
      (sentToPeer config env client result).dtlsFlight = client.dtlsFlight := by
  unfold sentToPeer
  split
  · rename_i failed
    have error : (checkSocket client env.sending.socketError).2 = true := by
      unfold checkSocket
      split
      · rename_i opened
        exact sent.resolve_left fun closed => closed.elim (by omega) (by simp [opened])
      · rfl
    dsimp only
    rw [if_pos error]
    unfold checkSocket
    split <;> exact ⟨rfl, rfl⟩
  · split
    · rename_i connected
      have response := answered.resolve_left (by simp [connected.1])
      unfold setRequestState
      split
      · exact ⟨rfl, rfl⟩
      · rw [if_neg (by simp [response])]
        exact ⟨rfl, rfl⟩
    · exact ⟨rfl, rfl⟩

/-- The ACK is sent without completing the request. -/
private theorem sendAck_spec (kept : Disciplined ledger false client) (ready : ledger.ready client.marks)
    (orderly : orderlyAck config env client = true) :
    Disciplined ledger false (sendtoPeer config env { client with sendsAck := true }) ∧
      (sendtoPeer config env { client with sendsAck := true }).marks = client.marks ∧
      (sendtoPeer config env { client with sendsAck := true }).dtlsFlight = 0 := by
  simp only [orderlyAck, Bool.and_eq_true, Bool.not_eq_true', Bool.and_eq_false_iff, Bool.or_eq_true,
    decide_eq_true_eq] at orderly
  obtain ⟨⟨connected, answered⟩, sent⟩ := orderly
  have message : transmit config env { client with sendsAck := true } =
      sendMessage config env { client with sendsAck := true } := by
    unfold transmit
    exact if_neg (by simp [connected])
  have acking : Disciplined ledger false { client with sendsAck := true } := kept.of_view rfl
  obtain ⟨disciplined, core, landed, link⟩ :=
    acking.sendMessage_spec config env connected (by simp [getMessage, ackLen])
  unfold sendtoPeer
  rw [message] at sent ⊢
  generalize sendMessage config env { client with sendsAck := true } = result
    at sent disciplined core landed link ⊢
  obtain ⟨handed, result⟩ := result
  have marks : handed.marks = client.marks := congrArg Core.marks core
  have lte : handed.lteConnected = client.lteConnected := congrArg Link.lteConnected link
  have response : handed.noResponse = client.noResponse := congrArg Link.noResponse link
  have socket : handed.socket = client.socket := congrArg Link.socket link
  rw [← lte, ← response] at answered
  rw [← socket] at sent
  obtain ⟨sameMarks, flight⟩ := sentToPeer_uncompleted config sent answered
  refine ⟨?_, sameMarks.trans marks, flight.trans landed.1⟩
  rw [← marks] at ready
  exact disciplined.sentToPeer_disciplined result (.inl ready)

/-- What follows from the received data; the client is not late any more. -/
theorem afterReceive_disciplined (kept : Disciplined ledger true client)
    (orderly : client.requestState = .sendAck → orderlyAck config env client = true)
    (silent : ledger.Silences env client.lteConnected) :
    Disciplined ledger false (afterReceive config env client) := by
  unfold afterReceive
  split
  · rename_i acking
    have punctual := kept.punctual (by simp [acking])
    have ready := kept.ready (by simp [acking, RequestState.pending])
    obtain ⟨sent, marks, flight⟩ := punctual.sendAck_spec ready (orderly acking)
    rw [← marks] at ready
    exact sent.coapSuccess_disciplined ready flight
  · split
    · rename_i waiting
      obtain ⟨-, -, ready⟩ := (kept.waiting waiting.2).resolve_left waiting.1
      unfold sendPendingRequest
      refine sendtoPeer_disciplined ?_ ready silent
      exact { kept with waiting := by simp }
    · rename_i connected
      exact { kept with waiting := fun waiting => .inl (by simpa [waiting] using connected) }

theorem receiveData_disciplined (kept : Disciplined ledger false client) {datagram : Option Datagram}
    (received : Receives config env (fun client call => orderlyCall client call = true) client datagram) :
    Disciplined ledger true (receiveData config env client datagram) := by
  refine (kept.recvfromPeer_disciplined received).of_view ?_
  unfold receiveData newFlight
  split <;> rfl

end Disciplined

end CoapsClient.DtlsClient
