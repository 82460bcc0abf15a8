import CoapsClient.Model.Dtls.Loop

/-! # What the functions of a request can do

Sending and receiving complete a request or cancel it; everything else they do is left out of the
`Core` of a client. `Closed` collects what a property of the core has to survive, and its lemmas lift
the property from there to `sendto_peer`, to `recvfrom_peer` and to the sections of the loop.
-/

namespace CoapsClient.DtlsClient

open ApplUpdate (ParseResult)

/-- What a run records, the tokens, what starts the next request, and whether the network is connected. -/
structure Core where
  marks : List Mark
  handler : Handler
  applToken : ℕ
  applMid : ℕ
  tokenFactory : ℕ
  draws : ℕ
  timerWork : Bool
  triggerSend : Bool
  triggerMsg : Bool
  sendInterval : BitVec 32
  lteConnected : Bool
deriving DecidableEq

def Client.core (client : Client) : Core where
  marks := client.marks
  handler := client.handler
  applToken := client.applToken
  applMid := client.applMid
  tokenFactory := client.tokenFactory
  draws := client.draws
  timerWork := client.timerWork
  triggerSend := client.triggerSend
  triggerMsg := client.triggerMsg
  sendInterval := client.sendInterval
  lteConnected := client.lteConnected

section Transport

variable {config : Config} {env : Env} {client : Client}

private theorem networkAdjustInitialTimeout_core (set : Bool) :
    (networkAdjustInitialTimeout env client set).core = client.core := by
  unfold networkAdjustInitialTimeout
  dsimp only
  split <;> rfl

theorem adjustFirst_core (set : Bool) : (adjustFirst env client set).core = client.core := by
  unfold adjustFirst
  split
  · exact networkAdjustInitialTimeout_core set
  · rfl

private theorem startFlight_core : (startFlight client).core = client.core := by
  unfold startFlight
  split <;> rfl

theorem sendToPeer_core (len : ℕ) (sendto : Sendto) :
    (sendToPeer env client len sendto).1.core = client.core := by
  unfold sendToPeer
  cases sendto with
  | sent =>
    dsimp only
    split
    · rw [networkAdjustInitialTimeout_core]
      exact startFlight_core
    · exact startFlight_core
  | limited => rfl
  | failed => rfl

private theorem dtlsSendToPeer_core (record : Record) :
    (dtlsSendToPeer env client record).1.core = client.core := by
  unfold dtlsSendToPeer
  have flushed : ∀ buffered : Client, (sendToPeer env buffered buffered.dtlsBufferLen record.sendto).1.core =
      buffered.core := fun _ => sendToPeer_core _ _
  split
  · dsimp only
    split
    · rw [sendToPeer_core]
      split
      · exact flushed client
      · rfl
    · split
      · exact flushed client
      · rfl
  · exact sendToPeer_core _ _

theorem writeRecords_core (records : List Record) :
    (writeRecords env client records).core = client.core := by
  unfold writeRecords
  induction records generalizing client with
  | nil => rfl
  | cons record records ih => exact ih.trans (dtlsSendToPeer_core record)

private theorem dtlsConnectEvent_core : (dtlsConnectEvent client).core = client.core := by
  unfold dtlsConnectEvent
  split <;> rfl

theorem librarySend_core : (librarySend env client).core = client.core := by
  unfold librarySend
  rw [writeRecords_core]
  split
  · exact dtlsConnectEvent_core
  · rfl

private theorem noteFlight_core : client.noteFlight.core = client.core := by
  unfold Client.noteFlight
  split <;> rfl

private theorem newFlight_core (flight : ℕ) : (newFlight client flight).core = client.core := by
  unfold newFlight
  split <;> rfl

private theorem endConnection_core : (endConnection config client).core = client.core := by
  unfold endConnection
  split <;> rfl

theorem checkSocket_core (socketError : Bool) : (checkSocket client socketError).1.core = client.core := by
  unfold checkSocket
  split <;> rfl

end Transport

/-- What the completion of a request leaves alone. -/
structure Steady where
  marks : List Mark
  handler : Handler
  applToken : ℕ
  tokenFactory : ℕ
  draws : ℕ
  lteConnected : Bool
deriving DecidableEq

def Client.steady (client : Client) : Steady where
  marks := client.marks
  handler := client.handler
  applToken := client.applToken
  tokenFactory := client.tokenFactory
  draws := client.draws
  lteConnected := client.lteConnected

section Completion

variable {config : Config} {env : Env} {client : Client}

private theorem coapNext_steady (interval : ℕ) : (coapNext client interval).steady = client.steady := by
  unfold coapNext scheduleNext setNextSendInterval
  dsimp only
  repeat' split
  all_goals rfl

private theorem resultHandler_steady (success : Bool) :
    (resultHandler config env client success).1.steady = client.steady := by
  unfold resultHandler
  repeat' split
  all_goals rfl

theorem coapSuccess_steady : (coapSuccess config env client).steady = (client.mark .success).steady := by
  unfold coapSuccess
  have handled : (resultHandler config env { clearFailures (client.mark .success) with
      initialSuccess := true } true).1.steady = (client.mark .success).steady :=
    resultHandler_steady true
  exact (coapNext_steady _).trans handled

theorem coapFailure_steady : (coapFailure config env client).steady = (client.mark .failure).steady := by
  unfold coapFailure
  have counted : (if (client.mark .failure).initialSuccess then incFailures (client.mark .failure)
      else client.mark .failure).steady = (client.mark .failure).steady := by
    unfold incFailures
    repeat' split
    all_goals rfl
  dsimp only
  generalize (if (client.mark .failure).initialSuccess then incFailures (client.mark .failure)
    else client.mark .failure) = failed at counted ⊢
  have handled : (resultHandler config env failed false).1.steady = (client.mark .failure).steady :=
    (resultHandler_steady false).trans counted
  rw [coapNext_steady]
  split <;> exact handled

end Completion

/-- A property that does not depend on what is left out of the core, and that survives what the other
functions do to it. -/
structure Closed (config : Config) (env : Env) (property : Client → Prop) : Prop where
  core : ∀ {client next : Client}, next.core = client.core → property client → property next
  success : ∀ {client : Client}, property client → property (coapSuccess config env client)
  failure : ∀ {client : Client}, property client → property (coapFailure config env client)
  mark : ∀ {client : Client} {mark : Mark}, mark ∈ [.start, .cancel, .incoming] →
    property client → property (client.mark mark)
  trigger : ∀ {client : Client}, property client → property (dtlsTrigger client true)
  token : ∀ {client : Client}, property client → property (nextToken client)
  handler : ∀ {client : Client} {handler : Handler}, handler ≠ .appl → property client →
    property { client with handler }

/-- Each call of the library meets a condition in the state it finds. -/
def Along (config : Config) (env : Env) (meets : Client → Callback → Prop) (client : Client) :
    List Callback → Prop
  | [] => True
  | call :: calls =>
      meets client call ∧ Along config env meets (callback config env client call) calls

instance Along.decidable {config : Config} {env : Env} {meets : Client → Callback → Prop}
    [∀ client call, Decidable (meets client call)] (client : Client) (calls : List Callback) :
    Decidable (Along config env meets client calls) :=
  match calls with
  | [] => isTrue trivial
  | call :: calls =>
      @instDecidableAnd _ _ (inferInstanceAs (Decidable (meets client call)))
        (Along.decidable (callback config env client call) calls)

theorem Along.of_forall {config : Config} {env : Env} {meets : Client → Callback → Prop}
    (always : ∀ client call, meets client call) (client : Client) (calls : List Callback) :
    Along config env meets client calls := by
  induction calls generalizing client with
  | nil => trivial
  | cons call calls ih => exact ⟨always client call, ih _⟩

/-- What is received meets a condition: each call of the library, or the message without DTLS. -/
def Receives (config : Config) (env : Env) (meets : Client → Callback → Prop) (client : Client) :
    Option Datagram → Prop
  | none => True
  | some datagram =>
      if config.dtls then Along config env meets client.noteFlight datagram.callbacks
      else meets client (.read datagram.message)

instance {config : Config} {env : Env} {meets : Client → Callback → Prop}
    [∀ client call, Decidable (meets client call)] (client : Client) (datagram : Option Datagram) :
    Decidable (Receives config env meets client datagram) :=
  match datagram with
  | none => isTrue trivial
  | some datagram =>
      inferInstanceAs (Decidable (if config.dtls then
        Along config env meets client.noteFlight datagram.callbacks
        else meets client (.read datagram.message)))

theorem Receives.of_forall {config : Config} {env : Env} {meets : Client → Callback → Prop}
    (always : ∀ client call, meets client call) (client : Client) (datagram : Option Datagram) :
    Receives config env meets client datagram := by
  cases datagram with
  | none => trivial
  | some datagram =>
    unfold Receives
    dsimp only
    split
    · exact Along.of_forall always _ _
    · exact always _ _

namespace Closed

variable {config : Config} {env : Env} {property : Client → Prop} {client : Client}
  (closed : Closed config env property)
include closed

theorem setRequestState (state : RequestState) (holds : property client) :
    property (setRequestState config env client state) := by
  unfold DtlsClient.setRequestState
  split
  · exact holds
  · split
    · exact closed.success holds
    · refine closed.core ?_ holds
      rfl

theorem sentToPeer (result : Int) (holds : property client) :
    property (sentToPeer config env client result) := by
  unfold DtlsClient.sentToPeer
  have checked : property (checkSocket client env.sending.socketError).1 :=
    closed.core (checkSocket_core _) holds
  split
  · dsimp only
    split
    · exact checked
    · exact closed.failure checked
  · split
    · exact closed.setRequestState _ holds
    · exact holds

theorem resendFlight (holds : property client) : property (resendFlight config env client).1 := by
  unfold DtlsClient.resendFlight
  have written : property (writeRecords env { client with dtlsNextFlight := false } env.sending.records) := by
    refine closed.core ?_ holds
    exact writeRecords_core env.sending.records
  dsimp only
  split
  · exact written
  · exact closed.core (sendToPeer_core _ _) (closed.setRequestState .send written)

theorem startHandshake (holds : property client) : property (startHandshake config env client).1 := by
  unfold DtlsClient.startHandshake
  refine closed.core librarySend_core (closed.setRequestState .send ?_)
  exact closed.core (writeRecords_core env.sending.closing) holds

theorem sendMessage (holds : property client) : property (sendMessage config env client).1 := by
  unfold DtlsClient.sendMessage
  split
  · exact closed.setRequestState .waitSuspend (closed.mark (by simp) holds)
  · split
    · exact closed.core librarySend_core holds
    · exact closed.core (sendToPeer_core _ _) holds

theorem transmit (holds : property client) : property (transmit config env client).1 := by
  unfold DtlsClient.transmit
  split
  · split
    · exact closed.resendFlight holds
    · exact closed.startHandshake holds
  · exact closed.sendMessage holds

theorem sendtoPeer (holds : property client) : property (sendtoPeer config env client) :=
  closed.sentToPeer _ (closed.transmit holds)

theorem dtlsCmdTrigger (holds : property client) : property (dtlsCmdTrigger client) := by
  unfold DtlsClient.dtlsCmdTrigger
  split
  · exact holds
  · split
    · exact holds
    · exact closed.trigger holds

theorem checkWakeup (wakeup : Bool) (holds : property client) :
    property (checkWakeup config client wakeup) := by
  unfold DtlsClient.checkWakeup
  split
  · refine closed.dtlsCmdTrigger (closed.core ?_ holds)
    rfl
  · exact holds

/-- Only `parse_data` itself is left to the property. -/
theorem readFromPeer (message : Message) (parsed : property (parseData client message).1) :
    property (readFromPeer config env client message) := by
  unfold DtlsClient.readFromPeer
  generalize parseData client message = result at parsed ⊢
  obtain ⟨client, result⟩ := result
  cases result with
  | none =>
    dsimp only
    split
    · exact closed.checkWakeup _ parsed
    · exact parsed
  | some result =>
    cases result with
    | none => exact parsed
    | ign => exact parsed
    | rst =>
      dsimp only
      split
      · exact closed.failure parsed
      · exact parsed
    | ack =>
      dsimp only
      split
      · exact closed.setRequestState _ parsed
      · exact parsed
    | response =>
      dsimp only
      split
      · exact closed.success parsed
      · exact parsed
    | conResponse =>
      dsimp only
      split
      · exact closed.setRequestState _ parsed
      · exact parsed

theorem callback {call : Callback} (holds : property client)
    (reads : ∀ message, call = .read message → property (parseData client message).1) :
    property (callback config env client call) := by
  unfold DtlsClient.callback
  cases call with
  | write record => exact closed.core (dtlsSendToPeer_core record) holds
  | read message => exact closed.readFromPeer message (reads message rfl)
  | alert =>
    dsimp only
    split
    · exact holds
    · exact closed.failure holds
  | connect => exact closed.core dtlsConnectEvent_core holds
  | connected =>
    dsimp only
    split
    · exact holds
    · refine closed.core ?_ (closed.setRequestState .none holds)
      rfl

theorem receivedFlight (flush : Sendto) (holds : property client) :
    property (receivedFlight config env client flush) := by
  unfold DtlsClient.receivedFlight
  split
  · exact holds
  · refine closed.setRequestState .receive ?_
    split
    · exact holds
    · refine closed.core ?_ (closed.setRequestState .send holds)
      exact sendToPeer_core _ _

variable {meets : Client → Callback → Prop}

theorem along (reads : ∀ client message, meets client (.read message) → property client →
      property (parseData client message).1)
    {calls : List Callback} (met : Along config env meets client calls) (holds : property client) :
    property (calls.foldl (DtlsClient.callback config env) client) := by
  induction calls generalizing client with
  | nil => exact holds
  | cons call calls ih =>
    refine ih met.2 (closed.callback holds ?_)
    rintro message rfl
    exact reads client message met.1 holds

theorem recvfromPeer (reads : ∀ client message, meets client (.read message) → property client →
      property (parseData client message).1)
    {datagram : Option Datagram} (met : Receives config env meets client datagram)
    (holds : property client) : property (recvfromPeer config env client datagram) := by
  cases datagram with
  | none => exact holds
  | some datagram =>
    unfold DtlsClient.recvfromPeer
    simp only [Receives] at met
    dsimp only
    split
    · rename_i dtls
      rw [if_pos dtls] at met
      exact closed.receivedFlight _ (closed.along reads met (closed.core noteFlight_core holds))
    · rename_i udp
      rw [if_neg udp] at met
      exact closed.readFromPeer _ (reads client _ met holds)

theorem afterReceive (holds : property client) : property (afterReceive config env client) := by
  unfold DtlsClient.afterReceive
  split
  · refine closed.success (closed.sendtoPeer (closed.core ?_ holds))
    rfl
  · split
    · unfold sendPendingRequest
      refine closed.sendtoPeer (closed.core ?_ holds)
      rfl
    · exact holds

theorem receiveData (reads : ∀ client message, meets client (.read message) → property client →
      property (parseData client message).1)
    {datagram : Option Datagram} (met : Receives config env meets client datagram)
    (holds : property client) : property (receiveData config env client datagram) := by
  unfold DtlsClient.receiveData
  exact closed.core (newFlight_core client.dtlsFlight) (closed.recvfromPeer reads met holds)

theorem pollData (reads : ∀ client message, meets client (.read message) → property client →
      property (parseData client message).1)
    {datagram : Option Datagram} (met : Receives config env meets client datagram)
    (holds : property client) : property (pollData config env client datagram) := by
  unfold DtlsClient.pollData
  exact closed.core endConnection_core (closed.afterReceive (closed.receiveData reads met holds))

theorem resend (holds : property client) : property (resend config env client) := by
  unfold DtlsClient.resend
  refine closed.sendtoPeer (closed.setRequestState .send (closed.core ?_ holds))
  exact adjustFirst_core false

theorem timeoutSend (holds : property client) : property (timeoutSend config env client) := by
  unfold DtlsClient.timeoutSend
  split
  · refine closed.setRequestState .receive (closed.core ?_ holds)
    exact adjustFirst_core true
  · split
    · exact closed.failure holds
    · exact holds

theorem timeoutIncoming (holds : property client) : property (timeoutIncoming config env client) := by
  unfold DtlsClient.timeoutIncoming
  have cleared : property { client with lteIncomingConnect := false } := by
    refine closed.core ?_ holds
    rfl
  split
  · exact closed.dtlsCmdTrigger cleared
  · split
    · exact holds
    · exact closed.setRequestState .none cleared

theorem pollTimeout (holds : property client) : property (pollTimeout config env client) := by
  unfold DtlsClient.pollTimeout
  have counted : property { client with loops := client.loops + 1 } := by
    refine closed.core ?_ holds
    rfl
  dsimp only
  split
  · exact closed.timeoutSend counted
  · unfold timeoutReceive
    split
    · split
      · exact closed.resend counted
      · exact closed.failure counted
    · exact counted
  · split
    · exact closed.failure counted
    · exact counted
  · unfold timeoutSuspend
    split
    · exact closed.setRequestState .none counted
    · exact counted
  · exact closed.timeoutIncoming counted
  · exact counted

theorem incFailures (holds : property client) : property (incFailures client) := by
  unfold DtlsClient.incFailures
  split
  · refine closed.core ?_ holds
    rfl
  · exact holds

theorem go (place : Section) (holds : property client) : property (client.go place) := by
  refine closed.core ?_ holds
  rfl

theorem loopNetwork (holds : property client) : property (loopNetwork env client) := by
  unfold DtlsClient.loopNetwork
  dsimp only
  split
  · refine closed.go .rateLimit (closed.incFailures (closed.core ?_ holds))
    rfl
  · refine closed.go .rateLimit (closed.core ?_ holds)
    rfl

theorem retryStrategy (strategy : Strategy) (holds : property client) :
    property (retryStrategy config strategy client) := by
  unfold DtlsClient.retryStrategy
  have retried : property (if strategy.handshake then dtlsTrigger (setDtlsPending config client) true
      else client) := by
    split
    · refine closed.trigger (closed.core ?_ holds)
      rfl
    · exact holds
  dsimp only
  split
  · refine closed.core ?_ retried
    rfl
  · split
    · refine closed.core ?_ retried
      rfl
    · exact retried

theorem handleFailures (holds : property client) : property (handleFailures config env client) := by
  unfold DtlsClient.handleFailures
  have counted : property (nextFailures client).1 := by
    unfold nextFailures
    split
    · exact holds
    · refine closed.core ?_ holds
      rfl
  split
  · rename_i handled same
    rw [same] at counted
    exact counted
  · rename_i handled failures same
    rw [same] at counted
    split
    · exact counted
    · have retried := closed.retryStrategy env.strategy counted
      dsimp only
      split
      · refine closed.core ?_ retried
        rfl
      · exact retried

theorem loopFailures (holds : property client) : property (loopFailures config env client) := by
  unfold DtlsClient.loopFailures
  have handled := closed.handleFailures holds
  dsimp only
  split
  · refine closed.core ?_ handled
    rfl
  · exact closed.go _ handled

theorem loopRestart (holds : property client) : property (loopRestart client) := by
  unfold DtlsClient.loopRestart
  split
  · refine closed.core ?_ holds
    rfl
  · exact closed.go _ holds

theorem loopRestarting (holds : property client) : property (loopRestarting env client) := by
  unfold DtlsClient.loopRestarting
  refine closed.go .ready ?_
  split
  · refine closed.trigger (closed.core ?_ holds)
    rfl
  · refine closed.core ?_ holds
    rfl

theorem loopSocket (holds : property client) : property (loopSocket config env client) := by
  unfold DtlsClient.loopSocket
  split
  · exact closed.go _ holds
  · have checked : property (checkSocket client env.socketError).1 :=
      closed.core (checkSocket_core _) holds
    dsimp only
    split
    · split
      · unfold sendAgain
        refine closed.go _ (closed.sendtoPeer (closed.setRequestState .send (closed.core ?_ checked)))
        rfl
      · refine closed.core ?_ checked
        rfl
    · exact closed.go _ checked

theorem downloadCanceled (holds : property client) : property (downloadCanceled config env client) := by
  unfold DtlsClient.downloadCanceled
  split
  · refine closed.setRequestState .waitSuspend (closed.core ?_ holds)
    rfl
  · exact holds

theorem loopDownload (holds : property client) : property (loopDownload config env client) := by
  unfold DtlsClient.loopDownload
  split
  · exact closed.go _ holds
  · split
    · split
      · refine closed.core ?_ holds
        rfl
      · exact closed.go _ holds
    · exact closed.go _ (closed.downloadCanceled holds)

theorem loopDownloadWait (holds : property client) : property (loopDownloadWait env client) := by
  unfold DtlsClient.loopDownloadWait
  split
  · refine closed.core ?_ holds
    rfl
  · exact closed.go _ holds

theorem otherRequest {handler : Handler} (other : handler ≠ .appl) (holds : property client) :
    property (otherRequest env client handler) := by
  unfold DtlsClient.otherRequest
  have reset : property { client with sendsAck := false } := by
    refine closed.core ?_ holds
    rfl
  have assigned := closed.handler other reset
  dsimp only
  split
  · exact closed.token assigned
  · exact assigned

theorem downloadRequest (holds : property client) : property (downloadRequest config env client) := by
  unfold DtlsClient.downloadRequest
  have started : property (Client.mark { client with loops := 0 } .start) := by
    refine closed.mark (by simp) (closed.core ?_ holds)
    rfl
  have sending := closed.setRequestState .send started
  refine closed.sendtoPeer (closed.otherRequest (by simp) (closed.core ?_ sending))
  rfl

theorem loopDownloadNext (holds : property client) : property (loopDownloadNext config env client) := by
  unfold DtlsClient.loopDownloadNext
  split
  · split
    · exact closed.go _ holds
    · split
      · refine closed.go _ (closed.downloadRequest (closed.core ?_ holds))
        rfl
      · refine closed.go _ (closed.trigger (closed.core ?_ holds))
        rfl
  · exact closed.go _ (closed.downloadCanceled holds)

theorem expectIncoming (holds : property client) : property (expectIncoming config env client) := by
  unfold DtlsClient.expectIncoming
  have cleared : property { client with lteIncomingData := false } := by
    refine closed.core ?_ holds
    rfl
  dsimp only
  split
  · exact closed.setRequestState .incomingData (closed.mark (by simp) cleared)
  · exact cleared

theorem loopPoll (reads : ∀ client message, meets client (.read message) → property client →
      property (parseData client message).1)
    (met : ∀ datagram, env.poll = .data datagram → Receives config env meets client datagram)
    (holds : property client) : property (loopPoll config env client) := by
  unfold DtlsClient.loopPoll
  split
  · exact closed.go _ holds
  · exact closed.go _ (closed.pollTimeout holds)
  · rename_i datagram polled
    exact closed.go _ (closed.checkWakeup _ (closed.pollData reads (met datagram polled) holds))
  · exact closed.go _ (closed.checkWakeup _ holds)
  · exact closed.go _ (closed.checkWakeup _ (closed.core (checkSocket_core _) holds))

theorem powerOn (holds : property client) : property (powerOn env client) := by
  unfold DtlsClient.powerOn
  split
  · refine closed.core ?_ holds
    rfl
  · exact holds

/-- Only the request of the application client itself is left to the property. -/
theorem loopPrepare (post : ∀ {client}, property client → property (applRequest env client))
    (holds : property client) : property (loopPrepare config env client) := by
  unfold DtlsClient.loopPrepare
  have prepared : ∀ timeout, property (preparePost env { DtlsClient.powerOn env client with
      retransmission := 0, timeout }) := by
    intro timeout
    have on : property { DtlsClient.powerOn env client with retransmission := 0, timeout } := by
      refine closed.core ?_ (closed.powerOn holds)
      rfl
    unfold preparePost
    split
    · exact closed.otherRequest (by simp) on
    · exact post on
  dsimp only
  split
  · exact closed.go _ (closed.failure (prepared _))
  · split
    · exact closed.go _ (closed.sendtoPeer (prepared _))
    · exact closed.go _ (closed.setRequestState .none (prepared _))

/-- Every section keeps the property, but for those that take a trigger. -/
theorem loop (reads : ∀ client message, meets client (.read message) → property client →
      property (parseData client message).1)
    (met : client.place = .poll → ∀ datagram, env.poll = .data datagram →
      Receives config env meets client datagram)
    (post : ∀ {client}, property client → property (applRequest env client))
    (place : client.place ∉ [.nop, .rateLimit, .setup, .wait, .taken])
    (holds : property client) : property (loop config env client) := by
  unfold DtlsClient.loop
  cases at_place : client.place with
  | top => exact closed.go _ holds
  | nop => simp [at_place] at place
  | network => exact closed.loopNetwork holds
  | rateLimit => simp [at_place] at place
  | rateWait => exact closed.go _ holds
  | failures => exact closed.loopFailures holds
  | setup => simp [at_place] at place
  | restart => exact closed.loopRestart holds
  | restarting => exact closed.loopRestarting holds
  | ready => exact closed.go _ holds
  | socket => exact closed.loopSocket holds
  | download => exact closed.loopDownload holds
  | downloadWait => exact closed.loopDownloadWait holds
  | downloadNext => exact closed.loopDownloadNext holds
  | select => exact closed.go _ (closed.expectIncoming holds)
  | poll => exact closed.loopPoll reads (met at_place) holds
  | wait => simp [at_place] at place
  | taken => simp [at_place] at place
  | prepare => exact closed.loopPrepare post holds

end Closed

/-- What the other threads leave to the loop. -/
structure Frame where
  place : Section
  marks : List Mark
  requestState : RequestState
  dtlsFlight : ℕ
  dtlsNextFlight : Bool
  sendRequestPending : Bool
  handler : Handler
  applToken : ℕ
  tokenFactory : ℕ
  draws : ℕ
deriving DecidableEq

def Client.frame (client : Client) : Frame where
  place := client.place
  marks := client.marks
  requestState := client.requestState
  dtlsFlight := client.dtlsFlight
  dtlsNextFlight := client.dtlsNextFlight
  sendRequestPending := client.sendRequestPending
  handler := client.handler
  applToken := client.applToken
  tokenFactory := client.tokenFactory
  draws := client.draws

section Threads

variable {config : Config} {env : Env} {client next : Client} {label : Label}

theorem dtlsTrigger_frame (send : Bool) : (dtlsTrigger client send).frame = client.frame ∧
    (dtlsTrigger client send).dtlsPending = client.dtlsPending := by
  unfold dtlsTrigger
  repeat' split
  all_goals exact ⟨rfl, rfl⟩

private theorem dtlsCmdTrigger_frame : (dtlsCmdTrigger client).frame = client.frame ∧
    (dtlsCmdTrigger client).dtlsPending = client.dtlsPending := by
  unfold dtlsCmdTrigger dtlsTrigger
  repeat' split
  all_goals exact ⟨rfl, rfl⟩

private theorem lteConnect_frame : (lteConnect env client).frame = client.frame ∧
    (lteConnect env client).dtlsPending = client.dtlsPending := by
  unfold lteConnect
  dsimp only
  repeat' split
  · exact ⟨rfl, rfl⟩
  · exact dtlsTrigger_frame false
  · exact ⟨rfl, rfl⟩

private theorem dtlsLteStateHandler_frame (type : LteState) (active : Bool) :
    (dtlsLteStateHandler env client type active).frame = client.frame ∧
      (dtlsLteStateHandler env client type active).dtlsPending = client.dtlsPending := by
  unfold dtlsLteStateHandler
  repeat' split
  all_goals first | exact ⟨rfl, rfl⟩ | exact lteConnect_frame

private theorem dtlsTimerTriggerFn_frame : (dtlsTimerTriggerFn client).frame = client.frame ∧
    (dtlsTimerTriggerFn client).dtlsPending = client.dtlsPending := by
  unfold dtlsTimerTriggerFn dtlsTrigger
  dsimp only
  repeat' split
  all_goals exact ⟨rfl, rfl⟩

private theorem dtlsManualTrigger_frame (duration : Bool) :
    (dtlsManualTrigger client duration).frame = client.frame ∧
      (dtlsManualTrigger client duration).dtlsPending = client.dtlsPending := by
  unfold dtlsManualTrigger dtlsTrigger
  dsimp only
  repeat' split
  all_goals exact ⟨rfl, rfl⟩

private theorem shCmdSend_frame (message : Bool) : (shCmdSend client message).frame = client.frame ∧
    (shCmdSend client message).dtlsPending = client.dtlsPending := by
  unfold shCmdSend
  repeat' split
  · exact ⟨rfl, rfl⟩
  · exact ⟨rfl, rfl⟩
  · exact dtlsCmdTrigger_frame

/-- Another thread than the loop changes no request; it may only ask for a handshake. -/
theorem thread_frame (other : label.event ≠ .loop) (moved : Step config client label next) :
    next.frame = client.frame ∧ (client.dtlsPending → next.dtlsPending) := by
  have weaken : ∀ {result : Client}, result.frame = client.frame ∧ result.dtlsPending = client.dtlsPending →
      result.frame = client.frame ∧ (client.dtlsPending → result.dtlsPending) :=
    fun kept => kept.imp_right fun same pending => same.trans pending
  unfold Step step at moved
  cases event : label.event <;> rw [event] at moved <;>
    simp only [Option.some.injEq, Option.ite_none_right_eq_some] at moved
  case loop => exact absurd event other
  case timer =>
    obtain ⟨-, rfl⟩ := moved
    exact weaken dtlsTimerTriggerFn_frame
  case trigger send =>
    subst moved
    exact weaken (dtlsTrigger_frame send)
  case button duration =>
    subst moved
    exact weaken (dtlsManualTrigger_frame duration)
  case send message =>
    subst moved
    exact weaken (shCmdSend_frame message)
  case cmdTrigger =>
    subst moved
    exact weaken dtlsCmdTrigger_frame
  case lte type active =>
    subst moved
    exact weaken (dtlsLteStateHandler_frame type active)
  case dtlsReset =>
    subst moved
    exact ⟨rfl, fun pending => by simp [setDtlsPending, pending]⟩
  all_goals
    subst moved
    exact weaken ⟨rfl, rfl⟩

end Threads

end CoapsClient.DtlsClient
