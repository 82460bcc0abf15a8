import CoapsClient.Model.Dtls.Steps
import CoapsClient.Model.Dtls.Client

/-! # The retransmissions of a request and the failures of a client

The number of retransmissions, the timeout in use and the configured one. Only a request that was not yet sent again
gets another timeout, and only a retransmission counts and doubles: what is left of the loop keeps the retry of a
client, or starts with no retransmission again.

`dtls_coap_inc_failures`, `dtls_coap_next_failures` and `dtls_coap_clear_failures` on their two counters of 32 bits, and the
strategy that `dtls_loop` takes for a failure.
-/

namespace CoapsClient.DtlsClient

open ApplUpdate (ParseResult)

structure Retry where
  retransmission : ℕ
  timeout : ℕ
  coapTimeout : ℕ
deriving DecidableEq

def Client.retry (client : Client) : Retry where
  retransmission := client.retransmission
  timeout := client.timeout
  coapTimeout := client.coapTimeout

/-- A retry is the same as before, or there is no retransmission. -/
def Retry.Kept (before after : Retry) : Prop :=
  after.coapTimeout = before.coapTimeout ∧ (after.retransmission = 0 ∨ after = before)

theorem Retry.Kept.refl (retry : Retry) : retry.Kept retry := ⟨rfl, .inr rfl⟩

theorem Retry.Kept.of_eq {before after : Retry} (same : after = before) : before.Kept after := same ▸ .refl before

/-- A retry without a retransmission may get any timeout. -/
theorem Retry.Kept.of_zero {before after : Retry} (timeout : after.coapTimeout = before.coapTimeout)
    (none : after.retransmission = 0) : before.Kept after := ⟨timeout, .inl none⟩

theorem Retry.Kept.trans {before between after : Retry} (first : before.Kept between) (second : between.Kept after) :
    before.Kept after := by
  obtain ⟨same, zero | rfl⟩ := second
  · exact .of_zero (same.trans first.1) zero
  · exact first

section Equal

variable {config : Config} {env : Env} {client : Client}

private theorem coapNext_retry (interval : ℕ) : (coapNext client interval).retry = client.retry := by
  unfold coapNext scheduleNext setNextSendInterval
  dsimp only
  repeat' split
  all_goals rfl

private theorem resultHandler_retry (success : Bool) :
    (resultHandler config env client success).1.retry = client.retry := by
  unfold resultHandler
  repeat' split
  all_goals rfl

private theorem coapSuccess_retry : (coapSuccess config env client).retry = client.retry := by
  unfold coapSuccess
  have handled : (resultHandler config env { clearFailures (client.mark .success) with
      initialSuccess := true } true).1.retry = client.retry := resultHandler_retry true
  exact (coapNext_retry _).trans handled

private theorem incFailures_retry : (incFailures client).retry = client.retry := by
  unfold incFailures
  split <;> rfl

private theorem coapFailure_retry : (coapFailure config env client).retry = client.retry := by
  unfold coapFailure
  have counted : (if (client.mark .failure).initialSuccess then incFailures (client.mark .failure)
      else client.mark .failure).retry = client.retry := by
    split
    · exact incFailures_retry
    · rfl
  dsimp only
  generalize (if (client.mark .failure).initialSuccess then incFailures (client.mark .failure)
    else client.mark .failure) = failed at counted ⊢
  have handled : (resultHandler config env failed false).1.retry = client.retry :=
    (resultHandler_retry false).trans counted
  rw [coapNext_retry]
  split <;> exact handled

private theorem setRequestState_retry (state : RequestState) :
    (setRequestState config env client state).retry = client.retry := by
  unfold setRequestState
  split
  · rfl
  · split
    · exact coapSuccess_retry
    · rfl

private theorem dtlsTrigger_retry (send : Bool) : (dtlsTrigger client send).retry = client.retry := by
  unfold dtlsTrigger
  repeat' split
  all_goals rfl

private theorem dtlsCmdTrigger_retry : (dtlsCmdTrigger client).retry = client.retry := by
  unfold dtlsCmdTrigger
  split
  · rfl
  · split
    · rfl
    · exact dtlsTrigger_retry true

private theorem checkWakeup_retry (wakeup : Bool) : (checkWakeup config client wakeup).retry = client.retry := by
  unfold checkWakeup
  split
  · exact dtlsCmdTrigger_retry
  · rfl

private theorem startFlight_retry : (startFlight client).retry = client.retry := by
  unfold startFlight
  split <;> rfl

private theorem dtlsConnectEvent_retry : (dtlsConnectEvent client).retry = client.retry := by
  unfold dtlsConnectEvent
  split <;> rfl

private theorem checkSocket_retry (socketError : Bool) : (checkSocket client socketError).1.retry = client.retry := by
  unfold checkSocket
  split <;> rfl

private theorem sentToPeer_retry (result : Int) : (sentToPeer config env client result).retry = client.retry := by
  unfold sentToPeer
  split
  · dsimp only
    split
    · exact checkSocket_retry _
    · exact coapFailure_retry.trans (checkSocket_retry _)
  · split
    · exact setRequestState_retry _
    · rfl

private theorem parseData_retry (message : Message) : (parseData client message).1.retry = client.retry := by
  unfold parseData
  dsimp only
  repeat' split
  all_goals rfl

private theorem readFromPeer_retry (message : Message) : (readFromPeer config env client message).retry = client.retry := by
  unfold readFromPeer
  have parsed := @parseData_retry client message
  generalize parseData client message = result at parsed ⊢
  obtain ⟨read, result⟩ := result
  rw [← parsed]
  cases result with
  | none =>
    dsimp only
    split
    · exact checkWakeup_retry _
    · rfl
  | some result =>
    cases result with
    | none => rfl
    | ign => rfl
    | rst =>
      dsimp only
      split
      · exact coapFailure_retry
      · rfl
    | ack =>
      dsimp only
      split
      · exact setRequestState_retry _
      · rfl
    | response =>
      dsimp only
      split
      · exact coapSuccess_retry
      · rfl
    | conResponse =>
      dsimp only
      split
      · exact setRequestState_retry _
      · rfl

private theorem noteFlight_retry : client.noteFlight.retry = client.retry := by
  unfold Client.noteFlight
  split <;> rfl

private theorem newFlight_retry (flight : ℕ) : (newFlight client flight).retry = client.retry := by
  unfold newFlight
  split <;> rfl

private theorem endConnection_retry : (endConnection config client).retry = client.retry := by
  unfold endConnection
  split <;> rfl

end Equal

section Sending

variable {config : Config} {env : Env} {client : Client}

private theorem networkAdjustInitialTimeout_kept (set : Bool) (none : client.retransmission = 0) :
    client.retry.Kept (networkAdjustInitialTimeout env client set).retry := by
  unfold networkAdjustInitialTimeout
  dsimp only
  split
  · exact .of_zero rfl none
  · exact .refl _

private theorem adjustFirst_kept (set : Bool) : client.retry.Kept (adjustFirst env client set).retry := by
  unfold adjustFirst
  split
  · next none => exact networkAdjustInitialTimeout_kept set none
  · exact .refl _

/-- Only the first transmission of a flight adjusts the timeout. -/
private theorem sendToPeer_kept (len : ℕ) (sendto : Sendto) :
    client.retry.Kept (sendToPeer env client len sendto).1.retry := by
  unfold sendToPeer
  cases sendto with
  | sent =>
    dsimp only
    have started : (startFlight { client with lteConnectedToSend := false, lteSend := !client.lteConnected }).retry =
        client.retry := startFlight_retry
    split
    · next first =>
      refine .trans (.of_eq started) (networkAdjustInitialTimeout_kept true ?_)
      exact (congrArg Retry.retransmission started).trans first.1
    · exact .of_eq started
  | limited => exact .refl _
  | failed => exact .refl _

private theorem dtlsSendToPeer_kept (record : Record) : client.retry.Kept (dtlsSendToPeer env client record).1.retry := by
  unfold dtlsSendToPeer
  split
  · dsimp only
    have flushed : client.retry.Kept (if maxDtlsBuf < client.dtlsBufferLen + record.len then
        { (sendToPeer env client client.dtlsBufferLen record.sendto).1 with dtlsBufferLen := 0 }
        else client).retry := by
      split
      · exact sendToPeer_kept _ _
      · exact .refl _
    split
    · exact flushed.trans (sendToPeer_kept _ _)
    · exact flushed
  · exact sendToPeer_kept _ _

private theorem writeRecords_kept (records : List Record) : client.retry.Kept (writeRecords env client records).retry := by
  unfold writeRecords
  induction records generalizing client with
  | nil => exact .refl _
  | cons record records ih => exact (dtlsSendToPeer_kept record).trans ih

private theorem librarySend_kept : client.retry.Kept (librarySend env client).retry := by
  unfold librarySend
  dsimp only
  split
  · exact .trans (.of_eq dtlsConnectEvent_retry) (writeRecords_kept _)
  · exact writeRecords_kept _

private theorem resendFlight_kept : client.retry.Kept (resendFlight config env client).1.retry := by
  unfold resendFlight
  have written : client.retry.Kept
      (writeRecords env { client with dtlsNextFlight := false } env.sending.records).retry :=
    .trans (.refl _) (writeRecords_kept _)
  dsimp only
  split
  · exact written
  · exact written.trans (.trans (.of_eq (setRequestState_retry _)) (sendToPeer_kept _ _))

private theorem startHandshake_kept : client.retry.Kept (startHandshake config env client).1.retry := by
  unfold startHandshake
  have written := @writeRecords_kept env client env.sending.closing
  refine written.trans (.trans (.trans (.of_zero ?_ ?_) (.of_eq (setRequestState_retry .send))) librarySend_kept)
  · rfl
  · rfl

private theorem sendMessage_kept : client.retry.Kept (sendMessage config env client).1.retry := by
  unfold sendMessage
  split
  · exact .of_eq (setRequestState_retry _)
  · split
    · exact librarySend_kept
    · exact sendToPeer_kept _ _

private theorem transmit_kept : client.retry.Kept (transmit config env client).1.retry := by
  unfold transmit
  split
  · split
    · exact resendFlight_kept
    · exact startHandshake_kept
  · exact sendMessage_kept

private theorem sendtoPeer_kept : client.retry.Kept (sendtoPeer config env client).retry := by
  unfold sendtoPeer
  exact transmit_kept.trans (.of_eq (sentToPeer_retry _))

/-- A message is sent as the first one. -/
private theorem sendtoPeer_first {first : Client} (timeout : first.coapTimeout = client.coapTimeout)
    (none : first.retransmission = 0) : client.retry.Kept (sendtoPeer config env first).retry :=
  .trans (.of_zero timeout none) sendtoPeer_kept

private theorem callback_kept (call : Callback) : client.retry.Kept (callback config env client call).retry := by
  unfold callback
  cases call with
  | write record => exact dtlsSendToPeer_kept record
  | read message => exact .of_eq (readFromPeer_retry message)
  | alert =>
    dsimp only
    split
    · exact .refl _
    · exact .of_eq coapFailure_retry
  | connect => exact .of_eq dtlsConnectEvent_retry
  | connected =>
    dsimp only
    split
    · exact .refl _
    · exact .of_eq (setRequestState_retry .none)

private theorem callbacks_kept (calls : List Callback) :
    client.retry.Kept (calls.foldl (callback config env) client).retry := by
  induction calls generalizing client with
  | nil => exact .refl _
  | cons call calls ih => exact (callback_kept call).trans ih

private theorem receivedFlight_kept (flush : Sendto) :
    client.retry.Kept (receivedFlight config env client flush).retry := by
  unfold receivedFlight
  split
  · exact .refl _
  · dsimp only
    split
    · exact .of_eq (setRequestState_retry .receive)
    · have sending : client.retry.Kept (setRequestState config env client .send).retry :=
        .of_eq (setRequestState_retry .send)
      refine .trans (sending.trans ?_) (.of_eq (setRequestState_retry .receive))
      exact sendToPeer_kept _ _

private theorem recvfromPeer_kept (datagram : Option Datagram) :
    client.retry.Kept (recvfromPeer config env client datagram).retry := by
  cases datagram with
  | none => exact .refl _
  | some datagram =>
    unfold recvfromPeer
    dsimp only
    split
    · exact .trans (.of_eq noteFlight_retry) (.trans (callbacks_kept _) (receivedFlight_kept _))
    · exact .of_eq (readFromPeer_retry _)

end Sending

/-- The client after the timeout of a request was doubled. -/
def Client.doubled (client : Client) (env : Env) : Retry where
  retransmission := client.retransmission + 1
  timeout := (adjustFirst env client false).timeout * 2 % 65536
  coapTimeout := client.coapTimeout

/-- The request is sent again in the next section. -/
def Resends (env : Env) (client : Client) : Prop :=
  client.place = .poll ∧ env.poll = .timeout ∧ client.requestState = .receive ∧
    receiveTimeout env { client with loops := client.loops + 1 } < client.loops + 1 ∧
    client.retransmission < maxRetransmission

instance (env : Env) (client : Client) : Decidable (Resends env client) := inferInstanceAs (Decidable (_ ∧ _))

/-- The retry from which a section goes on. -/
def Client.retried (client : Client) (env : Env) : Retry :=
  if Resends env client then client.doubled env else client.retry

section Loop

variable {config : Config} {env : Env} {client : Client}

private theorem sendAgain_kept : client.retry.Kept (sendAgain config env client).retry := by
  have sending := @setRequestState_retry config env { client with loops := 0, retransmission := 0 } .send
  exact sendtoPeer_first (congrArg Retry.coapTimeout sending) (congrArg Retry.retransmission sending)

private theorem loopNop_retry : (loopNop client).retry = client.retry := by
  unfold loopNop
  split <;> rfl

private theorem loopWait_retry : (loopWait client).retry = client.retry := by
  unfold loopWait
  split <;> rfl

private theorem loopNetwork_retry : (loopNetwork env client).retry = client.retry := by
  unfold loopNetwork incFailures
  dsimp only
  repeat' split
  all_goals rfl

private theorem loopRateLimit_retry : (loopRateLimit env client).retry = client.retry := by
  unfold loopRateLimit
  repeat' split
  all_goals rfl

private theorem retryStrategy_retry (strategy : Strategy) :
    (retryStrategy config strategy client).retry = client.retry := by
  unfold retryStrategy
  have triggered : (if strategy.handshake then dtlsTrigger (setDtlsPending config client) true else client).retry =
      client.retry := by
    split
    · exact dtlsTrigger_retry true
    · rfl
  dsimp only
  generalize (if strategy.handshake then dtlsTrigger (setDtlsPending config client) true else client) = shaken at triggered ⊢
  repeat' split
  all_goals exact triggered

private theorem handleFailures_retry : (handleFailures config env client).retry = client.retry := by
  unfold handleFailures
  have counted : (nextFailures client).1.retry = client.retry := by
    unfold nextFailures
    split <;> rfl
  split
  · rename_i handled same
    rw [same] at counted
    exact counted
  · rename_i handled failures same
    rw [same] at counted
    split
    · exact counted
    · dsimp only
      split <;> exact (retryStrategy_retry env.strategy).trans counted

private theorem loopFailures_retry : (loopFailures config env client).retry = client.retry := by
  unfold loopFailures
  dsimp only
  split <;> exact handleFailures_retry

private theorem loopSetup_retry : (loopSetup env client).retry = client.retry := by
  unfold loopSetup dtlsTrigger
  dsimp only
  repeat' split
  all_goals rfl

private theorem loopRestart_retry : (loopRestart client).retry = client.retry := by
  unfold loopRestart
  split <;> rfl

private theorem loopRestarting_retry : (loopRestarting env client).retry = client.retry := by
  unfold loopRestarting
  dsimp only
  split
  · exact dtlsTrigger_retry true
  · rfl

private theorem loopSocket_kept : client.retry.Kept (loopSocket config env client).retry := by
  unfold loopSocket
  split
  · exact .refl _
  · have checked := @checkSocket_retry client env.socketError
    have reopened : (reopenSocket (checkSocket client env.socketError).1).retry = client.retry := checked
    dsimp only
    generalize reopenSocket (checkSocket client env.socketError).1 = opened at reopened ⊢
    split
    · split
      · exact .trans (.of_eq reopened) sendAgain_kept
      · exact .of_eq reopened
    · exact .of_eq checked

private theorem downloadCanceled_retry : (downloadCanceled config env client).retry = client.retry := by
  unfold downloadCanceled
  split
  · exact setRequestState_retry .waitSuspend
  · rfl

private theorem loopDownload_retry : (loopDownload config env client).retry = client.retry := by
  unfold loopDownload
  split
  · rfl
  · split
    · split <;> rfl
    · exact downloadCanceled_retry

private theorem loopDownloadWait_retry : (loopDownloadWait env client).retry = client.retry := by
  unfold loopDownloadWait
  split <;> rfl

private theorem otherRequest_retry (handler : Handler) : (otherRequest env client handler).retry = client.retry := by
  unfold otherRequest
  dsimp only
  split <;> rfl

private theorem downloadRequest_kept : client.retry.Kept (downloadRequest config env client).retry := by
  unfold downloadRequest
  have sending := @setRequestState_retry config env (Client.mark { client with loops := 0 } .start) .send
  dsimp only
  generalize setRequestState config env (Client.mark { client with loops := 0 } .start) .send = sent at sending ⊢
  have first := @otherRequest_retry env { sent with retransmission := 0 } .update
  generalize otherRequest env { sent with retransmission := 0 } .update = request at first ⊢
  refine sendtoPeer_first ?_ ?_
  · exact (congrArg Retry.coapTimeout first).trans (congrArg Retry.coapTimeout sending)
  · exact congrArg Retry.retransmission first

private theorem loopDownloadNext_kept : client.retry.Kept (loopDownloadNext config env client).retry := by
  unfold loopDownloadNext
  split
  · split
    · exact .refl _
    · have counted : (countDownload client).retry = client.retry := rfl
      have requested := @downloadRequest_kept config env (countDownload client)
      have triggered := @dtlsTrigger_retry (countDownload client) true
      split
      · generalize downloadRequest config env (countDownload client) = request at requested ⊢
        exact requested
      · exact .of_eq (triggered.trans counted)
  · exact .of_eq downloadCanceled_retry

private theorem loopSelect_retry : (loopSelect config env client).retry = client.retry := by
  unfold loopSelect expectIncoming
  dsimp only
  split
  · exact setRequestState_retry .incomingData
  · rfl

private theorem timeoutSend_kept : client.retry.Kept (timeoutSend config env client).retry := by
  unfold timeoutSend
  dsimp only
  split
  · have adjusted := @adjustFirst_kept env { client with lteConnectedToSend := false, loops := 0 } true
    exact adjusted.trans (.of_eq (setRequestState_retry .receive))
  · split
    · exact .of_eq coapFailure_retry
    · exact .refl _

private theorem doubled_loops (loops : ℕ) : Client.doubled { client with loops } env = client.doubled env := by
  unfold Client.doubled adjustFirst networkAdjustInitialTimeout
  dsimp only
  repeat' split
  all_goals rfl

/-- A retransmission doubles the timeout. -/
private theorem resend_kept : (client.doubled env).Kept (resend config env client).retry := by
  unfold resend
  generalize adjusted : adjustFirst env { client with loops := 0 } false = first
  have same : first.retransmission = client.retransmission ∧ first.coapTimeout = client.coapTimeout ∧
      first.timeout = (adjustFirst env client false).timeout := by
    subst adjusted
    unfold adjustFirst networkAdjustInitialTimeout
    dsimp only
    repeat' split
    all_goals exact ⟨rfl, rfl, rfl⟩
  have doubled : client.doubled env =
      (Client.retry { first with timeout := first.timeout * 2 % 65536, retransmission := first.retransmission + 1 }) := by
    simp only [Client.doubled, Client.retry, same]
  rw [doubled]
  exact .trans (.of_eq (setRequestState_retry .send)) sendtoPeer_kept

private theorem timeoutSuspend_retry : (timeoutSuspend config env client).retry = client.retry := by
  unfold timeoutSuspend
  split
  · exact setRequestState_retry .none
  · rfl

private theorem timeoutIncoming_retry : (timeoutIncoming config env client).retry = client.retry := by
  unfold timeoutIncoming
  split
  · exact dtlsCmdTrigger_retry
  · split
    · rfl
    · exact setRequestState_retry .none

private theorem sendPendingRequest_kept : client.retry.Kept (sendPendingRequest config env client).retry :=
  sendtoPeer_first rfl rfl

private theorem afterReceive_kept : client.retry.Kept (afterReceive config env client).retry := by
  unfold afterReceive
  split
  · have sent := @sendtoPeer_kept config env { client with sendsAck := true }
    exact sent.trans (.of_eq coapSuccess_retry)
  · split
    · exact sendPendingRequest_kept
    · exact .refl _

private theorem pollData_kept (datagram : Option Datagram) :
    client.retry.Kept (pollData config env client datagram).retry := by
  unfold pollData receiveData
  have received := (@recvfromPeer_kept config env client datagram).trans (.of_eq (newFlight_retry client.dtlsFlight))
  exact received.trans (afterReceive_kept.trans (.of_eq endConnection_retry))

private theorem loopTaken_retry : (loopTaken config env client).retry = client.retry := by
  unfold loopTaken
  split
  · split
    · rfl
    · exact setRequestState_retry .send
  · rfl

private theorem powerOn_retry : (powerOn env client).retry = client.retry := by
  unfold powerOn
  split <;> rfl

private theorem preparePost_retry : (preparePost env client).retry = client.retry := by
  unfold preparePost
  split
  · exact otherRequest_retry .prov
  · rfl

/-- A new request has no retransmission. -/
private theorem loopPrepare_kept : client.retry.Kept (loopPrepare config env client).retry := by
  unfold loopPrepare
  generalize switched : powerOn env client = on
  have coapTimeout : on.coapTimeout = client.coapTimeout := switched ▸ congrArg Retry.coapTimeout powerOn_retry
  have prepared := @preparePost_retry env { on with retransmission := 0, timeout := on.coapTimeout }
  have begun : client.retry.Kept (preparePost env { on with retransmission := 0, timeout := on.coapTimeout }).retry := by
    rw [prepared]
    exact .of_zero coapTimeout rfl
  dsimp only
  split
  · exact begun.trans (.of_eq coapFailure_retry)
  · split
    · exact begun.trans sendtoPeer_kept
    · exact begun.trans (.of_eq (setRequestState_retry .none))

private theorem timeoutReceive_kept (place : client.place = .poll) (polled : env.poll = .timeout)
    (receiving : client.requestState = .receive) : (client.retried env).Kept
      (timeoutReceive config env { client with loops := client.loops + 1 }).retry := by
  unfold timeoutReceive Client.retried
  by_cases waited : receiveTimeout env { client with loops := client.loops + 1 } < client.loops + 1
  · rw [if_pos waited]
    by_cases more : client.retransmission < maxRetransmission
    · rw [if_pos more, if_pos ⟨place, polled, receiving, waited, more⟩, ← doubled_loops (client.loops + 1)]
      exact @resend_kept config env { client with loops := client.loops + 1 }
    · rw [if_neg more, if_neg fun again => more again.2.2.2.2]
      exact .of_eq coapFailure_retry
  · rw [if_neg waited, if_neg fun again => waited again.2.2.2.1]
    exact .refl _

private theorem pollTimeout_kept (place : client.place = .poll) (polled : env.poll = .timeout) :
    (client.retried env).Kept (pollTimeout config env client).retry := by
  have same : client.requestState ≠ .receive → client.retried env = client.retry := fun other =>
    if_neg fun again => other again.2.2.1
  unfold pollTimeout
  dsimp only
  split
  · next state =>
    rw [same (by simp [state])]
    exact @timeoutSend_kept config env { client with loops := client.loops + 1 }
  · next state => exact timeoutReceive_kept place polled state
  · next state =>
    rw [same (by simp [state])]
    split
    · exact .of_eq (@coapFailure_retry config env { client with loops := client.loops + 1 })
    · exact .refl _
  · next state =>
    rw [same (by simp [state])]
    exact .of_eq (@timeoutSuspend_retry config env { client with loops := client.loops + 1 })
  · next state =>
    rw [same (by simp [state])]
    exact .of_eq (@timeoutIncoming_retry config env { client with loops := client.loops + 1 })
  · next receiving _ _ _ =>
    rw [same receiving]
    exact .refl _

private theorem loopPoll_kept (place : client.place = .poll) :
    (client.retried env).Kept (loopPoll config env client).retry := by
  have same : env.poll ≠ .timeout → client.retried env = client.retry := fun other =>
    if_neg fun again => other again.2.1
  unfold loopPoll
  cases polled : env.poll with
  | error =>
    rw [same (by simp [polled])]
    exact .refl _
  | timeout => exact pollTimeout_kept place polled
  | data datagram =>
    rw [same (by simp [polled])]
    exact .trans (pollData_kept datagram) (.of_eq (checkWakeup_retry _))
  | second =>
    rw [same (by simp [polled])]
    exact .of_eq (checkWakeup_retry _)
  | socket socketError =>
    rw [same (by simp [polled])]
    exact .of_eq ((checkWakeup_retry _).trans (checkSocket_retry _))

/-- Each section keeps the retry of a client, but for a retransmission. -/
private theorem loop_kept : (client.retried env).Kept (loop config env client).retry := by
  have same : client.place ≠ .poll → client.retried env = client.retry := fun other => if_neg fun again => other again.1
  unfold loop
  cases place : client.place with
  | poll => exact loopPoll_kept place
  | top =>
    rw [same (by simp [place])]
    exact .refl _
  | nop =>
    rw [same (by simp [place])]
    exact .of_eq loopNop_retry
  | network =>
    rw [same (by simp [place])]
    exact .of_eq loopNetwork_retry
  | rateLimit =>
    rw [same (by simp [place])]
    exact .of_eq loopRateLimit_retry
  | rateWait =>
    rw [same (by simp [place])]
    exact .refl _
  | failures =>
    rw [same (by simp [place])]
    exact .of_eq loopFailures_retry
  | setup =>
    rw [same (by simp [place])]
    exact .of_eq loopSetup_retry
  | restart =>
    rw [same (by simp [place])]
    exact .of_eq loopRestart_retry
  | restarting =>
    rw [same (by simp [place])]
    exact .of_eq loopRestarting_retry
  | ready =>
    rw [same (by simp [place])]
    exact .refl _
  | socket =>
    rw [same (by simp [place])]
    exact loopSocket_kept
  | download =>
    rw [same (by simp [place])]
    exact .of_eq loopDownload_retry
  | downloadWait =>
    rw [same (by simp [place])]
    exact .of_eq loopDownloadWait_retry
  | downloadNext =>
    rw [same (by simp [place])]
    exact loopDownloadNext_kept
  | select =>
    rw [same (by simp [place])]
    exact .of_eq loopSelect_retry
  | wait =>
    rw [same (by simp [place])]
    exact .of_eq loopWait_retry
  | taken =>
    rw [same (by simp [place])]
    exact .of_eq loopTaken_retry
  | prepare =>
    rw [same (by simp [place])]
    exact loopPrepare_kept

end Loop

/-- The retry from which a step goes on. -/
def Client.retriedBy (client : Client) (label : Label) : Retry :=
  match label.event with
  | .loop => client.retried label.env
  | .coapTimeout seconds => { client.retry with coapTimeout := seconds }
  | _ => client.retry

section Steps

variable {config : Config} {env : Env} {client next : Client} {label : Label}

private theorem dtlsLteStateHandler_retry (type : LteState) (active : Bool) :
    (dtlsLteStateHandler env client type active).retry = client.retry := by
  have connected : (lteConnect env client).retry = client.retry := by
    unfold lteConnect
    dsimp only
    repeat' split
    · rfl
    · exact dtlsTrigger_retry false
    · rfl
  unfold dtlsLteStateHandler
  repeat' split
  all_goals first | rfl | exact connected

private theorem dtlsTimerTriggerFn_retry : (dtlsTimerTriggerFn client).retry = client.retry := by
  unfold dtlsTimerTriggerFn dtlsTrigger
  dsimp only
  repeat' split
  all_goals rfl

private theorem dtlsManualTrigger_retry (duration : Bool) : (dtlsManualTrigger client duration).retry = client.retry := by
  unfold dtlsManualTrigger dtlsTrigger
  dsimp only
  repeat' split
  all_goals rfl

private theorem shCmdSend_retry (message : Bool) : (shCmdSend client message).retry = client.retry := by
  unfold shCmdSend
  repeat' split
  · rfl
  · rfl
  · exact dtlsCmdTrigger_retry

/-- What a step does to the retry of a client. -/
theorem step_kept (moved : Step config client label next) : (client.retriedBy label).Kept next.retry := by
  unfold Step step at moved
  unfold Client.retriedBy
  cases event : label.event <;> rw [event] at moved <;>
    simp only [Option.some.injEq, Option.ite_none_right_eq_some] at moved ⊢
  case timer =>
    obtain ⟨-, rfl⟩ := moved
    exact .of_eq dtlsTimerTriggerFn_retry
  all_goals subst moved
  case loop => exact loop_kept
  case trigger send => exact .of_eq (dtlsTrigger_retry send)
  case button duration => exact .of_eq (dtlsManualTrigger_retry duration)
  case send message => exact .of_eq (shCmdSend_retry message)
  case cmdTrigger => exact .of_eq dtlsCmdTrigger_retry
  case lte type active => exact .of_eq (dtlsLteStateHandler_retry type active)
  all_goals exact .refl _

end Steps

end CoapsClient.DtlsClient

namespace CoapsClient.DtlsFailures

/-- `current_failures` and `handled_failures`. -/
structure Failures where
  current : UInt32 := 0
  handled : UInt32 := 0
deriving DecidableEq, Repr

/-- An `unsigned int` that is returned as an `int`. -/
def toInt (value : UInt32) : ℤ := if value.toNat < 2147483648 then value.toNat else (value.toNat : ℤ) - 4294967296

/-- `dtls_coap_inc_failures`. -/
def dtlsCoapIncFailures (failures : Failures) : ℤ × Failures :=
  let failures := if failures.current = failures.handled then { failures with current := failures.current + 1 } else failures
  (toInt failures.current, failures)

/-- `dtls_coap_next_failures`. -/
def dtlsCoapNextFailures (failures : Failures) : ℤ × Failures :=
  if failures.current = failures.handled then (-1, failures)
  else
    let failures := { failures with handled := failures.current }
    (toInt failures.current, failures)

/-- `dtls_coap_clear_failures`. -/
def dtlsCoapClearFailures (_ : Failures) : Failures := { current := 0, handled := 0 }

/-- `DTLS_CLIENT_RETRY_STRATEGY_DTLS_HANDSHAKE`. -/
def retryStrategyDtlsHandshake : ℕ := 1
/-- `DTLS_CLIENT_RETRY_STRATEGY_OFF`. -/
def retryStrategyOff : ℕ := 4
/-- `DTLS_CLIENT_RETRY_STRATEGY_RESTARTS`. -/
def retryStrategyRestarts : ℕ := 8

/-- `coap_appl_client_retry_strategy`. -/
def coapApplClientRetryStrategy (counter : ℤ) (dtls : Bool) : ℕ :=
  if dtls then
    if counter = 1 then 0
    else if counter = 2 then retryStrategyOff
    else if counter = 3 then retryStrategyDtlsHandshake
    else retryStrategyRestarts
  else
    if counter = 1 then 0
    else if counter = 2 then retryStrategyOff
    else retryStrategyRestarts

/-- The strategies that `dtls_loop` takes for the results of `dtls_coap_next_failures`. -/
def strategies (dtls : Bool) (results : List ℤ) : List ℕ :=
  (results.filter (0 < ·)).map (coapApplClientRetryStrategy · dtls)

end CoapsClient.DtlsFailures
