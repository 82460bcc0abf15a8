import CoapsClient.Soundness.RequestLife

/-! # A run that keeps the ledger

The sections of the loop are the only ones that set the request state. `Placed` is what they rely on
when they start a request or end a download, and `Orderly` is what the peer must not do.
-/

namespace CoapsClient.DtlsClient

/-- What is received completes no request that is over. -/
def OrderlyPoll (config : Config) (env : Env) (client : Client) : Poll → Prop
  | .data datagram =>
      Receives config env (fun client call => orderlyCall client call = true) client datagram ∧
        ((receiveData config env client datagram).requestState = .sendAck →
          orderlyAck config env (receiveData config env client datagram) = true)
  | _ => True

instance (config : Config) (env : Env) (client : Client) (poll : Poll) :
    Decidable (OrderlyPoll config env client poll) :=
  match poll with
  | .data _ => inferInstanceAs (Decidable (_ ∧ _))
  | .error => isTrue trivial
  | .timeout => isTrue trivial
  | .second => isTrue trivial
  | .socket _ => isTrue trivial

/-- The step completes no request that is over. -/
def Orderly (config : Config) (client : Client) (label : Label) : Prop :=
  label.event = .loop → client.place = .poll → OrderlyPoll config label.env client label.env.poll

instance (config : Config) (client : Client) (label : Label) : Decidable (Orderly config client label) :=
  inferInstanceAs (Decidable (_ → _ → _))

/-- A section that starts a request or ends a download finds no pending request, and one that has
started a request finds it before its first message. -/
def Client.Placed (client : Client) : Prop :=
  match client.place with
  | .downloadWait => client.requestState.pending = false
  | .downloadNext => client.requestState.pending = false
  | .wait => client.requestState.pending = false
  | .taken => client.requestState.pending = false
  | .prepare => client.requestState = .send ∧ client.dtlsFlight = 0
  | _ => True

section Connected

variable {config : Config} {env : Env} {client : Client}

/-- Whether the network is connected is decided by the modem alone. -/
private theorem closed_lteConnected (config : Config) (env : Env) (connected : Bool) :
    Closed config env fun client => client.lteConnected = connected where
  core := fun same holds => (congrArg Core.lteConnected same).trans holds
  success := (congrArg Steady.lteConnected coapSuccess_steady).trans
  failure := (congrArg Steady.lteConnected coapFailure_steady).trans
  mark := fun _ holds => holds
  trigger := fun {client} holds => by
    unfold dtlsTrigger
    repeat' split
    all_goals exact holds
  token := fun holds => holds
  handler := fun _ holds => holds

private theorem parseData_lteConnected (message : Message) :
    (parseData client message).1.lteConnected = client.lteConnected := by
  unfold parseData
  split
  · dsimp only
    split <;> split <;> rfl
  · rfl

private theorem receiveData_lteConnected (datagram : Option Datagram) :
    (receiveData config env client datagram).lteConnected = client.lteConnected := by
  have anything : Receives config env (fun _ _ => True) client datagram :=
    Receives.of_forall (fun _ _ => trivial) client datagram
  refine (closed_lteConnected config env client.lteConnected).receiveData ?_ anything rfl
  exact fun _ message _ same => (parseData_lteConnected message).trans same

end Connected

namespace Disciplined

variable {ledger : Ledger} {config : Config} {env : Env} {client : Client}

private theorem dtlsTrigger_view (send : Bool) : (dtlsTrigger client send).view = client.view := by
  unfold dtlsTrigger
  repeat' split
  all_goals rfl

/-- The other threads keep the ledger; they may only ask for a handshake. -/
theorem of_frame {next : Client} (kept : Disciplined ledger false client) (same : next.frame = client.frame)
    (raised : client.dtlsPending → next.dtlsPending) : Disciplined ledger false next := by
  have marks : next.marks = client.marks := congrArg Frame.marks same
  have state : next.requestState = client.requestState := congrArg Frame.requestState same
  have flight : next.dtlsFlight = client.dtlsFlight := congrArg Frame.dtlsFlight same
  have nextFlight : next.dtlsNextFlight = client.dtlsNextFlight := congrArg Frame.dtlsNextFlight same
  have waits : next.sendRequestPending = client.sendRequestPending :=
    congrArg Frame.sendRequestPending same
  constructor
  · rw [marks]
    exact kept.good
  · rw [state, marks]
    exact kept.ready
  · rw [state, marks]
    exact kept.incoming
  · rw [flight, state]
    exact fun flying => (kept.flight flying).imp_left raised
  · rw [nextFlight, flight]
    exact kept.next
  · rw [waits]
    exact fun waiting => .inl (raised (kept.waits waiting))

private theorem setDtlsPending_disciplined (kept : Disciplined ledger false client) :
    Disciplined ledger false (setDtlsPending config client) :=
  kept.of_frame rfl fun pending => by simp [setDtlsPending, pending]

private theorem loopNetwork_view : (loopNetwork env client).view = client.view := by
  unfold loopNetwork incFailures
  dsimp only
  repeat' split
  all_goals rfl

private theorem loopRateLimit_view : (loopRateLimit env client).view = client.view := by
  unfold loopRateLimit
  repeat' split
  all_goals rfl

private theorem loopSetup_view : (loopSetup env client).view = client.view := by
  unfold loopSetup dtlsTrigger
  dsimp only
  repeat' split
  all_goals rfl

private theorem loopRestarting_view : (loopRestarting env client).view = client.view := by
  unfold loopRestarting dtlsTrigger
  dsimp only
  repeat' split
  all_goals rfl

private theorem handleFailures_disciplined (kept : Disciplined ledger false client) :
    Disciplined ledger false (handleFailures config env client) := by
  unfold handleFailures
  have counted : Disciplined ledger false (nextFailures client).1 := by
    refine kept.of_view ?_
    unfold nextFailures
    split <;> rfl
  split
  · rename_i handled same
    rw [same] at counted
    exact counted
  · rename_i handled failures same
    rw [same] at counted
    split
    · exact counted
    · have retried : Disciplined ledger false (retryStrategy config env.strategy handled) := by
        unfold retryStrategy
        have shaken : Disciplined ledger false (if env.strategy.handshake then
            dtlsTrigger (setDtlsPending config handled) true else handled) := by
          split
          · exact counted.setDtlsPending_disciplined.of_view (dtlsTrigger_view true)
          · exact counted
        dsimp only
        generalize (if env.strategy.handshake then dtlsTrigger (setDtlsPending config handled) true
          else handled) = shook at shaken ⊢
        repeat' split
        all_goals exact shaken.of_view rfl
      dsimp only
      split
      · exact retried.of_view rfl
      · exact retried

private theorem loopFailures_disciplined (kept : Disciplined ledger false client) :
    Disciplined ledger false (loopFailures config env client) := by
  unfold loopFailures
  have handled : Disciplined ledger false (handleFailures config env client) :=
    kept.handleFailures_disciplined
  dsimp only
  split <;> exact handled.of_view rfl

/-- Sending again what a pending request has to send. -/
private theorem sendPending_disciplined (kept : Disciplined ledger false client)
    (pending : client.requestState.pending = true)
    (silent : ledger.Silences env client.lteConnected) :
    Disciplined ledger false
      (sendtoPeer config env (setRequestState config env client .send)) := by
  rw [setRequestState_eq (by simp)]
  exact (kept.setPending (kept.ready pending) rfl).sendtoPeer_disciplined (kept.ready pending) silent

private theorem sendAgain_disciplined (kept : Disciplined ledger false client)
    (pending : client.requestState.pending = true)
    (silent : ledger.Silences env client.lteConnected) :
    Disciplined ledger false (sendAgain config env client) := by
  have reset : Disciplined ledger false { client with loops := 0, retransmission := 0 } :=
    kept.of_view rfl
  exact reset.sendPending_disciplined pending silent

theorem go (kept : Disciplined ledger false client) (place : Section) :
    Disciplined ledger false (client.go place) :=
  kept.of_view rfl

private theorem loopSocket_disciplined (kept : Disciplined ledger false client)
    (silent : ledger.Silences env client.lteConnected) :
    Disciplined ledger false (loopSocket config env client) := by
  unfold loopSocket
  split
  · exact kept.go _
  · have lte : (checkSocket client env.socketError).1.lteConnected = client.lteConnected :=
      congrArg Core.lteConnected (checkSocket_core _)
    have checked := kept.of_view (checkSocket_view env.socketError)
    rw [← lte] at silent
    dsimp only
    generalize (checkSocket client env.socketError).1 = socket at checked silent ⊢
    have opened : Disciplined ledger false (reopenSocket socket) := checked.of_view rfl
    split
    · split
      · rename_i sending
        refine (opened.sendAgain_disciplined ?_ silent).go _
        rcases sending.2 with sent | sent <;> simp [sent, RequestState.pending]
      · exact opened.go _
    · exact checked.go _

private theorem downloadCanceled_disciplined (kept : Disciplined ledger false client)
    (idle : client.requestState.pending = false) :
    Disciplined ledger false (downloadCanceled config env client) := by
  unfold downloadCanceled
  split
  · have reset : Disciplined ledger false { client with downloadProgress := 0 } := kept.of_view rfl
    rw [setRequestState_eq (by simp)]
    exact reset.setIdle (kept.flight_eq_zero idle) (.inr rfl)
  · exact kept

private theorem loopDownload_disciplined (kept : Disciplined ledger false client) :
    Disciplined ledger false (loopDownload config env client) := by
  unfold loopDownload
  split
  · exact kept.go _
  · rename_i idle
    split
    · split <;> exact kept.of_view rfl
    · exact (kept.downloadCanceled_disciplined (by simpa using idle)).go _

/-- A new request may be completed. -/
theorem start (kept : Disciplined ledger false client) :
    Disciplined ledger false { client.mark .start with requestState := .send } where
  good := ledger.good_snoc kept.good (by simp [Mark.completes])
  ready := fun _ => ledger.ready_start
  incoming := by simp
  flight := fun flying => ⟨(kept.flight flying).1, rfl⟩
  next := kept.next
  waiting := fun waiting => .inl (kept.waits waiting)

private theorem otherRequest_view (handler : Handler) : (otherRequest env client handler).view = client.view := by
  unfold otherRequest
  dsimp only
  split <;> rfl

private theorem downloadRequest_disciplined (kept : Disciplined ledger false client)
    (silent : ledger.Silences env client.lteConnected) :
    Disciplined ledger false (downloadRequest config env client) := by
  unfold downloadRequest
  have reset : Disciplined ledger false { client with loops := 0 } := kept.of_view rfl
  dsimp only
  rw [setRequestState_eq (by simp)]
  have started := reset.start
  generalize asked : otherRequest env _ .update = request
  have view : request.view = Client.view { Client.mark { client with loops := 0 } .start with
      requestState := .send } := by
    rw [← asked]
    exact otherRequest_view .update
  have lte : request.lteConnected = client.lteConnected := by
    rw [← asked]
    exact (closed_lteConnected config env client.lteConnected).otherRequest (by simp) rfl
  have marks : request.marks = client.marks ++ [.start] := congrArg View.marks view
  rw [← lte] at silent
  refine (started.of_view view).sendtoPeer_disciplined ?_ silent
  rw [marks]
  exact ledger.ready_start

private theorem loopDownloadNext_disciplined (kept : Disciplined ledger false client)
    (idle : client.requestState.pending = false)
    (silent : ledger.Silences env client.lteConnected) :
    Disciplined ledger false (loopDownloadNext config env client) := by
  unfold loopDownloadNext
  split
  · split
    · exact kept.go _
    · have counted : Disciplined ledger false (countDownload client) := kept.of_view rfl
      split
      · exact (counted.downloadRequest_disciplined silent).go _
      · exact (counted.of_view (dtlsTrigger_view true)).go _
  · exact (kept.downloadCanceled_disciplined idle).go _

private theorem expectIncoming_disciplined (kept : Disciplined ledger false client)
    (silent : ledger.resumes = false → client.lteIncomingData = true → ledger.ready client.marks) :
    Disciplined ledger false (expectIncoming config env client) := by
  unfold expectIncoming
  dsimp only
  split
  · rename_i incoming
    have idle : client.requestState.pending = false := by
      rcases incoming.2 with idle | idle <;> simp [idle, RequestState.pending]
    rw [setRequestState_eq (by simp)]
    exact {
      good := ledger.good_snoc kept.good (by simp [Mark.completes])
      ready := by simp [RequestState.pending]
      incoming := fun _ resumes => ledger.ready_snoc (silent resumes incoming.1)
        (by simp [Mark.completes]) (by simp)
      flight := fun flying => absurd (kept.flight_eq_zero idle) flying
      next := kept.next
      waiting := fun waiting => .inl (kept.waits waiting) }
  · exact kept.of_view rfl

private theorem adjustFirst_view (set : Bool) : (adjustFirst env client set).view = client.view := by
  unfold adjustFirst networkAdjustInitialTimeout
  dsimp only
  repeat' split
  all_goals rfl

private theorem timeoutSend_disciplined (kept : Disciplined ledger false client)
    (pending : client.requestState.pending = true) :
    Disciplined ledger false (timeoutSend config env client) := by
  unfold timeoutSend
  split
  · have view : (adjustFirst env { client with lteConnectedToSend := false, loops := 0 } true).view =
        client.view := adjustFirst_view true
    have adjusted := kept.of_view view
    refine adjusted.setReceive (adjusted.ready ?_)
    exact (congrArg (fun view => view.requestState.pending) view).trans pending
  · split
    · exact kept.coapFailure_disciplined (kept.ready pending)
    · exact kept

private theorem resend_disciplined (kept : Disciplined ledger false client)
    (pending : client.requestState.pending = true)
    (silent : ledger.Silences env client.lteConnected) :
    Disciplined ledger false (resend config env client) := by
  unfold resend
  have view : (adjustFirst env { client with loops := 0 } false).view = client.view :=
    adjustFirst_view false
  have lte : (adjustFirst env { client with loops := 0 } false).lteConnected = client.lteConnected :=
    congrArg Core.lteConnected (adjustFirst_core false)
  have adjusted := kept.of_view view
  have state : (adjustFirst env { client with loops := 0 } false).requestState.pending = true :=
    (congrArg (fun view => view.requestState.pending) view).trans pending
  rw [← lte] at silent
  generalize adjustFirst env { client with loops := 0 } false = first at adjusted state silent ⊢
  have repeated : Disciplined ledger false { first with
      timeout := first.timeout * 2 % 65536, retransmission := first.retransmission + 1 } :=
    adjusted.of_view rfl
  exact repeated.sendPending_disciplined state silent

private theorem timeoutReceive_disciplined (kept : Disciplined ledger false client)
    (pending : client.requestState.pending = true)
    (silent : ledger.Silences env client.lteConnected) :
    Disciplined ledger false (timeoutReceive config env client) := by
  unfold timeoutReceive
  split
  · split
    · exact kept.resend_disciplined pending silent
    · exact kept.coapFailure_disciplined (kept.ready pending)
  · exact kept

private theorem setNone (kept : Disciplined ledger false client) (idle : client.requestState.pending = false) :
    Disciplined ledger false (setRequestState config env client .none) := by
  rw [setRequestState_eq (by simp)]
  exact kept.setIdle (kept.flight_eq_zero idle) (.inl rfl)

private theorem dtlsCmdTrigger_view : (dtlsCmdTrigger client).view = client.view := by
  unfold dtlsCmdTrigger dtlsTrigger
  repeat' split
  all_goals rfl

private theorem timeoutIncoming_disciplined (kept : Disciplined ledger false client)
    (idle : client.requestState.pending = false) :
    Disciplined ledger false (timeoutIncoming config env client) := by
  unfold timeoutIncoming
  have cleared : Disciplined ledger false { client with lteIncomingConnect := false } := kept.of_view rfl
  split
  · exact cleared.of_view dtlsCmdTrigger_view
  · split
    · exact kept
    · exact cleared.setNone idle

private theorem pollTimeout_disciplined (kept : Disciplined ledger false client)
    (silent : ledger.Silences env client.lteConnected) :
    Disciplined ledger false (pollTimeout config env client) := by
  unfold pollTimeout
  have counted : Disciplined ledger false { client with loops := client.loops + 1 } := kept.of_view rfl
  dsimp only
  split
  · rename_i state
    exact counted.timeoutSend_disciplined (by simp [state, RequestState.pending])
  · rename_i state
    exact counted.timeoutReceive_disciplined (by simp [state, RequestState.pending]) silent
  · rename_i state
    split
    · exact counted.coapFailure_disciplined (kept.ready (by simp [state, RequestState.pending]))
    · exact counted
  · rename_i state
    unfold timeoutSuspend
    split
    · exact counted.setNone (by simp [state, RequestState.pending])
    · exact counted
  · rename_i state
    exact counted.timeoutIncoming_disciplined (by simp [state, RequestState.pending])
  · exact counted

private theorem loopPoll_disciplined (kept : Disciplined ledger false client)
    (orderly : OrderlyPoll config env client env.poll)
    (silent : ledger.Silences env client.lteConnected) :
    Disciplined ledger false (loopPoll config env client) := by
  unfold loopPoll
  split
  · exact kept.go _
  · exact (kept.pollTimeout_disciplined silent).go _
  · rename_i datagram polled
    rw [polled] at orderly
    have received : Disciplined ledger true (receiveData config env client datagram) :=
      kept.receiveData_disciplined orderly.1
    have lte : (receiveData config env client datagram).lteConnected = client.lteConnected :=
      receiveData_lteConnected datagram
    rw [← lte] at silent
    have handled := received.afterReceive_disciplined orderly.2 silent
    refine go (of_view ?_ (checkWakeup_view _)) _
    unfold pollData endConnection
    split
    · exact handled.setDtlsPending_disciplined
    · exact handled
  · exact (kept.of_view (checkWakeup_view _)).go _
  · exact ((kept.of_view (checkSocket_view _)).of_view (checkWakeup_view _)).go _

private theorem loopTaken_disciplined (kept : Disciplined ledger false client) :
    Disciplined ledger false (loopTaken config env client) := by
  unfold loopTaken
  split
  · split
    · exact kept.of_view rfl
    · have cleared : Disciplined ledger false { client with triggerSend := false, loops := 0 } :=
        kept.of_view rfl
      dsimp only
      rw [setRequestState_eq (by simp)]
      exact cleared.start.of_view rfl
  · exact kept.go _

private theorem preparePost_view (env : Env) (client : Client) : (preparePost env client).view =
    { client.view with marks := (preparePost env client).marks } := by
  unfold preparePost otherRequest
  dsimp only
  repeat' split
  all_goals rfl

private theorem preparePost_lteConnected (env : Env) (client : Client) :
    (preparePost env client).lteConnected = client.lteConnected := by
  unfold preparePost otherRequest
  dsimp only
  repeat' split
  all_goals rfl

private theorem preparePost_disciplined (kept : Disciplined ledger false client) :
    Disciplined ledger false (preparePost env client) := by
  unfold preparePost
  split
  · exact kept.of_view (otherRequest_view .prov)
  · have posted : Disciplined ledger false (client.mark (.post client.tokenFactory)) :=
      kept.mark (by simp [Mark.completes]) (by simp)
    exact posted.of_view rfl

private theorem loopPrepare_disciplined (kept : Disciplined ledger false client)
    (state : client.requestState = .send) (flight : client.dtlsFlight = 0)
    (silent : ledger.Silences env client.lteConnected) :
    Disciplined ledger false (loopPrepare config env client) := by
  unfold loopPrepare
  have view : (powerOn env client).view = client.view := by
    unfold powerOn
    split <;> rfl
  have lte : (powerOn env client).lteConnected = client.lteConnected :=
    (closed_lteConnected config env client.lteConnected).powerOn rfl
  have on := kept.of_view view
  have started : (powerOn env client).requestState = .send :=
    (congrArg View.requestState view).trans state
  have landed : (powerOn env client).dtlsFlight = 0 := (congrArg View.dtlsFlight view).trans flight
  rw [← lte] at silent
  dsimp only
  generalize powerOn env client = powered at on started landed silent ⊢
  have reset : Disciplined ledger false { powered with
      retransmission := 0, timeout := powered.coapTimeout } := on.of_view rfl
  have prepared : Disciplined ledger false (preparePost env { powered with
      retransmission := 0, timeout := powered.coapTimeout }) := reset.preparePost_disciplined
  have same := preparePost_view env { powered with
    retransmission := 0, timeout := powered.coapTimeout }
  have link := preparePost_lteConnected env { powered with
    retransmission := 0, timeout := powered.coapTimeout }
  rw [← link] at silent
  generalize preparePost env { powered with retransmission := 0, timeout := powered.coapTimeout } =
    request at prepared same silent ⊢
  have sending : request.requestState = .send := (congrArg View.requestState same).trans started
  have noFlight : request.dtlsFlight = 0 := (congrArg View.dtlsFlight same).trans landed
  have ready := prepared.ready (by simp [sending, RequestState.pending])
  split
  · exact (prepared.coapFailure_disciplined ready).go _
  · split
    · exact (prepared.sendtoPeer_disciplined ready silent).go _
    · rw [setRequestState_eq (by simp)]
      exact (prepared.setIdle noFlight (.inl rfl)).go _

end Disciplined

section Placed

variable {config : Config} {env : Env} {client : Client}

/-- Most sections lead to places that ask for nothing. -/
theorem Client.Placed.of_go {place : Section}
    (free : place ∉ [.downloadWait, .downloadNext, .wait, .taken, .prepare]) : (client.go place).Placed := by
  cases place with
  | downloadWait => simp at free
  | downloadNext => simp at free
  | wait => simp at free
  | taken => simp at free
  | prepare => simp at free
  | _ => trivial

private theorem loopSelect_placed : (loopSelect config env client).Placed := by
  unfold loopSelect
  dsimp only
  generalize expectIncoming config env client = selected
  cases polls : selected.polls with
  | true => exact Client.Placed.of_go (by simp)
  | false =>
    change selected.requestState.pending = false
    unfold Client.polls at polls
    split at polls
    · exact polls
    · simp only [bne_eq_false_iff_eq] at polls
      rw [polls]
      rfl

private theorem loopDownload_placed : (loopDownload config env client).Placed := by
  unfold loopDownload
  split
  · exact Client.Placed.of_go (by simp)
  · rename_i idle
    have idle : client.requestState.pending = false := by simpa using idle
    split
    · split <;> exact idle
    · exact Client.Placed.of_go (by simp)

private theorem loopDownloadWait_placed (idle : client.requestState.pending = false) :
    (loopDownloadWait env client).Placed := by
  unfold loopDownloadWait
  split
  · split <;> exact idle
  · exact idle

private theorem loopTaken_placed (flight : client.dtlsFlight = 0) : (loopTaken config env client).Placed := by
  unfold loopTaken
  split
  · split
    · exact Client.Placed.of_go (by simp)
    · dsimp only
      rw [Disciplined.setRequestState_eq (by simp)]
      exact ⟨rfl, flight⟩
  · exact Client.Placed.of_go (by simp)

/-- The places that ask for nothing. -/
theorem Client.Placed.of_place
    (free : client.place ∉ [.downloadWait, .downloadNext, .wait, .taken, .prepare]) : client.Placed :=
  of_go free

private theorem loopWait_placed (idle : client.requestState.pending = false) : (loopWait client).Placed := by
  unfold loopWait
  split
  · exact idle
  · exact Client.Placed.of_go (by simp)

/-- Sections that lead to places that ask for nothing. -/
private theorem loop_free (place : client.place ∈ [.top, .nop, .network, .rateLimit, .rateWait, .failures, .setup,
    .restart, .restarting, .ready, .socket, .downloadNext, .poll, .prepare]) :
    (loop config env client).place ∉ [.downloadWait, .downloadNext, .wait, .taken, .prepare] := by
  cases same : client.place <;> simp [same] at place <;> simp only [loop, same]
  · unfold loopTop
    split <;> simp [Client.go]
  · unfold loopNop
    split <;> simp [Client.go]
  · unfold loopNetwork
    dsimp only
    split <;> simp [Client.go]
  · unfold loopRateLimit
    repeat' split
    all_goals simp [Client.go]
  · unfold loopRateWait
    split <;> simp [Client.go]
  · unfold loopFailures
    dsimp only
    split <;> simp [Client.go]
  · simp [loopSetup, Client.go]
  · unfold loopRestart
    split <;> simp [Client.go]
  · simp [loopRestarting, Client.go]
  · unfold loopReady
    split <;> simp [Client.go]
  · unfold loopSocket
    dsimp only
    repeat' split
    all_goals simp [Client.go]
  · unfold loopDownloadNext
    repeat' split
    all_goals simp [Client.go]
  · unfold loopPoll
    split <;> simp [Client.go]
  · unfold loopPrepare
    dsimp only
    repeat' split
    all_goals simp [Client.go]

end Placed

namespace Disciplined

variable {ledger : Ledger} {config : Config} {env : Env} {client : Client}

private theorem loop_disciplined (kept : Disciplined ledger false client) (placed : client.Placed)
    (orderly : client.place = .poll → OrderlyPoll config env client env.poll)
    (silent : ledger.Silences env client.lteConnected)
    (undisturbed : ledger.resumes = false → client.place = .select → client.lteIncomingData = true →
      ledger.ready client.marks) :
    Disciplined ledger false (loop config env client) := by
  unfold Client.Placed at placed
  cases place : client.place <;> rw [place] at placed <;> simp only [loop, place]
  case top => exact kept.go _
  case nop =>
    unfold loopNop
    split <;> exact kept.of_view rfl
  case network => exact kept.of_view loopNetwork_view
  case rateLimit => exact kept.of_view loopRateLimit_view
  case rateWait => exact kept.go _
  case failures => exact kept.loopFailures_disciplined
  case setup => exact kept.of_view loopSetup_view
  case restart =>
    unfold loopRestart
    split <;> exact kept.of_view rfl
  case restarting => exact kept.of_view loopRestarting_view
  case ready => exact kept.go _
  case socket => exact kept.loopSocket_disciplined silent
  case download => exact kept.loopDownload_disciplined
  case downloadWait =>
    unfold loopDownloadWait
    split <;> exact kept.of_view rfl
  case downloadNext => exact kept.loopDownloadNext_disciplined placed silent
  case select =>
    exact (kept.expectIncoming_disciplined fun resumes => undisturbed resumes place).go _
  case poll => exact kept.loopPoll_disciplined (orderly place) silent
  case wait =>
    unfold loopWait
    split <;> exact kept.of_view rfl
  case taken => exact kept.loopTaken_disciplined
  case prepare => exact kept.loopPrepare_disciplined placed.1 placed.2 silent

private theorem loop_placed (kept : Disciplined ledger false client) (placed : client.Placed) :
    (loop config env client).Placed := by
  unfold Client.Placed at placed
  cases place : client.place <;> rw [place] at placed
  case download =>
    simp only [loop, place]
    exact loopDownload_placed
  case downloadWait =>
    simp only [loop, place]
    exact loopDownloadWait_placed placed
  case select =>
    simp only [loop, place]
    exact loopSelect_placed
  case wait =>
    simp only [loop, place]
    exact loopWait_placed placed
  case taken =>
    simp only [loop, place]
    exact loopTaken_placed (kept.flight_eq_zero placed)
  all_goals exact Client.Placed.of_place (loop_free (by simp [place]))

end Disciplined

/-- What every reachable client keeps. -/
structure Client.Kept (ledger : Ledger) (client : Client) : Prop where
  disciplined : Disciplined ledger false client
  placed : client.Placed

theorem Client.Placed.of_frame {client next : Client} (placed : client.Placed)
    (same : next.frame = client.frame) : next.Placed := by
  have state : next.requestState = client.requestState := congrArg Frame.requestState same
  have flight : next.dtlsFlight = client.dtlsFlight := congrArg Frame.dtlsFlight same
  have place : next.place = client.place := congrArg Frame.place same
  unfold Client.Placed at placed ⊢
  rw [state, flight, place]
  exact placed

/-- An orderly step keeps the ledger. A ledger that lets no request go on without a message asks for a
silent step. -/
theorem Client.Kept.step {ledger : Ledger} {config : Config} {client next : Client} {label : Label}
    (kept : client.Kept ledger) (moved : Step config client label next)
    (orderly : Orderly config client label)
    (silent : ledger.resumes = false → label.event = .loop → label.env.sending.messageLen = 0 →
      client.lteConnected = false)
    (undisturbed : ledger.resumes = false → label.event = .loop → client.place = .select →
      client.lteIncomingData = true → ledger.ready client.marks) :
    next.Kept ledger := by
  by_cases event : label.event = .loop
  · have result : loop config label.env client = next := by simpa [Step, DtlsClient.step, event] using moved
    subst result
    exact ⟨kept.disciplined.loop_disciplined kept.placed (orderly event)
      (fun resumes => silent resumes event) (fun resumes => undisturbed resumes event),
      kept.disciplined.loop_placed kept.placed⟩
  · obtain ⟨same, raised⟩ := thread_frame event moved
    exact ⟨kept.disciplined.of_frame same raised, kept.placed.of_frame same⟩

theorem initial_kept {ledger : Ledger} (good : ledger.good []) (config : Config) (token interval : ℕ) :
    (initial config token interval).Kept ledger where
  disciplined := {
    good := good
    ready := by simp [initial, RequestState.pending]
    incoming := by simp [initial]
    flight := by simp [initial]
    next := by simp [initial]
    waiting := by simp [initial] }
  placed := trivial

end CoapsClient.DtlsClient
