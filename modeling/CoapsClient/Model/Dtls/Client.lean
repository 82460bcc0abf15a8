import CoapsClient.Model.Dtls.Appl
import CoapsClient.Machine.Path

/-! # The requests of the DTLS client

The state of `dtls_client.c` and the functions that start, send and complete a request. What the rest
of the system answers in a step is its `Env`. The TinyDTLS library calls back into the client; which
calls it makes is part of the answers. The messages of the update and the provisioning client are
parsed there, so only the result stands in a message.

`marks` and `draws` record what happened, oldest first; no branch reads them. Times, statistics, the LEDs, the RAI
mode, the log and the texts of triggers and causes are left out.
-/

namespace CoapsClient.DtlsClient

open ApplUpdate (ParseResult coapClientMatch)

/-- `request_state_t`. -/
inductive RequestState where
  | none
  | send
  | receive
  | waitResponse
  | sendAck
  | waitSuspend
  | incomingData
deriving DecidableEq, Repr

/-- `dtls_pending_request`. -/
def RequestState.pending : RequestState → Bool
  | .none => false
  | .waitSuspend => false
  | .incomingData => false
  | _ => true

/-- `coap_handler` and the `result_handler` that comes with it. -/
inductive Handler where
  /-- No request was started. -/
  | none
  | appl
  | prov
  | update
deriving DecidableEq, Repr

/-- What a run records. -/
inductive Mark where
  /-- `request_state` is set to `SEND` by a trigger or a download step. -/
  | start
  /-- `dtls_coap_success`. -/
  | success
  /-- `dtls_coap_failure`. -/
  | failure
  /-- `sendto_peer` finds no message. -/
  | cancel
  /-- `request_state` is set to `INCOMING_DATA`. -/
  | incoming
  /-- `coap_appl_client_prepare_post`, with the token it draws. -/
  | post (token : ℕ)
  /-- The application client takes a message for a response to the request with this token. -/
  | response (token : ℕ)
  /-- The application client appends commands of such a response. -/
  | commands (token : ℕ) (commands : List Command)
deriving DecidableEq, Repr

/-- The sections of `dtls_loop`; other threads run between them. -/
inductive Section where
  | top
  | nop
  | network
  | rateLimit
  | rateWait
  | failures
  | setup
  | restart
  | restarting
  | ready
  | socket
  | download
  | downloadWait
  | downloadNext
  | select
  | poll
  | wait
  | taken
  | prepare
deriving DecidableEq, Repr

/-- The options of the build. -/
structure Config where
  /-- `CONFIG_COAP_FAILURE_SEND_INTERVAL`. -/
  failureInterval : ℕ := 0
  /-- `CONFIG_ADC_SCALE`. -/
  adcScale : Bool := false
  /-- `CONFIG_UDP_WAKEUP_ENABLE`. -/
  wakeup : Bool := false
  /-- `PROTOCOL_COAP_DTLS`; there is a context. -/
  dtls : Bool := false
  /-- `keep_connection`. -/
  keepConnection : Bool := true
deriving DecidableEq, Repr

structure Client where
  requestState : RequestState := .none
  handler : Handler := .none
  /-- `get_message` is `coap_client_message`. -/
  sendsAck : Bool := false
  /-- `fd` is open. -/
  socket : Bool := false
  sendRequestPending : Bool := false
  dtlsPending : Bool := false
  dtlsNextFlight : Bool := false
  dtlsFlight : ℕ := 0
  noResponse : Bool := false
  downloadProgress : ℕ := 0
  retransmission : ℕ := 0
  timeout : ℕ := 3
  lteReady : Bool := false
  lteConnected : Bool := false
  lteSleeping : Bool := false
  lteReady1s : Bool := false
  ltePsmActive : Bool := false
  lteSend : Bool := false
  lteConnectedToSend : Bool := false
  lteIncomingData : Bool := false
  lteIncomingConnect : Bool := false
  rateLimit : Bool := false
  rateLimitRestart : Bool := false
  setupMode : Bool := false
  initialSuccess : Bool := false
  /-- `TRIGGER_SEND`. -/
  triggerSend : Bool := false
  triggerDuration : Bool := false
  /-- `dtls_trigger_msg` is given. -/
  triggerMsg : Bool := false
  /-- `dtls_timer_trigger_work` is scheduled. -/
  timerWork : Bool := false
  sendInterval : BitVec 32 := 0
  currentFailures : ℕ := 0
  handledFailures : ℕ := 0
  ltePowerOff : Bool := false
  ltePowerOnOff : Bool := false
  dtlsBufferLen : ℕ := 0
  /-- `send_buffer_len` is not 0. -/
  sendBuffer : Bool := false
  coapTimeout : ℕ := 3
  tokenFactory : ℕ := 0
  /-- How many tokens were drawn. -/
  draws : ℕ := 0
  /-- `appl_context.token`. -/
  applToken : ℕ := 0
  /-- `appl_context.mid`. -/
  applMid : ℕ := 0
  /-- `appl_reboots`. -/
  reboots : Bool := false
  /-- `modem_at_is_on`. -/
  modemOn : Bool := true
  /-- Where `dtls_loop` is. -/
  place : Section := .top
  loops : ℕ := 0
  restartingModem : Bool := false
  restartingModemPowerOff : Bool := false
  networkNotFound : Bool := false
  marks : List Mark := []
deriving DecidableEq, Repr

/-- The result of `sendto`. -/
inductive Sendto where
  | sent
  /-- `EAGAIN` or `ECANCELED`. -/
  | limited
  | failed
deriving DecidableEq, Repr

/-- A record the library writes. -/
structure Record where
  len : ℕ := 64
  sendto : Sendto := .sent
deriving DecidableEq, Repr

/-- A received message. -/
structure Message where
  /-- What the application client parses; `none` is malformed. -/
  packet : Option Response := none
  /-- Whether an ACK for it can be built. -/
  ack : Bool := true
  /-- The result of another client, `none` for an error. -/
  other : Option ParseResult := none
  /-- The data is the text of a wakeup. -/
  wakeup : Bool := false
deriving DecidableEq, Repr

/-- A call of the library into the client. -/
inductive Callback where
  | write (record : Record)
  | read (message : Message)
  /-- A warning or a fatal alert. -/
  | alert
  /-- `DTLS_EVENT_CONNECT`. -/
  | connect
  /-- `DTLS_EVENT_CONNECTED`. -/
  | connected
deriving DecidableEq, Repr

/-- What `recvfrom` gets: a message, or with DTLS the calls of the library for it. -/
structure Datagram where
  message : Message := {}
  callbacks : List Callback := []
  /-- The result of sending what is left in the buffer. -/
  flush : Sendto := .sent
deriving DecidableEq, Repr

/-- The answers to one call of `sendto_peer`. -/
structure Sending where
  /-- The length of the message of the handler. -/
  messageLen : ℕ := 64
  /-- The records of `dtls_reset_peer`. -/
  closing : List Record := []
  /-- The library starts a handshake. -/
  connect : Bool := false
  records : List Record := []
  /-- The result of the library. -/
  result : Int := 0
  sendto : Sendto := .sent
  socketError : Bool := false
deriving DecidableEq, Repr

/-- The result of `poll`. -/
inductive Poll where
  | error
  | timeout
  /-- Data, or an error of `recvfrom`. -/
  | data (datagram : Option Datagram)
  /-- Only the second socket has data. -/
  | second
  /-- `POLLERR` or `POLLNVAL`. -/
  | socket (socketError : Bool)
deriving DecidableEq, Repr

/-- The result of `coap_appl_client_retry_strategy`, for a client that is not restarted. -/
structure Strategy where
  handshake : Bool := false
  off : Bool := false
  offline : Bool := false
deriving DecidableEq, Repr

structure Env where
  /-- `appl_settings_is_provisioning`. -/
  provisioning : Bool := false
  /-- `appl_update_coap_pending`. -/
  updatePending : Bool := false
  /-- `appl_update_coap_pending_next`. -/
  updatePendingNext : Bool := false
  /-- `modem_get_time_scale`. -/
  timeScale : ℕ := 100
  /-- `network_additional_timeout`. -/
  additionalTimeout : ℕ := 3
  /-- The result of `dtls_network_searching`, reversed. -/
  networkFound : Bool := true
  /-- `modem_read_rate_limit_time`. -/
  rateLimitTime : Option ℕ := none
  strategy : Strategy := {}
  setupRequest : Bool := false
  setupRestart : Bool := false
  /-- `modem_start` switches the modem on. -/
  modemStarts : Bool := true
  socketError : Bool := false
  sending : Sending := {}
  poll : Poll := .timeout
  /-- A wakeup arrives at the second socket. -/
  wakeup : Bool := false
  /-- `wakeup_on_incoming_connect_timeout` is over. -/
  connectTimeout : Bool := false
  /-- A connection starts the timeout of a wakeup. -/
  wakeupOnConnect : Bool := false
  /-- The result of `coap_appl_client_prepare_post` or `coap_prov_client_prepare_post`. -/
  post : Int := 64
  /-- Another client than that of the application draws a token. -/
  drawsToken : Bool := true
  nextMid : ℕ := 0
  /-- `COAP_SEND_FLAG_NO_RESPONSE`. -/
  noResponse : Bool := false
deriving Repr

/-- `get_send_interval`. -/
def Client.interval (client : Client) : ℕ := (client.sendInterval &&& 0xffffff#32).toNat

/-- `set_next_send_interval`. -/
def setNextSendInterval (client : Client) (interval : ℕ) : Client × Bool :=
  let base := client.sendInterval &&& 0xffffff#32
  if base.toNat = interval then ({ client with sendInterval := base }, false)
  else ({ client with sendInterval := base ||| (BitVec.ofNat 32 interval <<< 24) }, true)

/-- `dtls_coap_inc_failures`. -/
def incFailures (client : Client) : Client :=
  if client.currentFailures = client.handledFailures then
    { client with currentFailures := client.currentFailures + 1 }
  else client

/-- `dtls_coap_next_failures`: the failures, if they are not handled. -/
def nextFailures (client : Client) : Client × Option ℕ :=
  if client.currentFailures = client.handledFailures then (client, none)
  else ({ client with handledFailures := client.currentFailures }, some client.currentFailures)

/-- `dtls_coap_clear_failures`. -/
def clearFailures (client : Client) : Client :=
  { client with currentFailures := 0, handledFailures := 0 }

/-- `dtls_pending`. -/
def setDtlsPending (config : Config) (client : Client) : Client :=
  { client with dtlsPending := client.dtlsPending || config.dtls }

def Client.mark (client : Client) (mark : Mark) : Client :=
  { client with marks := client.marks ++ [mark] }

/-- `DOWNLOAD_PROGRESS_STATUS_MESSAGE`. -/
def progressStatusMessage : ℕ := 32
/-- `DOWNLOAD_PROGRESS_LAST_STATUS_MESSAGE`. -/
def progressLastStatusMessage : ℕ := 33
/-- `DOWNLOAD_PROGRESS_REBOOT`. -/
def progressReboot : ℕ := 34
/-- `COAP_MAX_RETRANSMISSION`. -/
def maxRetransmission : ℕ := 3

/-- The end of `dtls_coap_next`, when no custom request is waiting. -/
def scheduleNext (client : Client) (interval : ℕ) : Client :=
  let client := { client with triggerMsg := false }
  let (special, changed) := setNextSendInterval client interval
  if 0 < interval ∧ changed then { special with timerWork := true }
  else
    let client := if 0 < interval then special else client
    { client with timerWork := client.timerWork || decide (0 < client.interval) }

/-- `dtls_coap_next`. The state it sets is neither `RECEIVE` nor kept for a reason. -/
def coapNext (client : Client) (interval : ℕ) : Client :=
  let client := { client with
    ltePowerOff := client.ltePowerOff || client.ltePowerOnOff
    modemOn := client.modemOn && !client.ltePowerOnOff }
  let client := { client with requestState := if client.ltePowerOff then .none else .waitSuspend }
  if client.sendBuffer then { client with triggerSend := true, triggerMsg := true }
  else scheduleNext client interval

/-- `result_handler`: the client and the interval it asks for. -/
def resultHandler (config : Config) (env : Env) (client : Client) (success : Bool) : Client × ℕ :=
  match client.handler with
  | .none => (client, 0)
  | .appl => (client, 0)
  | .prov =>
      if success ∧ ¬ env.provisioning then (setDtlsPending config client, 5) else (client, 0)
  | .update =>
      if success then
        if env.updatePending then (client, 0)
        else ({ client with downloadProgress := progressLastStatusMessage }, 2)
      else ({ client with downloadProgress := 0 }, 2)

/-- `dtls_coap_success`. -/
def coapSuccess (config : Config) (env : Env) (client : Client) : Client :=
  let client := { clearFailures (client.mark .success) with initialSuccess := true }
  let (client, interval) := resultHandler config env client true
  coapNext { client with rateLimit := false, rateLimitRestart := false } interval

/-- `dtls_coap_failure`. -/
def coapFailure (config : Config) (env : Env) (client : Client) : Client :=
  let client := client.mark .failure
  let client := if client.initialSuccess then incFailures client else client
  let (client, interval) := resultHandler config env client false
  let client :=
    if client.dtlsPending then { client with dtlsNextFlight := false, dtlsFlight := 0 } else client
  coapNext client (if interval = 0 then config.failureInterval else interval)

/-- `dtls_coap_set_request_state`. -/
def setRequestState (config : Config) (env : Env) (client : Client) (state : RequestState) : Client :=
  if client.requestState = state then client
  else if state = .receive ∧ client.noResponse ∧ client.dtlsFlight = 0 then
    coapSuccess config env client
  else { client with requestState := state }

/-- `dtls_trigger`. -/
def dtlsTrigger (client : Client) (send : Bool) : Client :=
  if client.reboots then client
  else if client.requestState.pending then client
  else { client with triggerSend := send, triggerMsg := true }

/-- The modem is off, and not because of the power off between two requests. -/
def Client.modemOff (client : Client) : Bool := !client.ltePowerOff && !client.modemOn

/-- `dtls_cmd_trigger`, for a mode that sends. -/
def dtlsCmdTrigger (client : Client) : Client :=
  if client.modemOff then client
  else if client.requestState.pending then client
  else dtlsTrigger client true

/-- `dtls_manual_trigger`. -/
def dtlsManualTrigger (client : Client) (duration : Bool) : Client :=
  if client.setupMode then client
  else
    let client := { client with triggerDuration := duration }
    if duration then dtlsTrigger client false
    else if client.modemOff then client
    else dtlsTrigger client true

/-- The seconds after which a busy `dtls_timer_trigger_fn` is called again. -/
def busyInterval (sendInterval : BitVec 32) : Int :=
  let special := sendInterval.sshiftRight 24
  if special ≠ 0 then special.toInt else sendInterval.toInt

/-- `dtls_timer_trigger_fn`. -/
def dtlsTimerTriggerFn (client : Client) : Client :=
  let expired := { client with timerWork := false }
  let next :=
    if !client.modemOff && !client.requestState.pending then dtlsTrigger expired true
    else { expired with timerWork := decide (0 < busyInterval client.sendInterval) }
  { next with sendInterval := client.sendInterval &&& 0xffffff#32 }

/-- `check_wakeup` for the data of a wakeup. -/
def checkWakeup (config : Config) (client : Client) (wakeup : Bool) : Client :=
  if config.wakeup ∧ wakeup then dtlsCmdTrigger { client with lteIncomingConnect := false } else client

/-- `network_timeout_scale`. -/
def networkTimeoutScale (env : Env) (timeout : ℕ) : ℕ :=
  if 100 < env.timeScale then timeout * env.timeScale / 100 % 65536 else timeout

/-- `network_adjust_initial_timeout`. -/
def networkAdjustInitialTimeout (env : Env) (client : Client) (set : Bool) : Client :=
  let timeout := networkTimeoutScale env client.coapTimeout
  if set ∨ client.timeout < timeout then { client with timeout } else client

/-- The first message of a flight is sent. -/
def startFlight (client : Client) : Client :=
  if client.dtlsNextFlight then
    { client with dtlsNextFlight := false, dtlsFlight := (client.dtlsFlight + 2) % 256 }
  else client

/-- `send_to_peer`. -/
def sendToPeer (env : Env) (client : Client) (len : ℕ) (sendto : Sendto) : Client × Int :=
  let first := client.retransmission = 0 ∧ (client.dtlsFlight = 0 ∨ client.dtlsNextFlight)
  let client := { client with lteConnectedToSend := false, lteSend := true }
  match sendto with
  | .failed => (client, -1)
  | .limited => ({ client with rateLimit := true }, 0)
  | .sent =>
      let client := startFlight { client with lteSend := !client.lteConnected }
      (if first then networkAdjustInitialTimeout env client true else client, len)

/-- `MAX_DTLS_BUF`. -/
def maxDtlsBuf : ℕ := 512

/-- `dtls_send_to_peer`. -/
def dtlsSendToPeer (env : Env) (client : Client) (record : Record) : Client × Int :=
  if 1 < client.dtlsFlight then
    let client :=
      if maxDtlsBuf < client.dtlsBufferLen + record.len then
        { (sendToPeer env client client.dtlsBufferLen record.sendto).1 with dtlsBufferLen := 0 }
      else client
    let client := { client with dtlsBufferLen := client.dtlsBufferLen + record.len }
    if record.len = 0 then sendToPeer env client record.len record.sendto else (client, record.len)
  else
    let (client, result) := sendToPeer env client record.len record.sendto
    (client, if client.dtlsFlight ≠ 0 ∧ result < 0 then record.len else result)

/-- The records that the library writes in one call. -/
def writeRecords (env : Env) (client : Client) (records : List Record) : Client :=
  records.foldl (fun client record => (dtlsSendToPeer env client record).1) client

/-- `DTLS_EVENT_CONNECT` in `dtls_handle_event`. -/
def dtlsConnectEvent (client : Client) : Client :=
  if client.reboots then client else { client with dtlsPending := true }

/-- `dtls_connect` or `dtls_write`. -/
def librarySend (env : Env) (client : Client) : Client :=
  let client := if env.sending.connect then dtlsConnectEvent client else client
  writeRecords env client env.sending.records

/-- `check_socket`: the client and whether there is an error. -/
def checkSocket (client : Client) (socketError : Bool) : Client × Bool :=
  if client.socket then ({ client with socket := !socketError }, socketError) else (client, true)

/-- Send again what is left of the flight. -/
def resendFlight (config : Config) (env : Env) (client : Client) : Client × Int :=
  let client := writeRecords env { client with dtlsNextFlight := false } env.sending.records
  if client.dtlsBufferLen = 0 then (client, 0)
  else
    let client := setRequestState config env client .send
    let (client, result) := sendToPeer env client client.dtlsBufferLen env.sending.sendto
    ({ client with dtlsBufferLen := 0 }, result)

/-- Start a handshake. -/
def startHandshake (config : Config) (env : Env) (client : Client) : Client × Int :=
  let client := writeRecords env client env.sending.closing
  let client := { client with
    sendRequestPending := true
    retransmission := 0
    dtlsNextFlight := true
    dtlsFlight := 1 }
  (librarySend env (setRequestState config env client .send), env.sending.result)

/-- The length of an empty ACK. -/
def ackLen : ℕ := 4

/-- `get_message`: an ACK, or what the handler has to send. -/
def getMessage (env : Env) (client : Client) : ℕ :=
  if client.sendsAck then ackLen else env.sending.messageLen

/-- Send the message of the handler, or cancel the request if there is none. -/
def sendMessage (config : Config) (env : Env) (client : Client) : Client × Int :=
  if getMessage env client = 0 then
    (setRequestState config env (client.mark .cancel) .waitSuspend, 0)
  else if config.dtls then (librarySend env client, env.sending.result)
  else sendToPeer env client (getMessage env client) env.sending.sendto

/-- The end of `sendto_peer`. -/
def sentToPeer (config : Config) (env : Env) (client : Client) (result : Int) : Client :=
  if result < 0 then
    let (client, error) := checkSocket client env.sending.socketError
    if error then client else coapFailure config env client
  else if client.lteConnected ∧ (¬ client.dtlsPending ∨ client.dtlsFlight ≠ 0) then
    setRequestState config env client .receive
  else client

/-- The begin of `sendto_peer`: a handshake or a message. -/
def transmit (config : Config) (env : Env) (client : Client) : Client × Int :=
  if client.dtlsPending then
    if client.dtlsFlight ≠ 0 then resendFlight config env client
    else startHandshake config env client
  else sendMessage config env client

/-- `sendto_peer`. -/
def sendtoPeer (config : Config) (env : Env) (client : Client) : Client :=
  let (client, result) := transmit config env client
  sentToPeer config env client result

/-- `parse_data` of the handler. -/
def parseData (client : Client) (message : Message) : Client × Option ParseResult :=
  match client.handler with
  | .appl =>
      let (result, commands) := applParseData client.applMid client.applToken message.ack message.packet
      let client :=
        if (result.map ParseResult.isResponse).getD false then client.mark (.response client.applToken)
        else client
      (if commands.isEmpty then client else client.mark (.commands client.applToken commands), result)
  | _ => (client, message.other)

/-- `read_from_peer`. -/
def readFromPeer (config : Config) (env : Env) (client : Client) (message : Message) : Client :=
  match parseData client message with
  | (client, none) =>
      if client.requestState = .incomingData then checkWakeup config client message.wakeup else client
  | (client, some .rst) =>
      if client.requestState.pending then coapFailure config env client else client
  | (client, some .ack) =>
      if client.requestState = .send ∨ client.requestState = .receive then
        setRequestState config env client .waitResponse
      else client
  | (client, some .response) =>
      if client.requestState.pending then coapSuccess config env client else client
  | (client, some .conResponse) =>
      if client.requestState ≠ .none then setRequestState config env client .sendAck else client
  | (client, _) => client

/-- The calls of the library into the client; `dtls_handle_event` ignores events of a reboot. -/
def callback (config : Config) (env : Env) (client : Client) : Callback → Client
  | .write record => (dtlsSendToPeer env client record).1
  | .read message => readFromPeer config env client message
  | .alert => if client.reboots then client else coapFailure config env client
  | .connect => dtlsConnectEvent client
  | .connected =>
      if client.reboots then client
      else
        { setRequestState config env client .none with
          dtlsPending := false
          dtlsNextFlight := false
          dtlsFlight := 0
          dtlsBufferLen := 0 }

/-- The end of `recvfrom_peer` in a handshake. -/
def receivedFlight (config : Config) (env : Env) (client : Client) (flush : Sendto) : Client :=
  if client.dtlsFlight = 0 then client
  else
    let client :=
      if client.dtlsBufferLen = 0 then client
      else
        let client := setRequestState config env client .send
        { (sendToPeer env client client.dtlsBufferLen flush).1 with dtlsBufferLen := 0 }
    setRequestState config env client .receive

/-- An answer to a flight starts the next one. -/
def Client.noteFlight (client : Client) : Client :=
  if client.dtlsFlight ≠ 0 then { client with dtlsNextFlight := true } else client

/-- `recvfrom_peer`. -/
def recvfromPeer (config : Config) (env : Env) (client : Client) : Option Datagram → Client
  | none => client
  | some datagram =>
      if config.dtls then
        let client := datagram.callbacks.foldl (callback config env) client.noteFlight
        receivedFlight config env client datagram.flush
      else readFromPeer config env client datagram.message

end CoapsClient.DtlsClient
