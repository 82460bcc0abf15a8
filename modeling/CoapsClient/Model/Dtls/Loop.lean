import CoapsClient.Model.Dtls.Client

/-! # The loop and its threads

`dtls_loop` as a sequence of sections. A wait, a search and a restart of the modem end a section, so
the timer, the button, the shell and the modem run in between; each of their calls is one step.
`dtls_setup_mode`, the search and the restart of the modem only show what they do to the requests.
-/

namespace CoapsClient.DtlsClient

def Client.go (client : Client) (place : Section) : Client := { client with place }

/-- The test for a modem that is off. -/
def loopTop (client : Client) : Client := client.go (if client.modemOff then .nop else .network)

/-- The modem is off: wait for a trigger. -/
def loopNop (client : Client) : Client :=
  if client.triggerMsg then { client with triggerMsg := client.modemOn }.go .network else client.go .top

def loopNetwork (env : Env) (client : Client) : Client :=
  let client := { client with networkNotFound := false }
  if !client.ltePowerOff && (!client.lteReady || !client.socket) && !env.networkFound then
    (incFailures { client with networkNotFound := true }).go .rateLimit
  else client.go .rateLimit

def loopRateLimit (env : Env) (client : Client) : Client :=
  if client.rateLimit then
    if client.rateLimitRestart then
      match env.rateLimitTime with
      | none => client.go .failures
      | some time => { client with rateLimit := decide (time ≠ 0), triggerMsg := false }.go .rateWait
    else
      { client with rateLimit := false, rateLimitRestart := true, restartingModem := true }.go .failures
  else client.go .failures

/-- The wait for the end of the rate limit; a trigger ends it and is given back. -/
def loopRateWait (client : Client) : Client :=
  client.go (if client.triggerMsg then .failures else .top)

/-- What follows from a failure. -/
def retryStrategy (config : Config) (strategy : Strategy) (client : Client) : Client :=
  let client :=
    if strategy.handshake then dtlsTrigger (setDtlsPending config client) true else client
  if strategy.off then { client with restartingModemPowerOff := true, restartingModem := true }
  else if strategy.offline then { client with restartingModemPowerOff := false, restartingModem := true }
  else client

def handleFailures (config : Config) (env : Env) (client : Client) : Client :=
  match nextFailures client with
  | (client, none) => client
  | (client, some failures) =>
      if failures = 0 then client
      else
        let client := retryStrategy config env.strategy client
        if client.networkNotFound then
          { client with
            restartingModemPowerOff := true
            restartingModem := true
            networkNotFound := false }
        else client

def loopFailures (config : Config) (env : Env) (client : Client) : Client :=
  let client := handleFailures config env client
  if config.adcScale ∧ client.triggerDuration then { client with setupMode := true }.go .setup
  else client.go .restart

/-- The end of `dtls_setup_mode`. -/
def loopSetup (env : Env) (client : Client) : Client :=
  let client := { client with triggerMsg := false }
  let client := if env.setupRequest then dtlsTrigger client true else client
  { client with
    setupMode := false
    triggerDuration := client.triggerDuration && env.setupRestart }.go .restart

/-- `restart_modem` up to the start of the modem. -/
def loopRestart (client : Client) : Client :=
  if client.restartingModem || client.triggerDuration then
    { client with
      restartingModem := false
      triggerDuration := false
      modemOn := false }.go .restarting
  else client.go .ready

def loopRestarting (env : Env) (client : Client) : Client :=
  let client := { client with modemOn := env.modemStarts, restartingModemPowerOff := false }
  (if client.lteReady then dtlsTrigger client true else client).go .ready

def loopReady (client : Client) : Client :=
  client.go (if !client.ltePowerOff && !client.lteReady then .top else .socket)

/-- `reopen_socket`: the socket is open if the modem is ready. -/
def reopenSocket (client : Client) : Client := { client with socket := client.lteReady }

/-- Send the request again over a new socket. -/
def sendAgain (config : Config) (env : Env) (client : Client) : Client :=
  sendtoPeer config env
    (setRequestState config env { client with loops := 0, retransmission := 0 } .send)

def loopSocket (config : Config) (env : Env) (client : Client) : Client :=
  if client.ltePowerOff then client.go .download
  else
    let (client, error) := checkSocket client env.socketError
    if error then
      let client := reopenSocket client
      if client.lteReady ∧ (client.requestState = .send ∨ client.requestState = .receive) then
        (sendAgain config env client).go .download
      else client.go .download
    else client.go .download

/-- The end of a download that was cancelled. -/
def downloadCanceled (config : Config) (env : Env) (client : Client) : Client :=
  if client.downloadProgress ≠ 0 ∧ client.downloadProgress < progressStatusMessage then
    setRequestState config env { client with downloadProgress := 0 } .waitSuspend
  else client

def loopDownload (config : Config) (env : Env) (client : Client) : Client :=
  if client.requestState.pending then client.go .select
  else if env.updatePending then
    if !env.updatePendingNext && !client.triggerMsg then
      { client with loops := 0, downloadProgress := 1 }.go .downloadWait
    else client.go .downloadNext
  else (downloadCanceled config env client).go .select

/-- One second of waiting for the next request of the download. -/
def loopDownloadWait (env : Env) (client : Client) : Client :=
  if env.updatePending && !env.updatePendingNext && !client.triggerMsg then
    { client with loops := client.loops + 1 }.go
      (if 30 < client.loops + 1 then .downloadNext else .downloadWait)
  else client.go .downloadNext

/-- `coap_client_next_token`. -/
def nextToken (client : Client) : Client :=
  { client with
    tokenFactory := (client.tokenFactory + 1) % 4294967296, draws := client.draws + 1 }

/-- The request of another client than that of the application. -/
def otherRequest (env : Env) (client : Client) (handler : Handler) : Client :=
  let client := { client with handler, sendsAck := false }
  if env.drawsToken then nextToken client else client

/-- A download step. -/
def downloadRequest (config : Config) (env : Env) (client : Client) : Client :=
  let client := setRequestState config env ({ client with loops := 0 }.mark .start) .send
  sendtoPeer config env (otherRequest env { client with retransmission := 0 } .update)

/-- Count the requests of the download; the status message starts again at 1. -/
def countDownload (client : Client) : Client :=
  let progress := client.downloadProgress + 1
  { client with downloadProgress := if progressStatusMessage ≤ progress then 1 else progress }

def loopDownloadNext (config : Config) (env : Env) (client : Client) : Client :=
  if env.updatePending then
    if client.triggerMsg then client.go .select
    else if 1 < client.downloadProgress then
      (downloadRequest config env (countDownload client)).go .top
    else (dtlsTrigger (countDownload client) true).go .select
  else (downloadCanceled config env client).go .select

/-- Data of an incoming connection is expected. -/
def expectIncoming (config : Config) (env : Env) (client : Client) : Client :=
  let cleared := { client with lteIncomingData := false }
  if client.lteIncomingData ∧ (client.requestState = .none ∨ client.requestState = .waitSuspend) then
    setRequestState config env (cleared.mark .incoming) .incomingData
  else cleared

/-- The loop polls, or waits for a trigger. -/
def Client.polls (client : Client) : Bool :=
  if client.triggerMsg then client.requestState.pending else client.requestState != .none

def loopSelect (config : Config) (env : Env) (client : Client) : Client :=
  let client := expectIncoming config env client
  client.go (if client.polls then .poll else .wait)

/-- The timeout of the first transmission follows the coverage. -/
def adjustFirst (env : Env) (client : Client) (set : Bool) : Client :=
  if client.retransmission = 0 then networkAdjustInitialTimeout env client set else client

/-- A second without data in `SEND`. -/
def timeoutSend (config : Config) (env : Env) (client : Client) : Client :=
  if client.lteConnectedToSend then
    let client := { client with lteConnectedToSend := false, loops := 0 }
    setRequestState config env (adjustFirst env client true) .receive
  else if 60 < client.loops then coapFailure config env client
  else client

/-- The seconds to wait in `RECEIVE`. -/
def receiveTimeout (env : Env) (client : Client) : ℕ :=
  if client.lteConnected then client.timeout
  else if maxRetransmission ≤ client.retransmission then client.loops - 1
  else client.timeout + env.additionalTimeout

/-- A retransmission. -/
def resend (config : Config) (env : Env) (client : Client) : Client :=
  let client := adjustFirst env { client with loops := 0 } false
  let client := { client with
    timeout := client.timeout * 2 % 65536, retransmission := client.retransmission + 1 }
  sendtoPeer config env (setRequestState config env client .send)

/-- A second without data in `RECEIVE`. -/
def timeoutReceive (config : Config) (env : Env) (client : Client) : Client :=
  if receiveTimeout env client < client.loops then
    if client.retransmission < maxRetransmission then resend config env client
    else coapFailure config env client
  else client

/-- A second without data in `WAIT_SUSPEND`. -/
def timeoutSuspend (config : Config) (env : Env) (client : Client) : Client :=
  if client.lteSleeping ∨ (¬ client.lteConnected ∧ ¬ client.ltePsmActive) then
    setRequestState config env client .none
  else client

/-- A second without data in `INCOMING_DATA`. -/
def timeoutIncoming (config : Config) (env : Env) (client : Client) : Client :=
  if config.wakeup ∧ env.connectTimeout ∧ client.lteIncomingConnect then
    dtlsCmdTrigger { client with lteIncomingConnect := false }
  else if client.lteConnected then client
  else setRequestState config env { client with lteIncomingConnect := false } .none

/-- A second without data. -/
def pollTimeout (config : Config) (env : Env) (client : Client) : Client :=
  let client := { client with loops := client.loops + 1 }
  match client.requestState with
  | .send => timeoutSend config env client
  | .receive => timeoutReceive config env client
  | .waitResponse => if 60 < client.loops then coapFailure config env client else client
  | .waitSuspend => timeoutSuspend config env client
  | .incomingData => timeoutIncoming config env client
  | _ => client

/-- The handshake is over: send the request it was for. -/
def sendPendingRequest (config : Config) (env : Env) (client : Client) : Client :=
  sendtoPeer config env { client with sendRequestPending := false, loops := 0, retransmission := 0 }

/-- What follows from the received data. -/
def afterReceive (config : Config) (env : Env) (client : Client) : Client :=
  if client.requestState = .sendAck then
    coapSuccess config env (sendtoPeer config env { client with sendsAck := true })
  else if ¬ client.dtlsPending ∧ client.sendRequestPending then sendPendingRequest config env client
  else client

/-- A new flight gets its own time. -/
def newFlight (client : Client) (flight : ℕ) : Client :=
  if flight ≠ 0 ∧ flight < client.dtlsFlight then { client with loops := 0 } else client

/-- Without `keep_connection` the next request needs a handshake. -/
def endConnection (config : Config) (client : Client) : Client :=
  if client.requestState = .none ∧ ¬ config.keepConnection then setDtlsPending config client else client

/-- Receive the data at the socket. -/
def receiveData (config : Config) (env : Env) (client : Client) (datagram : Option Datagram) : Client :=
  newFlight (recvfromPeer config env client datagram) client.dtlsFlight

/-- Data at the socket. -/
def pollData (config : Config) (env : Env) (client : Client) (datagram : Option Datagram) : Client :=
  endConnection config (afterReceive config env (receiveData config env client datagram))

def loopPoll (config : Config) (env : Env) (client : Client) : Client :=
  match env.poll with
  | .error => client.go .top
  | .timeout => (pollTimeout config env client).go .top
  | .data datagram =>
      (checkWakeup config (pollData config env client datagram) env.wakeup).go .top
  | .second => (checkWakeup config client env.wakeup).go .top
  | .socket socketError =>
      (checkWakeup config (checkSocket client socketError).1 env.wakeup).go .top

/-- Wait for a trigger. -/
def loopWait (client : Client) : Client :=
  if client.triggerMsg then { client with triggerMsg := false }.go .taken else client.go .top

/-- The loop has taken the trigger. -/
def loopTaken (config : Config) (env : Env) (client : Client) : Client :=
  if client.triggerSend then
    if client.modemOff then { client with loops := 0 }.go .top
    else
      let client := setRequestState config env
        ({ client with triggerSend := false, loops := 0 }.mark .start) .send
      { client with timerWork := client.timerWork || decide (0 < client.interval) }.go .prepare
  else client.go .top

/-- `lte_power_off` ends with the request. -/
def powerOn (env : Env) (client : Client) : Client :=
  if client.ltePowerOff then
    reopenSocket { client with
      ltePowerOff := false, restartingModem := false, modemOn := env.modemStarts }
  else client

/-- `coap_appl_client_prepare_post`. -/
def applRequest (env : Env) (client : Client) : Client :=
  nextToken { client.mark (.post client.tokenFactory) with
    handler := .appl
    sendsAck := false
    noResponse := env.noResponse
    sendBuffer := false
    applToken := client.tokenFactory
    applMid := env.nextMid
    downloadProgress :=
      if client.downloadProgress = progressLastStatusMessage then progressReboot
      else client.downloadProgress }

/-- Build the request of the provisioning or the application client. -/
def preparePost (env : Env) (client : Client) : Client :=
  if env.provisioning then otherRequest env client .prov else applRequest env client

def loopPrepare (config : Config) (env : Env) (client : Client) : Client :=
  let client := powerOn env client
  let client := preparePost env { client with retransmission := 0, timeout := client.coapTimeout }
  if env.post < 0 then (coapFailure config env client).go .top
  else if 0 < env.post then (sendtoPeer config env client).go .top
  else (setRequestState config env client .none).go .top

/-- The next section of `dtls_loop`. -/
def loop (config : Config) (env : Env) (client : Client) : Client :=
  match client.place with
  | .top => loopTop client
  | .nop => loopNop client
  | .network => loopNetwork env client
  | .rateLimit => loopRateLimit env client
  | .rateWait => loopRateWait client
  | .failures => loopFailures config env client
  | .setup => loopSetup env client
  | .restart => loopRestart client
  | .restarting => loopRestarting env client
  | .ready => loopReady client
  | .socket => loopSocket config env client
  | .download => loopDownload config env client
  | .downloadWait => loopDownloadWait env client
  | .downloadNext => loopDownloadNext config env client
  | .select => loopSelect config env client
  | .poll => loopPoll config env client
  | .wait => loopWait client
  | .taken => loopTaken config env client
  | .prepare => loopPrepare config env client

/-- `enum lte_state_type`, as far as a state decides about a request. -/
inductive LteState where
  | on
  | registration
  | ready
  | connected
  | ready1s
  | sleeping
  | psmActive
deriving DecidableEq, Repr

/-- `LTE_STATE_CONNECTED` becomes active. -/
def lteConnect (env : Env) (client : Client) : Client :=
  let send := client.lteSend
  let client := { client with
    lteConnected := true
    lteConnectedToSend := false
    lteIncomingData := false
    lteIncomingConnect := false
    lteSend := false }
  if send ∧ client.requestState = .send then { client with lteConnectedToSend := true }
  else if client.lteReady1s ∧ client.requestState = .none then
    dtlsTrigger { client with
      lteIncomingData := true, lteIncomingConnect := env.wakeupOnConnect } false
  else client

/-- `dtls_lte_state_handler`. -/
def dtlsLteStateHandler (env : Env) (client : Client) (type : LteState) (active : Bool) : Client :=
  if client.reboots then client
  else match type, active with
    | .on, true => client
    | .on, false =>
        { client with
          lteConnectedToSend := false
          lteIncomingData := false
          lteIncomingConnect := false
          lteSend := false }
    | .registration, true => client
    | .registration, false =>
        { client with lteReady := false, lteReady1s := false, lteConnected := false }
    | .ready, true => { client with lteReady := true }
    | .ready, false =>
        if client.lteReady then
          { client with lteReady := false, lteReady1s := false, lteConnected := false }
        else client
    | .connected, true => if client.lteConnected then client else lteConnect env client
    | .connected, false => { client with lteConnected := false }
    | .ready1s, active => { client with lteReady1s := active }
    | .sleeping, active => { client with lteSleeping := active }
    | .psmActive, active => { client with ltePsmActive := active }

/-- `sh_cmd_send`, with or without a message. -/
def shCmdSend (client : Client) (message : Bool) : Client :=
  if client.requestState.pending then client
  else if message ∧ client.sendBuffer then client
  else dtlsCmdTrigger { client with sendBuffer := client.sendBuffer || message }

inductive Event where
  | loop
  /-- `dtls_timer_trigger_work`. -/
  | timer
  /-- `dtls_trigger` by the location. -/
  | trigger (send : Bool)
  /-- `dtls_manual_trigger`. -/
  | button (duration : Bool)
  /-- `sh_cmd_send`. -/
  | send (message : Bool)
  /-- `sh_cmd_send_result` and `sh_cmd_send_alert`. -/
  | cmdTrigger
  /-- `dtls_lte_state_handler`. -/
  | lte (type : LteState) (active : Bool)
  /-- `set_send_interval`. -/
  | interval (seconds : ℕ)
  /-- `sh_cmd_coap_timeout`. -/
  | coapTimeout (seconds : ℕ)
  /-- `sh_cmd_onoff`. -/
  | onoff (value : Bool)
  /-- `sh_cmd_dtls` with `reset`. -/
  | dtlsReset
  /-- Another thread switches the modem on or off. -/
  | modem (on : Bool)
  /-- `appl_reboots` from now on. -/
  | reboot
deriving DecidableEq, Repr

structure Label where
  event : Event := .loop
  env : Env := {}

/-- One step of the client. -/
def step (config : Config) (client : Client) (label : Label) : Option Client :=
  match label.event with
  | .loop => some (loop config label.env client)
  | .timer => if client.timerWork then some (dtlsTimerTriggerFn client) else none
  | .trigger send => some (dtlsTrigger client send)
  | .button duration => some (dtlsManualTrigger client duration)
  | .send message => some (shCmdSend client message)
  | .cmdTrigger => some (dtlsCmdTrigger client)
  | .lte type active => some (dtlsLteStateHandler label.env client type active)
  | .interval seconds => some { client with sendInterval := BitVec.ofNat 32 seconds &&& 0xffffff#32 }
  | .coapTimeout seconds => some { client with coapTimeout := seconds }
  | .onoff value => some { client with ltePowerOnOff := value }
  | .dtlsReset => some (setDtlsPending config client)
  | .modem on => some { client with modemOn := on }
  | .reboot => some { client with reboots := true }

/-- The steps as a relation. -/
def Step (config : Config) (client : Client) (label : Label) (next : Client) : Prop :=
  step config client label = some next

/-- The client at the begin of `dtls_loop`, with the trigger of the initial message. -/
def initial (config : Config) (token interval : ℕ) : Client where
  dtlsPending := config.dtls
  lteReady := true
  triggerSend := true
  triggerMsg := true
  tokenFactory := token % 4294967296
  sendInterval := BitVec.ofNat 32 interval

/-- Sections of the loop that get the default answers. -/
def turns (count : ℕ) : List Label := List.replicate count {}

/-- The client is connected and sends its initial message. -/
def initialRequest : List Label := ⟨.lte .connected true, {}⟩ :: turns 12

/-- A turn of the loop that receives a message. -/
def receiving (message : Message) : List Label :=
  turns 9 ++ [{ env := { poll := .data (some { message }) } }]

end CoapsClient.DtlsClient
