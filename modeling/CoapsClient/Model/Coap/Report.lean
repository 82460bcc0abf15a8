import CoapsClient.Model.Coap.Descriptions

/-! # The sections and the payload of a report

`coap_appl_client_prepare_modem_info` and its siblings, in a build with the modem library, where the state of the modem,
the network and the coverage can always be read. `coap_appl_client_prepare_env_info` is the one of a build without a
sensor. Logs are left out, and the start of a line where only a log reads it.

The part of `coap_appl_client_prepare_post` that fills the buffer, up to the length of the payload: the sections of the
flags, with a line end in front of each but the first. What the request is built of is in other modules.
-/

namespace CoapsClient.CoapAppl

open Machine (Writer textEnd)
open ShCmd (Text strstart)
open Modem (LteCeInfo LteNetworkStateType invalidSignalValue)
open Environment (Config Histories)

section Sections

variable {α : Type}

/-- The flags of a report, `COAP_SEND_FLAG_..`. -/
structure Flags where
  noResponse : Bool := false
  initial : Bool := false
  minimal : Bool := false
  setPayload : Bool := false
  modemInfo : Bool := false
  simInfo : Bool := false
  netInfo : Bool := false
  netStats : Bool := false
  locationInfo : Bool := false
  envInfo : Bool := false
  scaleInfo : Bool := false
  netScanInfo : Bool := false
deriving DecidableEq, Repr

/-- `(flags & COAP_SEND_FLAG_INITIAL) || !(flags & COAP_SEND_FLAG_MINIMAL)`. -/
def Flags.complete (flags : Flags) : Prop := flags.initial = true ∨ ¬ flags.minimal = true

instance (flags : Flags) : Decidable flags.complete := inferInstanceAs (Decidable (_ ∨ _))

/-- `struct lte_modem_info`. -/
structure ModemInfo where
  version : Text := []
  firmware : Text := []
  imei : Text := []

/-- The results of `power_manager_ext`. -/
structure ExtBattery where
  voltage : ℕ := pmInvalidVoltage
  current : ℤ := pmInvalidCurrent
  power : ℕ := pmInvalidPower

/-- What the first section reads: the seconds since the start, the versions, the counters of the client, and the state of
the modem, the update, the battery and the restarts. `update` is only there with `CONFIG_COAP_UPDATE`. -/
structure DeviceInfo where
  uptime : ℕ := 0
  model : Text := []
  version : Text := []
  transmissions : Fin 4 → ℕ := fun _ => 0
  failures : ℕ := 0
  ncsVersion : Text := []
  modem : ModemInfo := {}
  update : Option Update := none
  battery : Battery := {}
  ext : Option ExtBattery := none
  reboot : Option Reboot := none
  restart : Restart := {}
  coapRttMs : ℕ := 0
  connectTimeMs : ℕ := 0
  retransmissions : ℕ := 0

/-- The time since the start. -/
def uptimeText (uptime : ℕ) : Text :=
  if uptime / 60 < 5 then unsigned uptime ++ " [s]".toList
  else
    let secs := uptime % 60
    let uptime := uptime / 60
    if uptime < 60 then unsigned uptime ++ [':'] ++ digits 10 2 secs ++ " [m:ss]".toList
    else
      let mins := uptime % 60
      let uptime := uptime / 60
      if uptime < 24 then
        unsigned uptime ++ [':'] ++ digits 10 2 mins ++ [':'] ++ digits 10 2 secs ++ " [h:mm:ss]".toList
      else
        let hours := uptime % 24
        let uptime := uptime / 24 % 4294967296
        unsigned uptime ++ ['-'] ++ digits 10 2 hours ++ [':'] ++ digits 10 2 mins ++ [':'] ++ digits 10 2 secs ++
          " [d-hh:mm:ss]".toList

/-- The versions and the counters. -/
def versionText (device : DeviceInfo) : Text :=
  ", ".toList ++ device.model ++ [' '] ++ device.version ++ ", 0*".toList ++ unsigned (device.transmissions 0) ++
    ", 1*".toList ++ unsigned (device.transmissions 1) ++ ", 2*".toList ++ unsigned (device.transmissions 2) ++
    ", 3*".toList ++ unsigned (device.transmissions 3) ++ ", failures ".toList ++ unsigned device.failures

def printVersion (device : DeviceInfo) (writer : Writer) : Option Writer := do
  let writer ← writer.print (uptimeText device.uptime)
  let writer ← writer.print (versionText device)
  endLine writer

def printTrigger (trigger : Option Text) (writer : Writer) : Option Writer :=
  match trigger with
  | none => some writer
  | some [] => some writer
  | some trigger => do
    let writer ← writer.print trigger
    endLine writer

def printModem (device : DeviceInfo) (flags : Flags) (writer : Writer) : Option Writer :=
  if flags.complete then do
    let writer ← writer.print ("NCS: ".toList ++ device.ncsVersion ++ ", HW: ".toList ++ device.modem.version ++
      ", MFW: ".toList ++ device.modem.firmware ++ ", IMEI: ".toList ++ device.modem.imei)
    endLine writer
  else some writer

def printUpdate (update : Option Update) (writer : Writer) : Option Writer :=
  match update with
  | none => some writer
  | some update => do
    let writer ← writer.advance (applUpdateCoapStatus update)
    if writer.start < writer.index then endLine writer else some writer

def printBattery (battery : Battery) (writer : Writer) : Option Writer := do
  let (writer, err) ← writer.call (powerManagerStatusDesc battery)
  if err ≠ 0 then endLine (writer.move (writer.index + err)) else some writer

/-- `MIN_VALID_CURRENT`. -/
def minValidCurrent : ℤ := 5

/-- A current that is missing leaves the power valid, a small one does not. -/
def ExtBattery.hasPower (ext : ExtBattery) : Prop :=
  ext.current = pmInvalidCurrent ∨ ext.current < -minValidCurrent ∨ minValidCurrent < ext.current

instance (ext : ExtBattery) : Decidable ext.hasPower := inferInstanceAs (Decidable (_ ∨ _))

/-- The values of an external battery, with a blank behind each. -/
def printExtValues (ext : ExtBattery) (writer : Writer) : Option Writer := do
  let writer ← writer.print "Ext.Bat.: ".toList
  let writer ← printIf (ext.voltage ≠ pmInvalidVoltage) (unsigned ext.voltage ++ " mV ".toList) writer
  let writer ← printIf (ext.current ≠ pmInvalidCurrent ∧ ext.hasPower) (decimal ext.current ++ " mA ".toList) writer
  printIf (ext.hasPower ∧ ext.power ≠ pmInvalidPower) (unsigned ext.power ++ " mW ".toList) writer

def printExt (ext : Option ExtBattery) (writer : Writer) : Option Writer :=
  match ext with
  | none => some writer
  | some ext => do
    let writer ← printExtValues ext writer
    let writer := writer.move (writer.index - 1)
    let writer ← writer.store textEnd
    endLine writer

def printLastReboot (date : ℤ → Text) (reboot : Option Reboot) (flags : Flags) (writer : Writer) : Option Writer :=
  if flags.complete then do
    let (writer, err) ← writer.call (applRebootCauseDescription date reboot)
    if 0 < err then endLine (writer.move (writer.index + err)) else some writer
  else some writer

def printRestart (restart : Restart) (flags : Flags) (writer : Writer) : Option Writer :=
  if flags.complete then do
    let writer ← writer.print "Restart: ".toList
    let (writer, err) ← writer.call (applResetCauseDescription restart)
    if 0 < err then endLine (writer.move (writer.index + err)) else some (writer.move writer.start)
  else some writer

/-- The times of the last exchange. -/
def printTimes (device : DeviceInfo) (flags : Flags) (writer : Writer) : Option Writer :=
  if 0 < device.coapRttMs then do
    let writer ← writer.print ("RETRANS: ".toList ++ unsigned device.retransmissions)
    let writer ← writer.print (", RTT: ".toList ++ unsigned device.coapRttMs ++ " ms".toList)
    printIf (0 < device.connectTimeMs) (", CT: ".toList ++ unsigned device.connectTimeMs ++ " ms".toList) writer
  else printIf flags.noResponse ("NORESP CT: ".toList ++ unsigned device.connectTimeMs ++ " ms".toList) writer

def printExchange (device : DeviceInfo) (flags : Flags) (writer : Writer) : Option Writer := do
  let writer ← printTimes device flags writer
  if writer.index ≠ writer.start then endLine writer else some writer

/-- The lines in front of the restart. -/
def printDevice (date : ℤ → Text) (device : DeviceInfo) (flags : Flags) (trigger : Option Text) (writer : Writer) :
    Option Writer := do
  let writer ← printVersion device writer
  let writer ← printTrigger trigger writer
  let writer ← printModem device flags writer
  let writer ← printUpdate device.update writer
  let writer ← printBattery device.battery writer
  let writer ← printExt device.ext writer
  printLastReboot date device.reboot flags writer

/-- The lines of the modem section. -/
def printModemInfo (date : ℤ → Text) (device : DeviceInfo) (flags : Flags) (trigger : Option Text) (writer : Writer) :
    Option Writer := do
  let writer ← printDevice date device flags trigger writer
  let writer ← printRestart device.restart flags writer
  printExchange device flags writer

/-- `coap_appl_client_prepare_modem_info`. -/
def coapApplClientPrepareModemInfo (date : ℤ → Text) (device : DeviceInfo) (flags : Flags) (trigger : Option Text)
    (writer : Writer) : Option (Writer × ℤ) := do
  let writer ← printModemInfo date device flags trigger writer
  some (writer, writer.index - 1)

/-- `struct lte_sim_info`. -/
structure SimInfo where
  valid : Bool := false
  edrxCycleSupport : Bool := false
  imsiSelectSupport : Bool := false
  imsiSelect : ℕ := 0
  imsiInterval : ℤ := 0
  hpplmnSearchInterval : ℤ := 0
  hpplmn : Text := []
  forbidden : Text := []
  iccid : Text := []
  imsi : Text := []
  prevImsi : Text := []

/-- The home network and its interval. -/
def hpplmnText (sim : SimInfo) : Text :=
  if sim.hpplmnSearchInterval ≠ 0 ∧ sim.hpplmn ≠ [] then
    ", HPPLMN ".toList ++ sim.hpplmn ++ " interval: ".toList ++ decimal sim.hpplmnSearchInterval ++ " [h]".toList
  else if sim.hpplmnSearchInterval ≠ 0 then
    ", HPPLMN interval: ".toList ++ decimal sim.hpplmnSearchInterval ++ " [h]".toList
  else if sim.hpplmn ≠ [] then ", HPPLMN ".toList ++ sim.hpplmn
  else ", no HPPLMN search".toList

/-- The IMSI, or what a card with several has. -/
def imsiText (sim : SimInfo) : Text :=
  if sim.imsiSelectSupport ∧ sim.imsiSelect ≠ 0xffff then
    if sim.imsiSelect ≠ 0 then
      "Multi-IMSI: ".toList ++ sim.imsi ++ " (imsi ".toList ++ unsigned (sim.imsiSelect &&& 0xff) ++ [')']
    else
      "Multi-IMSI: ".toList ++ sim.imsi ++ " (imsi ".toList ++ unsigned (sim.imsiSelect &&& 0xff) ++ ", auto ".toList ++
        decimal sim.imsiInterval ++ " s)".toList
  else if sim.prevImsi ≠ [] then
    "Multi-IMSI: ".toList ++ sim.imsi ++ ", ".toList ++ sim.prevImsi ++ ", ".toList ++ decimal sim.imsiInterval ++
      " s".toList
  else "IMSI: ".toList ++ sim.imsi

/-- The line of the card itself. -/
def printCard (sim : SimInfo) (flags : Flags) (writer : Writer) : Option Writer :=
  if flags.complete then do
    let writer ← writer.print ("ICCID: ".toList ++ sim.iccid ++ ", eDRX cycle: ".toList ++
      if sim.edrxCycleSupport then "on".toList else "off".toList)
    let writer ← writer.print (hpplmnText sim)
    writer.append '\n'
  else some writer

def printForbidden (sim : SimInfo) (writer : Writer) : Option Writer :=
  if sim.forbidden ≠ [] then do
    let writer ← writer.append '\n'
    writer.print ("Forbidden: ".toList ++ sim.forbidden)
  else some writer

def printSim (sim : SimInfo) (flags : Flags) (writer : Writer) : Option Writer :=
  if sim.valid then do
    let writer ← printCard sim flags writer
    let writer ← writer.print (imsiText sim)
    printForbidden sim writer
  else some writer

/-- `coap_appl_client_prepare_sim_info`. -/
def coapApplClientPrepareSimInfo (sim : SimInfo) (flags : Flags) (writer : Writer) : Option (Writer × ℤ) := do
  let writer ← printSim sim flags writer
  some (writer, writer.index)

/-- `enum lte_lc_nw_reg_status`, with its other values. -/
inductive RegStatus where
  | notRegistered
  | registeredHome
  | searching
  | registrationDenied
  | unknown
  | registeredRoaming
  | uiccFail
  | other
deriving DecidableEq, Repr

/-- `modem_get_registration_short_description`. -/
def modemGetRegistrationShortDescription : RegStatus → Text
  | .notRegistered => "not reg.".toList
  | .registeredHome => "home".toList
  | .searching => "search".toList
  | .registrationDenied => "denied".toList
  | .registeredRoaming => "roaming".toList
  | .uiccFail => "UICC fail".toList
  | .unknown | .other => "unknown".toList

/-- `enum lte_network_rai`, with its other values. -/
inductive Rai where
  | unknown
  | noRai
  | cpRai
  | asRai
  | asAndCpRai
  | other
deriving DecidableEq, Repr

/-- `modem_get_rai_description`. -/
def modemGetRaiDescription : Rai → Text
  | .noRai => "no RAI".toList
  | .cpRai => "CP-RAI".toList
  | .asRai => "AS-RAI".toList
  | .asAndCpRai => "CP/AS-RAI".toList
  | .unknown | .other => "Unknown".toList

/-- The names of a packet network, as `modem_read_pdn_info` reads them. -/
structure Pdn where
  apn : Text := []
  localIp : Text := []
  localIp6 : Text := []

/-- `struct lte_network_info`. -/
structure NetworkInfo where
  registered : LteNetworkStateType := .init
  plmnLock : LteNetworkStateType := .init
  rateLimit : ℕ := 0
  rateLimitPeriod : ℕ := 0
  rateLimitTime : ℕ := 0
  status : RegStatus := .notRegistered
  mode : LteMode := .none
  band : ℕ := 0
  provider : Text := []
  tac : ℕ := 0
  cell : ℕ := 0
  earfcn : ℕ := 0
  pdn : Pdn := {}

/-- `struct lte_lc_psm_cfg`. -/
structure Psm where
  tau : ℤ
  activeTime : ℤ

/-- What the section of the network reads: `pdn` is what `modem_read_pdn_info` would leave, `woicTimeout` the result of
`get_wakeup_on_incoming_connect_timeout`, and `psm`, `rai` and `edrx` are missing where their functions fail. -/
structure Net (α : Type) where
  network : NetworkInfo := {}
  pdn : Pdn := {}
  psm : Option Psm := none
  woicTimeout : ℤ := 0
  rai : Option Rai := none
  releaseTime : ℤ := -1
  edrx : Option (Edrx α) := none

/-- The cell of a network where the modem is registered. -/
def printCell (network : NetworkInfo) (flags : Flags) (writer : Writer) : Option Writer :=
  if network.registered = .on then do
    let writer ← writer.print (",Band ".toList ++ unsigned network.band)
    let writer ← writer.print ((if network.plmnLock = .on then ",#PLMN ".toList else ",PLMN ".toList) ++ network.provider)
    let writer ← printIf (¬ flags.minimal) (",TAC ".toList ++ unsigned network.tac) writer
    let writer ← writer.print (",Cell ".toList ++ unsigned network.cell)
    writer.print (",EARFCN ".toList ++ unsigned network.earfcn)
  else some writer

def printNetwork (network : NetworkInfo) (flags : Flags) (writer : Writer) : Option Writer := do
  let writer ← writer.print ((if flags.minimal then "Net".toList else "Network".toList) ++ ": ".toList ++
    modemGetNetworkModeDescription network.mode)
  let writer ← printIf (¬ flags.minimal) ([','] ++ modemGetRegistrationShortDescription network.status) writer
  printCell network flags writer

/-- The packet network; an address without a prefix is read again. -/
def Net.readPdn (net : Net α) : Pdn :=
  if strstart net.network.pdn.localIp6 "0000:0000:0000:0000:".toList false ≠ 0 then net.pdn else net.network.pdn

/-- The line of the packet network, without an address for none. -/
def pdnText (pdn : Pdn) : Text :=
  if pdn.localIp ≠ [] ∧ pdn.localIp6 ≠ [] then
    "PDN: ".toList ++ pdn.apn ++ [','] ++ pdn.localIp ++ [','] ++ pdn.localIp6
  else if pdn.localIp ≠ [] then "PDN: ".toList ++ pdn.apn ++ [','] ++ pdn.localIp
  else if pdn.localIp6 ≠ [] then "PDN: ".toList ++ pdn.apn ++ [','] ++ pdn.localIp6
  else []

def rateLimitText (network : NetworkInfo) : Text :=
  if network.rateLimit = 0 then []
  else if network.rateLimitTime ≠ 0 then
    ",rate-limit ".toList ++ unsigned network.rateLimit ++ " exceeded,".toList ++ unsigned network.rateLimitTime ++
      " s left".toList
  else ",rate-limit ".toList ++ unsigned network.rateLimit ++ [','] ++ unsigned network.rateLimitPeriod ++ " s".toList

def printPdn (net : Net α) (writer : Writer) : Option Writer :=
  if net.network.registered = .on then do
    let writer ← separate writer
    let writer ← printIf (pdnText net.readPdn ≠ []) (pdnText net.readPdn) writer
    printIf (rateLimitText net.network ≠ []) (rateLimitText net.network) writer
  else some writer

def printPsm (net : Net α) (writer : Writer) : Option Writer :=
  match net.psm with
  | none => some writer
  | some psm =>
    if 0 ≤ psm.activeTime then
      writer.print ("PSM: TAU ".toList ++ decimal psm.tau ++ " [s], Act ".toList ++ decimal psm.activeTime ++ " [s]".toList)
    else do
      let writer ← writer.print "PSM: n.a.".toList
      if net.woicTimeout ≠ 0 then
        writer.print (", woic timeout ".toList ++ decimal net.woicTimeout ++ " [s]".toList)
      else writer.print ", no woic.".toList

def printRai (rai : Option Rai) (writer : Writer) : Option Writer :=
  match rai with
  | none | some .unknown => some writer
  | some rai => do
    let writer ← printComma writer
    writer.print (modemGetRaiDescription rai)

def printRelease (releaseTime : ℤ) (writer : Writer) : Option Writer :=
  if 0 ≤ releaseTime then do
    let writer ← printComma writer
    writer.print ("Released: ".toList ++ decimal releaseTime ++ " ms".toList)
  else some writer

/-- The line of the power saving, which is taken back when it is empty. -/
def printSaving (net : Net α) (writer : Writer) : Option Writer := do
  let writer ← separate writer
  let writer ← printPsm net writer
  let writer ← printRai net.rai writer
  let writer ← printRelease net.releaseTime writer
  if writer.start < writer.index then some writer else some (writer.move (writer.start - 1))

def printEdrx (format : ℕ → α → Text) (edrx : Option (Edrx α)) (writer : Writer) : Option Writer :=
  match edrx with
  | none => some writer
  | some edrx => do
    let writer ← separate writer
    writer.advance (modemPrintEdrx format [] edrx)

/-- The further lines of the network. -/
def printConnection (format : ℕ → α → Text) (net : Net α) (flags : Flags) (writer : Writer) : Option Writer :=
  if flags.minimal then some writer
  else do
    let writer ← printPdn net writer
    let writer ← printSaving net writer
    printEdrx format net.edrx writer

/-- `coap_appl_client_prepare_net_info`. -/
def coapApplClientPrepareNetInfo (format : ℕ → α → Text) (net : Net α) (flags : Flags) (writer : Writer) :
    Option (Writer × ℤ) := do
  let writer ← printNetwork net.network flags writer
  let writer ← printConnection format net flags writer
  some (writer, writer.index)

/-- `struct lte_network_statistic`, with the numbers of sockets and of handshakes. -/
structure NetworkStatistic where
  searchs : ℕ := 0
  psmDelays : ℕ := 0
  restarts : ℕ := 0
  cellUpdates : ℕ := 0
  wakeups : ℕ := 0
  searchTime : ℕ := 0
  psmDelayTime : ℕ := 0
  wakeupTime : ℕ := 0
  connectedTime : ℕ := 0
  asleepTime : ℕ := 0
  transmitted : ℕ := 0
  received : ℕ := 0
  maxPacketSize : ℕ := 0
  averagePacketSize : ℕ := 0
  sockets : ℕ := 0
  dtlsHandshakes : ℕ := 0

/-- A separator, if something is in front of it and there is room. -/
def separateSignal (sep : Writer → Option Writer) (writer : Writer) : Option Writer :=
  if 0 < writer.index ∧ writer.index < writer.size then sep writer else some writer

/-- A value of the coverage, if it is shown. -/
def printSignal (shown : Prop) [Decidable shown] (sep : Writer → Option Writer) (text : Text) (writer : Writer) :
    Option Writer :=
  if shown then do
    let writer ← separateSignal sep writer
    writer.print text
  else some writer

/-- A comma and a blank as one text. -/
def comma (writer : Writer) : Option Writer := writer.print ", ".toList

def printCoverage (info : LteCeInfo) (flags : Flags) (writer : Writer) : Option Writer := do
  let writer ← printIf (info.ceSupported ≠ 0 ∧ ¬ flags.minimal) ("CE: down: ".toList ++
    unsigned info.downlinkRepetition ++ ", up: ".toList ++ unsigned info.uplinkRepetition) writer
  let writer ← printSignal (info.rsrp < invalidSignalValue) comma
    ("RSRP: ".toList ++ decimal info.rsrp ++ " dBm".toList) writer
  let writer ← printSignal (info.rsrq < invalidSignalValue ∧ ¬ flags.minimal) (fun writer => writer.append ',')
    (" RSRQ: ".toList ++ decimal (info.rsrq.tdiv 2) ++ ['.'] ++ (if info.rsrq.tmod 2 = 0 then ['0'] else ['5']) ++
      " dB".toList) writer
  let writer ← printSignal (info.cinr < invalidSignalValue ∧ ¬ flags.minimal) comma
    ("CINR: ".toList ++ decimal info.cinr ++ " dB".toList) writer
  printSignal (info.snr < invalidSignalValue) comma ("SNR: ".toList ++ decimal info.snr ++ " dB".toList) writer

def printStatistic (stat : NetworkStatistic) (writer : Writer) : Option Writer := do
  let writer ← separate writer
  let writer ← writer.print ("Stat: tx ".toList ++ unsigned stat.transmitted ++ " kB, rx ".toList ++
    unsigned stat.received ++ " kB, max ".toList ++ unsigned stat.maxPacketSize ++ " B, avg ".toList ++
    unsigned stat.averagePacketSize ++ " B".toList)
  let writer ← writer.print ("\nCell updates ".toList ++ unsigned stat.cellUpdates ++ ", Network searchs ".toList ++
    unsigned stat.searchs ++ " (".toList ++ unsigned stat.searchTime ++ " s), PSM delays ".toList ++
    unsigned stat.psmDelays ++ " (".toList ++ unsigned stat.psmDelayTime ++ " s)".toList)
  let writer ← writer.print ("\nModem Restarts ".toList ++ unsigned stat.restarts ++ ", Sockets ".toList ++
    unsigned stat.sockets ++ ", DTLS handshakes ".toList ++ unsigned stat.dtlsHandshakes)
  writer.print ("\nWakeups ".toList ++ unsigned stat.wakeups ++ ", ".toList ++ unsigned stat.wakeupTime ++
    " s, connected ".toList ++ unsigned stat.connectedTime ++ " s, asleep ".toList ++ unsigned stat.asleepTime ++
    " s".toList)

def printStatistics (stat : NetworkStatistic) (flags : Flags) (writer : Writer) : Option Writer :=
  if flags.minimal then some writer else printStatistic stat writer

/-- `coap_appl_client_prepare_net_stats`. -/
def coapApplClientPrepareNetStats (info : LteCeInfo) (stat : NetworkStatistic) (flags : Flags) (writer : Writer) :
    Option (Writer × ℤ) := do
  let writer ← printCoverage info flags writer
  let writer ← printStatistics stat flags writer
  some (writer, writer.index)

/-- `enum modem_gnss_result`, with its other values. -/
inductive GnssResult where
  | notAvailable
  | timeout
  | error
  | invisible
  | position
  | other
deriving DecidableEq, Repr

def GnssResult.text : GnssResult → Text
  | .notAvailable => "n.a.".toList
  | .timeout => "timeout".toList
  | .error => "error".toList
  | .invisible => "invisible".toList
  | .position => "valid".toList
  | .other => "???".toList

/-- The results of `location_get`, with the fields of the position that are shown. -/
structure Gnss (α : Type) where
  result : GnssResult := .notAvailable
  pending : Bool := false
  valid : Bool := false
  executionTime : ℕ := 0
  satellitesTime : ℕ := 0
  maxSatellites : ℕ := 0
  latitude : α
  longitude : α
  accuracy : α
  altitude : α
  altitudeAccuracy : α
  year : ℕ := 0
  month : ℕ := 0
  day : ℕ := 0
  hour : ℕ := 0
  minute : ℕ := 0
  seconds : ℕ := 0

/-- `max_execution_time` and `max_satellites_time`, which are kept for the next report. -/
structure GnssTimes where
  maxExecutionTime : ℕ := 0
  maxSatellitesTime : ℕ := 0

/-- The times with those of a result; the first execution time is skipped. -/
def GnssTimes.add (times : GnssTimes) (gnss : Gnss α) : GnssTimes where
  maxExecutionTime :=
    if gnss.valid ∧ gnss.result = .position then
      if times.maxExecutionTime = 0 then 1 else max times.maxExecutionTime gnss.executionTime
    else times.maxExecutionTime
  maxSatellitesTime := max times.maxSatellitesTime gnss.satellitesTime

/-- The first line, which is written over without `GNSS_VISIBILITY`. -/
def visibilityText (times : GnssTimes) (gnss : Gnss α) : Text :=
  "GNSS.1=".toList ++ gnss.result.text ++ (if gnss.pending then ",pending".toList else []) ++ [','] ++
    unsigned gnss.maxSatellites ++ "-sats,".toList ++ unsigned (gnss.satellitesTime / 1000) ++ "s-vis,".toList ++
    unsigned ((times.add gnss).maxSatellitesTime / 1000) ++ "s-vis-max".toList

/-- The second line, which is written over without `GNSS_EXECUTION_TIMES`. -/
def printExecution (times : GnssTimes) (gnss : Gnss α) (writer : Writer) : Option Writer :=
  if gnss.result = .position then
    if times.maxExecutionTime = 0 then
      writer.print ("GNSS.2=".toList ++ unsigned (gnss.executionTime / 1000) ++ "s-pos".toList)
    else
      writer.print ("GNSS.2=".toList ++ unsigned (gnss.executionTime / 1000) ++ "s-pos,".toList ++
        unsigned ((times.add gnss).maxExecutionTime / 1000) ++ "s-pos-max".toList)
  else printIf (1 < times.maxExecutionTime)
    ("GNSS.2=".toList ++ unsigned (times.maxExecutionTime / 1000) ++ "s-pos-max".toList) writer

/-- The position. -/
def positionText (format : ℕ → α → Text) (gnss : Gnss α) : Text :=
  (if gnss.result = .position then [] else ['*']) ++ "GNSS.3=".toList ++ format 6 gnss.latitude ++ [','] ++
    format 6 gnss.longitude ++ [','] ++ format 1 gnss.accuracy ++ [','] ++ format 2 gnss.altitude ++ [','] ++
    format 1 gnss.altitudeAccuracy

/-- The time of the position. -/
def positionTimeText (gnss : Gnss α) : Text :=
  [','] ++ digits 10 4 gnss.year ++ ['-'] ++ digits 10 2 gnss.month ++ ['-'] ++ digits 10 2 gnss.day ++ ['T'] ++
    digits 10 2 gnss.hour ++ [':'] ++ digits 10 2 gnss.minute ++ [':'] ++ digits 10 2 gnss.seconds ++ ['Z']

def printLocation (format : ℕ → α → Text) (times : GnssTimes) (gnss : Gnss α) (writer : Writer) : Option Writer :=
  if gnss.valid then do
    let writer ← writer.print (visibilityText times gnss)
    let writer ← printExecution times gnss (writer.move 0)
    let writer := if writer.start < writer.index then writer.move 0 else writer
    let writer ← writer.print (positionText format gnss)
    writer.print (positionTimeText gnss)
  else writer.print ("GNSS.1=".toList ++ gnss.result.text ++ if gnss.pending then ",pending".toList else [])

/-- `coap_appl_client_prepare_location_info`, with `CONFIG_LOCATION_ENABLE`. -/
def coapApplClientPrepareLocationInfo (format : ℕ → α → Text) (times : GnssTimes) (gnss : Gnss α) (writer : Writer) :
    Option (Writer × ℤ) := do
  let writer ← printLocation format times gnss writer
  some (writer, writer.index)

/-- `coap_appl_client_prepare_env_info` without `CONFIG_ENVIRONMENT_SENSOR`, for the answer to `AT%XTEMP?`. -/
def prepareModemTemperature (answer : Except ℕ Text) (writer : Writer) : Option (Writer × ℤ) := do
  let (writer, res) ← writer.call (modemAtCmd answer "%XTEMP: ".toList)
  if 0 < res then do
    let writer ← (writer.move (writer.index + res)).print " C".toList
    some (writer, writer.index)
  else some (writer.move 0, 0)

end Sections

section Payload

variable {config : Config} {α : Type}

/-- What `coap_appl_client_prepare_env_info` reads: the sensors, or, in a build without them, the answer of the modem. -/
inductive EnvSource (config : Config) (α : Type) where
  | sensor (histories : Histories config α) (current : Current α)
  | modem (answer : Except ℕ Text)

/-- `coap_appl_client_prepare_env_info`. -/
def EnvSource.prepare (format : ℕ → α → Text) : EnvSource config α → Writer → Option (Writer × ℤ)
  | .sensor histories current => coapApplClientPrepareEnvInfo format histories current
  | .modem answer => prepareModemTemperature answer

/-- What the sections read. The location is only there with `CONFIG_LOCATION_ENABLE`, and the scale with
`CONFIG_ADC_SCALE`. -/
structure Report (config : Config) (α : Type) where
  device : DeviceInfo := {}
  sim : SimInfo := {}
  net : Net α := {}
  coverage : LteCeInfo := {}
  statistic : NetworkStatistic := {}
  location : Option (GnssTimes × Gnss α) := none
  environment : EnvSource config α := .modem (.error 0)
  scale : Option (Scale α) := none
  meas : Text := []

/-- The buffer and the index, and of each section that was called the length that it was given and what it returned. -/
structure Payload where
  writer : Writer
  calls : List (ℕ × ℤ) := []
deriving DecidableEq, Repr

/-- The first section: `err = builder(buf, len)`. -/
def Payload.first (builder : Writer → Option (Writer × ℤ)) (payload : Payload) : Option Payload := do
  let (writer, err) ← payload.writer.call builder
  some {
    writer := if 0 < err then writer.move err else writer
    calls := payload.calls ++ [(payload.writer.room, err)] }

/-- A further section: `buf[index] = '\n'; start = index + 1; err = builder(buf + start, len - start)`. -/
def Payload.next (builder : Writer → Option (Writer × ℤ)) (payload : Payload) : Option Payload := do
  let writer ← payload.writer.store '\n'
  let index := writer.index
  let writer := writer.move (index + 1)
  let room := writer.room
  let (writer, err) ← writer.call builder
  some {
    writer := writer.move (if 0 < err then index + 1 + err else index)
    calls := payload.calls ++ [(room, err)] }

/-- A further section, if its flag is set. -/
def Payload.nextIf (flag : Bool) (builder : Writer → Option (Writer × ℤ)) (payload : Payload) : Option Payload :=
  if flag then payload.next builder else some payload

/-- The modem section, if its flag is set. -/
def Payload.firstIf (flag : Bool) (builder : Writer → Option (Writer × ℤ)) (payload : Payload) : Option Payload :=
  if flag then payload.first builder else some payload

/-- A further section that is only in some builds. -/
def Payload.nextOf {β : Type} (source : Option β) (flag : Bool) (builder : β → Writer → Option (Writer × ℤ))
    (payload : Payload) : Option Payload :=
  match source with
  | none => some payload
  | some source => payload.nextIf flag (builder source)

/-- The sections of the flags. -/
def prepareSections (format : ℕ → α → Text) (date : ℤ → Text) (report : Report config α) (flags : Flags)
    (trigger : Option Text) (payload : Payload) : Option Payload := do
  let payload ← payload.firstIf flags.modemInfo (coapApplClientPrepareModemInfo date report.device flags trigger)
  let payload ← payload.nextIf flags.simInfo (coapApplClientPrepareSimInfo report.sim flags)
  let payload ← payload.nextIf flags.netInfo (coapApplClientPrepareNetInfo format report.net flags)
  let payload ← payload.nextIf flags.netStats (coapApplClientPrepareNetStats report.coverage report.statistic flags)
  let payload ← payload.nextOf report.location flags.locationInfo fun location =>
    coapApplClientPrepareLocationInfo format location.1 location.2
  let payload ← payload.nextIf flags.envInfo (report.environment.prepare format)
  let payload ← payload.nextOf report.scale flags.scaleInfo fun scale writer =>
    scaleSampleDesc format date scale true writer
  payload.nextIf flags.netScanInfo (modemGetLastNeighborCellMeas report.meas)

/-- `coap_appl_client_prepare_post`, up to the payload. -/
def preparePayload (format : ℕ → α → Text) (date : ℤ → Text) (report : Report config α) (flags : Flags)
    (trigger : Option Text) (writer : Writer) : Option Payload :=
  if flags.setPayload then some { writer := writer.move writer.size }
  else prepareSections format date report flags trigger { writer }

end Payload

end CoapsClient.CoapAppl
