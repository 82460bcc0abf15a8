import CoapsClient.Model.Update.ApplUpdate
import CoapsClient.Machine.Path

/-! # The CoAP update client

`appl_update_coap.c` as a state machine. A step is a command, the begin or the end of the erase work, a
received message, the next request, a cancel, or anything another update does to the DFU context. What
the rest of the system answers in a step is its `Env`.

`coap_update_from_block` belongs to the CoAP library and is the parameter `update`. Messages are
parsed; a token is given by its value if it has the four bytes the client uses.

`prepared`, `image`, `writes`, `finished`, `verified` and `upgraded` record what happened in the
download that was started last; no branch reads them.
-/

namespace CoapsClient.ApplUpdate

open ShCmd (Text stricmp)

inductive MessageType where
  | con
  | non
  | ack
  | rst
deriving DecidableEq, Repr

/-- The value of a block option. -/
structure Block where
  num : ℕ
  more : Bool
  szx : ℕ
deriving DecidableEq, Repr

structure Reply where
  type : MessageType := .ack
  code : ℕ := 69
  mid : ℕ := 0
  token : Option ℕ := none
  contentFormat : Option Int := none
  etag : Option (List UInt8) := none
  block1 : Option Block := none
  block2 : Option Block := none
  size1 : Option ℕ := none
  size2 : Option ℕ := none
  payload : List UInt8 := []
deriving DecidableEq, Repr

/-- `COAP_CODE_EMPTY`. -/
def codeEmpty : ℕ := 0
/-- `COAP_RESPONSE_CODE_CONTENT`. -/
def codeContent : ℕ := 69

/-- `parse_result_t`. -/
inductive ParseResult where
  | none
  | ign
  | rst
  | ack
  | response
  | conResponse
deriving DecidableEq, Repr

/-- `coap_client_match`. -/
def coapClientMatch (reply : Reply) (mid token : ℕ) : ParseResult :=
  if reply.code = codeEmpty then
    if reply.type = .con then .ign
    else if mid = reply.mid then
      match reply.type with
      | .ack => .ack
      | .rst => .rst
      | _ => .ign
    else .none
  else if reply.token ≠ some token then .none
  else if reply.type = .con then .conResponse
  else .response

/-- The message is a response to the request with that token. -/
def ParseResult.isResponse : ParseResult → Bool
  | .response => true
  | .conResponse => true
  | _ => false

/-- `coap_client_decode_etag`: at most `COAP_TOKEN_MAX_LEN` bytes, with their number. -/
def decodeEtag (value : List UInt8) : List UInt8 := value.take 8

inductive CancelReason where
  | notAvailable
  | cmd
  | changed
  | blockOption
  | blockNo
  | noContent
deriving DecidableEq, Repr

/-- `struct coap_block_context`; a block size is the exponent of the option. -/
structure BlockContext where
  totalSize : ℕ := 0
  current : ℕ := 0
  blockSize : ℕ := 0
deriving DecidableEq, Repr

/-- `coap_block_size_to_bytes`. -/
def blockBytes (szx : ℕ) : ℕ := 1 <<< (szx + 4)

/-- `APP_COAP_MAX_UPDATE_SIZE`. -/
def maxUpdateSize : ℕ := 0x70000
/-- `APP_COAP_MAX_RES_PATH_LEN`. -/
def maxResPathLen : ℕ := 64

structure Client where
  resourcePath : Text := []
  etag : List UInt8 := []
  contentFormat : Int := -1
  download : Bool := false
  downloadRequest : Bool := false
  downloadCanceled : Bool := false
  downloadReady : Bool := false
  applyUpdate : Bool := false
  blockContext : BlockContext := {}
  cancelReason : CancelReason := .notAvailable
  token : ℕ := 0
  mid : ℕ := 0
  messageLen : ℕ := 0
  /-- `appl_update_coap_erase_work` is scheduled. -/
  eraseWork : Bool := false
  /-- The work is running, with the result of `appl_update_erase`. -/
  erasing : Option Int := none
  rebootCmds : ℕ := 0
  dfu : Dfu := {}
  prepared : Bool := false
  image : List UInt8 := []
  writes : List Int := []
  finished : Option Int := none
  verified : Option Text := none
  upgraded : Option Int := none
deriving DecidableEq, Repr

/-- The client before anything happened. -/
def initial : Client := {}

/-- What the rest of the system answers in a step. -/
structure Env where
  reboots : Bool := false
  init : Answer := {}
  erase : Answer := {}
  write : Answer := {}
  finish : Answer := {}
  pending : Answer := {}
  header : Header := {}
  upgrade : Answer := {}
  cancel : Answer := {}
  timeScale : Int := 0
  nextToken : ℕ := 0
  nextMid : ℕ := 0
  /-- The length of the encoded request, or the error of encoding it. -/
  request : Except Int ℕ := .ok 32
deriving Repr

/-- `appl_update_coap_cancel_download`. -/
def cancelDownload (env : Env) (client : Client) (cancel : Bool) (reason : CancelReason) : Client × Int :=
  let canceled := client.download
  let client := { client with
    eraseWork := false
    download := false
    downloadRequest := false
    downloadCanceled := cancel
    downloadReady := !cancel
    etag := [] }
  if canceled && cancel then
    let (dfu, res) := ApplUpdate.cancel client.dfu env.cancel
    ({ client with cancelReason := reason, messageLen := 0, dfu }, res)
  else (client, 0)

/-- `appl_update_coap_verify_version`: the result and the version that was read. -/
def verifyVersion (env : Env) (client : Client) : Int × Option Text :=
  let (err, version) := getPendingVersion client.dfu env.pending env.header
  if err = 0 then
    (if stricmp client.resourcePath version = 0 then 0 else einval, some version)
  else (err, none)

/-- `appl_update_coap_set_resource`. -/
def setResource (imageVersion : Text) (client : Client) (resource : Text) : Client × Int :=
  if client.download then (client, ebusy)
  else if stricmp resource imageVersion = 0 then (client, eexist)
  else
    ({ client with
      resourcePath := resource.take (maxResPathLen - 1)
      download := true
      downloadRequest := false
      downloadCanceled := false
      downloadReady := false
      prepared := false
      image := []
      writes := []
      finished := none
      verified := none
      upgraded := none }, 0)

/-- `appl_update_coap_start`. -/
def coapStart (imageVersion : Text) (env : Env) (client : Client) (resource : Text) : Client × Int :=
  let (client, rc) := setResource imageVersion client resource
  if rc ≠ 0 then (client, rc)
  else
    let (dfu, rc) := start client.dfu env.init
    ({ client with etag := [], dfu, eraseWork := client.eraseWork || rc == 0 }, rc)

/-- The first word of a `fota` command. -/
inductive Cmd where
  | download
  | update
  | apply
  | cancel
  | other
deriving DecidableEq, Repr

/-- `appl_update_coap_cmd` after the text is split into the command and the version. -/
def coapCmd (imageVersion : Text) (env : Env) (client : Client) (cmd : Cmd) (version : Text) :
    Client × Int :=
  if env.reboots then (client, eshutdown)
  else match cmd with
    | .download => coapStart imageVersion env { client with applyUpdate := false } version
    | .update => coapStart imageVersion env { client with applyUpdate := true } version
    | .apply =>
        if client.resourcePath.isEmpty then (client, einval)
        else if stricmp version client.resourcePath ≠ 0 then (client, einval)
        else if !client.downloadReady then (client, einval)
        else if (verifyVersion env client).1 = 0 then (client, einval)
        else ({ client with
          rebootCmds := client.rebootCmds + 1, dfu := cmdContext true client.dfu env.init }, 0)
    | .cancel =>
        if client.resourcePath.isEmpty then (client, einval)
        else if stricmp version client.resourcePath ≠ 0 then (client, einval)
        else ({ (cancelDownload env client true .cmd).1 with eraseWork := true }, 0)
    | .other => (client, einval)

/-- `appl_update_coap_cancel`. -/
def coapCancel (env : Env) (client : Client) : Client × Int :=
  if env.reboots then (client, eshutdown) else cancelDownload env client true .notAvailable

/-- `appl_update_coap_erase_fn` up to the result of `appl_update_erase`. -/
def eraseBegin (env : Env) (client : Client) : Client :=
  { client with eraseWork := false, erasing := some (erase client.dfu env.erase) }

/-- The block size for the time scale of the modem. -/
def initialBlockSize (timeScale : Int) : ℕ :=
  if 350 ≤ timeScale then 4 else if 250 ≤ timeScale then 5 else 6

/-- `appl_update_coap_erase_fn` with the result of `appl_update_erase`. -/
def eraseEnd (env : Env) (client : Client) (rc : Int) : Client :=
  let client := { client with erasing := none }
  if rc = 0 then
    if client.download then
      { client with
        blockContext := { totalSize := 0, current := 0, blockSize := initialBlockSize env.timeScale }
        downloadRequest := true
        prepared := true }
    else client
  else
    let client := (cancelDownload env client true .notAvailable).1
    { client with dfu := cmdContext false client.dfu env.init }

/-- The result of `coap_update_from_block`: the new context or an error. -/
abbrev Update := Reply → BlockContext → Except Int BlockContext

/-- The check of the content format; `none` cancels the download. -/
def checkFormat (client : Client) (reply : Reply) : Option Client :=
  match reply.contentFormat with
  | none => some client
  | some format =>
      if 0 ≤ client.contentFormat then
        if client.contentFormat ≠ format then none else some client
      else some { client with contentFormat := format }

/-- The check of the ETag; `none` cancels the download. -/
def checkEtag (client : Client) (reply : Reply) (current : ℕ) : Option Client :=
  match reply.etag with
  | none => some client
  | some value =>
      if current ≠ 0 then
        if client.etag ≠ decodeEtag value then none else some client
      else some { client with etag := decodeEtag value }

/-- What is left to do for a block: the new context, the bytes it moves on by, and whether the
download is complete. -/
structure Accepted where
  context : BlockContext
  bytes : ℕ
  ready : Bool
deriving DecidableEq, Repr

/-- The check of the block option and the payload; an error cancels the download. -/
def checkBlock (update : Update) (context : BlockContext) (reply : Reply) :
    Except (CancelReason × Int) Accepted :=
  match reply.block2 with
  | none => if context.current ≠ 0 then .error (.blockOption, einval) else .ok ⟨context, 0, true⟩
  | some block =>
      match update reply context with
      | .error res => .error (.blockOption, res)
      | .ok next =>
          if maxUpdateSize < next.totalSize then .error (.blockOption, enomem)
          else if context.current ≠ next.current then .error (.blockNo, einval)
          else if blockBytes next.blockSize < reply.payload.length then .error (.blockOption, einval)
          else if reply.payload.length < blockBytes next.blockSize ∧ block.more then
            .error (.blockOption, einval)
          else .ok ⟨next, blockBytes next.blockSize, !block.more⟩

/-- `if (payload_len > 0) appl_update_write(payload, payload_len)`. -/
def writePayload (env : Env) (client : Client) (payload : List UInt8) : Client :=
  if payload.isEmpty then client
  else { client with image := client.image ++ payload, writes := client.writes ++ [write env.write] }

/-- The end of a download: `appl_update_finish`, the version, and the request to upgrade. -/
def finishDownload (env : Env) (client : Client) : Client × Int :=
  let (dfu, res) := finish client.dfu env.finish
  let client := { client with dfu, finished := some res }
  if res ≠ 0 then ((cancelDownload env client true .notAvailable).1, res)
  else
    let (res, version) := verifyVersion env client
    let client := { client with verified := version }
    if res ≠ 0 then ((cancelDownload env client true .notAvailable).1, res)
    else
      let res := requestUpgrade env.upgrade
      let client := { client with upgraded := some res }
      if res ≠ 0 then ((cancelDownload env client true .notAvailable).1, res)
      else ((cancelDownload env client false .notAvailable).1, res)

/-- `appl_update_coap_resonse`. -/
def response (update : Update) (env : Env) (client : Client) (reply : Reply) : Client × Int :=
  let context := client.blockContext
  let client := { client with messageLen := 0 }
  if reply.code ≠ codeContent then ((cancelDownload env client true .noContent).1, einval)
  else match checkFormat client reply with
    | none => ((cancelDownload env client true .changed).1, einval)
    | some client => match checkEtag client reply context.current with
      | none => ((cancelDownload env client true .changed).1, einval)
      | some client => match checkBlock update context reply with
        | .error (reason, res) => ((cancelDownload env client true reason).1, res)
        | .ok accepted =>
            let client := writePayload env client reply.payload
            if accepted.ready then finishDownload env client
            else if context.current = client.blockContext.current then
              ({ client with
                blockContext := { accepted.context with current := accepted.context.current + accepted.bytes }
                downloadRequest := true }, 0)
            else (client, 0)

/-- The message is a response that `appl_update_coap_parse_data` handles. -/
def handles (env : Env) (client : Client) (reply : Reply) : Bool :=
  !env.reboots && client.download && (coapClientMatch reply client.mid client.token).isResponse

/-- `appl_update_coap_parse_data`; `none` is a malformed message. -/
def parseData (update : Update) (env : Env) (client : Client) : Option Reply → Client
  | none => client
  | some reply => if handles env client reply then (response update env client reply).1 else client

/-- `appl_update_coap_next`. -/
def coapNext (env : Env) (client : Client) : Client × Int :=
  if env.reboots then (client, eshutdown)
  else if !client.download then (client, einval)
  else if !client.downloadRequest then (client, 0)
  else
    let client := { client with
      downloadRequest := false, token := env.nextToken, mid := env.nextMid, messageLen := 0 }
    match env.request with
    | .error rc => (client, rc)
    | .ok length => ({ client with messageLen := length }, length)

inductive Event where
  | cmd (cmd : Cmd) (version : Text)
  | cancel
  | eraseBegin
  | eraseEnd
  | data (reply : Option Reply)
  | next
  /-- An update over another way changes the DFU context. -/
  | otherUpdate (dfu : Dfu)
deriving DecidableEq, Repr

structure Label where
  event : Event
  env : Env := {}

/-- One step of the client. -/
def step (update : Update) (imageVersion : Text) (client : Client) (label : Label) : Option Client :=
  match label.event with
  | .cmd cmd version => some (coapCmd imageVersion label.env client cmd version).1
  | .cancel => some (coapCancel label.env client).1
  | .eraseBegin =>
      if client.eraseWork ∧ client.erasing = none then some (eraseBegin label.env client) else none
  | .eraseEnd => client.erasing.map (eraseEnd label.env client)
  | .data reply => some (parseData update label.env client reply)
  | .next => some (coapNext label.env client).1
  | .otherUpdate dfu => some { client with dfu }

/-- The steps as a relation. -/
def Step (update : Update) (imageVersion : Text) (client : Client) (label : Label) (next : Client) : Prop :=
  step update imageVersion client label = some next

/-- What the library does for a response without an option of the other direction. -/
def updateDescriptiveBlock : Update := fun reply context =>
  match reply.block2 with
  | none => .ok context
  | some block =>
      let size := reply.size2.getD 0
      let current := block.num <<< (block.szx + 4)
      if size ≠ 0 ∧ context.totalSize ≠ 0 ∧ context.totalSize ≠ size then .error einval
      else if 0 < context.current ∧ context.blockSize < block.szx then .error einval
      else if context.totalSize ≠ 0 ∧ context.totalSize < current then .error einval
      else .ok {
        totalSize := if size ≠ 0 then size else context.totalSize
        current
        blockSize := min context.blockSize block.szx }

/-- Start a download, erase the flash and send the first request, with a given token. -/
def started (version : Text) (token : ℕ) : List Label :=
  [⟨.cmd .download version, { init := { area := some 1 } }⟩, ⟨.eraseBegin, {}⟩, ⟨.eraseEnd, {}⟩,
    ⟨.next, { nextToken := token }⟩]

end CoapsClient.ApplUpdate
