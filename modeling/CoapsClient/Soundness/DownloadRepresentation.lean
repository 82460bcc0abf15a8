import CoapsClient.Model.Update.Steps

/-! # One representation in a download

The blocks of a download have to belong to one image. The client compares the ETag and the content
format of a block with those of the first, but only if the block has the option: one without it is
written, whatever image it is from. `Traced` is the client with the responses that were accepted in its
download, the written payloads are theirs, and no branch reads the record.
-/

namespace CoapsClient.ApplUpdate

open Machine ShCmd

variable {update : Update} {imageVersion : Text} {env : Env} {client next : Client} {label : Label}
  {reply : Reply}

/-- The response passes every check of `appl_update_coap_resonse`. -/
def accepts (update : Update) (client : Client) (reply : Reply) : Bool :=
  reply.code == codeContent && (checkFormat client reply).isSome &&
    (checkEtag client reply client.blockContext.current).isSome &&
    (checkBlock update client.blockContext reply).isOk

/-- The responses that are accepted in the download that was started last. -/
def blocksAfter (update : Update) (client : Client) (label : Label) (next : Client) (blocks : List Reply) :
    List Reply :=
  if !client.download && next.download then []
  else match label.event with
    | .data (some reply) =>
        if handles label.env client reply && accepts update client reply then blocks ++ [reply] else blocks
    | _ => blocks

/-- The client and the accepted responses. -/
structure Traced where
  client : Client := initial
  blocks : List Reply := []
deriving DecidableEq, Repr

def tracedStep (update : Update) (imageVersion : Text) (traced : Traced) (label : Label) : Option Traced :=
  (step update imageVersion traced.client label).map fun next =>
    { client := next, blocks := blocksAfter update traced.client label next traced.blocks }

def TracedStep (update : Update) (imageVersion : Text) (traced : Traced) (label : Label)
    (next : Traced) : Prop :=
  tracedStep update imageVersion traced label = some next

private theorem tracedStep_iff {traced after : Traced} :
    TracedStep update imageVersion traced label after ↔
      Step update imageVersion traced.client label after.client ∧
        after.blocks = blocksAfter update traced.client label after.client traced.blocks := by
  simp only [TracedStep, tracedStep, Step, Option.map_eq_some_iff]
  constructor
  · rintro ⟨next, moved, rfl⟩
    exact ⟨moved, rfl⟩
  · rintro ⟨moved, blocks⟩
    exact ⟨after.client, moved, by rw [← blocks]⟩

/-- The content format of the response is the one that was found before, if there is one. -/
def FormatFits (client : Client) (reply : Reply) : Prop :=
  ∀ format, reply.contentFormat = some format → 0 ≤ client.contentFormat → client.contentFormat = format

/-- The ETag of a later block is that of the first. -/
def EtagFits (client : Client) (reply : Reply) : Prop :=
  ∀ value, reply.etag = some value → client.blockContext.current ≠ 0 → client.etag = decodeEtag value

/-- The content format to compare with after a response. -/
def formatAfter (client : Client) (reply : Reply) : Int :=
  if 0 ≤ client.contentFormat then client.contentFormat else reply.contentFormat.getD client.contentFormat

/-- The ETag to compare with after a response. -/
def etagAfter (client : Client) (reply : Reply) : List UInt8 :=
  if client.blockContext.current ≠ 0 then client.etag else (reply.etag.map decodeEtag).getD client.etag

private theorem checkFormat_of_fits (fits : FormatFits client reply) :
    checkFormat client reply = some { client with contentFormat := formatAfter client reply } := by
  simp only [checkFormat, formatAfter]
  split
  · next absent => simp [absent]
  · next format present =>
    split_ifs with set differs
    · exact absurd (fits format present set) differs
    · rfl
    · simp [present]

private theorem checkFormat_eq_none (differs : ¬ FormatFits client reply) : checkFormat client reply = none := by
  simp only [FormatFits, not_forall] at differs
  obtain ⟨format, present, set, differs⟩ := differs
  simp [checkFormat, present, set, differs]

private theorem checkEtag_of_fits (fits : EtagFits client reply) :
    checkEtag client reply client.blockContext.current =
      some { client with etag := etagAfter client reply } := by
  simp only [checkEtag, etagAfter]
  split
  · next absent => simp [absent]
  · next value present =>
    split_ifs with later differs
    · exact absurd (fits value present later) differs
    · rfl
    · simp [present]

private theorem checkEtag_eq_none (differs : ¬ EtagFits client reply) :
    checkEtag client reply client.blockContext.current = none := by
  simp only [EtagFits, not_forall] at differs
  obtain ⟨value, present, later, differs⟩ := differs
  simp [checkEtag, present, later, differs]

private theorem accepts_iff :
    accepts update client reply = true ↔ reply.code = codeContent ∧ FormatFits client reply ∧
      EtagFits client reply ∧ ∃ accepted, checkBlock update client.blockContext reply = .ok accepted := by
  have format : (checkFormat client reply).isSome = true ↔ FormatFits client reply := by
    by_cases fits : FormatFits client reply
    · simp [checkFormat_of_fits fits, fits]
    · simp [checkFormat_eq_none fits, fits]
  have etag : (checkEtag client reply client.blockContext.current).isSome = true ↔ EtagFits client reply := by
    by_cases fits : EtagFits client reply
    · simp [checkEtag_of_fits fits, fits]
    · simp [checkEtag_eq_none fits, fits]
  have block : (checkBlock update client.blockContext reply).isOk = true ↔
      ∃ accepted, checkBlock update client.blockContext reply = .ok accepted := by
    cases checkBlock update client.blockContext reply with
    | error failure => simp [Except.isOk, Except.toBool]
    | ok accepted => simp [Except.isOk, Except.toBool]
  simp only [accepts, Bool.and_eq_true, beq_iff_eq, format, etag, block, and_assoc]

private theorem cancelDownload_contentFormat (env : Env) (client : Client) (cancel : Bool) (reason : CancelReason) :
    (cancelDownload env client cancel reason).1.contentFormat = client.contentFormat := by
  simp only [cancelDownload]
  split <;> rfl

private theorem finishDownload_contentFormat (env : Env) (client : Client) :
    (finishDownload env client).1.contentFormat = client.contentFormat := by
  simp only [finishDownload]
  split_ifs <;> exact cancelDownload_contentFormat env _ _ _

/-- What an accepted response leaves to compare with. -/
structure Taken (client : Client) (reply : Reply) (next : Client) : Prop where
  image : next.image = client.image ++ reply.payload
  contentFormat : next.contentFormat = formatAfter client reply
  goesOn : next.download = true → next.blockContext.current ≠ 0 ∧ next.etag = etagAfter client reply

/-- A response that fails a check stops the download unwritten. -/
private theorem response_of_not_accepts (env : Env) (rejected : accepts update client reply = false) :
    Stopped client (response update env client reply).1 := by
  have begun : Kept client { client with messageLen := 0 } :=
    ⟨⟨rfl, rfl, rfl, rfl, rfl, rfl⟩, rfl, rfl, rfl, rfl⟩
  have rejected : ¬ accepts update client reply = true := Bool.eq_false_iff.mp rejected
  rw [accepts_iff] at rejected
  simp only [response]
  split
  · exact Stopped.of_kept begun (cancelDownload_stopped env _ .noContent)
  · next code =>
    by_cases format : FormatFits client reply
    · have formatted := @checkFormat_of_fits { client with messageLen := 0 } reply format
      have kept := begun.trans (checkFormat_kept formatted)
      rw [formatted]
      simp only
      by_cases etag : EtagFits client reply
      · have tagged := @checkEtag_of_fits
          { client with messageLen := 0, contentFormat := formatAfter client reply } reply etag
        have kept := kept.trans (checkEtag_kept tagged)
        simp only [formatAfter] at tagged kept ⊢
        rw [tagged]
        cases block : checkBlock update client.blockContext reply with
        | error failure => exact Stopped.of_kept kept (cancelDownload_stopped env _ _)
        | ok accepted => exact absurd ⟨not_not.mp code, format, etag, accepted, block⟩ rejected
      · have tagged := @checkEtag_eq_none
          { client with messageLen := 0, contentFormat := formatAfter client reply } reply etag
        simp only [formatAfter] at tagged kept ⊢
        rw [tagged]
        exact Stopped.of_kept kept (cancelDownload_stopped env _ .changed)
    · rw [@checkFormat_eq_none { client with messageLen := 0 } reply format]
      exact Stopped.of_kept begun (cancelDownload_stopped env _ .changed)

private theorem blockBytes_pos (szx : ℕ) : 0 < blockBytes szx := by
  rw [blockBytes, Nat.one_shiftLeft]
  exact Nat.two_pow_pos _

private theorem writePayload_options (env : Env) (client : Client) (payload : List UInt8) :
    (writePayload env client payload).contentFormat = client.contentFormat ∧
      (writePayload env client payload).etag = client.etag := by
  simp only [writePayload]
  split <;> exact ⟨rfl, rfl⟩

/-- A response that passes every check is taken. -/
private theorem response_of_accepts (env : Env) (passed : accepts update client reply = true) :
    Taken client reply (response update env client reply).1 := by
  obtain ⟨code, format, etag, accepted, block⟩ := accepts_iff.mp passed
  have formatted := @checkFormat_of_fits { client with messageLen := 0 } reply format
  have tagged := @checkEtag_of_fits
    { client with messageLen := 0, contentFormat := formatAfter client reply } reply etag
  obtain ⟨written, _, _, _, context⟩ := writePayload_written env { client with
    messageLen := 0, contentFormat := formatAfter client reply, etag := etagAfter client reply } reply.payload
  obtain ⟨sameFormat, sameEtag⟩ := writePayload_options env { client with
    messageLen := 0, contentFormat := formatAfter client reply, etag := etagAfter client reply } reply.payload
  simp only [response, code, ne_eq, not_true_eq_false, if_false, formatted]
  simp only [formatAfter, etagAfter] at tagged written context sameFormat sameEtag ⊢
  rw [tagged]
  simp only [block]
  split
  · obtain ⟨ended, image, _⟩ := finishDownload_ended env (writePayload env { client with
      messageLen := 0, contentFormat := formatAfter client reply,
      etag := etagAfter client reply } reply.payload)
    refine ⟨image.trans written.image, (finishDownload_contentFormat _ _).trans sameFormat, ?_⟩
    intro running
    exact absurd (ended.symm.trans running) (by decide)
  · next notReady =>
    rw [if_pos (by rw [context])]
    refine ⟨written.image, sameFormat, fun _ => ⟨?_, sameEtag⟩⟩
    -- with more to come the block has a size, so the next one is behind the first
    rcases checkBlock_cases block with ⟨_, _, rfl⟩ | ⟨_, after, _, _, _, _, _, _, rfl⟩
    · exact absurd rfl notReady
    · have size := blockBytes_pos after.blockSize
      simp only
      omega

/-- The step handles no response. -/
def Unhandled (client : Client) (label : Label) : Prop :=
  ∀ reply, label.event = .data (some reply) → handles label.env client reply = false

/-- Without a response a running download keeps what it compares with, except that the end of the erase
work sets its offset to zero; a download that begins is empty. -/
structure Quiet (client : Client) (label : Label) (next : Client) : Prop where
  contentFormat : next.contentFormat = client.contentFormat
  image : client.download = true ∨ next.download = false → next.image = client.image
  begun : client.download = false → next.download = true → next.image = []
  etag : client.download = true → next.download = true → next.etag = client.etag
  current : client.download = true → next.download = true →
    next.blockContext.current = client.blockContext.current ∨
      label.event = .eraseEnd ∧ client.erasing = some 0

theorem Quiet.of_same (contentFormat : next.contentFormat = client.contentFormat)
    (image : next.image = client.image) (download : next.download = client.download)
    (etag : next.etag = client.etag) (context : next.blockContext = client.blockContext) :
    Quiet client label next :=
  ⟨contentFormat, fun _ => image, fun idle runs => by simp [download, idle] at runs, fun _ _ => etag,
    fun _ _ => .inl (congrArg _ context)⟩

theorem Quiet.of_stopped (contentFormat : next.contentFormat = client.contentFormat)
    (stopped : Stopped client next) : Quiet client label next :=
  ⟨contentFormat, fun _ => stopped.image, fun _ runs => by simp [stopped.download] at runs,
    fun _ runs => by simp [stopped.download] at runs, fun _ runs => by simp [stopped.download] at runs⟩

private theorem coapStart_quiet (imageVersion : Text) (env : Env) (client : Client) (resource : Text) (apply : Bool) :
    Quiet client label (coapStart imageVersion env { client with applyUpdate := apply } resource).1 := by
  simp only [coapStart, setResource]
  split
  · exact .of_same rfl rfl rfl rfl rfl
  · next idle =>
    have idle : client.download = false := by simpa using idle
    split
    · exact .of_same rfl rfl rfl rfl rfl
    · exact ⟨rfl, fun other => by simp [idle] at other, fun _ _ => rfl, fun runs => by simp [idle] at runs,
        fun runs => by simp [idle] at runs⟩

private theorem coapCmd_quiet (imageVersion : Text) (env : Env) (client : Client) (cmd : Cmd) (version : Text) :
    Quiet client label (coapCmd imageVersion env client cmd version).1 := by
  simp only [coapCmd]
  split
  · exact .of_same rfl rfl rfl rfl rfl
  · cases cmd with
    | download => exact coapStart_quiet imageVersion env client version false
    | update => exact coapStart_quiet imageVersion env client version true
    | apply =>
      simp only
      split_ifs <;> exact .of_same rfl rfl rfl rfl rfl
    | cancel =>
      simp only
      split_ifs
      · exact .of_same rfl rfl rfl rfl rfl
      · exact .of_same rfl rfl rfl rfl rfl
      · exact .of_stopped (cancelDownload_contentFormat env client true .cmd)
          ((cancelDownload_stopped env client .cmd).keep
            ⟨⟨rfl, rfl, rfl, rfl, rfl, rfl⟩, rfl, rfl, rfl, rfl⟩)
    | other => exact .of_same rfl rfl rfl rfl rfl

/-- The end of the erase work starts the transfer at offset zero, or stops the download. -/
private theorem eraseEnd_quiet (env : Env) {rc : Int} (event : label.event = .eraseEnd)
    (running : client.erasing = some rc) : Quiet client label (eraseEnd env client rc) := by
  simp only [eraseEnd]
  split
  · next erased =>
    split
    · next found =>
      refine ⟨rfl, fun _ => rfl, fun idle => ?_, fun _ _ => rfl, fun _ _ => .inr ⟨event, erased ▸ running⟩⟩
      rw [found] at idle
      contradiction
    · exact .of_same rfl rfl rfl rfl rfl
  · have ended : Kept client { client with erasing := none } :=
      ⟨⟨rfl, rfl, rfl, rfl, rfl, rfl⟩, rfl, rfl, rfl, rfl⟩
    exact .of_stopped (cancelDownload_contentFormat env _ true .notAvailable)
      ((Stopped.of_kept ended (cancelDownload_stopped env _ .notAvailable)).keep
        ⟨⟨rfl, rfl, rfl, rfl, rfl, rfl⟩, rfl, rfl, rfl, rfl⟩)

private theorem step_quiet (moved : Step update imageVersion client label next) (unhandled : Unhandled client label) :
    Quiet client label next := by
  obtain ⟨event, env⟩ := label
  cases event with
  | cmd cmd version =>
    obtain rfl := Option.some.inj moved
    exact coapCmd_quiet imageVersion env client cmd version
  | cancel =>
    obtain rfl := Option.some.inj moved
    simp only [coapCancel]
    split
    · exact .of_same rfl rfl rfl rfl rfl
    · exact .of_stopped (cancelDownload_contentFormat env client true .notAvailable)
        (cancelDownload_stopped env client .notAvailable)
  | eraseBegin =>
    obtain ⟨_, moved⟩ := Option.ite_none_right_eq_some.mp moved
    obtain rfl := Option.some.inj moved
    exact .of_same rfl rfl rfl rfl rfl
  | eraseEnd =>
    obtain ⟨rc, running, rfl⟩ := Option.map_eq_some_iff.mp moved
    exact eraseEnd_quiet env rfl running
  | data reply =>
    obtain rfl := Option.some.inj moved
    cases reply with
    | none => exact .of_same rfl rfl rfl rfl rfl
    | some reply =>
      simp only [parseData, unhandled reply rfl, Bool.false_eq_true, if_false]
      exact .of_same rfl rfl rfl rfl rfl
  | next =>
    obtain rfl := Option.some.inj moved
    simp only [coapNext]
    split_ifs
    · exact .of_same rfl rfl rfl rfl rfl
    · exact .of_same rfl rfl rfl rfl rfl
    · exact .of_same rfl rfl rfl rfl rfl
    · split <;> exact .of_same rfl rfl rfl rfl rfl
  | otherUpdate dfu =>
    obtain rfl := Option.some.inj moved
    exact .of_same rfl rfl rfl rfl rfl

/-- Every later block has the options the first had. -/
def OneRepresentation (blocks : List Reply) : Prop :=
  ∀ first rest, blocks = first :: rest → ∀ block ∈ rest,
    (first.etag ≠ none → block.etag = first.etag) ∧
      (first.contentFormat ≠ none → block.contentFormat = first.contentFormat)

/-- An option that the first block had is another one, or it is missing. -/
def Foreign (first reply : Reply) : Prop :=
  (first.etag ≠ none ∧ reply.etag ≠ first.etag) ∨
    (first.contentFormat ≠ none ∧ reply.contentFormat ≠ first.contentFormat)

/-- An ETag has at most eight bytes, a content format at most two. -/
def legalOptions (reply : Reply) : Bool :=
  reply.etag.all (fun value => value.length ≤ 8) && reply.contentFormat.all (fun format => 0 ≤ format)

/-- The response has the options that another one has. -/
def carriesOptions (first reply : Reply) : Bool :=
  (first.etag.isNone || reply.etag.isSome) && (first.contentFormat.isNone || reply.contentFormat.isSome)

/-- What the steps of a run have to meet: a handled response has legal options and those of the first
block, and the erase work ends only while nothing of the download is accepted. -/
def representationCondition (traced : Traced) (label : Label) : Bool :=
  match label.event with
  | .data (some reply) => !handles label.env traced.client reply ||
      (legalOptions reply && traced.blocks.head?.all fun first => carriesOptions first reply)
  | .eraseEnd => !(traced.client.erasing == some 0 && traced.client.download) || traced.blocks.isEmpty
  | _ => true

/-- The client compares with the options of the first block. -/
structure Compares (client : Client) (first : Reply) : Prop where
  later : client.blockContext.current ≠ 0
  etag : ∀ value, first.etag = some value → value.length ≤ 8 ∧ client.etag = value
  format : ∀ format, first.contentFormat = some format → 0 ≤ format ∧ client.contentFormat = format

/-- The accepted blocks are what is written, they have the same options, and the client still compares
with those of the first. -/
structure Recorded (traced : Traced) : Prop where
  image : traced.client.image = traced.blocks.flatMap Reply.payload
  same : OneRepresentation traced.blocks
  compares : traced.client.download = true → ∀ first rest, traced.blocks = first :: rest →
    Compares traced.client first

private theorem legalOptions_etag {value : List UInt8} (legal : legalOptions reply = true)
    (present : reply.etag = some value) :
    value.length ≤ 8 := by
  simp only [legalOptions, present, Option.all_some, Bool.and_eq_true, decide_eq_true_eq] at legal
  exact legal.1

private theorem legalOptions_format {format : Int} (legal : legalOptions reply = true)
    (present : reply.contentFormat = some format) : 0 ≤ format := by
  simp only [legalOptions, present, Option.all_some, Bool.and_eq_true, decide_eq_true_eq] at legal
  exact legal.2

/-- A response with legal options that is accepted behind a first block has the options of it. -/
theorem Compares.not_foreign {first : Reply} (compares : Compares client first)
    (legal : legalOptions reply = true)
    (carries : carriesOptions first reply = true) (passed : accepts update client reply = true) :
    ¬ Foreign first reply := by
  obtain ⟨_, format, etag, _⟩ := accepts_iff.mp passed
  simp only [carriesOptions, Bool.and_eq_true, Bool.or_eq_true, Option.isNone_iff_eq_none,
    Option.isSome_iff_exists] at carries
  rintro (⟨had, differs⟩ | ⟨had, differs⟩)
  · obtain ⟨value, first⟩ := Option.ne_none_iff_exists'.mp had
    obtain ⟨other, present⟩ := carries.1.resolve_left had
    have short := legalOptions_etag legal present
    have same := (compares.etag value first).2.symm.trans (etag other present compares.later)
    rw [decodeEtag, List.take_of_length_le short] at same
    exact differs (by rw [present, first, same])
  · obtain ⟨value, first⟩ := Option.ne_none_iff_exists'.mp had
    obtain ⟨other, present⟩ := carries.2.resolve_left had
    obtain ⟨positive, found⟩ := compares.format value first
    exact differs (by rw [present, first, ← format other present (found ▸ positive), found])

/-- The client compares with the options of a first block that it takes. -/
theorem Compares.of_first (legal : legalOptions reply = true) (passed : accepts update client reply = true)
    (taken : Taken client reply next) (runs : next.download = true) : Compares next reply := by
  obtain ⟨_, format, etag, _⟩ := accepts_iff.mp passed
  obtain ⟨later, sameEtag⟩ := taken.goesOn runs
  refine ⟨later, ?_, ?_⟩
  · intro value present
    have short := legalOptions_etag legal present
    have decoded : decodeEtag value = value := List.take_of_length_le short
    refine ⟨short, ?_⟩
    rw [sameEtag, etagAfter]
    split
    · next behind => exact (etag value present behind).trans decoded
    · rw [present, Option.map_some, Option.getD_some, decoded]
  · intro value present
    refine ⟨legalOptions_format legal present, ?_⟩
    rw [taken.contentFormat, formatAfter]
    split
    · next set => exact format value present set
    · rw [present, Option.getD_some]

/-- Later blocks change nothing of what the client compares with. -/
theorem Compares.taken {first : Reply} (compares : Compares client first) (taken : Taken client reply next)
    (runs : next.download = true) : Compares next first := by
  obtain ⟨later, sameEtag⟩ := taken.goesOn runs
  refine ⟨later, ?_, ?_⟩
  · intro value present
    rw [sameEtag, etagAfter, if_pos compares.later]
    exact compares.etag value present
  · intro value present
    obtain ⟨positive, found⟩ := compares.format value present
    rw [taken.contentFormat, formatAfter, if_pos (found ▸ positive)]
    exact ⟨positive, found⟩

private theorem blocksAfter_of_handles {blocks : List Reply} (isData : label.event = .data (some reply))
    (handled : handles label.env client reply = true) :
    blocksAfter update client label next blocks =
      if accepts update client reply then blocks ++ [reply] else blocks := by
  have runs := download_of_handles handled
  simp only [blocksAfter, isData, handled, runs, Bool.not_true, Bool.false_and, Bool.false_eq_true, if_false,
    Bool.true_and]

private theorem blocksAfter_of_unhandled {blocks : List Reply} (unhandled : Unhandled client label) :
    blocksAfter update client label next blocks =
      if !client.download && next.download then [] else blocks := by
  simp only [blocksAfter]
  split
  · rfl
  · split
    · next reply isData => simp [unhandled reply isData]
    · rfl

/-- A handled response keeps the record, and one that does not belong to the first block stops the
download unwritten. -/
theorem Recorded.response {traced : Traced} (recorded : Recorded traced) (update : Update)
    (isData : label.event = .data (some reply)) (handled : handles label.env traced.client reply = true)
    (condition : representationCondition traced label = true) :
    Recorded ⟨(response update label.env traced.client reply).1,
        blocksAfter update traced.client label (response update label.env traced.client reply).1 traced.blocks⟩ ∧
      ∀ first rest, traced.blocks = first :: rest → Foreign first reply →
        Stopped traced.client (ApplUpdate.response update label.env traced.client reply).1 := by
  obtain ⟨image, same, compares⟩ := recorded
  have compares := compares (download_of_handles handled)
  simp only [representationCondition, isData, handled, Bool.not_true, Bool.false_or,
    Bool.and_eq_true] at condition
  obtain ⟨legal, carries⟩ := condition
  have accepted_own (passed : accepts update traced.client reply = true) (first : Reply) (rest : List Reply)
      (blocks : traced.blocks = first :: rest) : ¬ Foreign first reply := by
    refine (compares first rest blocks).not_foreign legal ?_ passed
    simpa [blocks] using carries
  rw [blocksAfter_of_handles isData handled]
  cases passed : accepts update traced.client reply with
  | false =>
    have stopped := response_of_not_accepts label.env passed
    refine ⟨⟨stopped.image.trans image, same, fun runs => ?_⟩, fun _ _ _ _ => stopped⟩
    exact absurd (stopped.download.symm.trans runs) (by decide)
  | true =>
    have taken := response_of_accepts label.env passed
    refine ⟨⟨?_, ?_, ?_⟩, fun first rest blocks foreign =>
      absurd foreign (accepted_own passed first rest blocks)⟩
    · simp only [if_true, taken.image, image, List.flatMap_append, List.flatMap_singleton]
    · cases blocks : traced.blocks with
      | nil =>
        rintro first rest isFirst block found
        obtain ⟨_, rfl⟩ := List.cons.inj isFirst
        simp at found
      | cons first rest =>
        have own := accepted_own passed first rest blocks
        rintro other others isFirst block found
        obtain ⟨rfl, rfl⟩ := List.cons.inj isFirst
        rcases List.mem_append.mp found with old | new
        · exact same first rest blocks block old
        · obtain rfl := List.mem_singleton.mp new
          simp only [Foreign, not_or, not_and, not_not] at own
          exact own
    · intro runs first rest isFirst
      cases blocks : traced.blocks with
      | nil =>
        rw [blocks] at isFirst
        obtain ⟨rfl, _⟩ := List.cons.inj isFirst
        exact .of_first legal passed taken runs
      | cons other others =>
        rw [blocks] at isFirst
        obtain ⟨rfl, _⟩ := List.cons.inj isFirst
        exact (compares other others blocks).taken taken runs

/-- Every step that meets the condition keeps the record. -/
theorem Recorded.step {traced after : Traced} (recorded : Recorded traced)
    (moved : TracedStep update imageVersion traced label after)
    (condition : representationCondition traced label = true) : Recorded after := by
  obtain ⟨moved, blocks⟩ := tracedStep_iff.mp moved
  by_cases unhandled : Unhandled traced.client label
  · have quiet := step_quiet moved unhandled
    rw [blocksAfter_of_unhandled unhandled] at blocks
    by_cases begins : (!traced.client.download && after.client.download) = true
    · simp only [begins, if_true] at blocks
      simp only [Bool.and_eq_true, Bool.not_eq_true'] at begins
      refine ⟨by rw [blocks, quiet.begun begins.1 begins.2]; rfl, ?_, ?_⟩
      · intro first rest isFirst
        rw [blocks] at isFirst
        contradiction
      · intro _ first rest isFirst
        rw [blocks] at isFirst
        contradiction
    · rw [if_neg begins] at blocks
      have running : traced.client.download = true ∨ after.client.download = false := by
        cases before : traced.client.download <;> cases behind : after.client.download <;>
          simp [before, behind] at begins ⊢
      refine ⟨by rw [blocks, quiet.image running, recorded.image], blocks ▸ recorded.same, ?_⟩
      intro runs first rest isFirst
      have was : traced.client.download = true := running.resolve_right (by simp [runs])
      rw [blocks] at isFirst
      obtain ⟨later, etag, format⟩ := recorded.compares was first rest isFirst
      refine ⟨?_, quiet.etag was runs ▸ etag, quiet.contentFormat ▸ format⟩
      rcases quiet.current was runs with current | ⟨isEnd, erased⟩
      · exact current ▸ later
      · simp [representationCondition, isEnd, erased, was, isFirst] at condition
  · simp only [Unhandled, not_forall] at unhandled
    obtain ⟨reply, isData, handled⟩ := unhandled
    have handled : handles label.env traced.client reply = true := by simpa using handled
    obtain ⟨client, kept⟩ := after
    obtain rfl : client = _ := step_of_handles isData handled moved
    simp only at blocks
    subst blocks
    exact (recorded.response update isData handled condition).1

/-- The accepted responses are a record of the run: every run of the client has one. -/
theorem exists_traced {labels : List Label} {traced : Traced} {client : Client}
    (path : Path (Step update imageVersion) traced.client labels client) :
    ∃ blocks, Path (TracedStep update imageVersion) traced labels ⟨client, blocks⟩ := by
  induction labels generalizing traced with
  | nil =>
    cases path
    exact ⟨traced.blocks, .nil traced⟩
  | cons label labels ih =>
    cases path with
    | @cons _ mid _ _ _ moved rest =>
      obtain ⟨blocks, path⟩ := @ih ⟨mid, blocksAfter update traced.client label mid traced.blocks⟩ rest
      exact ⟨blocks, .cons (tracedStep_iff.mpr ⟨moved, rfl⟩) path⟩

/-- In every run that meets the condition the written blocks are the accepted ones, each of them has the
ETag and the content format of the first, and a handled response that has another one or none stops the
download before its payload is written. -/
theorem download_representation (update : Update) (imageVersion : Text) {labels : List Label}
    {traced : Traced}
    (path : Path (guarded (TracedStep update imageVersion) fun traced label =>
        representationCondition traced label)
      {} labels traced) :
    Path (Step update imageVersion) initial labels traced.client ∧
      traced.client.image = traced.blocks.flatMap Reply.payload ∧ OneRepresentation traced.blocks ∧
      ∀ label reply first rest next, representationCondition traced label = true →
        label.event = .data (some reply) → handles label.env traced.client reply = true →
        traced.blocks = first :: rest → Foreign first reply →
          Step update imageVersion traced.client label next →
        next.image = traced.client.image ∧ next.download = false ∧ next.downloadReady = false := by
  have recorded : Recorded traced := by
    refine path.invariant Recorded ?_ ⟨rfl, fun _ _ isFirst => by contradiction, fun runs => by contradiction⟩
    rintro source label target recorded ⟨condition, moved⟩
    exact recorded.step moved condition
  refine ⟨path.map Traced.client ?_, recorded.image, recorded.same, ?_⟩
  · rintro source label target ⟨_, moved⟩
    exact (tracedStep_iff.mp moved).1
  · intro label reply first rest next condition isData handled blocks foreign moved
    have stopped := (recorded.response update isData handled condition).2 first rest blocks foreign
    rw [step_of_handles isData handled moved]
    exact ⟨stopped.image, stopped.download, stopped.ready⟩

/-- A block of 16 bytes with the ETag it has. -/
private def taggedBlock (num : ℕ) (etag : Option (List UInt8)) : Reply :=
  { token := some 1, block2 := some ⟨num, true, 0⟩, payload := List.replicate 16 0, etag }

/-- A download with a first block, and the request for the second. -/
private def taggedStart : List Label :=
  started "1.0.1+0".toList 1 ++ [⟨.data (some (taggedBlock 0 (some [7]))), {}⟩, ⟨.next, { nextToken := 1 }⟩]

/-- A second block with another ETag stops the download. -/
theorem download_representation_changed :
    ∃ traced next, Path (guarded (TracedStep updateDescriptiveBlock "1.0.0+0".toList) fun traced label =>
        representationCondition traced label) {} taggedStart traced ∧
      Step updateDescriptiveBlock "1.0.0+0".toList traced.client
        ⟨.data (some (taggedBlock 1 (some [8]))), {}⟩ next ∧
      traced.client.image.length = 16 ∧ next.image = traced.client.image ∧ next.download = false := by
  have facts : ((taggedStart.foldlM (fun traced label => if representationCondition traced label then
      tracedStep updateDescriptiveBlock "1.0.0+0".toList traced label else none) {}).map fun traced =>
      (representationCondition traced ⟨.data (some (taggedBlock 1 (some [8]))), {}⟩,
        handles {} traced.client (taggedBlock 1 (some [8])), traced.blocks, traced.client.image.length)) =
      some (true, true, [taggedBlock 0 (some [7])], 16) := by decide +kernel
  obtain ⟨traced, ran, facts⟩ := Option.map_eq_some_iff.mp facts
  simp only [Prod.mk.injEq] at facts
  obtain ⟨condition, handled, blocks, length⟩ := facts
  have path := Path.guarded_of_foldlM ran
  have foreign : Foreign (taggedBlock 0 (some [7])) (taggedBlock 1 (some [8])) := .inl ⟨by decide, by decide⟩
  obtain ⟨image, download, _⟩ := (download_representation updateDescriptiveBlock "1.0.0+0".toList path).2.2.2
    ⟨.data (some (taggedBlock 1 (some [8]))), {}⟩ _ _ _ _ condition rfl handled blocks foreign rfl
  exact ⟨traced, _, path, rfl, length, image, download⟩

/-- The same with a second block without an ETag. -/
private def untaggedSecond : List Label := taggedStart ++ [⟨.data (some (taggedBlock 1 none)), {}⟩]

/-- A second block without an ETag is written behind a first block that has one. -/
theorem missing_etag_written :
    ∃ traced, Path (TracedStep updateDescriptiveBlock "1.0.0+0".toList) {} untaggedSecond traced ∧
      traced.blocks = [taggedBlock 0 (some [7]), taggedBlock 1 none] ∧
      traced.client.image.length = 32 ∧ traced.client.download = true ∧
        ¬ OneRepresentation traced.blocks := by
  have facts : ((untaggedSecond.foldlM (tracedStep updateDescriptiveBlock "1.0.0+0".toList) {}).map fun traced =>
      (traced.blocks, traced.client.image.length, traced.client.download)) =
      some ([taggedBlock 0 (some [7]), taggedBlock 1 none], 32, true) := by decide +kernel
  obtain ⟨traced, ran, facts⟩ := Option.map_eq_some_iff.mp facts
  simp only [Prod.mk.injEq] at facts
  obtain ⟨blocks, length, runs⟩ := facts
  refine ⟨traced, Path.of_foldlM ran, blocks, length, runs, ?_⟩
  intro same
  have etag := (same (taggedBlock 0 (some [7])) _ blocks (taggedBlock 1 none) (List.mem_singleton_self _)).1
    (by decide)
  exact absurd etag (by decide)

end CoapsClient.ApplUpdate
