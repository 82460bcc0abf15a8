import CoapsClient.Soundness.DownloadIntegrity
import Mathlib.Data.List.Infix

/-! # A ready download is the image of the server

Blocks are written behind one another, and each is the one the offset asks for. So whatever is lost, duplicated or late,
as long as the responses that are handled carry blocks of one image, what is written is a prefix of this image, and a
download that gets ready has all of it. With a server that answers every request the offset grows by at least 16 bytes for
each one, and the download gets ready.
-/

namespace CoapsClient.ApplUpdate

open Machine ShCmd

variable {update : Update} {imageVersion : Text} {client next : Client} {label : Label} {env : Env} {reply : Reply}
variable {served : Text → List UInt8}

/-- The response carries a block of the image, or all of it. -/
def serves (image : List UInt8) (reply : Reply) : Bool :=
  match reply.block2 with
  | none => decide (reply.payload = image)
  | some block =>
      decide (reply.payload = (image.drop reply.offset).take (blockBytes block.szx)) &&
        block.more == decide (reply.offset + blockBytes block.szx < image.length)

/-- The condition of a contiguous download, and every content handled is of the image behind the path. -/
def servedCondition (served : Text → List UInt8) (client : Client) (label : Label) : Bool :=
  downloadCondition client label &&
    match label.event with
    | .data (some reply) =>
        !handles label.env client reply || !decide (reply.code = codeContent) || serves (served client.resourcePath) reply
    | _ => true

/-- The invariant of what is written. -/
structure Copies (served : Text → List UInt8) (client : Client) : Prop where
  inStep : InStep client
  pending : client.download = true → client.downloadReady = false
  part : client.download = true → client.prepared = true → client.image <+: served client.resourcePath
  complete : client.downloadReady = true → client.image = served client.resourcePath

theorem Copies.of_stopped (stopped : client.download = false) (notReady : client.downloadReady = false) :
    Copies served client :=
  ⟨fun running => absurd (stopped.symm.trans running) Bool.false_ne_true, fun _ => notReady,
    fun running => absurd (stopped.symm.trans running) Bool.false_ne_true,
    fun ready => absurd (notReady.symm.trans ready) Bool.false_ne_true⟩

private theorem append_take_drop {image part : List UInt8} (isPart : part <+: image) (bytes : ℕ) :
    part ++ (image.drop part.length).take bytes = image.take (part.length + bytes) := by
  rw [List.take_add, List.prefix_iff_eq_take.mp isPart]
  simp

/-- A response that is not accepted as content ends the download. -/
private theorem response_of_not_content (update : Update) (env : Env) (client : Client) (other : reply.code ≠ codeContent) :
    Stopped client (response update env client reply).1 := by
  have begun : Kept client { client with messageLen := 0 } := ⟨⟨rfl, rfl, rfl, rfl, rfl, rfl⟩, rfl, rfl, rfl, rfl⟩
  unfold response
  simp only
  rw [if_pos other]
  exact Stopped.of_kept begun (cancelDownload_stopped env _ .noContent)

/-- A response with the next block of the image. -/
theorem Copies.response (updates : UpdatesContext update) (copies : Copies served client)
    (download : client.download = true) (prepared : client.prepared = true)
    (content : reply.code = codeContent → serves (served client.resourcePath) reply = true) :
    Copies served (response update env client reply).1 := by
  have inStep : InStep (ApplUpdate.response update env client reply).1 :=
    (copies.inStep.response updates download prepared).2
  have behind : client.blockContext.current = client.image.length := copies.inStep download prepared
  have part := copies.part download prepared
  by_cases other : reply.code ≠ codeContent
  · have stopped := response_of_not_content update env client other
    exact .of_stopped stopped.download stopped.ready
  have carried := content (not_not.mp other)
  rcases response_cases update env client reply with stopped | ⟨accepted, checked, written, goesOn⟩
  · exact .of_stopped stopped.download stopped.ready
  rw [← written.resourcePath] at carried part
  rcases checkBlock_cases checked with ⟨absent, first, rfl⟩ | ⟨block, after, present, updated, -, current, -, -, rfl⟩
  · have empty : client.image = [] := List.eq_nil_of_length_eq_zero (behind.symm.trans first)
    have whole : reply.payload = served (ApplUpdate.response update env client reply).1.resourcePath := by
      simpa [serves, absent] using carried
    have image := written.image
    rw [empty, List.nil_append, whole] at image
    refine ⟨inStep, fun running => ?_, fun _ _ => image ▸ List.prefix_rfl, fun _ => image⟩
    obtain ⟨notReady, -⟩ | ⟨-, ended, -⟩ := goesOn
    · exact absurd notReady.symm Bool.false_ne_true
    · exact absurd (ended.symm.trans running) Bool.false_ne_true
  · have offset : reply.offset = client.image.length := by
      rw [← behind, ← current, updates.current reply block _ after present updated]
      simp [Reply.offset, present]
    simp only [serves, present, Bool.and_eq_true, decide_eq_true_eq, beq_iff_eq, offset] at carried
    obtain ⟨payload, more⟩ := carried
    have image : (ApplUpdate.response update env client reply).1.image =
        (served (ApplUpdate.response update env client reply).1.resourcePath).take
          (client.image.length + blockBytes block.szx) := by
      rw [written.image, payload, append_take_drop part]
    have prefixed : (ApplUpdate.response update env client reply).1.image <+:
        served (ApplUpdate.response update env client reply).1.resourcePath := image ▸ List.take_prefix _ _
    obtain ⟨-, -, kept, -⟩ | ⟨last, ended, -⟩ := goesOn
    · have notReady := kept.trans (copies.pending download)
      exact ⟨inStep, fun _ => notReady, fun _ _ => prefixed,
        fun ready => absurd (notReady.symm.trans ready) Bool.false_ne_true⟩
    · have done : block.more = false := by simpa using last
      rw [done] at more
      refine ⟨inStep, fun running => absurd (ended.symm.trans running) Bool.false_ne_true, fun _ _ => prefixed, fun _ => ?_⟩
      rw [image]
      exact List.take_of_length_le (Nat.le_of_not_lt (of_decide_eq_false more.symm))

/-- Every step that meets the condition keeps a copy. -/
theorem Copies.step (updates : UpdatesContext update) (copies : Copies served client)
    (moved : Step update imageVersion client label next) (condition : servedCondition served client label = true) :
    Copies served next := by
  simp only [servedCondition, Bool.and_eq_true] at condition
  obtain ⟨steady, content⟩ := condition
  have inStep : InStep next := copies.inStep.step updates moved steady
  rcases step_cases moved with kept | begun | stopped | ⟨isEnd, erased, ready⟩ | ⟨reply, isData, handled, rfl⟩
  · refine ⟨inStep, fun running => ?_, fun running prepared => ?_, fun ready => ?_⟩
    · exact kept.ready.trans (copies.pending (kept.download.symm.trans running))
    · rw [kept.image, kept.resourcePath]
      exact copies.part (kept.download.symm.trans running) (kept.prepared.symm.trans prepared)
    · rw [kept.image, kept.resourcePath]
      exact copies.complete (kept.ready.symm.trans ready)
  · refine ⟨inStep, fun _ => begun.ready, fun _ prepared => ?_, fun ready => ?_⟩
    · exact absurd (begun.prepared.symm.trans prepared) Bool.false_ne_true
    · exact absurd (begun.ready.symm.trans ready) Bool.false_ne_true
  · exact .of_stopped stopped.download stopped.ready
  · have empty : client.image = [] := by simpa [downloadCondition, isEnd, erased, ready.was] using steady
    have pending := copies.pending ready.was
    refine ⟨inStep, fun _ => ready.ready.trans pending, fun _ _ => ?_, fun done => ?_⟩
    · rw [ready.image, empty]
      exact List.nil_prefix
    · exact absurd ((ready.ready.trans pending).symm.trans done) Bool.false_ne_true
  · have prepared : client.prepared = true := by simpa [downloadCondition, isData, handled] using steady
    refine copies.response updates (download_of_handles handled) prepared fun isContent => ?_
    simpa [isData, handled, isContent] using content

/-- In every run in which each content handled carries a block of the image behind its path, whatever is lost, duplicated
or late, the bytes written are a prefix of this image, and a download that is ready has all of it. -/
theorem ready_download_served (updates : UpdatesContext update) (imageVersion : Text) {labels : List Label}
    (path : Path (guarded (Step update imageVersion) fun client label => servedCondition served client label)
      initial labels client) :
    (client.download = true → client.prepared = true → client.image <+: served client.resourcePath) ∧
      (client.downloadReady = true → client.image = served client.resourcePath) := by
  have copies : Copies served client := by
    refine path.invariant (Copies served) ?_ (.of_stopped rfl rfl)
    rintro source label target copies ⟨condition, moved⟩
    exact copies.step updates moved condition
  exact ⟨copies.part, copies.complete⟩

/-- An image in two blocks of 16 bytes. -/
def twoBlockImage : List UInt8 := List.replicate 16 7 ++ [1, 2, 3]

/-- Its first block is repeated and a request is lost. -/
def repeatedBlock : List Label :=
  started "1.0.1+0".toList 1 ++
    [⟨.data (some { token := some 1, block2 := some ⟨0, true, 0⟩, payload := twoBlockImage.take 16 }), {}⟩,
      ⟨.next, { nextToken := 2 }⟩, ⟨.next, { nextToken := 3 }⟩,
      ⟨.data (some { token := some 1, block2 := some ⟨0, true, 0⟩, payload := twoBlockImage.take 16 }), {}⟩,
      ⟨.data (some { token := some 2, block2 := some ⟨1, false, 0⟩, payload := twoBlockImage.drop 16 }),
        { header := { major := 1, revision := 1 } }⟩]

theorem ready_download_served_repeated :
    ∃ client, Path (guarded (Step updateDescriptiveBlock "1.0.0+0".toList) fun client label =>
        servedCondition (fun _ => twoBlockImage) client label) initial repeatedBlock client ∧
      client.downloadReady = true ∧
      ((client.download = true → client.prepared = true → client.image <+: twoBlockImage) ∧
        (client.downloadReady = true → client.image = twoBlockImage)) := by
  have facts : ((repeatedBlock.foldlM (fun client label =>
      if servedCondition (fun _ => twoBlockImage) client label then
        step updateDescriptiveBlock "1.0.0+0".toList client label else none) initial).map fun client =>
      client.downloadReady) = some true := by decide +kernel
  obtain ⟨client, ran, ready⟩ := Option.map_eq_some_iff.mp facts
  have path := Path.guarded_of_foldlM ran
  exact ⟨client, path, ready, ready_download_served updatesContext_descriptive _ path⟩

/-- What a server has behind a path. -/
structure Representation where
  image : List UInt8
  etag : Option (List UInt8) := none
  contentFormat : Option Int := none

/-- The server answers the request for the block behind what is written. -/
structure Answers (representation : Representation) (client : Client) (reply : Reply) : Prop where
  code : reply.code = codeContent
  isResponse : (coapClientMatch reply client.mid client.token).isResponse = true
  contentFormat : reply.contentFormat = representation.contentFormat
  etag : reply.etag = representation.etag
  size : reply.size2 = none ∨ reply.size2 = some representation.image.length
  block : ∃ block, reply.block2 = some block ∧ block.szx ≤ client.blockContext.blockSize ∧
    block.num <<< (block.szx + 4) = client.blockContext.current ∧
    reply.payload = (representation.image.drop client.blockContext.current).take (blockBytes block.szx) ∧
    block.more = decide (client.blockContext.current + blockBytes block.szx < representation.image.length)

/-- What `coap_update_from_block` does to the context of a block that is the next one and not larger than requested. -/
def UpdatesInOrder (update : Update) : Prop :=
  ∀ reply block context size, reply.block2 = some block → (reply.size2 = none ∨ reply.size2 = some size) →
    (context.totalSize = 0 ∨ context.totalSize = size) → block.num <<< (block.szx + 4) = context.current →
    context.current ≤ size → block.szx ≤ context.blockSize →
    ∃ total, (total = 0 ∨ total = size) ∧ update reply context = .ok ⟨total, context.current, block.szx⟩

private theorem updatesInOrder_descriptive : UpdatesInOrder updateDescriptiveBlock := by
  intro reply block context size present sizes total current behind smaller
  have announced : reply.size2.getD 0 = 0 ∨ reply.size2.getD 0 = size := by
    rcases sizes with none | some
    · exact .inl (by rw [none]; rfl)
    · exact .inr (by rw [some]; rfl)
  simp only [updateDescriptiveBlock, present]
  rw [if_neg (by omega), if_neg (by omega), if_neg (by omega), Nat.min_eq_right smaller, current]
  refine ⟨_, ?_, rfl⟩
  split_ifs <;> omega

/-- A download in which the next block is to come. -/
structure Fetching (representation : Representation) (client : Client) : Prop where
  download : client.download = true
  image : client.image = representation.image.take client.blockContext.current
  total : client.blockContext.totalSize = 0 ∨ client.blockContext.totalSize = representation.image.length
  aligned : blockBytes client.blockContext.blockSize ∣ client.blockContext.current
  within : client.blockContext.current ≤ representation.image.length
  /-- Behind the first block something is left. -/
  rest : client.blockContext.current ≠ 0 → client.blockContext.current < representation.image.length
  etag : client.blockContext.current ≠ 0 → ∀ value ∈ representation.etag, client.etag = decodeEtag value
  contentFormat : ∀ format ∈ representation.contentFormat, client.contentFormat < 0 ∨ client.contentFormat = format
  area : client.dfu.areaId.isSome = true

/-- The rest of the system lets the download succeed. -/
structure Fine (path : Text) (env : Env) : Prop where
  reboots : env.reboots = false
  request : ∃ length, env.request = .ok length
  finish : env.finish.reboots = false ∧ env.finish.rc = 0
  pending : env.pending.reboots = false ∧ env.pending.rc = 0
  header : env.header.mcubootVersion = 1 ∧ stricmp path env.header.version = 0
  upgrade : env.upgrade.reboots = false ∧ env.upgrade.rc = 0

/-- The next request and its response. -/
def fetch (update : Update) (env : Env) (server : Client → Reply) (client : Client) : Client :=
  parseData update env (coapNext env client).1 (some (server (coapNext env client).1))

/-- The download is ready with the image. -/
structure Done (representation : Representation) (client : Client) : Prop where
  ready : client.downloadReady = true
  image : client.image = representation.image

variable {representation : Representation} {path : Text}

private theorem checkFormat_of_same (client : Client) {format : Option Int} (same : reply.contentFormat = format)
    (fits : ∀ value ∈ format, client.contentFormat < 0 ∨ client.contentFormat = value) :
    ∃ contentFormat, checkFormat client reply = some { client with contentFormat } ∧
      ∀ value ∈ format, contentFormat < 0 ∨ contentFormat = value := by
  simp only [checkFormat, same]
  cases format with
  | none => exact ⟨client.contentFormat, rfl, fits⟩
  | some value =>
    rcases fits value rfl with unset | equal
    · exact ⟨value, by simp [Int.not_le.mpr unset], fun other is => .inr (Option.some.inj is)⟩
    · refine ⟨client.contentFormat, ?_, fits⟩
      dsimp only
      rw [equal, if_neg (not_not_intro rfl)]
      split_ifs
      · rw [← equal]
      · rw [← equal]

private theorem checkEtag_of_same (client : Client) {etag : Option (List UInt8)} (same : reply.etag = etag) (current : ℕ)
    (fits : current ≠ 0 → ∀ value ∈ etag, client.etag = decodeEtag value) :
    ∃ tag, checkEtag client reply current = some { client with etag := tag } ∧ ∀ value ∈ etag, tag = decodeEtag value := by
  simp only [checkEtag, same]
  cases etag with
  | none => exact ⟨client.etag, rfl, fun value member => absurd member (Option.not_mem_none value)⟩
  | some value =>
    by_cases first : current = 0
    · exact ⟨decodeEtag value, by simp [first], fun other is => by rw [Option.some.inj is]⟩
    · have equal := fits first value rfl
      refine ⟨client.etag, ?_, fun other is => Option.some.inj is ▸ equal⟩
      dsimp only
      rw [if_pos first, if_neg (not_not_intro equal)]

/-- The end of a download in which everything succeeds. -/
private theorem finishDownload_of_fine (client : Client) (fine : Fine client.resourcePath env)
    (area : client.dfu.areaId.isSome = true) :
    (finishDownload env client).1.downloadReady = true ∧ (finishDownload env client).1.image = client.image := by
  have flushed : finish client.dfu env.finish = ({ client.dfu with area := env.finish.area }, 0) := by
    rw [finish, fine.finish.1, fine.finish.2]
    rfl
  have version : ∀ dfu, dfu.areaId.isSome = true →
      getPendingVersion dfu env.pending env.header = (0, env.header.version) := by
    intro dfu opened
    have open' : dfu.areaId.isNone = false := by rw [Option.isNone_eq_false_iff]; exact opened
    simp [getPendingVersion, fine.pending.1, fine.pending.2, open', fine.header.1]
  have upgraded : requestUpgrade env.upgrade = 0 := by
    rw [requestUpgrade, fine.upgrade.1, fine.upgrade.2]
    rfl
  refine ⟨?_, (finishDownload_ended env client).image⟩
  simp [finishDownload, flushed, verifyVersion, version ⟨env.finish.area, client.dfu.areaId⟩ area, fine.header.2, upgraded,
    cancelDownload]

private theorem writePayload_eq (env : Env) (client : Client) (payload : List UInt8) : ∃ writes,
    writePayload env client payload = { client with image := client.image ++ payload, writes } := by
  simp only [writePayload]
  cases payload with
  | nil => exact ⟨client.writes, by simp⟩
  | cons byte rest => exact ⟨_, rfl⟩

/-- The request of a download that is to go on. -/
theorem Fetching.asks (fetching : Fetching representation client) (requested : client.downloadRequest = true)
    (fine : Fine path env) : ∃ length,
    (coapNext env client).1 =
      { client with
        downloadRequest := false, token := env.nextToken, mid := env.nextMid, messageLen := length } := by
  obtain ⟨length, encoded⟩ := fine.request
  refine ⟨length, ?_⟩
  simp [coapNext, fine.reboots, fetching.download, requested, encoded]

/-- The block is accepted, and is the next one. -/
theorem Fetching.checkBlock (updates : UpdatesInOrder update) (small : representation.image.length ≤ maxUpdateSize)
    (fetching : Fetching representation client) (answers : Answers representation client reply) :
    ∃ block total, reply.block2 = some block ∧ (total = 0 ∨ total = representation.image.length) ∧
      blockBytes block.szx ∣ client.blockContext.current ∧
      checkBlock update client.blockContext reply =
        .ok ⟨⟨total, client.blockContext.current, block.szx⟩, blockBytes block.szx, !block.more⟩ ∧
      reply.payload = (representation.image.drop client.blockContext.current).take (blockBytes block.szx) ∧
      block.more = decide (client.blockContext.current + blockBytes block.szx < representation.image.length) := by
  obtain ⟨block, present, smaller, num, payload, more⟩ := answers.block
  obtain ⟨total, totals, updated⟩ :=
    updates reply block client.blockContext _ present answers.size fetching.total num fetching.within smaller
  have aligned : blockBytes block.szx ∣ client.blockContext.current := by
    rw [← num, Nat.shiftLeft_eq, blockBytes, Nat.one_shiftLeft]
    exact Nat.dvd_mul_left _ _
  refine ⟨block, total, present, totals, aligned, ?_, payload, more⟩
  have length : reply.payload.length =
      min (blockBytes block.szx) (representation.image.length - client.blockContext.current) := by
    rw [payload, List.length_take, List.length_drop]
  have fits : ¬ maxUpdateSize < total := by omega
  have full : ¬ (reply.payload.length < blockBytes block.szx ∧ block.more = true) := by
    rintro ⟨short, isMore⟩
    rw [more, decide_eq_true_eq] at isMore
    omega
  have bounded : ¬ blockBytes block.szx < reply.payload.length := by omega
  simp only [ApplUpdate.checkBlock, present, updated]
  rw [if_neg fits, if_neg (not_not_intro rfl), if_neg bounded, if_neg full]

private theorem sixteen_le_blockBytes (szx : ℕ) : 16 ≤ blockBytes szx := by
  rw [blockBytes, Nat.one_shiftLeft]
  exact Nat.pow_le_pow_right Nat.two_pos (Nat.le_add_left 4 szx)

/-- The response to the request ends the download, or the next request is for a block further behind. -/
theorem Fetching.response (updates : UpdatesInOrder update) (small : representation.image.length ≤ maxUpdateSize)
    (fetching : Fetching representation client) (fine : Fine client.resourcePath env)
    (answers : Answers representation client reply) :
    Done representation (response update env client reply).1 ∨
      Fetching representation (response update env client reply).1 ∧
        (response update env client reply).1.downloadRequest = true ∧
        client.blockContext.current + 16 ≤ (response update env client reply).1.blockContext.current ∧
        (response update env client reply).1.resourcePath = client.resourcePath := by
  obtain ⟨block, total, present, totals, aligned, checked, payload, more⟩ := fetching.checkBlock updates small answers
  obtain ⟨contentFormat, formatted, format⟩ := checkFormat_of_same { client with messageLen := 0 } answers.contentFormat
    fetching.contentFormat
  obtain ⟨tag, tagged, same⟩ := checkEtag_of_same { client with messageLen := 0, contentFormat } answers.etag
    client.blockContext.current fetching.etag
  obtain ⟨writes, written⟩ := writePayload_eq env { client with messageLen := 0, contentFormat, etag := tag } reply.payload
  have image : client.image ++ reply.payload =
      representation.image.take (client.blockContext.current + blockBytes block.szx) := by
    rw [payload, fetching.image, ← List.take_add]
  have content : ¬ reply.code ≠ codeContent := not_not_intro answers.code
  unfold ApplUpdate.response
  simp only [if_neg content, formatted, tagged, checked, written, if_true]
  cases isMore : block.more with
  | false =>
    left
    rw [isMore, eq_comm, decide_eq_false_iff_not] at more
    obtain ⟨ready, complete⟩ := finishDownload_of_fine { client with
      messageLen := 0, contentFormat, etag := tag, image := client.image ++ reply.payload, writes } fine fetching.area
    refine ⟨ready, complete.trans (image.trans ?_)⟩
    exact List.take_of_length_le (Nat.le_of_not_lt more)
  | true =>
    right
    rw [isMore, eq_comm, decide_eq_true_iff] at more
    refine ⟨⟨fetching.download, image, totals, ?_, Nat.le_of_lt more, fun _ => more, fun _ => same, format,
      fetching.area⟩, rfl, ?_, rfl⟩
    · exact Nat.dvd_add aligned (Nat.dvd_refl _)
    · exact Nat.add_le_add_left (sixteen_le_blockBytes block.szx) _

/-- A request that a server can answer. -/
def Asks (representation : Representation) (client : Client) : Prop :=
  client.blockContext.current ≤ representation.image.length ∧
    blockBytes client.blockContext.blockSize ∣ client.blockContext.current

/-- A request and its response. -/
theorem Fetching.fetch (updates : UpdatesInOrder update) (small : representation.image.length ≤ maxUpdateSize)
    (fetching : Fetching representation client) (requested : client.downloadRequest = true)
    (fine : Fine client.resourcePath env) {server : Client → Reply}
    (answers : ∀ client, Asks representation client → Answers representation client (server client)) :
    Done representation (fetch update env server client) ∨
      Fetching representation (fetch update env server client) ∧
        (fetch update env server client).downloadRequest = true ∧
        client.blockContext.current + 16 ≤ (fetch update env server client).blockContext.current ∧
        (fetch update env server client).resourcePath = client.resourcePath := by
  obtain ⟨length, asked⟩ := fetching.asks requested fine
  simp only [ApplUpdate.fetch, asked]
  have answered := answers { client with
    downloadRequest := false, token := env.nextToken, mid := env.nextMid, messageLen := length }
    ⟨fetching.within, fetching.aligned⟩
  have handled : handles env { client with
      downloadRequest := false, token := env.nextToken, mid := env.nextMid, messageLen := length } (server { client with
      downloadRequest := false, token := env.nextToken, mid := env.nextMid, messageLen := length }) = true := by
    rw [handles, answered.isResponse, fine.reboots, fetching.download]
    rfl
  rw [parseData, if_pos handled]
  exact Fetching.response updates small { fetching with } fine answered

/-- A number of requests and responses. -/
def fetches (update : Update) (envs : ℕ → Env) (servers : ℕ → Client → Reply) (client : Client) : ℕ → Client
  | 0 => client
  | round + 1 => fetch update (envs round) (servers round) (fetches update envs servers client round)

theorem Fetching.fetches (updates : UpdatesInOrder update) (small : representation.image.length ≤ maxUpdateSize)
    (fetching : Fetching representation client) (requested : client.downloadRequest = true) {envs : ℕ → Env}
    (fine : ∀ round, Fine client.resourcePath (envs round)) {servers : ℕ → Client → Reply}
    (answers : ∀ round client, Asks representation client → Answers representation client (servers round client))
    (rounds : ℕ) :
    (∃ round ≤ rounds, Done representation (fetches update envs servers client round)) ∨
      Fetching representation (fetches update envs servers client rounds) ∧
        (fetches update envs servers client rounds).downloadRequest = true ∧
        16 * rounds ≤ (fetches update envs servers client rounds).blockContext.current ∧
        (fetches update envs servers client rounds).resourcePath = client.resourcePath := by
  induction rounds with
  | zero => exact .inr ⟨fetching, requested, Nat.zero_le _, rfl⟩
  | succ rounds ih =>
    rcases ih with ⟨round, early, done⟩ | ⟨fetching, requested, behind, same⟩
    · exact .inl ⟨round, Nat.le_succ_of_le early, done⟩
    · rcases Fetching.fetch updates small fetching requested (same ▸ fine rounds) (answers rounds) with
        done | ⟨fetching, requested, further, path⟩
      · exact .inl ⟨rounds + 1, Nat.le_refl _, done⟩
      · refine .inr ⟨fetching, requested, ?_, path.trans same⟩
        exact (Nat.add_le_add_right behind 16).trans further

/-- The command and the erase work. -/
def startLabels (version : Text) (env : Env) : List Label :=
  [⟨.cmd .download version, env⟩, ⟨.eraseBegin, env⟩, ⟨.eraseEnd, env⟩]

/-- The command finds no other download and no other update, and the flash is erased. -/
structure Idle (imageVersion version : Text) (env : Env) (client : Client) : Prop where
  download : client.download = false
  other : stricmp version imageVersion ≠ 0
  closed : client.dfu.area = none
  erasing : client.erasing = none
  reboots : env.reboots = false
  init : env.init.reboots = false ∧ env.init.rc = 0 ∧ env.init.area.isSome = true
  erase : env.erase.reboots = false ∧ env.erase.rc = 0

theorem Idle.starts (update : Update) {version : Text} (idle : Idle imageVersion version env client)
    (format : ∀ value ∈ representation.contentFormat, client.contentFormat < 0 ∨ client.contentFormat = value) :
    ∃ begun, Path (Step update imageVersion) client (startLabels version env) begun ∧ Fetching representation begun ∧
      begun.downloadRequest = true ∧ begun.resourcePath = version.take (maxResPathLen - 1) := by
  have opened : start client.dfu env.init = (⟨env.init.area, env.init.area⟩, 0) := by
    simp [start, initContext, idle.init.1, idle.closed, idle.init.2.1]
  have erased : ApplUpdate.erase ⟨env.init.area, env.init.area⟩ env.erase = 0 := by
    have isOpen : (Dfu.mk env.init.area env.init.area).areaId.isSome = true := idle.init.2.2
    rw [ApplUpdate.erase, idle.erase.1, isOpen, idle.erase.2]
    rfl
  obtain ⟨started, equal⟩ : ∃ started : Client, started =
      { client with
        applyUpdate := false
        resourcePath := version.take (maxResPathLen - 1)
        download := true
        downloadRequest := false
        downloadCanceled := false
        downloadReady := false
        prepared := false
        image := []
        writes := []
        finished := none
        verified := none
        upgraded := none
        etag := []
        dfu := ⟨env.init.area, env.init.area⟩
        eraseWork := true } := ⟨_, rfl⟩
  have command : Step update imageVersion client ⟨.cmd .download version, env⟩ started := by
    rw [equal, Step, step]
    simp [coapCmd, idle.reboots, coapStart, setResource, idle.download, idle.other, opened]
  have begins : Step update imageVersion started ⟨.eraseBegin, env⟩ (eraseBegin env started) := by
    rw [equal]
    exact if_pos ⟨rfl, idle.erasing⟩
  have ends : Step update imageVersion (eraseBegin env started) ⟨.eraseEnd, env⟩
      (eraseEnd env (eraseBegin env started) 0) := by
    have erasing : (eraseBegin env started).erasing = some 0 := by
      rw [equal]
      exact congrArg some erased
    rw [Step, step, erasing]
    rfl
  refine ⟨_, .cons command (.cons begins (.cons ends (.nil _))), ?_⟩
  rw [equal]
  exact ⟨⟨rfl, rfl, .inl rfl, Nat.dvd_zero _, Nat.zero_le _, absurd rfl, absurd rfl, format, idle.init.2.2⟩, rfl, rfl⟩

/-- A download that is started by an idle client gets ready with the image of a server that answers its requests, with
blocks of any size not larger than requested, after at most one request for each 16 bytes of the image and another one. -/
theorem download_gets_ready (updates : UpdatesInOrder update) (small : representation.image.length ≤ maxUpdateSize)
    {version : Text} (idle : Idle imageVersion version env client)
    (format : ∀ value ∈ representation.contentFormat, client.contentFormat < 0 ∨ client.contentFormat = value)
    {envs : ℕ → Env} (fine : ∀ round, Fine (version.take (maxResPathLen - 1)) (envs round))
    {servers : ℕ → Client → Reply}
    (answers : ∀ round client, Asks representation client → Answers representation client (servers round client)) :
    ∃ begun, Path (Step update imageVersion) client (startLabels version env) begun ∧
      ∃ rounds ≤ representation.image.length / 16 + 1,
        Done representation (fetches update envs servers begun rounds) := by
  obtain ⟨begun, started, fetching, requested, path⟩ := idle.starts update format
  refine ⟨begun, started, ?_⟩
  rcases fetching.fetches updates small requested (path ▸ fine) answers (representation.image.length / 16 + 1) with
    done | ⟨fetching, -, behind, -⟩
  · exact done
  · have rest := fetching.rest (by omega)
    omega

/-- The block a server sends that takes the block size of the request. -/
def serveBlock (representation : Representation) (client : Client) : Reply :=
  { token := some client.token
    contentFormat := representation.contentFormat
    etag := representation.etag
    size2 := some representation.image.length
    block2 := some ⟨client.blockContext.current >>> (client.blockContext.blockSize + 4),
      decide (client.blockContext.current + blockBytes client.blockContext.blockSize < representation.image.length),
      client.blockContext.blockSize⟩
    payload := (representation.image.drop client.blockContext.current).take
      (blockBytes client.blockContext.blockSize) }

private theorem serveBlock_answers (asks : Asks representation client) :
    Answers representation client (serveBlock representation client) := by
  refine ⟨rfl, ?_, rfl, rfl, .inr rfl, _, rfl, Nat.le_refl _, ?_, rfl, rfl⟩
  · simp [coapClientMatch, serveBlock, codeEmpty, ParseResult.isResponse]
  · have aligned := asks.2
    rw [blockBytes, Nat.one_shiftLeft] at aligned
    rw [Nat.shiftRight_eq_div_pow, Nat.shiftLeft_eq, Nat.div_mul_cancel aligned]

/-- The image with an ETag and a content format. -/
def taggedImage : Representation := ⟨twoBlockImage, some [1, 2], some 42⟩

theorem download_gets_ready_served : ∃ begun,
    Path (Step updateDescriptiveBlock "1.0.0+0".toList) initial
        (startLabels "1.0.1+0".toList { init := { area := some 1 } }) begun ∧
      ∃ rounds ≤ taggedImage.image.length / 16 + 1, Done taggedImage
        (fetches updateDescriptiveBlock (fun round => { nextToken := round, header := { major := 1, revision := 1 } })
          (fun _ => serveBlock taggedImage) begun rounds) := by
  refine download_gets_ready updatesInOrder_descriptive ?_ ?_ ?_ ?_ fun _ _ asks => serveBlock_answers asks
  · decide
  · exact ⟨rfl, by decide, rfl, rfl, rfl, ⟨rfl, rfl, rfl⟩, rfl, rfl⟩
  · exact fun _ _ => .inl (by decide)
  · have same : stricmp ("1.0.1+0".toList.take (maxResPathLen - 1)) (Header.version { major := 1, revision := 1 }) = 0 := by
      decide
    exact fun _ => ⟨rfl, ⟨32, rfl⟩, ⟨rfl, rfl⟩, ⟨rfl, rfl⟩, ⟨rfl, same⟩, rfl, rfl⟩

end CoapsClient.ApplUpdate
