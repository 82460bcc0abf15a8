import CoapsClient.Model.Update.Steps

/-! # Downloads are written without gaps, complete and verified

The flash writer appends; the offset of a block counts only for the request. So whenever a payload is
written, the bytes written before it in this download have to be as many as the offset of its block.
The client keeps the two in step once the erase work has set the block context to zero. Until then the
context and the token are those of the download before, and a late response to its last request is
accepted in the middle of an empty image.

A download is reported as ready after `appl_update_finish`, the check of the version in the image
header and the request to upgrade have succeeded; nothing the client does later changes what they
found. The result of `appl_update_write` is not looked at. So a ready image is what the server sent as
long as no write fails, and a failed write in the middle goes unnoticed.
-/

namespace CoapsClient.ApplUpdate

open Machine ShCmd

section Contiguous

/-- The offset of the block in a response. -/
def Reply.offset (reply : Reply) : ℕ :=
  match reply.block2 with
  | some block => block.num <<< (block.szx + 4)
  | none => 0

/-- What `coap_update_from_block` does to the context of a response with a block option. -/
structure UpdatesContext (update : Update) : Prop where
  current : ∀ reply block context next, reply.block2 = some block → update reply context = .ok next →
    next.current = block.num <<< (block.szx + 4)
  blockSize : ∀ reply block context next, reply.block2 = some block → update reply context = .ok next →
    next.blockSize = min context.blockSize block.szx

/-- What the steps of a run have to meet: a response is handled only after the erase work has prepared
the download, and the erase work ends only while nothing of the download is written. -/
def downloadCondition (client : Client) (label : Label) : Bool :=
  match label.event with
  | .data (some reply) => !handles label.env client reply || client.prepared
  | .eraseEnd => !(client.erasing == some 0 && client.download) || client.image.isEmpty
  | _ => true

/-- A response stops the download unwritten, or its payload is written behind the bytes before it. With
more to come it is a full block, and the next block is expected right behind it. -/
def Contiguous (client : Client) (reply : Reply) (next : Client) : Prop :=
  (next.image = client.image ∧ next.download = false ∧ next.downloadReady = false) ∨
    (next.image = client.image ++ reply.payload ∧ client.image.length = reply.offset ∧
      ∀ block, reply.block2 = some block → block.more = true →
        reply.payload.length = blockBytes (min client.blockContext.blockSize block.szx) ∧
        next.download = true ∧ next.blockContext.current = next.image.length)

/-- The block context of a prepared download is in step with what is written. -/
def InStep (client : Client) : Prop :=
  client.download = true → client.prepared = true → client.blockContext.current = client.image.length

variable {update : Update} {imageVersion : Text} {client next : Client} {label : Label} {env : Env}
  {reply : Reply}

/-- A response in a prepared download keeps the image contiguous and the context in step. -/
theorem InStep.response (updates : UpdatesContext update) (inStep : InStep client)
    (download : client.download = true) (prepared : client.prepared = true) :
    Contiguous client reply (response update env client reply).1 ∧
      InStep (response update env client reply).1 := by
  have behind := inStep download prepared
  rcases response_cases update env client reply with stopped | ⟨accepted, checked, written, goesOn⟩
  · refine ⟨.inl ⟨stopped.image, stopped.download, stopped.ready⟩, ?_⟩
    intro running
    rw [stopped.download] at running
    contradiction
  · rcases checkBlock_cases checked with ⟨absent, first, rfl⟩ |
      ⟨block, after, present, updated, _, current, _, full, rfl⟩
    · obtain ⟨notReady, _⟩ | ⟨_, ended, _⟩ := goesOn
      · contradiction
      · refine ⟨.inr ⟨written.image, ?_, by simp [absent]⟩, ?_⟩
        · simp only [Reply.offset, absent]
          omega
        · intro running
          rw [ended] at running
          contradiction
    · have offset : client.image.length = reply.offset := by
        simp only [Reply.offset, present]
        rw [← updates.current reply block _ after present updated, current, behind]
      obtain ⟨more, still, _, _, moved⟩ | ⟨last, ended, _⟩ := goesOn
      · have isMore : block.more = true := by simpa using more
        have length := full isMore
        have expected : (ApplUpdate.response update env client reply).1.blockContext.current =
            (ApplUpdate.response update env client reply).1.image.length := by
          rw [moved, written.image, List.length_append, length, current, behind]
        refine ⟨.inr ⟨written.image, offset, ?_⟩, fun _ _ => expected⟩
        intro other same _
        obtain rfl : block = other := Option.some.inj (present.symm.trans same)
        rw [← updates.blockSize reply block _ after present updated]
        exact ⟨length, still.trans download, expected⟩
      · have noMore : block.more = false := by simpa using last
        refine ⟨.inr ⟨written.image, offset, ?_⟩, ?_⟩
        · intro other same isMore
          obtain rfl : block = other := Option.some.inj (present.symm.trans same)
          simp [noMore] at isMore
        · intro running
          rw [ended] at running
          contradiction

/-- Every step that meets the condition keeps the context in step. -/
theorem InStep.step (updates : UpdatesContext update) (inStep : InStep client)
    (moved : Step update imageVersion client label next) (condition : downloadCondition client label) :
    InStep next := by
  rcases step_cases moved with kept | begun | stopped | ⟨isEnd, erased, ready⟩ | ⟨reply, isData, handled, rfl⟩
  · intro download prepared
    rw [kept.context, kept.image]
    exact inStep (kept.download ▸ download) (kept.prepared ▸ prepared)
  · intro _ prepared
    rw [begun.prepared] at prepared
    contradiction
  · intro download
    rw [stopped.download] at download
    contradiction
  · have empty : client.image = [] := by
      simpa [downloadCondition, isEnd, erased, ready.was] using condition
    intro _ _
    rw [ready.current, ready.image, empty]
    rfl
  · have prepared : client.prepared = true := by
      simpa [downloadCondition, isData, handled] using condition
    have download := download_of_handles handled
    exact (inStep.response updates download prepared).2

/-- In every run that meets the condition, and for every response handled at its end: before the
payload is written, as many bytes were written in this download as the offset of the block says, a
block with more to come adds one full block, and any other response stops the download unwritten. -/
theorem download_contiguous (updates : UpdatesContext update) (imageVersion : Text) {labels : List Label}
    {client : Client}
    (path : Path (guarded (Step update imageVersion) fun client label => downloadCondition client label)
      initial labels client) :
    InStep client ∧
      ∀ label reply next, downloadCondition client label = true → label.event = .data (some reply) →
        handles label.env client reply = true → Step update imageVersion client label next →
        Contiguous client reply next := by
  have inStep : InStep client := by
    refine path.invariant InStep ?_ (by simp [InStep, initial])
    rintro source label target inStep ⟨condition, moved⟩
    exact inStep.step updates moved condition
  refine ⟨inStep, ?_⟩
  intro label reply next condition isData handled moved
  have prepared : client.prepared = true := by
    simpa [downloadCondition, isData, handled] using condition
  have download := download_of_handles handled
  exact step_of_handles isData handled moved ▸ (inStep.response updates download prepared).1

theorem updatesContext_descriptive : UpdatesContext updateDescriptiveBlock := by
  have spec (reply : Reply) (block : Block) (context after : BlockContext) (present : reply.block2 = some block)
      (updated : updateDescriptiveBlock reply context = .ok after) :
      after.current = block.num <<< (block.szx + 4) ∧
        after.blockSize = min context.blockSize block.szx := by
    simp only [updateDescriptiveBlock, present] at updated
    split_ifs at updated <;> exact Except.ok.inj updated ▸ ⟨rfl, rfl⟩
  exact ⟨fun reply block context after present updated => (spec reply block context after present updated).1,
    fun reply block context after present updated => (spec reply block context after present updated).2⟩

/-- A block of 16 bytes with more to come. -/
def smallBlock (token num : ℕ) : Reply :=
  { token := some token, block2 := some ⟨num, true, 0⟩, payload := List.replicate 16 0 }

/-- Two blocks of a download. -/
def twoBlocks : List Label :=
  started "1.0.1+0".toList 1 ++ [⟨.data (some (smallBlock 1 0)), {}⟩, ⟨.next, { nextToken := 2 }⟩]

theorem download_contiguous_two_blocks :
    ∃ client next, Path (guarded (Step updateDescriptiveBlock "1.0.0+0".toList) fun client label =>
        downloadCondition client label) initial twoBlocks client ∧
      Step updateDescriptiveBlock "1.0.0+0".toList client ⟨.data (some (smallBlock 2 1)), {}⟩ next ∧
      next.image.length = 32 ∧ Contiguous client (smallBlock 2 1) next := by
  have facts : ((twoBlocks.foldlM (fun client label => if downloadCondition client label then
      step updateDescriptiveBlock "1.0.0+0".toList client label else none) initial).map fun client =>
      (downloadCondition client ⟨.data (some (smallBlock 2 1)), {}⟩,
        handles {} client (smallBlock 2 1),
        (step updateDescriptiveBlock "1.0.0+0".toList client ⟨.data (some (smallBlock 2 1)), {}⟩).map
          fun next => next.image.length)) = some (true, true, some 32) := by decide +kernel
  obtain ⟨client, ran, facts⟩ := Option.map_eq_some_iff.mp facts
  simp only [Prod.mk.injEq] at facts
  obtain ⟨condition, handled, length⟩ := facts
  obtain ⟨next, moved, length⟩ := Option.map_eq_some_iff.mp length
  have path := Path.guarded_of_foldlM ran
  exact ⟨client, next, path, moved, length,
    (download_contiguous updatesContext_descriptive _ path).2 _ _ _ condition rfl handled moved⟩

/-- A download that is canceled while its second block is requested, and the start of another one. -/
def restarted : List Label :=
  twoBlocks ++ [⟨.cmd .cancel "1.0.1+0".toList, {}⟩,
    ⟨.cmd .download "1.0.2+0".toList, { init := { area := some 1 } }⟩]

/-- The late second block of the first download is then written as the first bytes of the other. -/
theorem late_block_written :
    ∃ client next, Path (Step updateDescriptiveBlock "1.0.0+0".toList) initial restarted client ∧
      handles {} client (smallBlock 2 1) = true ∧
      Step updateDescriptiveBlock "1.0.0+0".toList client ⟨.data (some (smallBlock 2 1)), {}⟩ next ∧
      client.resourcePath = "1.0.2+0".toList ∧ client.image = [] ∧ next.image.length = 16 ∧
      (smallBlock 2 1).offset = 16 ∧ ¬ Contiguous client (smallBlock 2 1) next := by
  have facts : ((restarted.foldlM (step updateDescriptiveBlock "1.0.0+0".toList) initial).map fun client =>
      (handles {} client (smallBlock 2 1), client.resourcePath, client.image,
        (step updateDescriptiveBlock "1.0.0+0".toList client ⟨.data (some (smallBlock 2 1)), {}⟩).map
          fun next => next.image.length)) = some (true, "1.0.2+0".toList, [], some 16) := by decide +kernel
  obtain ⟨client, ran, facts⟩ := Option.map_eq_some_iff.mp facts
  simp only [Prod.mk.injEq] at facts
  obtain ⟨handled, path, empty, length⟩ := facts
  obtain ⟨next, moved, length⟩ := Option.map_eq_some_iff.mp length
  refine ⟨client, next, Path.of_foldlM ran, handled, moved, path, empty, length, by decide, ?_⟩
  rintro (⟨unwritten, _⟩ | ⟨_, offset, _⟩)
  · rw [unwritten, empty] at length
    contradiction
  · rw [empty] at offset
    exact absurd offset (by decide)

end Contiguous

section Ready

/-- A ready download was written without a failure, finished and verified, and its upgrade requested. -/
def ReadyComplete (client : Client) : Prop :=
  client.downloadReady = true → (∀ rc ∈ client.writes, rc = 0) ∧ Verified client

/-- What the steps of a run have to meet: the flash takes every payload that a response brings. -/
def writeCondition (client : Client) (label : Label) : Bool :=
  match label.event with
  | .data (some reply) => !handles label.env client reply || reply.payload.isEmpty || write label.env.write == 0
  | _ => true

/-- While a download runs or is ready, all its writes succeeded; when it is ready, so did its end, and
it runs no longer. -/
structure WritesSucceed (client : Client) : Prop where
  running : client.download = true → client.downloadReady = false
  writes : client.download = true ∨ client.downloadReady = true → ∀ rc ∈ client.writes, rc = 0
  ready : client.downloadReady = true → Verified client

variable {update : Update} {imageVersion : Text} {client next : Client} {label : Label} {env : Env}
  {reply : Reply}

theorem Verified.of_records (verified : Verified client) (records : SameRecords client next) :
    Verified next := by
  obtain ⟨finished, ⟨version, read, same⟩, upgraded⟩ := verified
  exact ⟨records.finished.trans finished, ⟨version, records.verified.trans read, records.resourcePath ▸ same⟩,
    records.upgraded.trans upgraded⟩

theorem WritesSucceed.of_stopped (stopped : Stopped client next) : WritesSucceed next := by
  refine ⟨fun _ => stopped.ready, ?_, fun ready => absurd ready (by simp [stopped.ready])⟩
  rintro (running | ready)
  · simp [stopped.download] at running
  · simp [stopped.ready] at ready

/-- A response whose payload the flash takes. -/
theorem WritesSucceed.response (succeed : WritesSucceed client) (download : client.download = true)
    (taken : reply.payload.isEmpty = true ∨ write env.write = 0) :
    WritesSucceed (response update env client reply).1 := by
  rcases response_cases update env client reply with stopped | ⟨accepted, _, written, goesOn⟩
  · exact .of_stopped stopped
  · have all : ∀ rc ∈ (ApplUpdate.response update env client reply).1.writes, rc = 0 := by
      rw [written.writes]
      intro rc member
      rcases List.mem_append.mp member with old | new
      · exact succeed.writes (.inl download) rc old
      · split at new
        · contradiction
        · next some =>
          rw [List.mem_singleton.mp new]
          exact taken.resolve_left some
    obtain ⟨_, _, ready, _⟩ | ⟨_, ended, verified⟩ := goesOn
    · have notReady := ready.trans (succeed.running download)
      exact ⟨fun _ => notReady, fun _ => all, fun isReady => absurd isReady (by simp [notReady])⟩
    · exact ⟨fun running => absurd running (by simp [ended]), fun _ => all, verified⟩

/-- Every step in which the flash takes the payload keeps the writes successful. -/
theorem WritesSucceed.step (succeed : WritesSucceed client) (moved : Step update imageVersion client label next)
    (condition : writeCondition client label) : WritesSucceed next := by
  rcases step_cases moved with kept | begun | stopped | ⟨_, _, prepared⟩ | ⟨reply, isData, handled, rfl⟩
  · refine ⟨?_, ?_, ?_⟩
    · rw [kept.download, kept.ready]
      exact succeed.running
    · rw [kept.download, kept.ready, kept.writes]
      exact succeed.writes
    · rw [kept.ready]
      exact fun ready => (succeed.ready ready).of_records kept.toSameRecords
  · exact ⟨fun _ => begun.ready, by simp [begun.writes], fun ready => absurd ready (by simp [begun.ready])⟩
  · exact .of_stopped stopped
  · have notReady := prepared.ready.trans (succeed.running prepared.was)
    refine ⟨fun _ => notReady, ?_, fun ready => absurd ready (by simp [notReady])⟩
    rw [prepared.writes]
    exact fun _ => succeed.writes (.inl prepared.was)
  · have download := download_of_handles handled
    apply succeed.response download
    simpa [writeCondition, isData, handled] using condition

/-- In every run in which the flash takes every payload, a ready download was written without a
failure, finished and verified, and its upgrade requested. -/
theorem download_ready_complete (update : Update) (imageVersion : Text) {labels : List Label} {client : Client}
    (path : Path (guarded (Step update imageVersion) fun client label => writeCondition client label)
      initial labels client) : ReadyComplete client := by
  have succeed : WritesSucceed client := by
    refine path.invariant WritesSucceed ?_
      ⟨fun _ => rfl, by simp [initial], fun ready => absurd ready (by simp [initial])⟩
    rintro source label target succeed ⟨condition, moved⟩
    exact succeed.step moved condition
  intro ready
  exact ⟨succeed.writes (.inr ready), succeed.ready ready⟩

/-- The whole image in one response. -/
def wholeImage : Reply := { token := some 1, payload := [1, 2, 3] }

/-- A download of one response, with what the flash answers to the write of its payload. -/
def oneResponse (answer : Answer) : List Label :=
  started "1.0.1+0".toList 1 ++
    [⟨.data (some wholeImage), { write := answer, header := { major := 1, revision := 1 } }⟩]

theorem download_ready_complete_one :
    ∃ client, Path (guarded (Step updateDescriptiveBlock "1.0.0+0".toList) fun client label =>
        writeCondition client label) initial (oneResponse {}) client ∧
      client.downloadReady = true ∧ client.image = [1, 2, 3] ∧ ReadyComplete client := by
  have facts : (((oneResponse {}).foldlM (fun client label => if writeCondition client label then
      step updateDescriptiveBlock "1.0.0+0".toList client label else none) initial).map fun client =>
      (client.downloadReady, client.image)) = some (true, [1, 2, 3]) := by decide +kernel
  obtain ⟨client, ran, facts⟩ := Option.map_eq_some_iff.mp facts
  simp only [Prod.mk.injEq] at facts
  have path := Path.guarded_of_foldlM ran
  exact ⟨client, path, facts.1, facts.2, download_ready_complete _ _ path⟩

/-- A download whose only write fails is reported as ready. -/
theorem failed_write_ready :
    ∃ client, Path (Step updateDescriptiveBlock "1.0.0+0".toList) initial
        (oneResponse { rc := -5 }) client ∧
      client.downloadReady = true ∧ client.writes = [-5] ∧ ¬ ReadyComplete client := by
  have facts : (((oneResponse { rc := -5 }).foldlM (step updateDescriptiveBlock "1.0.0+0".toList)
      initial).map fun client => (client.downloadReady, client.writes)) = some (true, [-5]) := by
    decide +kernel
  obtain ⟨client, ran, facts⟩ := Option.map_eq_some_iff.mp facts
  simp only [Prod.mk.injEq] at facts
  obtain ⟨ready, writes⟩ := facts
  refine ⟨client, Path.of_foldlM ran, ready, writes, ?_⟩
  intro complete
  have failed := (complete ready).1 (-5) (by simp [writes])
  contradiction

end Ready

end CoapsClient.ApplUpdate
