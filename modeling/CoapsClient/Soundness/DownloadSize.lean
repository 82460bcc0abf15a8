import CoapsClient.Soundness.DownloadIntegrity

/-! # The size of a download

`APP_COAP_MAX_UPDATE_SIZE` is compared with the size the server announces, and with nothing else. The
bytes that are written stay below it only if each block that ends above it comes with such a size;
a server that announces none goes on as long as it likes.
-/

namespace CoapsClient.ApplUpdate

open Machine ShCmd

variable {update : Update} {imageVersion : Text} {env : Env} {client next : Client} {label : Label}
  {reply : Reply}

/-- The size of the image, announced with this block or before it, is above the limit, or the block
option is refused. -/
def announcesMore (update : Update) (client : Client) (reply : Reply) : Bool :=
  reply.block2.isSome && match update reply client.blockContext with
    | .error _ => true
    | .ok after => maxUpdateSize < after.totalSize

/-- What the steps of a run have to meet: a block that ends above the limit comes with a size above
it. Without gaps, as for the offsets of the blocks. -/
def sizeCondition (update : Update) (client : Client) (label : Label) : Bool :=
  downloadCondition client label && match label.event with
    | .data (some reply) => !handles label.env client reply ||
        decide (reply.offset + reply.payload.length ≤ maxUpdateSize) || announcesMore update client reply
    | _ => true

/-- An accepted block does not announce a size above the limit. -/
private theorem announcesMore_of_accepted {accepted : Accepted}
    (checked : checkBlock update client.blockContext reply = .ok accepted) :
    announcesMore update client reply = false := by
  rcases checkBlock_cases checked with ⟨absent, _⟩ | ⟨block, after, present, updated, size, _⟩
  · simp [announcesMore, absent]
  · simp only [announcesMore, present, updated, Option.isSome_some, Bool.true_and, decide_eq_false_iff_not]
    omega

/-- A handled response that would bring the image above the limit stops the download, any other keeps it
below. -/
private theorem response_size (updates : UpdatesContext update) (inStep : InStep client)
    (isData : label.event = .data (some reply)) (handled : handles label.env client reply = true)
    (condition : sizeCondition update client label = true) (bound : client.image.length ≤ maxUpdateSize) :
    (response update label.env client reply).1.image.length ≤ maxUpdateSize ∧
      (maxUpdateSize < client.image.length + reply.payload.length →
        (response update label.env client reply).1.image = client.image ∧
          (response update label.env client reply).1.download = false ∧
          (response update label.env client reply).1.downloadReady = false) := by
  simp only [sizeCondition, downloadCondition, isData, handled, Bool.not_true, Bool.false_or,
    Bool.and_eq_true,
    Bool.or_eq_true, decide_eq_true_eq] at condition
  obtain ⟨prepared, fits⟩ := condition
  obtain ⟨contiguous, _⟩ : Contiguous client reply (response update label.env client reply).1 ∧ _ :=
    inStep.response updates (download_of_handles handled) prepared
  rcases contiguous with ⟨unwritten, stopped, notReady⟩ | ⟨written, offset, _⟩
  · exact ⟨unwritten ▸ bound, fun _ => ⟨unwritten, stopped, notReady⟩⟩
  · rcases response_cases update label.env client reply with stopped | ⟨accepted, checked, _⟩
    · exact ⟨stopped.image ▸ bound, fun _ => ⟨stopped.image, stopped.download, stopped.ready⟩⟩
    · have within := fits.resolve_right (by simp [announcesMore_of_accepted checked])
      rw [written, List.length_append]
      exact ⟨by omega, fun above => absurd within (by omega)⟩

/-- The context is in step and the image below the limit. -/
def WithinSize (client : Client) : Prop := InStep client ∧ client.image.length ≤ maxUpdateSize

private theorem downloadCondition_of_size (condition : sizeCondition update client label = true) :
    downloadCondition client label = true :=
  (Bool.and_eq_true _ _ ▸ condition : _ ∧ _).1

theorem WithinSize.step (updates : UpdatesContext update) (within : WithinSize client)
    (moved : Step update imageVersion client label next)
    (condition : sizeCondition update client label = true) :
    WithinSize next := by
  obtain ⟨inStep, bound⟩ := within
  refine ⟨inStep.step updates moved (downloadCondition_of_size condition), ?_⟩
  rcases step_cases moved with kept | begun | stopped | ⟨_, _, prepared⟩ | ⟨reply, isData, handled, rfl⟩
  · exact kept.image ▸ bound
  · exact begun.image ▸ Nat.zero_le _
  · exact stopped.image ▸ bound
  · exact prepared.image ▸ bound
  · exact (response_size updates inStep isData handled condition bound).1

/-- In every run that meets the condition the bytes passed to `appl_update_write` in a download stay
within `APP_COAP_MAX_UPDATE_SIZE`, and a response that would exceed it stops the download unwritten. -/
theorem download_size (updates : UpdatesContext update) (imageVersion : Text) {labels : List Label}
    {client : Client}
    (path : Path (guarded (Step update imageVersion) fun client label => sizeCondition update client label)
      initial labels client) :
    client.image.length ≤ maxUpdateSize ∧
      ∀ label reply next, sizeCondition update client label = true → label.event = .data (some reply) →
        handles label.env client reply = true → Step update imageVersion client label next →
        maxUpdateSize < client.image.length + reply.payload.length →
        next.image = client.image ∧ next.download = false ∧ next.downloadReady = false := by
  have within : WithinSize client := by
    refine path.invariant WithinSize ?_ ⟨by simp [InStep, initial], by simp [initial]⟩
    rintro source label target within ⟨condition, moved⟩
    exact within.step updates moved condition
  refine ⟨within.2, ?_⟩
  intro label reply next condition isData handled moved above
  exact step_of_handles isData handled moved ▸ (response_size updates within.1 isData handled condition within.2).2 above

/-- The payload of a full block. -/
def fullPayload : List UInt8 := List.replicate 1024 0

private theorem fullPayload_length : fullPayload.length = 1024 := List.length_replicate

/-- A full block with more to come, with the size it announces. -/
def fullBlock (num : ℕ) (size2 : Option ℕ) : Reply :=
  { token := some 1, block2 := some ⟨num, true, 6⟩, payload := fullPayload, size2 }

/-- A prepared download behind a number of full blocks. -/
structure BehindBlocks (num : ℕ) (client : Client) : Prop where
  download : client.download = true
  prepared : client.prepared = true
  token : client.token = 1
  context : client.blockContext = { totalSize := 0, current := 1024 * num, blockSize := 6 }
  image : client.image.length = 1024 * num

private theorem fullBlock_offset (num : ℕ) (size2 : Option ℕ) : (fullBlock num size2).offset = 1024 * num := by
  simp only [Reply.offset, fullBlock, Nat.shiftLeft_eq]
  omega

theorem BehindBlocks.handles {num : ℕ} (downloading : BehindBlocks num client) (size2 : Option ℕ) :
    handles {} client (fullBlock num size2) = true := by
  simp [ApplUpdate.handles, downloading.download, downloading.token, coapClientMatch, fullBlock, codeEmpty,
    ParseResult.isResponse]

/-- The next full block without a size is accepted. -/
theorem BehindBlocks.checkBlock {num : ℕ} (downloading : BehindBlocks num client) :
    checkBlock updateDescriptiveBlock client.blockContext (fullBlock num none) =
      .ok ⟨{ totalSize := 0, current := 1024 * num, blockSize := 6 }, 1024, false⟩ := by
  have offset : num <<< (6 + 4) = 1024 * num := by
    rw [Nat.shiftLeft_eq]
    omega
  have small : ¬ maxUpdateSize < 0 := Nat.not_lt_zero _
  have bytes : blockBytes 6 = 1024 := rfl
  simp [ApplUpdate.checkBlock, updateDescriptiveBlock, fullBlock, downloading.context, offset, small, bytes,
    fullPayload_length]

theorem BehindBlocks.block {num : ℕ} (downloading : BehindBlocks num client) :
    BehindBlocks (num + 1) (response updateDescriptiveBlock {} client (fullBlock num none)).1 := by
  have notEmpty : fullPayload.isEmpty = false := rfl
  have written : writePayload {} { client with messageLen := 0 } fullPayload =
      { client with
        messageLen := 0
        image := client.image ++ fullPayload
        writes := client.writes ++ [0] } := by
    simp only [writePayload, notEmpty]
    rfl
  have response : (response updateDescriptiveBlock {} client (fullBlock num none)).1 =
      { client with
        messageLen := 0
        image := client.image ++ fullPayload
        writes := client.writes ++ [0]
        blockContext := { totalSize := 0, current := 1024 * num + 1024, blockSize := 6 }
        downloadRequest := true } := by
    simp only [ApplUpdate.response, downloading.checkBlock]
    simp [fullBlock, codeContent, checkFormat, checkEtag, written]
  rw [response]
  refine ⟨downloading.download, downloading.prepared, downloading.token, ?_, ?_⟩
  · simp only [BlockContext.mk.injEq, true_and, and_true]
    omega
  · simp only [List.length_append, downloading.image, fullPayload_length]
    omega

/-- Requesting the next block changes nothing of that. -/
theorem BehindBlocks.request {num : ℕ} (downloading : BehindBlocks num client) :
    BehindBlocks num (coapNext { nextToken := 1 } client).1 := by
  obtain ⟨download, prepared, token, context, image⟩ := downloading
  simp only [coapNext, download, Bool.false_eq_true, if_false, Bool.not_true]
  split
  · exact ⟨download, prepared, token, context, image⟩
  · exact ⟨rfl, prepared, rfl, context, image⟩

/-- A run that meets the condition up to the limit. -/
private theorem exists_behindBlocks (num : ℕ) (fits : 1024 * num ≤ maxUpdateSize) :
    ∃ labels client, Path (guarded (Step updateDescriptiveBlock "1.0.0+0".toList) fun client label =>
        sizeCondition updateDescriptiveBlock client label) initial labels client ∧
      BehindBlocks num client := by
  induction num with
  | zero =>
    have facts : (((started "1.0.1+0".toList 1).foldlM (fun client label =>
        if sizeCondition updateDescriptiveBlock client label then
          step updateDescriptiveBlock "1.0.0+0".toList client label else none) initial).map fun client =>
        (client.download, client.prepared, client.token, client.blockContext, client.image.length)) =
        some (true, true, 1, { totalSize := 0, current := 0, blockSize := 6 }, 0) := by decide +kernel
    obtain ⟨client, ran, facts⟩ := Option.map_eq_some_iff.mp facts
    simp only [Prod.mk.injEq] at facts
    obtain ⟨download, prepared, token, context, image⟩ := facts
    exact ⟨_, client, Path.guarded_of_foldlM ran, download, prepared, token, context, image⟩
  | succ num ih =>
    obtain ⟨labels, client, path, downloading⟩ := ih (by omega)
    have handled := downloading.handles none
    have condition :
        sizeCondition updateDescriptiveBlock client ⟨.data (some (fullBlock num none)), {}⟩ = true := by
      have within : (fullBlock num none).offset + (fullBlock num none).payload.length ≤ maxUpdateSize := by
        rw [fullBlock_offset]
        simp only [fullBlock, fullPayload_length]
        omega
      simp [sizeCondition, downloadCondition, downloading.prepared, within]
    have block : Step updateDescriptiveBlock "1.0.0+0".toList client ⟨.data (some (fullBlock num none)), {}⟩
        (response updateDescriptiveBlock {} client (fullBlock num none)).1 := by
      simp only [Step, step, parseData, handled, if_true]
    have request : Step updateDescriptiveBlock "1.0.0+0".toList
        (response updateDescriptiveBlock {} client (fullBlock num none)).1 ⟨.next, { nextToken := 1 }⟩
        (coapNext { nextToken := 1 } (response updateDescriptiveBlock {} client
          (fullBlock num none)).1).1 := rfl
    exact ⟨_, _, (path.snoc ⟨condition, block⟩).snoc ⟨rfl, request⟩, downloading.block.request⟩

/-- Behind 448 blocks a block with a size above the limit stops the download. -/
theorem download_size_announced :
    ∃ labels client next, Path (guarded (Step updateDescriptiveBlock "1.0.0+0".toList) fun client label =>
        sizeCondition updateDescriptiveBlock client label) initial labels client ∧
      Step updateDescriptiveBlock "1.0.0+0".toList client
        ⟨.data (some (fullBlock 448 (some (maxUpdateSize + 1)))), {}⟩ next ∧
      client.image.length = maxUpdateSize ∧ next.image = client.image ∧ next.download = false := by
  obtain ⟨labels, client, path, downloading⟩ := exists_behindBlocks 448 (by decide)
  have handled := downloading.handles (some (maxUpdateSize + 1))
  have condition : sizeCondition updateDescriptiveBlock client
      ⟨.data (some (fullBlock 448 (some (maxUpdateSize + 1)))), {}⟩ = true := by
    have announced : announcesMore updateDescriptiveBlock client (fullBlock 448 (some (maxUpdateSize + 1))) = true := by
      simp [announcesMore, updateDescriptiveBlock, fullBlock, downloading.context]
    simp [sizeCondition, downloadCondition, downloading.prepared, announced]
  have length : client.image.length = maxUpdateSize := downloading.image
  obtain ⟨image, download, _⟩ := (download_size updatesContext_descriptive "1.0.0+0".toList path).2
    ⟨.data (some (fullBlock 448 (some (maxUpdateSize + 1)))), {}⟩ _ _ condition rfl handled rfl
    (by simp only [fullBlock, fullPayload_length]; omega)
  exact ⟨labels, client, _, path, rfl, length, image, download⟩

/-- 449 full blocks without a size are all written. -/
theorem size_exceeded :
    ∃ labels client, Path (Step updateDescriptiveBlock "1.0.0+0".toList) initial labels client ∧
      client.download = true ∧ maxUpdateSize < client.image.length := by
  obtain ⟨labels, client, path, downloading⟩ := exists_behindBlocks 448 (by decide)
  have handled := downloading.handles none
  have block : Step updateDescriptiveBlock "1.0.0+0".toList client ⟨.data (some (fullBlock 448 none)), {}⟩
      (response updateDescriptiveBlock {} client (fullBlock 448 none)).1 := by
    simp only [Step, step, parseData, handled, if_true]
  refine ⟨_, _, (path.mono fun _ _ _ moved => moved.2).snoc block, downloading.block.download, ?_⟩
  rw [downloading.block.image]
  decide

end CoapsClient.ApplUpdate
