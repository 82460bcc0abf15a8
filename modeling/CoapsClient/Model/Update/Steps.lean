import CoapsClient.Model.Update.Client

/-! # What one step of the update client can do

A step leaves the download alone, begins one, stops it, prepares it for the first block, or handles a
response. A response is rejected and stops the download, or its block is accepted: then its payload is
written, and the client goes on to the next block or ends the download.
-/

namespace CoapsClient.ApplUpdate

open ShCmd (Text stricmp)

variable {update : Update} {imageVersion : Text} {env : Env} {client next : Client} {label : Label}
  {reply : Reply}

/-- What the client has recorded about its download. -/
structure SameRecords (client next : Client) : Prop where
  image : next.image = client.image
  writes : next.writes = client.writes
  finished : next.finished = client.finished
  verified : next.verified = client.verified
  upgraded : next.upgraded = client.upgraded
  resourcePath : next.resourcePath = client.resourcePath

/-- The step does not concern the download. -/
structure Kept (client next : Client) : Prop extends SameRecords client next where
  download : next.download = client.download
  ready : next.downloadReady = client.downloadReady
  context : next.blockContext = client.blockContext
  prepared : next.prepared = client.prepared

/-- A download begins: nothing is written, and the block context is still that of the one before. -/
structure Begun (next : Client) : Prop where
  image : next.image = []
  writes : next.writes = []
  ready : next.downloadReady = false
  prepared : next.prepared = false

/-- The download is stopped and nothing is ready. -/
structure Stopped (client next : Client) : Prop extends SameRecords client next where
  download : next.download = false
  ready : next.downloadReady = false

/-- The download is ready for its first block. -/
structure Prepared (client next : Client) : Prop extends SameRecords client next where
  was : client.download = true
  download : next.download = true
  ready : next.downloadReady = client.downloadReady
  current : next.blockContext.current = 0

theorem SameRecords.refl (client : Client) : SameRecords client client :=
  ⟨rfl, rfl, rfl, rfl, rfl, rfl⟩

theorem SameRecords.trans {mid : Client} (first : SameRecords client mid) (second : SameRecords mid next) :
    SameRecords client next :=
  ⟨second.image.trans first.image, second.writes.trans first.writes, second.finished.trans first.finished,
    second.verified.trans first.verified, second.upgraded.trans first.upgraded,
    second.resourcePath.trans first.resourcePath⟩

theorem Kept.refl (client : Client) : Kept client client := ⟨.refl client, rfl, rfl, rfl, rfl⟩

theorem Kept.trans {mid : Client} (first : Kept client mid) (second : Kept mid next) : Kept client next :=
  ⟨first.toSameRecords.trans second.toSameRecords, second.download.trans first.download,
    second.ready.trans first.ready, second.context.trans first.context,
    second.prepared.trans first.prepared⟩

theorem Stopped.of_kept {mid : Client} (first : Kept client mid) (second : Stopped mid next) :
    Stopped client next :=
  ⟨first.toSameRecords.trans second.toSameRecords, second.download, second.ready⟩

theorem Stopped.keep {mid : Client} (first : Stopped client mid) (second : Kept mid next) :
    Stopped client next :=
  ⟨first.toSameRecords.trans second.toSameRecords, second.download.trans first.download,
    second.ready.trans first.ready⟩

/-- Canceling ends the download; only a complete one is ready. -/
private theorem cancelDownload_spec (env : Env) (client : Client) (cancel : Bool) (reason : CancelReason) :
    SameRecords client (cancelDownload env client cancel reason).1 ∧
      (cancelDownload env client cancel reason).1.download = false ∧
      (cancelDownload env client cancel reason).1.downloadReady = !cancel := by
  simp only [cancelDownload]
  split <;> exact ⟨⟨rfl, rfl, rfl, rfl, rfl, rfl⟩, rfl, rfl⟩

theorem cancelDownload_stopped (env : Env) (client : Client) (reason : CancelReason) :
    Stopped client (cancelDownload env client true reason).1 := by
  obtain ⟨records, download, ready⟩ := cancelDownload_spec env client true reason
  exact ⟨records, download, ready⟩

/-- `appl_update_start` finds no other update and the flash writer opens. -/
def CanStart (dfu : Dfu) (init : Answer) : Prop :=
  init.reboots = false ∧ dfu.area = none ∧ init.rc = 0

theorem start_eq_zero_iff {dfu : Dfu} {init : Answer} : (start dfu init).2 = 0 ↔ CanStart dfu init := by
  simp only [start, CanStart]
  split
  · next reboots => simp [eshutdown, reboots]
  · next goesOn =>
    split
    · next isOpen => simp [einprogress, Option.ne_none_iff_isSome.mpr isOpen]
    · next closed => simp [goesOn, Option.not_isSome_iff_eq_none.mp closed]

/-- The command is refused without a look at the DFU context. -/
def Refused (imageVersion : Text) (client : Client) (version : Text) : Prop :=
  client.download = true ∨ stricmp version imageVersion = 0

/-- A refused start changes nothing, with its error. -/
theorem coapStart_of_refused {imageVersion version : Text} (env : Env) (client : Client)
    (refused : Refused imageVersion client version) :
    (coapStart imageVersion env client version).1 = client ∧
      (coapStart imageVersion env client version).2 ≠ 0 := by
  have busy : ebusy ≠ 0 := by decide
  have present : eexist ≠ 0 := by decide
  simp only [coapStart, setResource]
  split
  · simp only [busy, ne_eq, not_false_eq_true, and_self]
  · next idle =>
    have same : stricmp version imageVersion = 0 := refused.resolve_left idle
    simp only [same, present, if_true, ne_eq, not_false_eq_true, and_self]

/-- A start that is not refused takes the resource and asks `appl_update_start`. -/
theorem coapStart_of_accepted {imageVersion version : Text} (env : Env) (client : Client)
    (accepted : ¬ Refused imageVersion client version) :
    (coapStart imageVersion env client version).1.download = true ∧
      (coapStart imageVersion env client version).2 = (start client.dfu env.init).2 := by
  obtain ⟨idle, differs⟩ := not_or.mp accepted
  simp only [coapStart, setResource, if_neg idle, if_neg differs]
  exact ⟨rfl, rfl⟩

private theorem coapStart_cases (imageVersion : Text) (env : Env) (client : Client) (resource : Text) :
    Kept client (coapStart imageVersion env client resource).1 ∨
      Begun (coapStart imageVersion env client resource).1 := by
  simp only [coapStart, setResource]
  split
  · exact .inl (.refl client)
  · split
    · exact .inl (.refl client)
    · exact .inr ⟨rfl, rfl, rfl, rfl⟩

/-- A command leaves the download alone, begins one or stops it. -/
private theorem coapCmd_cases (imageVersion : Text) (env : Env) (client : Client) (cmd : Cmd) (version : Text) :
    Kept client (coapCmd imageVersion env client cmd version).1 ∨
      Begun (coapCmd imageVersion env client cmd version).1 ∨
      Stopped client (coapCmd imageVersion env client cmd version).1 := by
  have applies (apply : Bool) : Kept client { client with applyUpdate := apply } :=
    ⟨⟨rfl, rfl, rfl, rfl, rfl, rfl⟩, rfl, rfl, rfl, rfl⟩
  simp only [coapCmd]
  split
  · exact .inl (.refl client)
  · cases cmd with
    | download =>
      rcases coapStart_cases imageVersion env { client with applyUpdate := false } version with kept | begun
      · exact .inl ((applies false).trans kept)
      · exact .inr (.inl begun)
    | update =>
      rcases coapStart_cases imageVersion env { client with applyUpdate := true } version with kept | begun
      · exact .inl ((applies true).trans kept)
      · exact .inr (.inl begun)
    | apply =>
      left
      simp only
      split_ifs <;> exact ⟨⟨rfl, rfl, rfl, rfl, rfl, rfl⟩, rfl, rfl, rfl, rfl⟩
    | cancel =>
      simp only
      split_ifs
      · exact .inl (.refl client)
      · exact .inl (.refl client)
      · exact .inr (.inr ((cancelDownload_stopped env client .cmd).keep
          ⟨⟨rfl, rfl, rfl, rfl, rfl, rfl⟩, rfl, rfl, rfl, rfl⟩))
    | other => exact .inl (.refl client)

/-- The end of the erase work prepares the download it finds, or stops it. -/
private theorem eraseEnd_cases (env : Env) (client : Client) (rc : Int) :
    Kept client (eraseEnd env client rc) ∨ Stopped client (eraseEnd env client rc) ∨
      rc = 0 ∧ Prepared client (eraseEnd env client rc) := by
  have ended : Kept client { client with erasing := none } :=
    ⟨⟨rfl, rfl, rfl, rfl, rfl, rfl⟩, rfl, rfl, rfl, rfl⟩
  unfold eraseEnd
  simp only
  split
  · next ok =>
    split
    · next found => exact .inr (.inr ⟨ok, ⟨rfl, rfl, rfl, rfl, rfl, rfl⟩, found, found, rfl, rfl⟩)
    · exact .inl ended
  · exact .inr (.inl ((Stopped.of_kept ended (cancelDownload_stopped env _ .notAvailable)).keep
      ⟨⟨rfl, rfl, rfl, rfl, rfl, rfl⟩, rfl, rfl, rfl, rfl⟩))

private theorem coapNext_kept (env : Env) (client : Client) : Kept client (coapNext env client).1 := by
  simp only [coapNext]
  split_ifs
  · exact .refl client
  · exact .refl client
  · exact .refl client
  · split <;> exact ⟨⟨rfl, rfl, rfl, rfl, rfl, rfl⟩, rfl, rfl, rfl, rfl⟩

/-- Responses are handled only during a download. -/
theorem download_of_handles (handled : handles env client reply = true) : client.download = true := by
  simp only [handles, Bool.and_eq_true] at handled
  exact handled.1.2

theorem step_of_handles (isData : label.event = .data (some reply))
    (handled : handles label.env client reply = true)
    (moved : Step update imageVersion client label next) :
    next = (response update label.env client reply).1 := by
  simp only [Step, step, isData, parseData, handled, if_true] at moved
  exact (Option.some.inj moved).symm

/-- Every step leaves the download alone, begins one, stops it, prepares it, or handles a response. -/
theorem step_cases (moved : Step update imageVersion client label next) :
    Kept client next ∨ Begun next ∨ Stopped client next ∨
      (label.event = .eraseEnd ∧ client.erasing = some 0 ∧ Prepared client next) ∨
      ∃ reply, label.event = .data (some reply) ∧ handles label.env client reply = true ∧
        next = (response update label.env client reply).1 := by
  obtain ⟨event, env⟩ := label
  cases event with
  | cmd cmd version =>
    obtain rfl := Option.some.inj moved
    rcases coapCmd_cases imageVersion env client cmd version with kept | begun | stopped
    · exact .inl kept
    · exact .inr (.inl begun)
    · exact .inr (.inr (.inl stopped))
  | cancel =>
    obtain rfl := Option.some.inj moved
    simp only [coapCancel]
    split
    · exact .inl (.refl client)
    · exact .inr (.inr (.inl (cancelDownload_stopped env client .notAvailable)))
  | eraseBegin =>
    obtain ⟨_, moved⟩ := Option.ite_none_right_eq_some.mp moved
    obtain rfl := Option.some.inj moved
    exact .inl ⟨⟨rfl, rfl, rfl, rfl, rfl, rfl⟩, rfl, rfl, rfl, rfl⟩
  | eraseEnd =>
    obtain ⟨rc, running, rfl⟩ := Option.map_eq_some_iff.mp moved
    rcases eraseEnd_cases env client rc with kept | stopped | ⟨rfl, prepared⟩
    · exact .inl kept
    · exact .inr (.inr (.inl stopped))
    · exact .inr (.inr (.inr (.inl ⟨rfl, running, prepared⟩)))
  | data reply =>
    obtain rfl := Option.some.inj moved
    cases reply with
    | none => exact .inl (.refl client)
    | some reply =>
      simp only [parseData]
      split
      · next handled => exact .inr (.inr (.inr (.inr ⟨reply, rfl, handled, rfl⟩)))
      · exact .inl (.refl client)
  | next =>
    obtain rfl := Option.some.inj moved
    exact .inl (coapNext_kept env client)
  | otherUpdate dfu =>
    obtain rfl := Option.some.inj moved
    exact .inl ⟨⟨rfl, rfl, rfl, rfl, rfl, rfl⟩, rfl, rfl, rfl, rfl⟩

theorem checkFormat_kept (checked : checkFormat client reply = some next) : Kept client next := by
  simp only [checkFormat] at checked
  split at checked
  · exact Option.some.inj checked ▸ .refl client
  · split_ifs at checked
    · exact Option.some.inj checked ▸ .refl client
    · exact Option.some.inj checked ▸ ⟨⟨rfl, rfl, rfl, rfl, rfl, rfl⟩, rfl, rfl, rfl, rfl⟩

theorem checkEtag_kept {current : ℕ} (checked : checkEtag client reply current = some next) :
    Kept client next := by
  simp only [checkEtag] at checked
  split at checked
  · exact Option.some.inj checked ▸ .refl client
  · split_ifs at checked
    · exact Option.some.inj checked ▸ .refl client
    · exact Option.some.inj checked ▸ ⟨⟨rfl, rfl, rfl, rfl, rfl, rfl⟩, rfl, rfl, rfl, rfl⟩

/-- A block is accepted at the current offset. With more to come its payload is a full block; without
a block option it is the whole image. -/
theorem checkBlock_cases {context : BlockContext} {accepted : Accepted}
    (checked : checkBlock update context reply = .ok accepted) :
    (reply.block2 = none ∧ context.current = 0 ∧ accepted = ⟨context, 0, true⟩) ∨
      ∃ block after, reply.block2 = some block ∧ update reply context = .ok after ∧
        after.totalSize ≤ maxUpdateSize ∧ after.current = context.current ∧
        reply.payload.length ≤ blockBytes after.blockSize ∧
        (block.more = true → reply.payload.length = blockBytes after.blockSize) ∧
        accepted = ⟨after, blockBytes after.blockSize, !block.more⟩ := by
  simp only [checkBlock] at checked
  split at checked
  · next absent =>
    split at checked
    · contradiction
    · next first => exact .inl ⟨absent, not_not.mp first, (Except.ok.inj checked).symm⟩
  · next block present =>
    split at checked
    · contradiction
    · next after updated =>
      split_ifs at checked with large other long short
      refine .inr ⟨block, after, present, updated, by omega, by omega, by omega, ?_,
        (Except.ok.inj checked).symm⟩
      intro more
      by_contra differs
      exact short ⟨by omega, more⟩

/-- The download was finished, the version of the image is that of the resource, and the upgrade is
requested. -/
structure Verified (client : Client) : Prop where
  finished : client.finished = some 0
  version : ∃ version, client.verified = some version ∧ stricmp client.resourcePath version = 0
  upgraded : client.upgraded = some 0

/-- The payload of an accepted block is written. -/
structure Written (env : Env) (client : Client) (payload : List UInt8) (next : Client) : Prop where
  image : next.image = client.image ++ payload
  writes : next.writes = client.writes ++ if payload.isEmpty then [] else [write env.write]
  resourcePath : next.resourcePath = client.resourcePath

private theorem verifyVersion_spec {version : Option Text} (checked : verifyVersion env client = (0, version)) :
    ∃ text, version = some text ∧ stricmp client.resourcePath text = 0 := by
  unfold verifyVersion at checked
  simp only at checked
  split at checked
  · obtain ⟨result, rfl⟩ := Prod.mk.inj checked
    refine ⟨_, rfl, ?_⟩
    by_contra differs
    rw [if_neg differs] at result
    exact absurd result (by decide)
  · next failed => exact absurd (Prod.mk.inj checked).1 failed

/-- The download is over, and ready only if every call at its end succeeded. -/
structure Ended (client next : Client) : Prop where
  download : next.download = false
  image : next.image = client.image
  writes : next.writes = client.writes
  resourcePath : next.resourcePath = client.resourcePath
  verified : next.downloadReady = true → Verified next

private theorem ended_cancel (env : Env) {mid : Client} (image : mid.image = client.image)
    (writes : mid.writes = client.writes) (resourcePath : mid.resourcePath = client.resourcePath) :
    Ended client (cancelDownload env mid true .notAvailable).1 := by
  obtain ⟨records, download, ready⟩ := cancelDownload_stopped env mid .notAvailable
  exact ⟨download, records.image.trans image, records.writes.trans writes,
    records.resourcePath.trans resourcePath, fun isReady => by simp [ready] at isReady⟩

private theorem ended_complete (env : Env) {mid : Client} (image : mid.image = client.image)
    (writes : mid.writes = client.writes) (resourcePath : mid.resourcePath = client.resourcePath)
    (complete : Verified mid) : Ended client (cancelDownload env mid false .notAvailable).1 := by
  obtain ⟨records, download, _⟩ := cancelDownload_spec env mid false .notAvailable
  obtain ⟨finished, ⟨version, read, same⟩, upgraded⟩ := complete
  exact ⟨download, records.image.trans image, records.writes.trans writes,
    records.resourcePath.trans resourcePath, fun _ => ⟨records.finished.trans finished,
      ⟨version, records.verified.trans read, records.resourcePath ▸ same⟩, records.upgraded.trans upgraded⟩⟩

theorem finishDownload_ended (env : Env) (client : Client) : Ended client (finishDownload env client).1 := by
  unfold finishDownload
  simp only
  split
  · exact ended_cancel env rfl rfl rfl
  · next finished =>
    split
    · exact ended_cancel env rfl rfl rfl
    · next verified =>
      split
      · exact ended_cancel env rfl rfl rfl
      · next upgraded =>
        rw [ne_eq, not_not] at finished verified upgraded
        exact ended_complete env rfl rfl rfl ⟨congrArg some finished,
          verifyVersion_spec (Prod.ext verified rfl), congrArg some upgraded⟩

theorem writePayload_written (env : Env) (client : Client) (payload : List UInt8) :
    Written env client payload (writePayload env client payload) ∧
      (writePayload env client payload).download = client.download ∧
      (writePayload env client payload).downloadReady = client.downloadReady ∧
      (writePayload env client payload).prepared = client.prepared ∧
      (writePayload env client payload).blockContext = client.blockContext := by
  simp only [writePayload]
  cases payload with
  | nil => exact ⟨⟨by simp, by simp, rfl⟩, rfl, rfl, rfl, rfl⟩
  | cons byte rest => exact ⟨⟨rfl, rfl, rfl⟩, rfl, rfl, rfl, rfl⟩

theorem Written.of_kept {mid : Client} {payload : List UInt8} (kept : Kept client mid)
    (written : Written env mid payload next) : Written env client payload next :=
  ⟨kept.image ▸ written.image, kept.writes ▸ written.writes,
    written.resourcePath.trans kept.resourcePath⟩

/-- A response is rejected and stops the download, or its block is accepted and its payload written.
The client then goes on behind the block, or ends the download. -/
theorem response_cases (update : Update) (env : Env) (client : Client) (reply : Reply) :
    Stopped client (response update env client reply).1 ∨
      ∃ accepted, checkBlock update client.blockContext reply = .ok accepted ∧
        Written env client reply.payload (response update env client reply).1 ∧
        ((accepted.ready = false ∧
            (response update env client reply).1.download = client.download ∧
            (response update env client reply).1.downloadReady = client.downloadReady ∧
            (response update env client reply).1.prepared = client.prepared ∧
            (response update env client reply).1.blockContext.current =
              accepted.context.current + accepted.bytes) ∨
          (accepted.ready = true ∧ (response update env client reply).1.download = false ∧
            ((response update env client reply).1.downloadReady = true →
              Verified (response update env client reply).1))) := by
  have begun : Kept client { client with messageLen := 0 } :=
    ⟨⟨rfl, rfl, rfl, rfl, rfl, rfl⟩, rfl, rfl, rfl, rfl⟩
  unfold response
  simp only
  split
  · exact .inl (Stopped.of_kept begun (cancelDownload_stopped env _ .noContent))
  · split
    · exact .inl (Stopped.of_kept begun (cancelDownload_stopped env _ .changed))
    · next formatted checkedFormat =>
      have kept := begun.trans (checkFormat_kept checkedFormat)
      split
      · exact .inl (Stopped.of_kept kept (cancelDownload_stopped env _ .changed))
      · next tagged checkedEtag =>
        have kept := kept.trans (checkEtag_kept checkedEtag)
        split
        · exact .inl (Stopped.of_kept kept (cancelDownload_stopped env _ _))
        · next accepted checkedBlock =>
          right
          obtain ⟨written, download, ready, prepared, context⟩ :=
            writePayload_written env tagged reply.payload
          have written := Written.of_kept kept written
          refine ⟨accepted, checkedBlock, ?_⟩
          split
          · next isReady =>
            obtain ⟨ended, image, writes, path, verified⟩ :=
              finishDownload_ended env (writePayload env tagged reply.payload)
            exact ⟨⟨image.trans written.image, writes.trans written.writes, path.trans written.resourcePath⟩,
              .inr ⟨isReady, ended, verified⟩⟩
          · next notReady =>
            rw [if_pos (by rw [context, kept.context])]
            exact ⟨⟨written.image, written.writes, written.resourcePath⟩,
              .inl ⟨by simpa using notReady, download.trans kept.download, ready.trans kept.ready,
                prepared.trans kept.prepared, rfl⟩⟩

end CoapsClient.ApplUpdate
