import CoapsClient.Model.Update.Steps

/-! # A download does not depend on the ones before it

A download takes over from earlier ones the content format, which nothing resets, the erase work that
may still be running, and the token, the message id and the block context until its own first request.
Apart from the content format, a run in which no late response arrives never reads them.
-/

namespace CoapsClient.ApplUpdate

open Machine
open ShCmd (Text stricmp)

/-- What a client has left of its last request and its last cancel. -/
structure Stale where
  token : ℕ
  mid : ℕ
  messageLen : ℕ
  blockContext : BlockContext
  cancelReason : CancelReason
  rebootCmds : ℕ

/-- The client with other leftovers. -/
def Client.withStale (client : Client) (stale : Stale) : Client :=
  { client with
    token := stale.token
    mid := stale.mid
    messageLen := stale.messageLen
    blockContext := stale.blockContext
    cancelReason := stale.cancelReason
    rebootCmds := stale.rebootCmds }

/-- The leftovers of a client. -/
def Client.stale (client : Client) : Stale :=
  ⟨client.token, client.mid, client.messageLen, client.blockContext, client.cancelReason, client.rebootCmds⟩

/-- The leftovers agree with the client on everything a response can read. -/
def Stale.Fresh (stale : Stale) (client : Client) : Prop :=
  stale.token = client.token ∧ stale.mid = client.mid ∧ stale.blockContext = client.blockContext

/-- An ended download gives the same reason. -/
def Stale.SameReason (stale : Stale) (client : Client) : Prop :=
  client.download = false → client.downloadCanceled = true → stale.cancelReason = client.cancelReason

/-- Two clients in the same download, with the tokens of their last requests before it. -/
def Alike (oldLeft oldRight : ℕ) (left right : Client) : Prop :=
  ∃ stale : Stale, right = left.withStale stale ∧ stale.SameReason left ∧
    (left.downloadRequest = true → stale.blockContext = left.blockContext) ∧
    (left.token = oldLeft ∧ stale.token = oldRight ∨ stale.Fresh left)

/-- What a download shows: the bytes it wrote, with their results, and how it ended. -/
structure SameCourse (left right : Client) : Prop where
  image : left.image = right.image
  writes : left.writes = right.writes
  download : left.download = right.download
  ready : left.downloadReady = right.downloadReady
  canceled : left.downloadCanceled = right.downloadCanceled
  reason : left.download = false → left.downloadCanceled = true → left.cancelReason = right.cancelReason

variable {update : Update} {imageVersion : Text} {env : Env} {client left right next : Client}
  {stale : Stale} {label : Label} {oldLeft oldRight : ℕ} {reply : Reply}

private theorem withStale_dfu (client : Client) (stale : Stale) : (client.withStale stale).dfu = client.dfu := rfl

theorem Alike.sameCourse (alike : Alike oldLeft oldRight left right) : SameCourse left right := by
  obtain ⟨stale, rfl, reason, _⟩ := alike
  exact ⟨rfl, rfl, rfl, rfl, rfl, fun ended canceled => (reason ended canceled).symm⟩

/-- Canceling the running download leaves the same reason in both. -/
private theorem cancelDownload_withStale (env : Env) (client : Client) (stale : Stale) (reason : CancelReason)
    (running : client.download = true) :
    (cancelDownload env (client.withStale stale) true reason).1 =
      (cancelDownload env client true reason).1.withStale
        { stale with messageLen := 0, cancelReason := reason } ∧
      (cancelDownload env client true reason).1.cancelReason = reason ∧
      (cancelDownload env client true reason).1.blockContext = client.blockContext ∧
      (cancelDownload env client true reason).1.token = client.token ∧
      (cancelDownload env client true reason).1.mid = client.mid := by
  simp only [cancelDownload, Client.withStale, running, Bool.and_self, if_true, and_self]

private theorem checkFormat_withStale (client : Client) (stale : Stale) (reply : Reply) :
    checkFormat (client.withStale stale) reply = (checkFormat client reply).map (·.withStale stale) := by
  cases format : reply.contentFormat with
  | none => simp only [checkFormat, format, Option.map_some]
  | some value =>
    simp only [checkFormat, format, apply_ite (Option.map (Client.withStale · stale)), Option.map_none,
      Option.map_some]
    rfl

private theorem checkEtag_withStale (client : Client) (stale : Stale) (reply : Reply) (current : ℕ) :
    checkEtag (client.withStale stale) reply current =
      (checkEtag client reply current).map (·.withStale stale) := by
  cases etag : reply.etag with
  | none => simp only [checkEtag, etag, Option.map_some]
  | some value =>
    simp only [checkEtag, etag, apply_ite (Option.map (Client.withStale · stale)), Option.map_none,
      Option.map_some]
    rfl

private theorem writePayload_withStale (env : Env) (client : Client) (stale : Stale) (payload : List UInt8) :
    writePayload env (client.withStale stale) payload = (writePayload env client payload).withStale stale := by
  simp only [writePayload, apply_ite (Client.withStale · stale)]
  rfl

/-- The outcome of a response in both runs. -/
def Outcome (left right : Client) : Prop :=
  ∃ after : Stale, right = left.withStale after ∧ after.SameReason left ∧ after.Fresh left

/-- Both runs cancel. -/
theorem Outcome.cancel (env : Env) (client : Client) (stale : Stale) (reason : CancelReason)
    (running : client.download = true) (fresh : stale.Fresh client) :
    Outcome (cancelDownload env client true reason).1
      (cancelDownload env (client.withStale stale) true reason).1 := by
  obtain ⟨same, ended, context, token, mid⟩ := cancelDownload_withStale env client stale reason running
  exact ⟨_, same, fun _ _ => ended.symm, fresh.1.trans token.symm, fresh.2.1.trans mid.symm,
    fresh.2.2.trans context.symm⟩

/-- The end of a download records what it found, the same in both runs, and closes the download. -/
private theorem finishDownload_withStale (env : Env) (client : Client) :
    ∃ (dfu : Dfu) (finished : Option Int) (verified : Option Text) (upgraded : Option Int) (cancel : Bool),
      ∀ stale : Stale, (finishDownload env (client.withStale stale)).1 =
        (cancelDownload env (Client.withStale { client with dfu, finished, verified, upgraded } stale) cancel
          .notAvailable).1 := by
  rcases ended : ApplUpdate.finish client.dfu env.finish with ⟨dfu, res⟩
  rcases read : verifyVersion env { client with dfu } with ⟨err, version⟩
  have verifies (stale : Stale) (res : Option Int) :
      verifyVersion env { client.withStale stale with dfu, finished := res } = (err, version) := read
  by_cases finished : res = 0
  · by_cases verified : err = 0
    · by_cases upgraded : requestUpgrade env.upgrade = 0
      · refine ⟨dfu, some res, version, some 0, false, fun stale => ?_⟩
        simp only [finishDownload, withStale_dfu, ended, finished, verifies, verified, upgraded, ne_eq,
          not_true_eq_false, if_false]
        rfl
      · refine ⟨dfu, some res, version, some (requestUpgrade env.upgrade), true, fun stale => ?_⟩
        simp only [finishDownload, withStale_dfu, ended, finished, verifies, verified, upgraded, ne_eq,
          not_true_eq_false, not_false_eq_true, if_false, if_true]
        rfl
    · refine ⟨dfu, some res, version, client.upgraded, true, fun stale => ?_⟩
      simp only [finishDownload, withStale_dfu, ended, finished, verifies, verified, ne_eq, not_true_eq_false,
        not_false_eq_true, if_false, if_true]
      rfl
  · refine ⟨dfu, some res, client.verified, client.upgraded, true, fun stale => ?_⟩
    simp only [finishDownload, withStale_dfu, ended, finished, ne_eq, not_false_eq_true, if_true]
    rfl

/-- Both runs end the download in the same way. -/
theorem Outcome.finish (env : Env) (client : Client) (stale : Stale) (running : client.download = true)
    (fresh : stale.Fresh client) :
    Outcome (finishDownload env client).1 (finishDownload env (client.withStale stale)).1 := by
  obtain ⟨dfu, finished, verified, upgraded, cancel, closes⟩ := finishDownload_withStale env client
  have left : (finishDownload env client).1 =
      (cancelDownload env { client with dfu, finished, verified, upgraded } cancel .notAvailable).1 :=
    closes client.stale
  rw [left, closes stale]
  cases cancel with
  | true => exact Outcome.cancel env { client with dfu, finished, verified, upgraded } stale _ running fresh
  | false =>
    simp only [cancelDownload, Bool.and_false, Bool.false_eq_true, if_false]
    refine ⟨stale, rfl, ?_, fresh⟩
    intro _ canceled
    exact absurd canceled Bool.false_ne_true

/-- `response` for a client whose request is answered. -/
private def respond (update : Update) (env : Env) (context : BlockContext) (client : Client) (reply : Reply) :
    Client × Int :=
  if reply.code ≠ codeContent then ((cancelDownload env client true .noContent).1, einval)
  else match checkFormat client reply with
    | none => ((cancelDownload env client true .changed).1, einval)
    | some client => match checkEtag client reply context.current with
      | none => ((cancelDownload env client true .changed).1, einval)
      | some client => match checkBlock update context reply with
        | .error (reason, res) => ((cancelDownload env client true reason).1, res)
        | .ok accepted =>
            let client := writePayload env client reply.payload
            if accepted.ready then finishDownload env client
            else if context.current = client.blockContext.current then
              ({ client with
                blockContext := { accepted.context with current := accepted.context.current + accepted.bytes }
                downloadRequest := true }, 0)
            else (client, 0)

private theorem response_eq_respond (update : Update) (env : Env) (client : Client) (reply : Reply) :
    response update env client reply =
      respond update env client.blockContext { client with messageLen := 0 } reply := rfl

/-- A download in progress keeps its request through the checks and the write. -/
private structure Goes (client next : Client) : Prop where
  download : next.download = client.download
  token : next.token = client.token
  mid : next.mid = client.mid
  context : next.blockContext = client.blockContext

private theorem Goes.fresh {next : Client} (goes : Goes client next) (fresh : stale.Fresh client) :
    stale.Fresh next :=
  ⟨fresh.1.trans goes.token.symm, fresh.2.1.trans goes.mid.symm, fresh.2.2.trans goes.context.symm⟩

private theorem checkFormat_goes {next : Client} (checked : checkFormat client reply = some next) :
    Goes client next := by
  simp only [checkFormat] at checked
  split at checked
  · obtain rfl := Option.some.inj checked
    exact ⟨rfl, rfl, rfl, rfl⟩
  · split_ifs at checked
    · obtain rfl := Option.some.inj checked
      exact ⟨rfl, rfl, rfl, rfl⟩
    · obtain rfl := Option.some.inj checked
      exact ⟨rfl, rfl, rfl, rfl⟩

private theorem checkEtag_goes {next : Client} {current : ℕ} (checked : checkEtag client reply current = some next) :
    Goes client next := by
  simp only [checkEtag] at checked
  split at checked
  · obtain rfl := Option.some.inj checked
    exact ⟨rfl, rfl, rfl, rfl⟩
  · split_ifs at checked
    · obtain rfl := Option.some.inj checked
      exact ⟨rfl, rfl, rfl, rfl⟩
    · obtain rfl := Option.some.inj checked
      exact ⟨rfl, rfl, rfl, rfl⟩

private theorem writePayload_goes (env : Env) (client : Client) (payload : List UInt8) :
    Goes client (writePayload env client payload) := by
  simp only [writePayload]
  split <;> exact ⟨rfl, rfl, rfl, rfl⟩

/-- Both runs handle a response in the same way, once they sent the same request. -/
private theorem Outcome.respond (update : Update) (env : Env) (client : Client) (stale : Stale) (reply : Reply)
    (running : client.download = true) (fresh : stale.Fresh client) :
    Outcome (respond update env client.blockContext client reply).1
      (respond update env client.blockContext (client.withStale stale) reply).1 := by
  simp only [ApplUpdate.respond, checkFormat_withStale]
  by_cases content : reply.code = codeContent
  · simp only [content, ne_eq, not_true_eq_false, if_false]
    cases formatted : checkFormat client reply with
    | none => exact Outcome.cancel env client stale _ running fresh
    | some client1 =>
      have goes1 := checkFormat_goes formatted
      simp only [Option.map_some, checkEtag_withStale]
      cases tagged : checkEtag client1 reply client.blockContext.current with
      | none => exact Outcome.cancel env client1 stale _ (goes1.download.trans running) (goes1.fresh fresh)
      | some client2 =>
        have goes2 := checkEtag_goes tagged
        have running2 := goes2.download.trans (goes1.download.trans running)
        have fresh2 := goes2.fresh (goes1.fresh fresh)
        simp only [Option.map_some, writePayload_withStale]
        cases checkBlock update client.blockContext reply with
        | error failed => exact Outcome.cancel env client2 stale _ running2 fresh2
        | ok accepted =>
          have goes3 := writePayload_goes env client2 reply.payload
          have running3 := goes3.download.trans running2
          have fresh3 := goes3.fresh fresh2
          have same : ((writePayload env client2 reply.payload).withStale stale).blockContext =
              (writePayload env client2 reply.payload).blockContext := fresh3.2.2
          simp only [same]
          cases accepted.ready with
          | true => exact Outcome.finish env _ stale running3 fresh3
          | false =>
            simp only [Bool.false_eq_true, if_false]
            split
            · refine ⟨{ stale with blockContext := { accepted.context with
                current := accepted.context.current + accepted.bytes } }, rfl, ?_, fresh3.1, fresh3.2.1, rfl⟩
              exact fun ended => absurd ended (by simp [running3])
            · exact ⟨stale, rfl, fun ended => absurd ended (by simp [running3]), fresh3⟩
  · simp only [content, ne_eq, not_false_eq_true, if_true]
    exact Outcome.cancel env client stale _ running fresh

private theorem Outcome.response (update : Update) (env : Env) (client : Client) (stale : Stale) (reply : Reply)
    (running : client.download = true) (fresh : stale.Fresh client) :
    Outcome (ApplUpdate.response update env client reply).1
      (ApplUpdate.response update env (client.withStale stale) reply).1 := by
  obtain ⟨token, mid, messageLen, current, reason, rebootCmds⟩ := stale
  obtain ⟨sameToken, sameMid, rfl⟩ : token = client.token ∧ mid = client.mid ∧ current = client.blockContext :=
    fresh
  rw [response_eq_respond, response_eq_respond]
  exact Outcome.respond update env { client with messageLen := 0 }
    ⟨token, mid, 0, client.blockContext, reason, rebootCmds⟩ reply running ⟨sameToken, sameMid, rfl⟩

/-- Both clients cancel the running download. -/
theorem Alike.cancel (env : Env) (reason : CancelReason) (alike : Alike oldLeft oldRight left right)
    (running : left.download = true) :
    Alike oldLeft oldRight (cancelDownload env left true reason).1 (cancelDownload env right true reason).1 := by
  obtain ⟨stale, rfl, _, _, request⟩ := alike
  obtain ⟨same, ended, context, token, mid⟩ := cancelDownload_withStale env left stale reason running
  refine ⟨_, same, fun _ _ => ended.symm, fun requested => ?_, ?_⟩
  · simp only [cancelDownload, running, Bool.and_self, if_true, Bool.false_eq_true] at requested
  · rcases request with ⟨first, second⟩ | ⟨first, second, third⟩
    · exact .inl ⟨token.trans first, second⟩
    · exact .inr ⟨first.trans token.symm, second.trans mid.symm, third.trans context.symm⟩

/-- A step that leaves the request and the cancel alone. -/
theorem Alike.of_frame (change : Client → Client)
    (frame : ∀ (client : Client) (stale : Stale), change (client.withStale stale) = (change client).withStale stale)
    (kept : ∀ client, (change client).download = client.download ∧
      (change client).downloadCanceled = client.downloadCanceled ∧
      (change client).downloadRequest = client.downloadRequest)
    (alike : Alike oldLeft oldRight left right) : Alike oldLeft oldRight (change left) (change right) := by
  obtain ⟨stale, rfl, reason, requested, request⟩ := alike
  have image : change left = (change left).withStale left.stale := frame left left.stale
  have same : (change left).stale = left.stale := by
    rw [image]
    rfl
  have context : (change left).blockContext = left.blockContext := congrArg Stale.blockContext same
  have token : (change left).token = left.token := congrArg Stale.token same
  have mid : (change left).mid = left.mid := congrArg Stale.mid same
  have cause : (change left).cancelReason = left.cancelReason := congrArg Stale.cancelReason same
  obtain ⟨download, canceled, waits⟩ := kept left
  refine ⟨stale, frame left stale, ?_, ?_, ?_⟩
  · rw [Stale.SameReason, download, canceled, cause]
    exact reason
  · rw [waits, context]
    exact requested
  · rw [Stale.Fresh, context, token, mid]
    exact request

theorem Alike.coapCmd (imageVersion : Text) (env : Env) (cmd : Cmd) (version : Text)
    (alike : Alike oldLeft oldRight left right) (running : left.download = true) :
    Alike oldLeft oldRight (coapCmd imageVersion env left cmd version).1
      (coapCmd imageVersion env right cmd version).1 := by
  obtain ⟨stale, rfl, rest⟩ := alike
  have alike : Alike oldLeft oldRight left (left.withStale stale) := ⟨stale, rfl, rest⟩
  have path : (left.withStale stale).resourcePath = left.resourcePath := rfl
  cases reboots : env.reboots with
  | true => simpa only [ApplUpdate.coapCmd, reboots, if_true] using alike
  | false =>
    simp only [ApplUpdate.coapCmd, reboots, Bool.false_eq_true, if_false]
    cases cmd with
    | download =>
      simp only [(coapStart_of_refused env { left with applyUpdate := false } (.inl running)).1,
        (coapStart_of_refused env { left.withStale stale with applyUpdate := false } (.inl running)).1]
      exact Alike.of_frame (fun client => { client with applyUpdate := false }) (fun _ _ => rfl)
        (fun _ => ⟨rfl, rfl, rfl⟩) alike
    | update =>
      simp only [(coapStart_of_refused env { left with applyUpdate := true } (.inl running)).1,
        (coapStart_of_refused env { left.withStale stale with applyUpdate := true } (.inl running)).1]
      exact Alike.of_frame (fun client => { client with applyUpdate := true }) (fun _ _ => rfl)
        (fun _ => ⟨rfl, rfl, rfl⟩) alike
    | apply =>
      have same : verifyVersion env (left.withStale stale) = verifyVersion env left := rfl
      have ready : (left.withStale stale).downloadReady = left.downloadReady := rfl
      simp only [path, ready, same]
      split_ifs
      · exact alike
      · exact alike
      · exact alike
      · exact alike
      · obtain ⟨reason, requested, request⟩ := rest
        exact ⟨{ stale with rebootCmds := stale.rebootCmds + 1 }, rfl, reason, requested, request⟩
    | cancel =>
      simp only [path]
      split_ifs
      · exact alike
      · exact alike
      · exact Alike.of_frame (fun client => { client with eraseWork := true }) (fun _ _ => rfl)
          (fun _ => ⟨rfl, rfl, rfl⟩) (alike.cancel env .cmd running)
    | other => exact alike

theorem Alike.eraseEnd (env : Env) (rc : Int) (alike : Alike oldLeft oldRight left right)
    (running : left.download = true) :
    Alike oldLeft oldRight (eraseEnd env left rc) (eraseEnd env right rc) := by
  have running' : right.download = true := by
    obtain ⟨stale, rfl, _⟩ := alike
    exact running
  simp only [ApplUpdate.eraseEnd]
  split
  · obtain ⟨stale, rfl, _, _, request⟩ := alike
    refine ⟨{ stale with blockContext := ⟨0, 0, initialBlockSize env.timeScale⟩ }, rfl,
      fun ended => absurd ended (by simp [running]), fun _ => rfl, ?_⟩
    rcases request with old | ⟨token, mid, _⟩
    · exact .inl old
    · exact .inr ⟨token, mid, rfl⟩
  · have ended : Alike oldLeft oldRight { left with erasing := none } { right with erasing := none } :=
      Alike.of_frame (fun client => { client with erasing := none }) (fun _ _ => rfl)
        (fun _ => ⟨rfl, rfl, rfl⟩) alike
    exact Alike.of_frame (fun client => { client with dfu := cmdContext false client.dfu env.init })
      (fun _ _ => rfl) (fun _ => ⟨rfl, rfl, rfl⟩) (ended.cancel env .notAvailable running)

theorem Alike.coapNext (env : Env) (alike : Alike oldLeft oldRight left right)
    (running : left.download = true) :
    Alike oldLeft oldRight (coapNext env left).1 (coapNext env right).1 := by
  obtain ⟨stale, rfl, reason, requested, request⟩ := alike
  have running' : (left.withStale stale).download = true := running
  have waits : (left.withStale stale).downloadRequest = left.downloadRequest := rfl
  simp only [ApplUpdate.coapNext, running, running', waits, Bool.not_true, Bool.false_eq_true, if_false]
  split_ifs with reboots idle
  · exact ⟨stale, rfl, reason, requested, request⟩
  · exact ⟨stale, rfl, reason, requested, request⟩
  · have context := requested (by simpa using idle)
    cases env.request with
    | error rc =>
      exact ⟨{ stale with token := env.nextToken, mid := env.nextMid, messageLen := 0 }, rfl,
        fun ended => absurd ended (by simp), fun _ => context, .inr ⟨rfl, rfl, context⟩⟩
    | ok length =>
      exact ⟨{ stale with token := env.nextToken, mid := env.nextMid, messageLen := length }, rfl,
        fun ended => absurd ended (by simp), fun _ => context, .inr ⟨rfl, rfl, context⟩⟩

/-- No message carries the token of the last request before the download. -/
def NoLateResponse (oldLeft oldRight : ℕ) (label : Label) : Prop :=
  ∀ reply : Reply, label.event = .data (some reply) →
    reply.token ≠ some oldLeft ∧ reply.token ≠ some oldRight

private theorem match_of_other_token {mid token : ℕ} (other : reply.token ≠ some token) :
    (coapClientMatch reply mid token).isResponse = false := by
  simp only [coapClientMatch, if_pos other]
  split
  · split
    · rfl
    · split
      · cases reply.type <;> rfl
      · rfl
  · rfl

theorem Alike.parseData (update : Update) (env : Env) (data : Option Reply)
    (alike : Alike oldLeft oldRight left right) (running : left.download = true)
    (inTime : NoLateResponse oldLeft oldRight ⟨.data data, env⟩) :
    Alike oldLeft oldRight (parseData update env left data) (parseData update env right data) := by
  cases data with
  | none => exact alike
  | some reply =>
    obtain ⟨stale, rfl, reason, requested, request⟩ := alike
    obtain ⟨notLeft, notRight⟩ := inTime reply rfl
    rcases request with ⟨oldL, oldR⟩ | fresh
    · have idleLeft : handles env left reply = false := by
        rw [← oldL] at notLeft
        simp only [handles, match_of_other_token notLeft, Bool.and_false]
      have idleRight : handles env (left.withStale stale) reply = false := by
        have other : reply.token ≠ some (left.withStale stale).token := by rwa [← oldR] at notRight
        simp only [handles, match_of_other_token other, Bool.and_false]
      simp only [ApplUpdate.parseData, idleLeft, idleRight, Bool.false_eq_true, if_false]
      exact ⟨stale, rfl, reason, requested, .inl ⟨oldL, oldR⟩⟩
    · obtain ⟨token, mid, context⟩ := fresh
      have same : handles env (left.withStale stale) reply = handles env left reply := by
        simp only [handles, Client.withStale, token, mid]
      simp only [ApplUpdate.parseData, same]
      split
      · obtain ⟨after, image, sameReason, sameRequest⟩ :=
          Outcome.response update env left stale reply running ⟨token, mid, context⟩
        exact ⟨after, image, sameReason, fun _ => sameRequest.2.2, .inr sameRequest⟩
      · exact ⟨stale, rfl, reason, requested, .inr ⟨token, mid, context⟩⟩

/-- One step of both runs. -/
theorem Alike.step (moved : Step update imageVersion left label next) (running : left.download = true)
    (inTime : NoLateResponse oldLeft oldRight label) (alike : Alike oldLeft oldRight left right) :
    ∃ next', Step update imageVersion right label next' ∧ Alike oldLeft oldRight next next' := by
  obtain ⟨event, env⟩ := label
  cases event with
  | cmd cmd version =>
    obtain rfl := Option.some.inj moved
    exact ⟨_, rfl, alike.coapCmd imageVersion env cmd version running⟩
  | cancel =>
    obtain rfl := Option.some.inj moved
    refine ⟨_, rfl, ?_⟩
    simp only [coapCancel]
    split
    · exact alike
    · exact alike.cancel env .notAvailable running
  | eraseBegin =>
    obtain ⟨scheduled, moved⟩ := Option.ite_none_right_eq_some.mp moved
    obtain rfl := Option.some.inj moved
    refine ⟨ApplUpdate.eraseBegin env right, if_pos ?_, ?_⟩
    · obtain ⟨stale, rfl, _⟩ := alike
      exact scheduled
    · exact Alike.of_frame (ApplUpdate.eraseBegin env) (fun _ _ => rfl) (fun _ => ⟨rfl, rfl, rfl⟩) alike
  | eraseEnd =>
    obtain ⟨rc, erasing, rfl⟩ := Option.map_eq_some_iff.mp moved
    refine ⟨ApplUpdate.eraseEnd env right rc, Option.map_eq_some_iff.mpr ⟨rc, ?_, rfl⟩,
      alike.eraseEnd env rc running⟩
    obtain ⟨stale, rfl, _⟩ := alike
    exact erasing
  | data reply =>
    obtain rfl := Option.some.inj moved
    exact ⟨_, rfl, alike.parseData update env reply running inTime⟩
  | next =>
    obtain rfl := Option.some.inj moved
    exact ⟨_, rfl, alike.coapNext env running⟩
  | otherUpdate dfu =>
    obtain rfl := Option.some.inj moved
    exact ⟨_, rfl, Alike.of_frame (fun client => { client with dfu }) (fun _ _ => rfl)
      (fun _ => ⟨rfl, rfl, rfl⟩) alike⟩

/-- A step of a download that is still running. -/
def Downloading (update : Update) (imageVersion : Text) : Client → Label → Client → Prop :=
  guarded (Step update imageVersion) fun client _ => client.download = true

theorem Alike.run {labels : List Label} (path : Path (Downloading update imageVersion) left labels next)
    (inTime : ∀ label ∈ labels, NoLateResponse oldLeft oldRight label)
    (alike : Alike oldLeft oldRight left right) :
    ∃ next', Path (Downloading update imageVersion) right labels next' ∧ Alike oldLeft oldRight next next' := by
  induction path generalizing right with
  | nil client => exact ⟨right, .nil right, alike⟩
  | cons moved _ ih =>
    obtain ⟨mid', moved', alike'⟩ := alike.step moved.2 moved.1 (inTime _ (List.mem_cons_self ..))
    obtain ⟨next', path', alikeEnd⟩ := ih (fun label member => inTime label (List.mem_cons_of_mem _ member)) alike'
    exact ⟨next', .cons ⟨alike.sameCourse.download.symm.trans moved.1, moved'⟩ path', alikeEnd⟩

/-- What a command that starts a download makes of the client. -/
private theorem coapStart_begins (version : Text) (begun : (coapStart imageVersion env client version).2 = 0) :
    (coapStart imageVersion env client version).1 =
      { client with
        resourcePath := version.take (maxResPathLen - 1)
        etag := []
        download := true
        downloadRequest := false
        downloadCanceled := false
        downloadReady := false
        eraseWork := true
        dfu := initContext env.init
        prepared := false
        image := []
        writes := []
        finished := none
        verified := none
        upgraded := none } := by
  have accepted : ¬ Refused imageVersion client version :=
    fun refused => (coapStart_of_refused env client refused).2 begun
  rw [(coapStart_of_accepted env client accepted).2] at begun
  obtain ⟨goesOn, closed, ok⟩ := start_eq_zero_iff.mp begun
  obtain ⟨idle, differs⟩ := not_or.mp accepted
  simp only [coapStart, setResource, if_neg idle, if_neg differs, start, goesOn, closed, ok]
  simp

/-- Two clients that start the same download go on alike if their content formats and their running
erase works agree. -/
theorem Alike.start (version : Text) (apply : Bool) (sameFormat : left.contentFormat = right.contentFormat)
    (sameErase : left.erasing = right.erasing)
    (begunLeft : (coapStart imageVersion env { left with applyUpdate := apply } version).2 = 0)
    (begunRight : (coapStart imageVersion env { right with applyUpdate := apply } version).2 = 0) :
    Alike left.token right.token (coapStart imageVersion env { left with applyUpdate := apply } version).1
      (coapStart imageVersion env { right with applyUpdate := apply } version).1 := by
  rw [coapStart_begins version begunLeft, coapStart_begins version begunRight]
  refine ⟨right.stale, ?_, fun ended => absurd ended (by simp), fun requested => absurd requested (by simp),
    .inl ⟨rfl, rfl⟩⟩
  simp only [Client.withStale, Client.stale, sameFormat, sameErase]

/-- What two histories have to agree on, and what has to stay away, for a download to be independent
of them. -/
structure Independent (left right : Client) (labels : List Label) : Prop where
  format : left.contentFormat = right.contentFormat
  erasing : left.erasing = right.erasing
  inTime : ∀ label ∈ labels, NoLateResponse left.token right.token label

/-- The same command that starts a download, followed by the same events, writes the same bytes and
ends in the same way, if the histories before it agree on the content format and on a running erase,
and no late response to the last request before it arrives. -/
theorem download_independent (update : Update) (imageVersion version : Text) (left right : Client) (cmd : Cmd)
    (env : Env) (labels : List Label) (final : Client) (starts : cmd = .download ∨ cmd = .update)
    (begunLeft : (coapCmd imageVersion env left cmd version).2 = 0)
    (begunRight : (coapCmd imageVersion env right cmd version).2 = 0)
    (independent : Independent left right labels)
    (path : Path (Downloading update imageVersion) (coapCmd imageVersion env left cmd version).1 labels final) :
    ∃ final', Path (Downloading update imageVersion) (coapCmd imageVersion env right cmd version).1 labels final' ∧
      SameCourse final final' := by
  have alike : Alike left.token right.token (coapCmd imageVersion env left cmd version).1
      (coapCmd imageVersion env right cmd version).1 := by
    cases reboots : env.reboots with
    | true =>
      simp only [coapCmd, reboots, if_true] at begunLeft
      exact absurd begunLeft (by decide)
    | false =>
      rcases starts with rfl | rfl
      · simp only [coapCmd, reboots, Bool.false_eq_true, if_false] at begunLeft begunRight ⊢
        exact Alike.start version false independent.format independent.erasing begunLeft begunRight
      · simp only [coapCmd, reboots, Bool.false_eq_true, if_false] at begunLeft begunRight ⊢
        exact Alike.start version true independent.format independent.erasing begunLeft begunRight
  obtain ⟨final', path', same⟩ := alike.run path independent.inTime
  exact ⟨final', path', same.sameCourse⟩

/-- The first block of a download whose first request has the token 2. -/
private def firstBlock : List Label :=
  let reply : Reply :=
    { token := some 2, contentFormat := some 0, block2 := some ⟨0, true, 0⟩, payload := List.replicate 16 7 }
  [⟨.eraseBegin, {}⟩, ⟨.eraseEnd, {}⟩, ⟨.next, { nextToken := 2 }⟩, ⟨.data (some reply), {}⟩]

/-- The first download of a client and one after a canceled download write the same block. -/
theorem second_download_same_block :
    ∃ final, Path (Downloading updateDescriptiveBlock "1.0.0".toList)
        (coapCmd "1.0.0".toList { init := { area := some 1 } }
          { token := 1, mid := 5, blockContext := ⟨0, 512, 6⟩, downloadCanceled := true, cancelReason := .blockNo }
          .download "1.2.0".toList).1 firstBlock final ∧
      final.image = List.replicate 16 7 := by
  have ran : (firstBlock.foldlM (fun client label =>
      if client.download = true then step updateDescriptiveBlock "1.0.0".toList client label else none)
      (coapCmd "1.0.0".toList { init := { area := some 1 } } initial .download "1.2.0".toList).1).isSome = true := by
    decide
  obtain ⟨final, ran⟩ := Option.isSome_iff_exists.mp ran
  have image : final.image = List.replicate 16 7 := by
    have read := congrArg (Option.map Client.image) ran
    exact (Option.some.inj (by rw [Option.map_some] at read; rw [← read]; decide) :
      List.replicate 16 7 = final.image).symm
  obtain ⟨final', path, same⟩ := download_independent updateDescriptiveBlock "1.0.0".toList "1.2.0".toList initial
    { token := 1, mid := 5, blockContext := ⟨0, 512, 6⟩, downloadCanceled := true, cancelReason := .blockNo }
    .download { init := { area := some 1 } } firstBlock final (.inl rfl) (by decide) (by decide)
    ⟨rfl, rfl, by
      intro label member reply data
      simp only [firstBlock, List.mem_cons, List.not_mem_nil, or_false] at member
      rcases member with rfl | rfl | rfl | rfl
      · simp at data
      · simp at data
      · simp at data
      · obtain rfl := Option.some.inj (Event.data.inj data)
        decide⟩
    (Path.guarded_of_foldlM ran)
  exact ⟨final', path, same.image ▸ image⟩

/-- A first download that is answered with the content format 42, and whose image has another version. -/
private def otherFormat : List Label :=
  started "1.1.0".toList 1 ++ [⟨.data (some { token := some 1, contentFormat := some 42 }), {}⟩]

private def secondDownload : List Label :=
  ⟨.cmd .download "1.2.0".toList, { init := { area := some 1 } }⟩ :: firstBlock

/-- After a download of another content format, the first block cancels the next download. -/
theorem content_format_cancels_next :
    ((otherFormat.foldlM (step updateDescriptiveBlock "1.0.0".toList) initial).map Client.download = some false) ∧
      ((secondDownload.foldlM (step updateDescriptiveBlock "1.0.0".toList) initial).map
        fun client => (client.download, client.image)) = some (true, List.replicate 16 7) ∧
      (((otherFormat ++ secondDownload).foldlM (step updateDescriptiveBlock "1.0.0".toList) initial).map
        fun client => (client.download, client.cancelReason, client.image)) = some (false, .changed, []) := by
  decide

end CoapsClient.ApplUpdate
