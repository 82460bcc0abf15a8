import CoapsClient.Machine.Episode
import CoapsClient.Machine.Path
import CoapsClient.Soundness.RequestRun

/-! # A request completes at most once, and a cancelled one ends silently

Between two starts of a request, `dtls_coap_success` and `dtls_coap_failure` run at most once together,
as long as the peer is orderly. A response that is delivered twice is not: in `WAIT_SUSPEND` the loop
acknowledges it again, and completes the request a second time behind the ACK.

`sendto_peer` sets `WAIT_SUSPEND` when the handler has no message, and goes on with its common end. That
end sets `RECEIVE` if the network is connected: the request that is over waits for a response, and fails
after its retransmissions. It stays silent while the network is disconnected.
-/

namespace CoapsClient.DtlsClient

open Machine

/-- Every request completes at most once. -/
def Client.CompletesOnce (client : Client) : Prop := AtMostOnce Mark.starts Mark.completes client.marks

/-- The ledger of the completions: only a request that was not completed before may be completed. -/
def completions : Ledger where
  good := AtMostOnce Mark.starts Mark.completes
  ready marks := (since Mark.starts marks).countP Mark.completes = 0
  resumes := true
  good_snoc := by
    intro marks mark once ready
    refine once.snoc ?_
    cases starts : mark.starts with
    | true =>
      rw [since_snoc_of_opens starts]
      simp
    | false =>
      rw [since_snoc starts, List.countP_append]
      cases completes : mark.completes with
      | true => simp [completes, ready completes]
      | false => simpa [completes] using once.since_le
  ready_start := by
    intro marks
    rw [since_snoc_of_opens rfl]
    rfl
  ready_snoc := by
    intro marks mark ready plain _
    cases starts : mark.starts with
    | true =>
      rw [since_snoc_of_opens starts]
      rfl
    | false =>
      rw [since_snoc starts, List.countP_append, ready]
      simp [plain]

/-- A run in which no peer completes a request that is over completes every request at most once. -/
theorem request_completes_once (config : Config) (token interval : ℕ) {labels : List Label} {client : Client}
    (run : Path (guarded (Step config) (Orderly config)) (initial config token interval) labels client) :
    client.CompletesOnce := by
  have kept : client.Kept completions :=
    run.invariant (Client.Kept completions)
      (fun _ _ _ kept moved => kept.step moved.2 moved.1 (by simp [completions]) (by simp [completions]))
      (initial_kept AtMostOnce.nil config token interval)
  exact kept.disciplined.good

/-- A response that asks for an ACK. -/
private def conResponse : Message := { packet := some { type := .con, token := some 7 } }

/-- The initial request is answered. -/
private def answered : List Label := initialRequest ++ receiving conResponse

/-- The response completes the initial request, and the run goes on in order. -/
theorem answered_request_completes_once :
    ∃ client, Path (guarded (Step {}) (Orderly {})) (initial {} 7 600) answered client ∧
      .success ∈ client.marks ∧ client.CompletesOnce := by
  have ends : (answered.foldlM (fun client label =>
      if Orderly {} client label then step {} client label else none) (initial {} 7 600)).map
      (fun client => decide (.success ∈ client.marks)) = some true := by
    decide +kernel
  obtain ⟨client, ran, shown⟩ := Option.map_eq_some_iff.mp ends
  have path := Path.guarded_of_foldlM ran
  exact ⟨client, path, of_decide_eq_true shown, request_completes_once {} 7 600 path⟩

/-- The response is delivered a second time. -/
private def answeredTwice : List Label := answered ++ receiving conResponse

/-- The second copy of the response completes the request again. -/
theorem duplicate_response_completes_twice :
    ∃ client, Path (Step {}) (initial {} 7 600) answeredTwice client ∧ ¬ client.CompletesOnce := by
  have ends : (answeredTwice.foldlM (step {}) (initial {} 7 600)).map Client.marks =
      some [.start, .post 7, .response 7, .success, .response 7, .success] := by
    decide +kernel
  obtain ⟨client, ran, marks⟩ := Option.map_eq_some_iff.mp ends
  refine ⟨client, Path.of_foldlM ran, fun once => ?_⟩
  unfold Client.CompletesOnce at once
  rw [marks] at once
  have bounded := once [.start] [.post 7, .response 7, .success, .response 7, .success] [] rfl
    (by simp [Mark.starts])
  exact absurd bounded (by decide)

/-- A request that was cancelled is neither pending nor completed until the next one starts. -/
def Client.EndsSilently (client : Client) : Prop :=
  ∀ before after, client.marks = before ++ .cancel :: after → .start ∉ after →
    (client.requestState = .none ∨ client.requestState = .waitSuspend) ∧
      .failure ∉ after ∧ .success ∉ after

/-- The network is disconnected when a request is cancelled, and no incoming connection follows it. -/
def Silent (client : Client) (label : Label) : Prop :=
  label.event = .loop →
    (label.env.sending.messageLen = 0 → client.lteConnected = false) ∧
    (client.place = .select → client.lteIncomingData = true → .cancel ∉ since Mark.starts client.marks)

instance (client : Client) (label : Label) : Decidable (Silent client label) :=
  inferInstanceAs (Decidable (_ → _ ∧ (_ → _ → _)))

/-- The cancelled request is part of the current episode. -/
private theorem cancel_mem_since {marks before after : List Mark} (same : marks = before ++ .cancel :: after)
    (current : .start ∉ after) : .cancel ∈ since Mark.starts marks := by
  have kept : ∀ mark ∈ Mark.cancel :: after, mark.starts = false := by
    intro mark member
    cases mark with
    | start => simp [current] at member
    | _ => rfl
  rw [same]
  exact (suffix_since kept).subset (by simp)

/-- The ledger of the cancelled requests: they are not completed, and do not go on. -/
def cancellations : Ledger where
  good marks := ∀ before after, marks = before ++ .cancel :: after → .start ∉ after →
    ∀ mark ∈ after, mark.completes = false
  ready marks := .cancel ∉ since Mark.starts marks
  resumes := false
  good_snoc := by
    intro marks last good ready before after same current mark member
    rcases List.eq_nil_or_concat after with rfl | ⟨front, other, rfl⟩
    · simp at member
    · rw [List.concat_eq_append, ← List.cons_append, ← List.append_assoc] at same
      obtain ⟨shorter, tail⟩ := List.append_inj' same rfl
      obtain rfl := List.singleton_inj.mp tail
      rw [List.concat_eq_append, List.mem_append, not_or] at current
      rw [List.concat_eq_append, List.mem_append, List.mem_singleton] at member
      rcases member with earlier | rfl
      · exact good before front shorter current.1 mark earlier
      · by_contra completes
        exact ready (by simpa using completes) (cancel_mem_since shorter current.1)
  ready_start := by
    intro marks
    rw [since_snoc_of_opens rfl]
    simp
  ready_snoc := by
    intro marks mark ready plain cancelled
    cases starts : mark.starts with
    | true =>
      rw [since_snoc_of_opens starts]
      simp
    | false =>
      rw [since_snoc starts, List.mem_append, not_or]
      refine ⟨ready, fun member => ?_⟩
      rw [List.mem_singleton] at member
      exact absurd (cancelled member.symm) (by simp)

/-- A client that keeps the ledger leaves its cancelled requests alone. -/
theorem Disciplined.endsSilently {client : Client} (kept : Disciplined cancellations false client) :
    client.EndsSilently := by
  intro before after same current
  have cancelled : .cancel ∈ since Mark.starts client.marks := cancel_mem_since same current
  have uncompleted := kept.good before after same current
  refine ⟨?_, fun member => absurd (uncompleted _ member) (by simp [Mark.completes]),
    fun member => absurd (uncompleted _ member) (by simp [Mark.completes])⟩
  have idle : client.requestState.pending ≠ true := fun pending => kept.ready pending cancelled
  have unexpected : client.requestState ≠ .incomingData := fun expected =>
    kept.incoming expected rfl cancelled
  cases state : client.requestState <;> simp_all [RequestState.pending]

/-- A run in which requests are cancelled only while the network is disconnected, and that completes no
request that is over, leaves every cancelled request alone. -/
theorem cancelled_request_ends (config : Config) (token interval : ℕ) {labels : List Label} {client : Client}
    (run : Path (guarded (Step config) fun client label => Orderly config client label ∧ Silent client label)
      (initial config token interval) labels client) :
    client.EndsSilently := by
  have kept : client.Kept cancellations :=
    run.invariant (Client.Kept cancellations)
      (fun _ _ _ kept moved => kept.step moved.2 moved.1.1 (fun _ event => (moved.1.2 event).1)
        (fun _ event => (moved.1.2 event).2))
      (initial_kept (by simp [cancellations]) config token interval)
  exact kept.disciplined.endsSilently

/-- A section of the loop during a download. -/
private def downloading (count : ℕ) : List Label :=
  List.replicate count { env := { updatePending := true, updatePendingNext := true } }

/-- A response that asks for an ACK. -/
private def acknowledged (token : ℕ) : Message := { packet := some { type := .con, token := some token } }

/-- The initial request and the status message of a download are answered, and the first request of the
download is sent. -/
private def downloadStarted : List Label :=
  initialRequest ++ receiving (acknowledged 7) ++ turns 7 ++
    [{ env := { updatePending := true } }] ++ downloading 15 ++
    [{ env := {
      updatePending := true
      updatePendingNext := true
      poll := .data (some { message := acknowledged 8 }) } }] ++ downloading 9

/-- The download is cancelled before the first retransmission. -/
private def downloadCancelled : Label := { env := { sending := { messageLen := 0 } } }

private def cancelledOffline : List Label :=
  downloadStarted ++ [⟨.lte .connected false, {}⟩] ++ downloading 69 ++ [downloadCancelled]

/-- A download that is cancelled while the network is disconnected stays in `WAIT_SUSPEND`. -/
theorem cancelled_offline_ends :
    ∃ client, Path (guarded (Step {}) fun client label => Orderly {} client label ∧ Silent client label)
      (initial {} 7 600) cancelledOffline client ∧ .cancel ∈ client.marks ∧ client.EndsSilently := by
  have ends : (cancelledOffline.foldlM (fun client label =>
      if Orderly {} client label ∧ Silent client label then step {} client label else none)
      (initial {} 7 600)).map (fun client => decide (.cancel ∈ client.marks)) = some true := by
    decide +kernel
  obtain ⟨client, ran, shown⟩ := Option.map_eq_some_iff.mp ends
  have path := Path.guarded_of_foldlM ran
  exact ⟨client, path, of_decide_eq_true shown, cancelled_request_ends {} 7 600 path⟩

private def cancelledOnline : List Label := downloadStarted ++ downloading 39 ++ [downloadCancelled]

/-- A download that is cancelled while the network is connected waits for a response. -/
theorem cancelled_online_waits :
    ∃ client, Path (Step {}) (initial {} 7 600) cancelledOnline client ∧ ¬ client.EndsSilently := by
  have ends : (cancelledOnline.foldlM (step {}) (initial {} 7 600)).map
      (fun client => (client.marks, client.requestState)) =
      some ([.start, .post 7, .response 7, .success, .start, .post 8, .response 8, .success, .start,
        .cancel], .receive) := by
    decide +kernel
  obtain ⟨client, ran, shown⟩ := Option.map_eq_some_iff.mp ends
  obtain ⟨marks, state⟩ := Prod.mk.injEq .. ▸ shown
  refine ⟨client, Path.of_foldlM ran, fun silent => ?_⟩
  have idle := silent [.start, .post 7, .response 7, .success, .start, .post 8, .response 8, .success,
    .start] [] marks (by simp)
  simp [state] at idle

end CoapsClient.DtlsClient
