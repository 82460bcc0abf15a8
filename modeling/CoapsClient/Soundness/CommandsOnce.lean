import CoapsClient.Machine.Episode
import CoapsClient.Machine.Path
import CoapsClient.Model.Dtls.Steps

/-! # Commands of a response run at most once

The token of a request names it, because `coap_client_next_token` counts. `coap_appl_client_parse_data`
appends the commands of every response with the token of the last request; whether a request is still
pending is checked behind it. The commands run once as long as they come with the first response.
-/

namespace CoapsClient.DtlsClient

open Machine

/-- The application client prepares a request. -/
def Mark.posts : Mark → Bool
  | .post _ => true
  | _ => false

/-- Commands of the response to a request are appended. -/
def Mark.runs (token : ℕ) : Mark → Bool
  | .commands answered _ => answered == token
  | _ => false

/-- The commands of the response to every request are appended at most once. -/
def Client.CommandsOnce (client : Client) : Prop := ∀ token, client.marks.countP (Mark.runs token) ≤ 1

/-- The message is a response of the application client with commands. -/
def Client.commandedBy (client : Client) (message : Message) : Bool :=
  client.handler == .appl &&
    !(applParseData client.applMid client.applToken message.ack message.packet).2.isEmpty

/-- A response with commands finds a request that was not answered. -/
def FirstAnswer (client : Client) : Callback → Prop
  | .read message =>
      client.commandedBy message → .response client.applToken ∉ since Mark.posts client.marks
  | _ => True

instance (client : Client) (call : Callback) : Decidable (FirstAnswer client call) :=
  match call with
  | .read _ => inferInstanceAs (Decidable (_ → _))
  | .write _ => isTrue trivial
  | .alert => isTrue trivial
  | .connect => isTrue trivial
  | .connected => isTrue trivial

/-- Every response with commands that is polled finds a request that was not answered. -/
def FirstAnswers (config : Config) (env : Env) (client : Client) : Poll → Prop
  | .data datagram => Receives config env FirstAnswer client datagram
  | _ => True

instance (config : Config) (env : Env) (client : Client) (poll : Poll) :
    Decidable (FirstAnswers config env client poll) :=
  match poll with
  | .data datagram => inferInstanceAs (Decidable (Receives config env FirstAnswer client datagram))
  | .error => isTrue trivial
  | .timeout => isTrue trivial
  | .second => isTrue trivial
  | .socket _ => isTrue trivial

/-- No response with commands comes behind another response to the same request. -/
def AnswersOnce (config : Config) (client : Client) (label : Label) : Prop :=
  label.event = .loop → client.place = .poll → FirstAnswers config label.env client label.env.poll

instance (config : Config) (client : Client) (label : Label) : Decidable (AnswersOnce config client label) :=
  inferInstanceAs (Decidable (_ → _ → _))

/-- The value is one of the first tokens that were drawn. -/
def Drawn (token draws value : ℕ) : Prop := ∃ index < draws, value = (token + index) % 4294967296

/-- What the record says about the tokens. It is enough for a counter that has not come round. -/
structure Client.Answers (token : ℕ) (client : Client) : Prop where
  factory : client.tokenFactory = (token + client.draws) % 4294967296
  current : client.handler = .appl → Drawn token client.draws client.applToken
  drawn : ∀ answered, .response answered ∈ client.marks → Drawn token client.draws answered
  recent : client.draws ≤ 4294967296 → .response client.applToken ∈ client.marks →
    .response client.applToken ∈ since Mark.posts client.marks
  answered : ∀ token commands, .commands token commands ∈ client.marks → .response token ∈ client.marks
  once : client.draws ≤ 4294967296 → client.CommandsOnce

theorem Drawn.mono {token draws value more : ℕ} (drawn : Drawn token draws value) (later : draws ≤ more) :
    Drawn token more value := by
  obtain ⟨index, before, same⟩ := drawn
  exact ⟨index, before.trans_le later, same⟩

/-- A counter that has not come round draws a new token. -/
private theorem not_drawn {token draws : ℕ} (few : draws < 4294967296) :
    ¬ Drawn token draws ((token + draws) % 4294967296) := by
  rintro ⟨index, before, same⟩
  omega

namespace Client.Answers

variable {token : ℕ} {config : Config} {env : Env} {client next : Client}

/-- The fields that decide about the commands of a response. -/
private theorem of_fields (answers : client.Answers token) (marks : next.marks = client.marks)
    (handler : next.handler = client.handler ∨ next.handler ≠ .appl)
    (applToken : next.applToken = client.applToken) (factory : next.tokenFactory = client.tokenFactory)
    (draws : next.draws = client.draws) : next.Answers token where
  factory := by
    rw [factory, draws]
    exact answers.factory
  current := fun appl => by
    rw [draws, applToken]
    exact answers.current (handler.elim (fun same => same ▸ appl) fun other => absurd appl other)
  drawn := by
    rw [marks, draws]
    exact answers.drawn
  recent := by
    rw [marks, draws, applToken]
    exact answers.recent
  answered := by
    rw [marks]
    exact answers.answered
  once := by
    unfold Client.CommandsOnce
    rw [marks, draws]
    exact answers.once

theorem of_frame (answers : client.Answers token) (same : next.frame = client.frame) :
    next.Answers token :=
  answers.of_fields (congrArg Frame.marks same) (.inl (congrArg Frame.handler same))
    (congrArg Frame.applToken same) (congrArg Frame.tokenFactory same) (congrArg Frame.draws same)

private theorem of_core (answers : client.Answers token) (same : next.core = client.core) : next.Answers token :=
  answers.of_fields (congrArg Core.marks same) (.inl (congrArg Core.handler same))
    (congrArg Core.applToken same) (congrArg Core.tokenFactory same) (congrArg Core.draws same)

/-- A mark that belongs to no request of the application client. -/
theorem mark (answers : client.Answers token) {mark : Mark}
    (plain : mark ∈ [.start, .success, .failure, .cancel, .incoming]) : (client.mark mark).Answers token := by
  have posts : mark.posts = false := by
    cases mark <;> simp at plain <;> rfl
  have response : ∀ answered, .response answered ∈ client.marks ++ [mark] ↔
      .response answered ∈ client.marks := by
    intro answered
    cases mark <;> simp at plain <;> simp
  have commands : ∀ answered commands, .commands answered commands ∈ client.marks ++ [mark] ↔
      .commands answered commands ∈ client.marks := by
    intro answered commands
    cases mark <;> simp at plain <;> simp
  have count : ∀ answered, (client.marks ++ [mark]).countP (Mark.runs answered) =
      client.marks.countP (Mark.runs answered) := by
    intro answered
    rw [List.countP_append]
    cases mark <;> simp at plain <;> simp [Mark.runs]
  exact {
    factory := answers.factory
    current := answers.current
    drawn := fun answered member => answers.drawn answered ((response answered).mp member)
    recent := fun few member => by
      change .response client.applToken ∈ since Mark.posts (client.marks ++ [mark])
      rw [since_snoc posts]
      exact List.mem_append_left _ (answers.recent few ((response _).mp member))
    answered := fun answered list member =>
      (response answered).mpr (answers.answered answered list ((commands answered list).mp member))
    once := fun few answered => (count answered).trans_le (answers.once few answered) }

theorem nextToken (answers : client.Answers token) : (nextToken client).Answers token where
  factory := by
    change (client.tokenFactory + 1) % 4294967296 = (token + (client.draws + 1)) % 4294967296
    rw [answers.factory]
    omega
  current := fun appl => (answers.current appl).mono (Nat.le_succ _)
  drawn := fun answered member => (answers.drawn answered member).mono (Nat.le_succ _)
  recent := fun few => answers.recent (Nat.le_of_succ_le few)
  answered := answers.answered
  once := fun few => answers.once (Nat.le_of_succ_le few)

/-- A new request has a token that was not answered. -/
theorem applRequest (answers : client.Answers token) : (applRequest env client).Answers token where
  factory := answers.nextToken.factory
  current := fun _ => ⟨client.draws, Nat.lt_succ_self _, answers.factory⟩
  drawn := fun answered member => by
    have earlier : .response answered ∈ client.marks := by
      simpa [DtlsClient.applRequest, DtlsClient.nextToken, Client.mark] using member
    exact (answers.drawn answered earlier).mono (Nat.le_succ _)
  recent := fun few member => by
    have earlier : .response client.tokenFactory ∈ client.marks := by
      simpa [DtlsClient.applRequest, DtlsClient.nextToken, Client.mark] using member
    exact absurd (answers.factory ▸ answers.drawn _ earlier) (not_drawn few)
  answered := fun answered commands member => by
    have earlier : .commands answered commands ∈ client.marks := by
      simpa [DtlsClient.applRequest, DtlsClient.nextToken, Client.mark] using member
    exact List.mem_append_left _ (answers.answered answered commands earlier)
  once := fun few answered => by
    change (client.marks ++ [Mark.post client.tokenFactory]).countP (Mark.runs answered) ≤ 1
    rw [List.countP_append]
    exact answers.once (Nat.le_of_succ_le few) answered

/-- The application client takes a message for a response. -/
theorem response (answers : client.Answers token) (appl : client.handler = .appl) :
    (client.mark (.response client.applToken)).Answers token where
  factory := answers.factory
  current := answers.current
  drawn := fun answered member => by
    rcases List.mem_append.mp member with earlier | last
    · exact answers.drawn answered earlier
    · obtain rfl : answered = client.applToken := by simpa using last
      exact answers.current appl
  recent := fun _ _ => by
    change .response client.applToken ∈ since Mark.posts (client.marks ++ [.response client.applToken])
    rw [since_snoc rfl]
    simp
  answered := fun answered commands member => by
    have earlier : .commands answered commands ∈ client.marks := by simpa [Client.mark] using member
    exact List.mem_append_left _ (answers.answered answered commands earlier)
  once := fun few answered => by
    change (client.marks ++ [Mark.response client.applToken]).countP (Mark.runs answered) ≤ 1
    rw [List.countP_append]
    exact answers.once few answered

/-- The commands of a response to a request that has none. -/
theorem commands (answers : client.Answers token) {commands : List Command}
    (responded : .response client.applToken ∈ client.marks)
    (first : client.draws ≤ 4294967296 → client.marks.countP (Mark.runs client.applToken) = 0) :
    (client.mark (.commands client.applToken commands)).Answers token where
  factory := answers.factory
  current := answers.current
  drawn := fun answered member => answers.drawn answered (by simpa [Client.mark] using member)
  recent := fun few _ => by
    change .response client.applToken ∈
      since Mark.posts (client.marks ++ [.commands client.applToken commands])
    rw [since_snoc rfl]
    exact List.mem_append_left _ (answers.recent few responded)
  answered := fun answered list member => by
    rcases List.mem_append.mp member with earlier | last
    · exact List.mem_append_left _ (answers.answered answered list earlier)
    · obtain ⟨rfl, -⟩ : answered = client.applToken ∧ list = commands := by simpa using last
      exact List.mem_append_left _ responded
  once := fun few answered => by
    change (client.marks ++ [Mark.commands client.applToken commands]).countP (Mark.runs answered) ≤ 1
    rw [List.countP_append]
    by_cases current : client.applToken = answered
    · subst current
      simp [first few, Mark.runs]
    · simpa [Mark.runs, current] using answers.once few answered

/-- A request without a response has run no commands. -/
private theorem countP_eq_zero (answers : client.Answers token) {request : ℕ}
    (unanswered : .response request ∉ client.marks) : client.marks.countP (Mark.runs request) = 0 := by
  rw [List.countP_eq_zero]
  intro mark member runs
  cases mark with
  | commands answered list =>
    obtain rfl : answered = request := by simpa [Mark.runs] using runs
    exact unanswered (answers.answered answered list member)
  | _ => simp [Mark.runs] at runs

/-- Commands are appended with a response only. -/
private theorem commands_eq_nil (mid applToken : ℕ) (ack : Bool) (packet : Option Response)
    (other : ((applParseData mid applToken ack packet).1.map ApplUpdate.ParseResult.isResponse).getD false =
      false) : (applParseData mid applToken ack packet).2 = [] := by
  cases packet with
  | none => rfl
  | some reply =>
    unfold applParseData at other ⊢
    dsimp only at other ⊢
    generalize ApplUpdate.coapClientMatch reply.toReply mid applToken = result at other ⊢
    cases result with
    | response => simp [ApplUpdate.ParseResult.isResponse, prepareAck] at other
    | conResponse => cases ack <;> simp [ApplUpdate.ParseResult.isResponse, prepareAck] at other
    | _ => rfl

theorem parseData (answers : client.Answers token) {message : Message}
    (first : FirstAnswer client (.read message)) : (parseData client message).1.Answers token := by
  unfold DtlsClient.parseData
  cases appl : client.handler with
  | appl =>
    have nothing := commands_eq_nil client.applMid client.applToken message.ack message.packet
    simp only [FirstAnswer, Client.commandedBy, appl] at first
    dsimp only
    generalize applParseData client.applMid client.applToken message.ack message.packet = result
      at nothing first ⊢
    cases answered : (result.1.map ApplUpdate.ParseResult.isResponse).getD false with
    | false =>
      rw [nothing answered]
      exact answers
    | true =>
      have responded := answers.response appl
      rw [if_pos rfl]
      split
      · exact responded
      · rename_i some
        refine responded.commands (by simp [Client.mark]) fun few => ?_
        have unanswered : .response client.applToken ∉ client.marks := fun member =>
          first (by simp [some]) (answers.recent few member)
        change (client.marks ++ [Mark.response client.applToken]).countP (Mark.runs client.applToken) = 0
        rw [List.countP_append, answers.countP_eq_zero unanswered]
        rfl
  | _ => exact answers

private theorem of_steady (answers : client.Answers token) (same : next.steady = client.steady) :
    next.Answers token :=
  answers.of_fields (congrArg Steady.marks same) (.inl (congrArg Steady.handler same))
    (congrArg Steady.applToken same) (congrArg Steady.tokenFactory same) (congrArg Steady.draws same)

end Client.Answers

private theorem closed_answers (config : Config) (env : Env) (token : ℕ) :
    Closed config env (Client.Answers token) where
  core := fun same answers => answers.of_core same
  success := fun answers => (answers.mark (by simp)).of_steady coapSuccess_steady
  failure := fun answers => (answers.mark (by simp)).of_steady coapFailure_steady
  mark := fun plain answers => answers.mark (by simp at plain ⊢; tauto)
  trigger := fun answers => answers.of_frame (dtlsTrigger_frame true).1
  token := fun answers => answers.nextToken
  handler := fun other answers => answers.of_fields rfl (.inr other) rfl rfl rfl

section Steps

variable {token : ℕ} {config : Config} {env : Env} {client next : Client} {label : Label}

private theorem loopTaken_answers (answers : client.Answers token) : (loopTaken config env client).Answers token := by
  have closed := closed_answers config env token
  unfold loopTaken
  split
  · split
    · exact answers.of_core rfl
    · have cleared : Client.Answers token { client with triggerSend := false, loops := 0 } :=
        answers.of_steady rfl
      have started : (setRequestState config env (Client.mark { client with
          triggerSend := false, loops := 0 } .start) .send).Answers token :=
        closed.setRequestState .send (closed.mark (by simp) cleared)
      exact started.of_steady rfl
  · exact answers.of_core rfl

private theorem loop_answers (answers : client.Answers token)
    (first : client.place = .poll → FirstAnswers config env client env.poll) :
    (loop config env client).Answers token := by
  have closed := closed_answers config env token
  by_cases triggers : client.place ∈ [.nop, .rateLimit, .setup, .wait, .taken]
  · cases place : client.place <;> simp [place] at triggers <;> simp only [loop, place]
    · unfold loopNop
      split <;> exact answers.of_steady rfl
    · unfold loopRateLimit
      repeat' split
      all_goals exact answers.of_steady rfl
    · unfold loopSetup dtlsTrigger
      dsimp only
      repeat' split
      all_goals exact answers.of_steady rfl
    · unfold loopWait
      split <;> exact answers.of_steady rfl
    · exact loopTaken_answers answers
  · refine closed.loop (fun _ _ meets answers => answers.parseData meets) ?_
      (fun answers => answers.applRequest) triggers answers
    intro place datagram polled
    have received := first place
    rw [polled] at received
    exact received

private theorem step_answers (answers : client.Answers token) (first : AnswersOnce config client label)
    (moved : Step config client label next) : next.Answers token := by
  by_cases event : label.event = .loop
  · have result : loop config label.env client = next := by simpa [Step, step, event] using moved
    subst result
    exact loop_answers answers (first event)
  · exact answers.of_frame (thread_frame event moved).1

end Steps

/-- A run in which every response with commands is the first one to its request appends the commands of
every request at most once, until the tokens repeat. -/
theorem commands_run_once (config : Config) (token interval : ℕ) {labels : List Label} {client : Client}
    (run : Path (guarded (Step config) (AnswersOnce config)) (initial config token interval) labels client)
    (few : client.draws ≤ 4294967296) : client.CommandsOnce := by
  have answers : client.Answers token := by
    refine run.invariant (Client.Answers token)
      (fun _ _ _ answers moved => step_answers answers moved.1 moved.2) ?_
    exact {
      factory := rfl
      current := by simp [initial]
      drawn := by simp [initial]
      recent := by simp [initial]
      answered := by simp [initial]
      once := by simp [initial, Client.CommandsOnce] }
  exact answers.once few

/-- A response with a command. -/
private def rebootResponse : Message :=
  { packet := some {
      type := .con
      code := ApplUpdate.codeContent
      token := some 7
      contentFormat := some 0
      payload := "cmd reboot".toList.map fun char => UInt8.ofNat char.toNat } }

/-- The initial request is answered. -/
private def commanded : List Label := initialRequest ++ receiving rebootResponse

/-- The command of the response to the initial request is appended, and no other. -/
theorem answered_request_runs_once :
    ∃ client, Path (guarded (Step {}) (AnswersOnce {})) (initial {} 7 600) commanded client ∧
      client.draws ≤ 4294967296 ∧ client.marks.countP (Mark.runs 7) = 1 ∧ client.CommandsOnce := by
  have ends : (commanded.foldlM (fun client label =>
      if AnswersOnce {} client label then step {} client label else none) (initial {} 7 600)).map
      (fun client => (client.draws, client.marks.countP (Mark.runs 7))) = some (1, 1) := by
    decide +kernel
  obtain ⟨client, ran, shown⟩ := Option.map_eq_some_iff.mp ends
  obtain ⟨draws, runs⟩ := Prod.mk.injEq .. ▸ shown
  have path := Path.guarded_of_foldlM ran
  have few : client.draws ≤ 4294967296 := by omega
  exact ⟨client, path, few, runs, commands_run_once {} 7 600 path few⟩

/-- The response is delivered a second time. -/
private def commandedTwice : List Label := commanded ++ receiving rebootResponse

/-- The second copy of the response appends its command again. -/
theorem duplicate_response_runs_twice :
    ∃ client, Path (Step {}) (initial {} 7 600) commandedTwice client ∧ client.draws = 1 ∧
      ¬ client.CommandsOnce := by
  have ends : (commandedTwice.foldlM (step {}) (initial {} 7 600)).map
      (fun client => (client.draws, client.marks.countP (Mark.runs 7))) = some (1, 2) := by
    decide +kernel
  obtain ⟨client, ran, shown⟩ := Option.map_eq_some_iff.mp ends
  obtain ⟨draws, runs⟩ := Prod.mk.injEq .. ▸ shown
  refine ⟨client, Path.of_foldlM ran, draws, fun once => ?_⟩
  have bounded := once 7
  omega

end CoapsClient.DtlsClient
