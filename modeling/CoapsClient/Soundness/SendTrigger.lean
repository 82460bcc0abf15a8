import CoapsClient.Soundness.PeriodicSending

/-! # A trigger that asks for a message

`dtls_trigger` keeps one bit for what it was asked for last. A trigger with a message sets
`TRIGGER_SEND`, the loop takes it to start a request, and the branch for a modem that is off puts it
back. Any trigger without a message clears it, so a connection that comes in between the trigger and
the loop takes the message away.
-/

namespace CoapsClient.DtlsClient

open Machine

/-- A request is started or completed. -/
def Mark.consumes : Mark → Bool
  | .start => true
  | .success => true
  | .failure => true
  | _ => false

/-- `TRIGGER_SEND` is set, or a request was started or completed behind the given record. -/
def Client.AsksSince (record : List Mark) (client : Client) : Prop :=
  client.triggerSend = true ∨ ∃ mark ∈ client.marks.drop record.length, mark.consumes = true

/-- A trigger without a message has an effect in this step. -/
def revokesSend (client : Client) (label : Label) : Bool :=
  match label.event with
  | .loop => false
  | _ => drops client label

/-- The step does not take a message away that was asked for. -/
def SparesSend (client : Client) (label : Label) : Prop := ¬ (client.triggerSend ∧ revokesSend client label)

instance (client : Client) (label : Label) : Decidable (SparesSend client label) :=
  inferInstanceAs (Decidable (¬ _))

/-- The same with the record as a part of the marks. -/
def Client.Asks (record : List Mark) (client : Client) : Prop :=
  ∃ added, client.marks = record ++ added ∧ (client.triggerSend = true ∨ ∃ mark ∈ added, mark.consumes = true)

section Requests

variable {config : Config} {env : Env} {client next : Client} {record : List Mark}

theorem Client.Asks.since (asks : client.Asks record) : client.AsksSince record := by
  obtain ⟨added, marks, asks⟩ := asks
  rw [Client.AsksSince, marks, List.drop_left]
  exact asks

/-- More marks change nothing as long as the trigger stays. -/
theorem Client.Asks.more {added : List Mark} (asks : client.Asks record)
    (marks : next.marks = client.marks ++ added)
    (send : client.triggerSend = true → next.triggerSend = true) :
    next.Asks record := by
  obtain ⟨before, same, asks⟩ := asks
  refine ⟨before ++ added, by rw [marks, same, List.append_assoc], ?_⟩
  rcases asks with set | ⟨mark, found, consumes⟩
  · exact .inl (send set)
  · exact .inr ⟨mark, List.mem_append_left added found, consumes⟩

theorem Client.Asks.same (asks : client.Asks record) (marks : next.marks = client.marks)
    (send : client.triggerSend = true → next.triggerSend = true) : next.Asks record :=
  asks.more (marks.trans (List.append_nil _).symm) send

/-- A request that is started or completed needs no trigger any more. -/
theorem Client.Asks.consumed (mark : Mark) (asks : client.Asks record) (consumes : mark.consumes = true)
    (marks : next.marks = client.marks ++ [mark]) : next.Asks record := by
  obtain ⟨before, same, _⟩ := asks
  refine ⟨before ++ [mark], by rw [marks, same, List.append_assoc], .inr ⟨mark, ?_, consumes⟩⟩
  exact List.mem_append_right before (List.mem_singleton_self mark)

private theorem dtlsTrigger_asks (asks : client.Asks record) : (dtlsTrigger client true).Asks record := by
  refine asks.same ?_ ?_
  · exact congrArg Frame.marks (dtlsTrigger_frame true).1
  · intro set
    simp only [dtlsTrigger]
    split
    · exact set
    · split
      · exact set
      · rfl

/-- Completing, sending and receiving leave the trigger. -/
private theorem closed_asks (config : Config) (env : Env) (record : List Mark) :
    Closed config env (Client.Asks record) where
  core := fun same asks => asks.same (congrArg Core.marks same) fun set =>
    (congrArg Core.triggerSend same).trans set
  success := fun asks => asks.consumed .success rfl (congrArg Steady.marks coapSuccess_steady)
  failure := fun asks => asks.consumed .failure rfl (congrArg Steady.marks coapFailure_steady)
  mark := fun _ asks => asks.more rfl id
  trigger := dtlsTrigger_asks
  token := fun asks => asks.same rfl id
  handler := fun _ asks => asks.same rfl id

private theorem parseData_asks (message : Message) (asks : client.Asks record) :
    (parseData client message).1.Asks record := by
  have marked {client : Client} (mark : Mark) (asks : client.Asks record) : (client.mark mark).Asks record :=
    asks.more rfl id
  simp only [parseData]
  split
  · split <;> split
    · exact marked _ asks
    · exact asks
    · exact marked _ (marked _ asks)
    · exact marked _ asks
  · exact asks

/-- Every section of the loop keeps the trigger or starts a request. -/
private theorem loop_asks (asks : client.Asks record) : (loop config env client).Asks record := by
  have closed := closed_asks config env record
  by_cases plain : client.place ∉ [.nop, .rateLimit, .setup, .wait, .taken]
  · have anything : ∀ datagram, env.poll = .data datagram →
        Receives config env (fun _ _ => True) client datagram :=
      fun datagram _ => Receives.of_forall (fun _ _ => trivial) client datagram
    exact closed.loop (fun _ message _ asks => parseData_asks message asks) (fun _ => anything)
      (fun asks => asks.more rfl id) plain asks
  · simp only [List.mem_cons, List.not_mem_nil, or_false, not_not] at plain
    simp only [loop]
    rcases plain with place | place | place | place | place <;> rw [place]
    · simp only [loopNop]
      split <;> exact asks.same rfl id
    · simp only [loopRateLimit]
      split
      · split
        · split <;> exact asks.same rfl id
        · exact asks.same rfl id
      · exact asks.same rfl id
    · have reset : Client.Asks record { client with triggerMsg := false } := asks.same rfl id
      simp only [loopSetup]
      split
      · exact (dtlsTrigger_asks reset).same rfl id
      · exact asks.same rfl id
    · simp only [loopWait]
      split <;> exact asks.same rfl id
    · simp only [loopTaken]
      split
      · split
        · exact asks.same rfl id
        · -- the trigger is taken with the mark of the start
          have started : Client.Asks record
              (Client.mark { client with triggerSend := false, loops := 0 } .start) :=
            asks.consumed .start rfl rfl
          exact (closed.setRequestState .send started).same rfl id
      · exact asks.same rfl id

end Requests

section Threads

variable {config : Config} {env : Env} {client next : Client} {label : Label}

/-- Only a trigger without a message clears the bit. -/
private theorem dtlsTrigger_send (send : Bool) (spared : ¬ (client.triggerSend ∧ send = false ∧ client.revokes))
    (set : client.triggerSend = true) : (dtlsTrigger client send).triggerSend = true := by
  simp only [dtlsTrigger]
  split
  · exact set
  · next running =>
    split
    · exact set
    · next idle =>
      have revokes : client.revokes = true := by simp [Client.revokes, running, idle]
      simpa [set, revokes] using spared

private theorem dtlsCmdTrigger_send (set : client.triggerSend = true) :
    (dtlsCmdTrigger client).triggerSend = true := by
  simp only [dtlsCmdTrigger]
  split
  · exact set
  · split
    · exact set
    · exact dtlsTrigger_send true (by simp) set

private theorem dtlsManualTrigger_send (duration : Bool) (set : client.triggerSend = true)
    (spared : SparesSend client { event := .button duration, env }) :
    (dtlsManualTrigger client duration).triggerSend = true := by
  simp only [dtlsManualTrigger]
  split
  · exact set
  · next normal =>
    split
    · next long =>
      refine dtlsTrigger_send false ?_ set
      rintro ⟨_, _, revokes⟩
      have revokes : client.revokes = true := revokes
      exact spared ⟨set, by simp [revokesSend, drops, long, normal, revokes]⟩
    · split
      · exact set
      · exact dtlsTrigger_send true (by simp) set

private theorem dtlsLteStateHandler_send (type : LteState) (active : Bool) (set : client.triggerSend = true)
    (spared : SparesSend client { event := .lte type active, env }) :
    (dtlsLteStateHandler env client type active).triggerSend = true := by
  simp only [dtlsLteStateHandler]
  split
  · exact set
  · cases type <;> cases active <;> try exact set
    case ready.false =>
      simp only
      split <;> exact set
    case connected.true =>
      simp only
      split
      · exact set
      · next disconnected =>
        simp only [lteConnect]
        split
        · exact set
        · next unsent =>
          split
          · next incoming =>
            refine dtlsTrigger_send false ?_ set
            rintro ⟨_, _, revokes⟩
            have revokes : client.revokes = true := revokes
            refine spared ⟨set, ?_⟩
            simp only [incoming, not_and_or] at unsent
            simp [revokesSend, drops, disconnected, incoming, revokes]
          · exact set

/-- No other thread clears the bit but by a trigger without a message. -/
private theorem thread_send (other : label.event ≠ .loop) (moved : Step config client label next)
    (spared : SparesSend client label) (set : client.triggerSend = true) : next.triggerSend = true := by
  obtain ⟨event, env⟩ := label
  cases event with
  | loop => exact absurd rfl other
  | timer =>
    obtain ⟨_, moved⟩ := Option.ite_none_right_eq_some.mp moved
    obtain rfl := Option.some.inj moved
    simp only [dtlsTimerTriggerFn]
    split
    · exact @dtlsTrigger_send { client with timerWork := false } true (by simp) set
    · exact set
  | trigger send =>
    obtain rfl := Option.some.inj moved
    refine dtlsTrigger_send send ?_ set
    rintro ⟨_, without, revokes⟩
    exact spared ⟨set, by simp [revokesSend, drops, without, revokes]⟩
  | button duration =>
    obtain rfl := Option.some.inj moved
    exact dtlsManualTrigger_send duration set spared
  | send message =>
    obtain rfl := Option.some.inj moved
    simp only [shCmdSend]
    split
    · exact set
    · split
      · exact set
      · exact dtlsCmdTrigger_send set
  | cmdTrigger =>
    obtain rfl := Option.some.inj moved
    exact dtlsCmdTrigger_send set
  | lte type active =>
    obtain rfl := Option.some.inj moved
    exact dtlsLteStateHandler_send type active set spared
  | interval _ =>
    obtain rfl := Option.some.inj moved
    exact set
  | coapTimeout _ =>
    obtain rfl := Option.some.inj moved
    exact set
  | onoff _ =>
    obtain rfl := Option.some.inj moved
    exact set
  | dtlsReset =>
    obtain rfl := Option.some.inj moved
    exact set
  | modem _ =>
    obtain rfl := Option.some.inj moved
    exact set
  | reboot =>
    obtain rfl := Option.some.inj moved
    exact set

/-- One step that spares the trigger. -/
private theorem step_asks {record : List Mark} (asks : client.Asks record) (moved : Step config client label next)
    (spared : SparesSend client label) : next.Asks record := by
  by_cases turn : label.event = .loop
  · simp only [Step, step, turn, Option.some.injEq] at moved
    exact moved ▸ loop_asks asks
  · exact asks.same (congrArg Frame.marks (thread_frame turn moved).1) (thread_send turn moved spared)

end Threads

/-- After an accepted trigger with a message, in every state of every run whose steps spare it:
`TRIGGER_SEND` is set, or a request was started or completed since. -/
theorem send_trigger_kept (config : Config) {labels : List Label} {client next : Client}
    (running : client.reboots = false) (idle : client.requestState.pending = false)
    (run : Path (guarded (Step config) SparesSend) (dtlsTrigger client true) labels next) :
    next.AsksSince client.marks := by
  have accepted : (dtlsTrigger client true).Asks client.marks := by
    refine ⟨[], ?_, .inl ?_⟩
    · rw [List.append_nil]
      exact congrArg Frame.marks (dtlsTrigger_frame true).1
    · simp [dtlsTrigger, running, idle]
  exact (run.invariant (Client.Asks client.marks)
    (fun _ _ _ asks moved => step_asks asks moved.2 moved.1) accepted).since

/-- The initial request is answered, the modem disconnects, and nothing is left to do. -/
private def idleClient : List Label :=
  initialRequest ++ receiving { packet := some { token := some 7 } } ++
    [⟨.lte .ready1s true, {}⟩, ⟨.lte .connected false, {}⟩] ++ turns 10

/-- The trigger waits for the loop while the network goes to sleep. -/
theorem send_trigger_waits :
    ∃ client next, Path (Step {}) (initial {} 7 600) idleClient client ∧
      Path (guarded (Step {}) SparesSend) (dtlsTrigger client true) [⟨.lte .sleeping true, {}⟩] next ∧
      next.triggerSend = true ∧ next.AsksSince client.marks := by
  have ends : (idleClient.foldlM (step {}) (initial {} 7 600)).map
      (fun client => (client.reboots, client.requestState.pending,
        (([⟨.lte .sleeping true, {}⟩] : List Label).foldlM (fun client label =>
          if SparesSend client label then step {} client label else none) (dtlsTrigger client true)).map
          fun next => next.triggerSend)) = some (false, false, some true) := by
    decide +kernel
  obtain ⟨client, ran, shown⟩ := Option.map_eq_some_iff.mp ends
  simp only [Prod.mk.injEq] at shown
  obtain ⟨running, idle, shown⟩ := shown
  obtain ⟨next, ranOn, set⟩ := Option.map_eq_some_iff.mp shown
  have run := Path.guarded_of_foldlM ranOn
  exact ⟨client, next, Path.of_foldlM ran, run, set, send_trigger_kept {} running idle run⟩

/-- The network connects before the loop gets to the trigger, and the message is not asked for any
more. -/
theorem incoming_connect_revokes_send :
    ∃ client next, Path (Step {}) (initial {} 7 600) idleClient client ∧
      client.reboots = false ∧ client.requestState.pending = false ∧
      Path (Step {}) (dtlsTrigger client true) [⟨.lte .connected true, {}⟩] next ∧
      ¬ next.AsksSince client.marks := by
  have ends : (idleClient.foldlM (step {}) (initial {} 7 600)).map
      (fun client => (client.reboots, client.requestState.pending,
        (([⟨.lte .connected true, {}⟩] : List Label).foldlM (step {}) (dtlsTrigger client true)).map
          fun next => (next.triggerSend, next.marks.drop client.marks.length))) =
        some (false, false, some (false, [])) := by
    decide +kernel
  obtain ⟨client, ran, shown⟩ := Option.map_eq_some_iff.mp ends
  simp only [Prod.mk.injEq] at shown
  obtain ⟨running, idle, shown⟩ := shown
  obtain ⟨next, ranOn, shown⟩ := Option.map_eq_some_iff.mp shown
  simp only [Prod.mk.injEq] at shown
  obtain ⟨cleared, nothing⟩ := shown
  refine ⟨client, next, Path.of_foldlM ran, running, idle, Path.of_foldlM ranOn, ?_⟩
  simp [Client.AsksSince, cleared, nothing]

end CoapsClient.DtlsClient
