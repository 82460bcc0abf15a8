import CoapsClient.Model.Dtls.Steps

/-! # Periodic sending

The timer is one-shot. When it fires, only the trigger it gives starts the next request, and the start
schedules the timer again. So a trigger that is dropped is never repeated: `dtls_trigger` without a
message clears `TRIGGER_SEND`, and the wait of a rate limit, the setup mode and the branches for a modem
that is off take the semaphore. As long as that happens only while the timer is scheduled, it never stops.
-/

namespace CoapsClient.DtlsClient

open Machine

/-- The timer is scheduled, or the trigger of a request is given or was just taken by the loop. -/
def Client.Armed (client : Client) : Prop :=
  client.timerWork ∨ (client.triggerSend ∧ (client.triggerMsg ∨ client.place = .taken))

/-- A client that has an interval sends again without being asked. -/
def Client.Periodic (client : Client) : Prop :=
  .start ∈ client.marks → 0 < client.interval → client.modemOn → ¬ client.requestState.pending →
    client.Armed

/-- Only a trigger is left to start the next request. -/
def Client.relies (client : Client) : Bool :=
  decide (0 < client.interval) && client.triggerSend && !client.timerWork

/-- `dtls_trigger` without a message has an effect. -/
def Client.revokes (client : Client) : Bool := !client.reboots && !client.requestState.pending

/-- The section of the loop takes the trigger away and starts no request. -/
def loopDrops (env : Env) (client : Client) : Bool :=
  match client.place with
  | .nop => client.triggerMsg && !client.modemOn
  | .rateLimit =>
      client.rateLimit && client.rateLimitRestart && env.rateLimitTime.isSome && client.triggerMsg
  | .setup => client.triggerMsg && !(env.setupRequest && client.revokes)
  | .taken => client.modemOff && !client.triggerMsg
  | _ => false

/-- The step takes the trigger of a request away and starts no request. -/
def drops (client : Client) (label : Label) : Bool :=
  match label.event with
  | .loop => loopDrops label.env client
  | .trigger send => !send && client.revokes
  | .button duration => duration && !client.setupMode && client.revokes
  | .lte .connected true =>
      !client.lteConnected && !(client.lteSend && client.requestState == .send) && client.lteReady1s
        && client.requestState == .none && client.revokes
  | _ => false

/-- The timer leaves something behind that calls it again. -/
def timerKept (client : Client) : Bool :=
  if !client.modemOff && !client.requestState.pending then !client.reboots
  else decide (0 < busyInterval client.sendInterval)

/-- The timer does not run out, and the interval is not raised from 0. -/
def keepsTimer (client : Client) (label : Label) : Bool :=
  match label.event with
  | .timer => decide (client.interval = 0) || timerKept client
  | .interval seconds =>
      decide (0 < client.interval) || decide (BitVec.ofNat 32 seconds &&& 0xffffff#32 = 0)
  | _ => true

/-- The step does not drop the trigger that the next request relies on. -/
def KeepsTrigger (client : Client) (label : Label) : Prop :=
  ¬ (client.relies ∧ drops client label) ∧ keepsTimer client label

instance (client : Client) (label : Label) : Decidable (KeepsTrigger client label) :=
  inferInstanceAs (Decidable (_ ∧ _))

/-- What a step has to keep. -/
def Client.Scheduled (client : Client) : Prop := 0 < client.interval → client.Armed

/-- The same while the loop has not taken a trigger. -/
def Client.Given (client : Client) : Prop :=
  0 < client.interval → client.timerWork ∨ (client.triggerSend ∧ client.triggerMsg)

section Requests

variable {config : Config} {env : Env} {client next : Client}

theorem Client.Given.scheduled (given : client.Given) : client.Scheduled :=
  fun positive => (given positive).imp_right (And.imp_right .inl)

theorem Client.Scheduled.given (scheduled : client.Scheduled) (place : client.place ≠ .taken) :
    client.Given :=
  fun positive => (scheduled positive).imp_right (And.imp_right (Or.resolve_right · place))

/-- The fields that decide whether the timer or a trigger is set. -/
def Client.triggers (client : Client) : Bool × Bool × Bool × ℕ :=
  (client.timerWork, client.triggerSend, client.triggerMsg, client.interval)

theorem Client.Given.of_triggers (same : next.triggers = client.triggers) (given : client.Given) :
    next.Given := by
  simp only [Client.triggers, Prod.mk.injEq] at same
  obtain ⟨timer, send, msg, interval⟩ := same
  unfold Client.Given
  rw [timer, send, msg, interval]
  exact given

private theorem scheduleNext_given (interval : ℕ) : (scheduleNext client interval).Given := by
  unfold scheduleNext
  dsimp only
  split
  · exact fun _ => .inl rfl
  · exact fun positive => .inl (Bool.or_eq_true_iff.mpr (.inr (decide_eq_true positive)))

private theorem coapNext_given (interval : ℕ) : (coapNext client interval).Given := by
  unfold coapNext
  dsimp only
  cases client.sendBuffer with
  | true => exact fun _ => .inr ⟨rfl, rfl⟩
  | false => exact scheduleNext_given interval

private theorem dtlsTrigger_given (given : client.Given) : (dtlsTrigger client true).Given := by
  unfold dtlsTrigger
  split
  · exact given
  · split
    · exact given
    · exact fun _ => .inr ⟨rfl, rfl⟩

/-- Completing, sending and receiving leave the timer or a trigger. -/
private theorem closed_given (config : Config) (env : Env) : Closed config env Client.Given where
  core := fun same given => by
    refine given.of_triggers ?_
    have timer := congrArg Core.timerWork same
    have send := congrArg Core.triggerSend same
    have msg := congrArg Core.triggerMsg same
    have interval := congrArg (fun core => (Core.sendInterval core &&& 0xffffff#32).toNat) same
    exact Prod.ext timer (Prod.ext send (Prod.ext msg interval))
  success := fun _ => coapNext_given _
  failure := fun _ => coapNext_given _
  mark := fun _ given => given
  trigger := dtlsTrigger_given
  token := fun given => given
  handler := fun _ given => given

end Requests

section Sections

variable {config : Config} {env : Env} {client : Client}

/-- A trigger that the next request does not rely on leaves the timer. -/
theorem Client.Scheduled.timerWork (scheduled : client.Scheduled) (positive : 0 < client.interval)
    (spared : ¬ client.relies) : client.timerWork = true := by
  rcases scheduled positive with timer | ⟨send, _⟩
  · exact timer
  · simp only [Client.relies, positive, send, decide_true, Bool.and_self, Bool.true_and,
      Bool.not_eq_true', Bool.not_eq_false] at spared
    exact spared

private theorem loopNop_given (given : client.Given) (place : client.place = .nop)
    (kept : ¬ (client.relies ∧ loopDrops env client)) : (loopNop client).Given := by
  unfold loopNop
  split
  · rename_i msg
    intro positive
    by_cases relied : client.relies
    · have on : client.modemOn = true := by
        simpa [loopDrops, place, msg] using fun dropped => kept ⟨relied, dropped⟩
      exact (given positive).imp_right (And.imp_right fun _ => on)
    · exact .inl (given.scheduled.timerWork positive relied)
  · exact given

private theorem loopRateLimit_given (given : client.Given) (place : client.place = .rateLimit)
    (kept : ¬ (client.relies ∧ loopDrops env client)) : (loopRateLimit env client).Given := by
  unfold loopRateLimit
  split
  · rename_i limited
    split
    · rename_i restarted
      cases read : env.rateLimitTime with
      | none => exact given
      | some time =>
        intro positive
        by_cases relied : client.relies
        · have empty : client.triggerMsg = false := by
            simpa [loopDrops, place, limited, restarted, read] using fun dropped => kept ⟨relied, dropped⟩
          exact .inl ((given positive).resolve_right fun trigger => by simp [empty] at trigger)
        · exact .inl (given.scheduled.timerWork positive relied)
    · exact given
  · exact given

private theorem loopSetup_given (given : client.Given) (place : client.place = .setup)
    (kept : ¬ (client.relies ∧ loopDrops env client)) : (loopSetup env client).Given := by
  unfold loopSetup
  have reset : client.triggerMsg = false ∨ client.relies = false →
      Client.Given { client with triggerMsg := false } := by
    rintro (empty | spared) positive
    · exact .inl ((given positive).resolve_right fun trigger => by simp [empty] at trigger)
    · exact .inl (given.scheduled.timerWork positive (by simp [spared]))
  dsimp only
  cases relied : client.relies with
  | false =>
    split
    · exact dtlsTrigger_given (reset (.inr relied))
    · exact reset (.inr relied)
  | true =>
    have spared : client.triggerMsg = true → env.setupRequest = true ∧ client.revokes = true := by
      intro msg
      simpa [loopDrops, place, msg] using fun dropped => kept ⟨relied, dropped⟩
    cases msg : client.triggerMsg with
    | false =>
      split
      · exact dtlsTrigger_given (reset (.inl msg))
      · exact reset (.inl msg)
    | true =>
      obtain ⟨request, revokes⟩ := spared msg
      simp only [Client.revokes, Bool.and_eq_true, Bool.not_eq_true'] at revokes
      rw [if_pos request]
      unfold dtlsTrigger
      simp only [revokes, Bool.false_eq_true, if_false]
      exact fun _ => .inr ⟨rfl, rfl⟩

private theorem loopTaken_given (scheduled : client.Scheduled) (place : client.place = .taken)
    (kept : ¬ (client.relies ∧ loopDrops env client)) : (loopTaken config env client).Given := by
  unfold loopTaken
  split
  · rename_i send
    split
    · rename_i off
      intro positive
      by_cases relied : client.relies
      · have msg : client.triggerMsg = true := by
          simpa [loopDrops, place, off] using fun dropped => kept ⟨relied, dropped⟩
        exact .inr ⟨send, msg⟩
      · exact .inl (scheduled.timerWork positive relied)
    · exact fun positive => .inl (Bool.or_eq_true_iff.mpr (.inr (decide_eq_true positive)))
  · rename_i none
    intro positive
    refine .inl ((scheduled positive).resolve_right ?_)
    rintro ⟨send, -⟩
    exact none send

private theorem loopWait_scheduled (given : client.Given) : (loopWait client).Scheduled := by
  unfold loopWait
  split
  · exact fun positive => (given positive).imp_right (And.imp_right fun _ => .inr rfl)
  · exact fun positive => (given positive).imp_right (And.imp_right .inl)

private theorem parseData_given (message : Message) (given : client.Given) :
    (parseData client message).1.Given := by
  unfold parseData
  split
  · dsimp only
    split <;> split <;> exact given
  · exact given

private theorem loop_scheduled (scheduled : client.Scheduled)
    (kept : ¬ (client.relies ∧ loopDrops env client)) : (loop config env client).Scheduled := by
  by_cases plain : client.place ∉ [.nop, .rateLimit, .setup, .wait, .taken]
  · have given := scheduled.given fun taken => by simp [taken] at plain
    have anything : ∀ datagram, env.poll = .data datagram →
        Receives config env (fun _ _ => True) client datagram :=
      fun datagram _ => Receives.of_forall (fun _ _ => trivial) client datagram
    refine Client.Given.scheduled ?_
    exact (closed_given config env).loop (fun _ message _ given => parseData_given message given)
      (fun _ => anything) (fun given => given) plain given
  · simp only [List.mem_cons, List.not_mem_nil, or_false, not_not] at plain
    unfold loop
    rcases plain with place | place | place | place | place <;> rw [place]
    · exact (loopNop_given (scheduled.given (by simp [place])) place kept).scheduled
    · exact (loopRateLimit_given (scheduled.given (by simp [place])) place kept).scheduled
    · exact (loopSetup_given (scheduled.given (by simp [place])) place kept).scheduled
    · exact loopWait_scheduled (scheduled.given (by simp [place]))
    · exact (loopTaken_given scheduled place kept).scheduled

end Sections

section Threads

variable {config : Config} {env : Env} {client : Client}

private theorem dtlsTrigger_scheduled (send : Bool) (scheduled : client.Scheduled)
    (kept : ¬ (client.relies ∧ send = false ∧ client.revokes)) : (dtlsTrigger client send).Scheduled := by
  unfold dtlsTrigger
  split
  · exact scheduled
  · rename_i running
    split
    · exact scheduled
    · rename_i idle
      cases send with
      | true => exact fun _ => .inr ⟨rfl, .inl rfl⟩
      | false =>
        intro positive
        have revokes : client.revokes = true := by simp [Client.revokes, running, idle]
        exact .inl (scheduled.timerWork positive fun relied => kept ⟨relied, rfl, revokes⟩)

private theorem dtlsCmdTrigger_scheduled (scheduled : client.Scheduled) : (dtlsCmdTrigger client).Scheduled := by
  unfold dtlsCmdTrigger
  split
  · exact scheduled
  · split
    · exact scheduled
    · exact dtlsTrigger_scheduled true scheduled (by simp)

private theorem dtlsTimerTriggerFn_scheduled (kept : client.interval = 0 ∨ timerKept client = true) :
    (dtlsTimerTriggerFn client).Scheduled := by
  intro positive
  have interval : (dtlsTimerTriggerFn client).interval = client.interval := by
    simp only [Client.interval, dtlsTimerTriggerFn, BitVec.and_assoc, BitVec.and_self]
  rw [interval] at positive
  have kept := kept.resolve_left (Nat.pos_iff_ne_zero.mp positive)
  unfold timerKept at kept
  unfold dtlsTimerTriggerFn
  dsimp only
  split
  · rename_i idle
    rw [if_pos idle] at kept
    simp only [Bool.and_eq_true, Bool.not_eq_true'] at idle kept
    refine .inr ?_
    unfold dtlsTrigger
    simp [kept, idle.2]
  · rename_i busy
    rw [if_neg busy] at kept
    exact .inl kept

private theorem dtlsManualTrigger_scheduled (duration : Bool) (scheduled : client.Scheduled)
    (kept : ¬ (client.relies ∧ (duration && !client.setupMode && client.revokes) = true)) :
    (dtlsManualTrigger client duration).Scheduled := by
  unfold dtlsManualTrigger
  split
  · exact scheduled
  · rename_i normal
    dsimp only
    split
    · rename_i long
      refine dtlsTrigger_scheduled false scheduled ?_
      rintro ⟨relied, -, revokes⟩
      have revokes : client.revokes = true := revokes
      refine kept ⟨relied, ?_⟩
      simp [long, normal, revokes]
    · split
      · exact scheduled
      · exact dtlsTrigger_scheduled true scheduled (by simp)

private theorem lteConnect_scheduled (scheduled : client.Scheduled)
    (kept : ¬ (client.relies ∧ (!(client.lteSend && client.requestState == .send) && client.lteReady1s
      && client.requestState == .none && client.revokes) = true)) :
    (lteConnect env client).Scheduled := by
  unfold lteConnect
  dsimp only
  split
  · exact scheduled
  · rename_i unsent
    split
    · rename_i incoming
      refine dtlsTrigger_scheduled false scheduled ?_
      rintro ⟨relied, -, revokes⟩
      have revokes : client.revokes = true := revokes
      refine kept ⟨relied, ?_⟩
      simp only [incoming, revokes, not_and_or] at unsent ⊢
      simp
    · exact scheduled

private theorem dtlsLteStateHandler_scheduled (type : LteState) (active : Bool) (scheduled : client.Scheduled)
    (kept : ¬ (client.relies ∧ drops client { event := .lte type active, env })) :
    (dtlsLteStateHandler env client type active).Scheduled := by
  unfold dtlsLteStateHandler
  split
  · exact scheduled
  · cases type <;> cases active <;> try exact scheduled
    case ready.false =>
      dsimp only
      split <;> exact scheduled
    case connected.true =>
      dsimp only
      split
      · exact scheduled
      · rename_i disconnected
        refine lteConnect_scheduled scheduled ?_
        rintro ⟨relied, incoming⟩
        refine kept ⟨relied, ?_⟩
        simpa [drops, disconnected] using incoming

private theorem shCmdSend_scheduled (message : Bool) (scheduled : client.Scheduled) :
    (shCmdSend client message).Scheduled := by
  unfold shCmdSend
  split
  · exact scheduled
  · split
    · exact scheduled
    · exact dtlsCmdTrigger_scheduled scheduled

/-- One step that spares the trigger and the timer. -/
private theorem step_scheduled {next : Client} {label : Label} (scheduled : client.Scheduled)
    (kept : KeepsTrigger client label) (moved : step config client label = some next) :
    next.Scheduled := by
  obtain ⟨event, env⟩ := label
  obtain ⟨spared, timer⟩ := kept
  cases event with
  | loop =>
    obtain rfl := Option.some.inj moved
    exact loop_scheduled scheduled spared
  | timer =>
    obtain ⟨-, moved⟩ := Option.ite_none_right_eq_some.mp moved
    obtain rfl := Option.some.inj moved
    refine dtlsTimerTriggerFn_scheduled ?_
    simpa [keepsTimer] using timer
  | trigger send =>
    obtain rfl := Option.some.inj moved
    refine dtlsTrigger_scheduled send scheduled ?_
    simpa [drops] using spared
  | button duration =>
    obtain rfl := Option.some.inj moved
    exact dtlsManualTrigger_scheduled duration scheduled spared
  | send message =>
    obtain rfl := Option.some.inj moved
    exact shCmdSend_scheduled message scheduled
  | cmdTrigger =>
    obtain rfl := Option.some.inj moved
    exact dtlsCmdTrigger_scheduled scheduled
  | lte type active =>
    obtain rfl := Option.some.inj moved
    exact dtlsLteStateHandler_scheduled type active scheduled spared
  | interval seconds =>
    obtain rfl := Option.some.inj moved
    intro positive
    have before : 0 < client.interval := by
      simp only [keepsTimer, Bool.or_eq_true, decide_eq_true_eq] at timer
      refine timer.resolve_right fun zero => ?_
      simp [Client.interval, zero] at positive
    exact scheduled before
  | coapTimeout _ =>
    obtain rfl := Option.some.inj moved
    exact scheduled
  | onoff _ =>
    obtain rfl := Option.some.inj moved
    exact scheduled
  | dtlsReset =>
    obtain rfl := Option.some.inj moved
    exact scheduled
  | modem _ =>
    obtain rfl := Option.some.inj moved
    exact scheduled
  | reboot =>
    obtain rfl := Option.some.inj moved
    exact scheduled

end Threads

/-- As long as every step spares the trigger that the next request relies on, sending goes on. -/
theorem periodic_sending_goes_on (config : Config) (token interval : ℕ) {labels : List Label}
    {client : Client}
    (run : Path (guarded (Step config) KeepsTrigger) (initial config token interval) labels client) :
    client.Periodic := by
  have scheduled : client.Scheduled :=
    run.invariant Client.Scheduled (fun _ _ _ scheduled moved => step_scheduled scheduled moved.1 moved.2)
      fun _ => .inr ⟨rfl, .inl rfl⟩
  exact fun _ positive _ _ => scheduled positive

/-- The initial request is answered, the modem disconnects, and the timer fires. -/
private def timerFires : List Label :=
  initialRequest ++ receiving { packet := some { token := some 7 } } ++
    [⟨.lte .ready1s true, {}⟩, ⟨.lte .connected false, {}⟩] ++ turns 10 ++ [⟨.timer, {}⟩]

/-- The trigger of the timer waits for the loop. -/
theorem timer_trigger_waits :
    ∃ client, Path (guarded (Step {}) KeepsTrigger) (initial {} 7 600) timerFires client ∧
      .start ∈ client.marks ∧ client.interval = 600 ∧ client.timerWork = false ∧ client.Armed := by
  have ends : (timerFires.foldlM (fun client label =>
      if KeepsTrigger client label then step {} client label else none) (initial {} 7 600)).map
      (fun client => (decide (.start ∈ client.marks), client.interval, client.timerWork,
        client.modemOn, client.requestState.pending)) = some (true, 600, false, true, false) := by
    decide +kernel
  obtain ⟨client, ran, shown⟩ := Option.map_eq_some_iff.mp ends
  simp only [Prod.mk.injEq, decide_eq_true_eq] at shown
  obtain ⟨started, interval, timer, on, idle⟩ := shown
  have path := Path.guarded_of_foldlM ran
  refine ⟨client, path, started, interval, timer, ?_⟩
  exact periodic_sending_goes_on {} 7 600 path started (by omega) on (by simp [idle])

/-- The network connects before the loop gets to the trigger. -/
private def incomingConnect : List Label := timerFires ++ [⟨.lte .connected true, {}⟩]

/-- An incoming connection clears `TRIGGER_SEND`: nothing is left that sends again. -/
theorem incoming_connect_stops_sending :
    ∃ client, Path (Step {}) (initial {} 7 600) incomingConnect client ∧
      ¬ client.Periodic := by
  have ends : (incomingConnect.foldlM (step {}) (initial {} 7 600)).map
      (fun client => (decide (.start ∈ client.marks), client.interval, client.timerWork,
        client.modemOn, client.requestState.pending, client.triggerSend)) =
      some (true, 600, false, true, false, false) := by
    decide +kernel
  obtain ⟨client, ran, shown⟩ := Option.map_eq_some_iff.mp ends
  simp only [Prod.mk.injEq, decide_eq_true_eq] at shown
  obtain ⟨started, interval, timer, on, idle, send⟩ := shown
  refine ⟨client, Path.of_foldlM ran, fun periodic => ?_⟩
  have armed := periodic started (by omega) on (by simp [idle])
  simp [Client.Armed, timer, send] at armed

end CoapsClient.DtlsClient
