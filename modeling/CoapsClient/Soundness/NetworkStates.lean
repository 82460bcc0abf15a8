import CoapsClient.Machine.Path
import CoapsClient.Model.Modem.Status

/-! # The states of the modem follow the network, and the application follows the modem

`MODEM_READY` and `MODEM_CONNECTED` are computed when a change of the network is handled, and mirror `network_info` as long
as what is read from the modem agrees with what it has told. The queue holds the changes the application has not got. What
it will be when the queue has run is the state of the modem, unless a change found its job in the queue together with the
one for the opposite.
-/

namespace CoapsClient.ModemState

open Machine (Path guarded Notices.submit Notices.lost Notices.settled Notices.Latest)

section Fields

variable {modem : Modem} {type : StateType} {active : Bool}

@[simp] theorem stateChange_networkInfo : (modem.stateChange type active).networkInfo = modem.networkInfo := rfl
@[simp] theorem stateChange_activeTime : (modem.stateChange type active).activeTime = modem.activeTime := rfl
@[simp] theorem stateChange_onOff : (modem.stateChange type active).onOff = modem.onOff := rfl
@[simp] theorem stateChange_ready : (modem.stateChange type active).ready = modem.ready := rfl
@[simp] theorem stateChange_signalReady : (modem.stateChange type active).signalReady = modem.signalReady := rfl
@[simp] theorem stateChange_connected : (modem.stateChange type active).connected = modem.connected := rfl
@[simp] theorem stateChange_readyDelay : (modem.stateChange type active).readyDelay = modem.readyDelay := rfl
@[simp] theorem stateChange_signaling : (modem.stateChange type active).signaling = modem.signaling := rfl

/-- A change submits no other job. -/
@[simp] theorem ready_mem_stateChange : Job.ready ∈ (modem.stateChange type active).queue ↔ Job.ready ∈ modem.queue := by
  simp [Modem.stateChange, Machine.Notices.mem_submit]

/-- The signal that the modem is ready was given, or is to come. -/
def Signals (modem : Modem) : Prop :=
  modem.signalReady ∨ modem.signaling ∨ modem.readyDelay ∨ Job.ready ∈ modem.queue

@[simp] theorem signals_stateChange : Signals (modem.stateChange type active) ↔ Signals modem := by
  simp [Signals]

/-- The bits mirror `network_info`. -/
structure Mirrors (modem : Modem) : Prop where
  ready : modem.ready = decide (modem.networkInfo.registered = .on ∧ modem.networkInfo.pdnActive = .on)
  connected : modem.connected = (modem.ready && decide (modem.networkInfo.rrcActive = .on))
  psmOn : modem.networkInfo.psmActive = .on → 0 ≤ modem.activeTime
  psmOff : modem.networkInfo.psmActive = .off → modem.activeTime < 0
  signals : Signals modem ↔ modem.ready = true

end Fields

section Status

variable {modem : Modem} {ready connected : Bool}

private theorem changeReady_cases : (modem.ready = ready ∧ modem.changeReady ready = modem) ∨
    (modem.ready = false ∧ ready = true ∧ modem.changeReady ready =
      { { modem with ready := true, signalReady := false }.stateChange .ready true with readyDelay := true }) ∨
    (modem.ready = true ∧ ready = false ∧ modem.changeReady ready =
      { modem with
        ready := false
        signalReady := false
        readyDelay := false
        queue := modem.queue.filter (·.type ≠ none) }.stateChange .ready false) := by
  by_cases same : modem.ready = ready
  · exact .inl ⟨same, if_neg (not_not.mpr same)⟩
  · cases ready with
    | true => exact .inr (.inl ⟨Bool.eq_false_iff.mpr same, rfl, if_pos same⟩)
    | false => exact .inr (.inr ⟨by simpa using same, rfl, if_pos same⟩)

@[simp] theorem disconnect_connected : (modem.disconnect connected).connected = (modem.connected && connected) := by
  unfold Modem.disconnect
  cases connected <;> cases old : modem.connected <;> simp [old]

@[simp] theorem connect_connected : (modem.connect connected).connected = (modem.connected || connected) := by
  unfold Modem.connect
  cases connected <;> cases old : modem.connected <;> simp [old]

@[simp] theorem changeReady_connected : (modem.changeReady ready).connected = modem.connected := by
  obtain ⟨-, same⟩ | ⟨-, -, begins⟩ | ⟨-, -, ends⟩ := @changeReady_cases modem ready
  · rw [same]
  · rw [begins]
    rfl
  · rw [ends]
    rfl

@[simp] theorem disconnect_ready : (modem.disconnect connected).ready = modem.ready := by
  unfold Modem.disconnect
  split_ifs <;> rfl

@[simp] theorem connect_ready : (modem.connect connected).ready = modem.ready := by
  unfold Modem.connect
  split_ifs <;> rfl

@[simp] theorem changeReady_ready : (modem.changeReady ready).ready = ready := by
  obtain ⟨known, same⟩ | ⟨-, rfl, begins⟩ | ⟨-, rfl, ends⟩ := @changeReady_cases modem ready
  · rw [same, known]
  · rw [begins]
    rfl
  · rw [ends]
    rfl

/-- What a part of the status leaves alone. -/
structure Keeps (before after : Modem) : Prop where
  networkInfo : after.networkInfo = before.networkInfo
  activeTime : after.activeTime = before.activeTime
  onOff : after.onOff = before.onOff
  signaling : after.signaling = before.signaling

theorem Keeps.refl : Keeps modem modem := ⟨rfl, rfl, rfl, rfl⟩

theorem Keeps.trans {first second third : Modem} (one : Keeps first second) (two : Keeps second third) :
    Keeps first third :=
  ⟨two.networkInfo.trans one.networkInfo, two.activeTime.trans one.activeTime, two.onOff.trans one.onOff,
    two.signaling.trans one.signaling⟩

private theorem keeps_disconnect : Keeps modem (modem.disconnect connected) := by
  unfold Modem.disconnect
  split_ifs
  · exact ⟨rfl, rfl, rfl, rfl⟩
  · exact Keeps.refl

private theorem keeps_changeReady : Keeps modem (modem.changeReady ready) := by
  obtain ⟨-, same⟩ | ⟨-, -, begins⟩ | ⟨-, -, ends⟩ := @changeReady_cases modem ready
  · rw [same]
    exact Keeps.refl
  · rw [begins]
    exact ⟨rfl, rfl, rfl, rfl⟩
  · rw [ends]
    exact ⟨rfl, rfl, rfl, rfl⟩

private theorem keeps_connect : Keeps modem (modem.connect connected) := by
  unfold Modem.connect
  split_ifs
  · exact ⟨rfl, rfl, rfl, rfl⟩
  · exact Keeps.refl

private theorem keeps_status : Keeps modem modem.lteConnectionStatus :=
  (keeps_disconnect.trans keeps_changeReady).trans keeps_connect

@[simp] theorem signals_disconnect : Signals (modem.disconnect connected) ↔ Signals modem := by
  unfold Modem.disconnect
  split_ifs
  · exact signals_stateChange
  · rfl

@[simp] theorem signals_connect : Signals (modem.connect connected) ↔ Signals modem := by
  unfold Modem.connect
  split_ifs
  · exact signals_stateChange
  · rfl

/-- The signal is to come when the modem becomes ready, and is taken back when it is no longer. -/
private theorem signals_changeReady (idle : modem.signaling = false) (signals : Signals modem ↔ modem.ready = true) :
    Signals (modem.changeReady ready) ↔ ready = true := by
  obtain ⟨known, same⟩ | ⟨-, rfl, begins⟩ | ⟨-, rfl, ends⟩ := @changeReady_cases modem ready
  · rw [same, signals, known]
  · rw [begins]
    simp [Signals]
  · rw [ends, signals_stateChange]
    simp [Signals, idle, Job.type]

/-- Whatever the bits were, they mirror `network_info` afterwards. -/
private theorem mirrors_status (psmOn : modem.networkInfo.psmActive = .on → 0 ≤ modem.activeTime)
    (psmOff : modem.networkInfo.psmActive = .off → modem.activeTime < 0) (idle : modem.signaling = false)
    (signals : Signals modem ↔ modem.ready = true) : Mirrors modem.lteConnectionStatus where
  ready := by
    rw [keeps_status.networkInfo]
    simp [Modem.lteConnectionStatus]
  connected := by
    rw [keeps_status.networkInfo]
    simp only [Modem.lteConnectionStatus, connect_connected, changeReady_connected, disconnect_connected, connect_ready,
      changeReady_ready]
    generalize (_ && decide (modem.networkInfo.rrcActive = .on)) = connected
    cases connected <;> simp
  psmOn := by
    rw [keeps_status.networkInfo, keeps_status.activeTime]
    exact psmOn
  psmOff := by
    rw [keeps_status.networkInfo, keeps_status.activeTime]
    exact psmOff
  signals := by
    simp only [Modem.lteConnectionStatus, signals_connect, connect_ready, changeReady_ready]
    refine signals_changeReady (keeps_disconnect.signaling.trans idle) ?_
    rw [signals_disconnect, disconnect_ready, signals]

end Status

/-- The bit of a state. -/
def Lte.get (lte : Lte) : StateType → Bool
  | .on => lte.on
  | .registration => lte.registered
  | .ready => lte.ready
  | .ready1s => lte.ready1s
  | .connected => lte.connected
  | .sleeping => lte.sleeping
  | .lowVoltage => lte.lowVoltage
  | .psmActive => lte.psmActive

/-- One bit changed. -/
def Lte.set (lte : Lte) (type : StateType) (active : Bool) : Lte :=
  match type with
  | .on => { lte with on := active }
  | .registration => { lte with registered := active }
  | .ready => { lte with ready := active }
  | .ready1s => { lte with ready1s := active }
  | .connected => { lte with connected := active }
  | .sleeping => { lte with sleeping := active }
  | .lowVoltage => { lte with lowVoltage := active }
  | .psmActive => { lte with psmActive := active }

private theorem set_same {lte : Lte} {type : StateType} {active : Bool} (same : lte.get type = active) :
    lte.set type active = lte := by
  subst same
  cases type <;> rfl

/-- The job for what was told last. Low voltage is never taken back, and the signal has a job of its own. -/
def told (known : Lte) : Option StateType → Job
  | none => .ready
  | some .ready1s => .change .ready1s true
  | some .lowVoltage => .change .lowVoltage true
  | some type => .change type (known.get type)

/-- With nothing lost, the queue tells what is known, and leads to what will be seen. -/
def Follows (modem : Modem) (lte known seen : Lte) : Prop :=
  modem.lost = false →
    Notices.Latest Job.type modem.queue (told known) ∧ Notices.settled Job.handle modem.queue lte = seen

section Follows

variable {modem : Modem} {lte known seen : Lte} {type : StateType} {active ready connected : Bool}

private theorem update_told (signal : type ≠ .ready1s) (voltage : type = .lowVoltage → active = true) :
    Function.update (told known) (some type) (.change type active) = told (known.set type active) := by
  funext topic
  by_cases same : topic = some type
  · subst same
    rw [Function.update_self]
    cases type <;> first | rfl | exact absurd rfl signal | rw [voltage rfl]; rfl
  · rw [Function.update_of_ne same]
    cases topic with
    | none => rfl
    | some topic => cases topic <;> cases type <;> first | rfl | exact absurd rfl same

private theorem lost_stateChange (kept : (modem.stateChange type active).lost = false) :
    modem.lost = false ∧ Notices.lost Job.type modem.queue (.change type active) = false :=
  Bool.or_eq_false_iff.mp kept

/-- A change that was not known is queued. -/
theorem Follows.change (follows : Follows modem lte known seen) (type : StateType) (active : Bool) (signal : type ≠ .ready1s)
    (voltage : type = .lowVoltage → active = true) (new : known.get type ≠ active) (told_bit : type ≠ .lowVoltage) :
    Follows (modem.stateChange type active) lte (known.set type active) (dtlsLteStateHandler type active seen) := by
  intro kept
  obtain ⟨before, kept⟩ := lost_stateChange kept
  obtain ⟨latest, settled⟩ := follows before
  have change : told known (some type) ≠ .change type active := by
    intro same
    refine new ?_
    cases type <;> first | exact absurd rfl signal | exact absurd rfl told_bit | exact (Job.change.inj same).2
  refine ⟨update_told signal voltage ▸ latest.submit kept, ?_⟩
  rw [← settled]
  exact Machine.Notices.settled_submit_new (latest.notMem kept change)

/-- A change that the queue leads to anyhow. -/
theorem Follows.again (follows : Follows modem lte known seen) (type : StateType) (active : Bool) (signal : type ≠ .ready1s)
    (voltage : type = .lowVoltage → active = true) (same : dtlsLteStateHandler type active seen = seen) :
    Follows (modem.stateChange type active) lte (known.set type active) seen := by
  intro kept
  obtain ⟨before, kept⟩ := lost_stateChange kept
  obtain ⟨latest, settled⟩ := follows before
  refine ⟨update_told signal voltage ▸ latest.submit kept, ?_⟩
  rw [← settled] at same ⊢
  exact Machine.Notices.settled_submit same

/-- The same but for a signal that only the other one got. -/
def Misses (one other : Lte) : Prop := one = { other with ready1s := one.ready1s } ∧ (one.ready1s → other.ready1s)

private theorem misses_handle (job : Job) {one other : Lte} (misses : Misses one other) :
    Misses (job.handle one) (job.handle other) := by
  obtain ⟨same, fewer⟩ := misses
  obtain ⟨on, registered, ready, connected, sleeping, ready1s, psmActive, lowVoltage⟩ := other
  rw [same]
  generalize one.ready1s = signal at fewer
  cases job with
  | change type active =>
    cases type <;> cases active <;> cases ready <;> simp_all [Misses, Job.handle, dtlsLteStateHandler]
  | ready => simp [Misses, Job.handle, dtlsLteStateHandler]

private theorem misses_ready {one other : Lte} (misses : Misses one other) : Misses one (Job.ready.handle other) :=
  ⟨misses.1, fun _ => rfl⟩

/-- Taking the signal back leaves everything else as it is. -/
theorem Follows.cancel (follows : Follows modem lte known seen) (ready readyDelay signalReady : Bool) :
    ∃ less, Misses less seen ∧
      Follows { modem with ready, readyDelay, signalReady, queue := modem.queue.filter (·.type ≠ none) } lte known less := by
  by_cases kept : modem.lost = false
  · obtain ⟨latest, settled⟩ := follows kept
    refine ⟨Notices.settled Job.handle (modem.queue.filter (·.type ≠ none)) lte, ?_, fun _ => ⟨latest.filter none, rfl⟩⟩
    rw [← settled]
    refine Machine.Notices.settled_filter (fun job _ _ => misses_handle job) (fun job one other missed misses => ?_) ⟨rfl, id⟩
    obtain rfl : job = .ready := by
      cases job with
      | change type active => simp [Job.type] at missed
      | ready => rfl
    exact misses_ready misses
  · exact ⟨seen, ⟨rfl, id⟩, fun other => absurd other kept⟩

/-- The signal was given, or the queue gives it. -/
def signaled (modem : Modem) : Bool := modem.signalReady || modem.signaling || decide (Job.ready ∈ modem.queue)

@[simp] theorem signaled_stateChange : signaled (modem.stateChange type active) = signaled modem := by
  simp [signaled]

theorem Follows.disconnect (follows : Follows modem lte known seen) (knows : known.get .connected = modem.connected) :
    Follows (modem.disconnect connected) lte (known.set .connected (modem.connected && connected))
      (seen.set .connected (seen.get .connected && (connected || !modem.connected))) := by
  unfold Modem.disconnect
  split_ifs with ends
  · obtain ⟨past, before⟩ := ends
    obtain rfl : connected = false := by simpa using past
    have start : Follows { modem with connected := false } lte known seen := follows
    have new : known.get .connected ≠ false := by rw [knows, before]; exact Bool.true_eq_false.mp
    have queued := start.change .connected false nofun nofun new nofun
    have gone : (seen.get .connected && (false || !true)) = false := Bool.and_false _
    rw [before, Bool.and_false, gone]
    exact queued
  · have stays : (modem.connected && connected) = modem.connected := by
      cases connected <;> cases before : modem.connected <;> simp_all
    have sees : (seen.get .connected && (connected || !modem.connected)) = seen.get .connected := by
      cases connected <;> cases before : modem.connected <;> simp_all
    rw [stays, sees, set_same knows, set_same rfl]
    exact follows

theorem Follows.connect (follows : Follows modem lte known seen) (connected : Bool)
    (knows : known.get .connected = modem.connected)
    (sees : seen.get .connected = modem.connected) :
    Follows (modem.connect connected) lte (known.set .connected (modem.connected || connected))
      (seen.set .connected (modem.connected || connected)) := by
  unfold Modem.connect
  split_ifs with begins
  · obtain ⟨rfl, before⟩ := begins
    have start : Follows { modem with connected := true } lte known seen := follows
    have new : known.get .connected ≠ true := by rwa [knows]
    rw [Bool.or_true]
    exact start.change .connected true nofun nofun new nofun
  · have stays : (modem.connected || connected) = modem.connected := by
      cases connected <;> cases before : modem.connected <;> simp_all
    rw [stays, set_same knows, set_same sees]
    exact follows

/-- What is seen of a modem before its readiness changes: what it is, or that it is not registered. -/
inductive Sees (modem : Modem) (ready : Bool) (seen : Lte) : Prop
  | bits (same : seen.get .ready = modem.ready) (signal : seen.get .ready1s = signaled modem)
      (unconnected : ready = false → seen.get .connected = false)
  | unregistered (past : ready = false) (none : seen.get .ready = false) (signal : seen.get .ready1s = false)
      (unconnected : seen.get .connected = false)

/-- The handler and the signal of a modem that becomes ready, or is no longer. -/
theorem Follows.changeReady (follows : Follows modem lte known seen) (knows : known.get .ready = modem.ready)
    (idle : modem.signaling = false) (signals : modem.ready = false → signaled modem = false) (sees : Sees modem ready seen) :
    Follows (modem.changeReady ready) lte (known.set .ready ready)
      ((seen.set .ready ready).set .ready1s (signaled (modem.changeReady ready))) := by
  obtain ⟨same, stays⟩ | ⟨before, rfl, begins⟩ | ⟨before, rfl, ends⟩ := @changeReady_cases modem ready
  · have seen_ready : seen.get .ready = ready := by
      cases sees with
      | bits sees _ _ => exact sees.trans same
      | unregistered past none _ _ => exact none.trans past.symm
    have seen_signal : seen.get .ready1s = signaled modem := by
      cases sees with
      | bits _ signal _ => exact signal
      | unregistered past _ signal _ => exact signal.trans (signals (same.trans past)).symm
    rw [stays, set_same (knows.trans same), set_same seen_ready, set_same seen_signal]
    exact follows
  · have none_yet := signals before
    have start : Follows { modem with ready := true, signalReady := false } lte known seen := follows
    have new : known.get .ready ≠ true := by rw [knows, before]; exact Bool.false_ne_true
    have queued := start.change .ready true nofun nofun new nofun
    have none_then : signaled { modem with ready := true, signalReady := false } = false := by
      simp only [signaled, Bool.or_eq_false_iff] at none_yet ⊢
      exact ⟨⟨trivial, none_yet.1.2⟩, none_yet.2⟩
    have silent : seen.get .ready1s = false := by
      cases sees with
      | bits _ signal _ => exact signal.trans none_yet
      | unregistered past _ _ _ => exact absurd past Bool.true_eq_false.mp
    have stays : signaled { ({ modem with ready := true, signalReady := false }.stateChange .ready true) with
        readyDelay := true } = false := (signaled_stateChange).trans none_then
    have handled : dtlsLteStateHandler .ready true seen = (seen.set .ready true).set .ready1s false := by
      rw [@set_same (seen.set .ready true) .ready1s false silent]
      exact if_neg fun change => change.2 rfl
    rw [begins, stays, ← handled]
    exact queued
  · obtain ⟨less, ⟨same, fewer⟩, start⟩ := follows.cancel false false false
    have new : known.get .ready ≠ false := by rw [knows, before]; exact Bool.true_eq_false.mp
    have queued := start.change .ready false nofun nofun new nofun
    have stays : signaled ({ modem with
        ready := false, signalReady := false, readyDelay := false
        queue := modem.queue.filter (·.type ≠ none) }.stateChange .ready false) = false := by
      rw [signaled_stateChange]
      simp [signaled, idle, Job.type]
    have handled : dtlsLteStateHandler .ready false less = (seen.set .ready false).set .ready1s false := by
      cases sees with
      | bits was _ unconnected =>
        have unconnected : seen.connected = false := unconnected rfl
        have was : seen.ready = true := was.trans before
        rw [same]
        simp [dtlsLteStateHandler, was, Lte.set, unconnected]
      | unregistered _ was signal _ =>
        have was : seen.ready = false := was
        have signal : seen.ready1s = false := signal
        have none : less.ready1s = false := by simpa [signal] using fewer
        rw [same, none]
        simp [dtlsLteStateHandler, was, Lte.set]
    rw [ends, stays, ← handled]
    exact queued

/-- The bits that are known and seen of the modem. -/
def view (modem : Modem) (lowVoltage : Bool) : Lte where
  on := modem.onOff
  registered := decide (modem.networkInfo.registered = .on)
  ready := modem.ready
  connected := modem.connected
  sleeping := decide (modem.networkInfo.sleeping = .on)
  ready1s := signaled modem
  psmActive := decide (0 ≤ modem.activeTime)
  lowVoltage := lowVoltage

/-- What is seen of a modem before its status is computed: all of it, or that it is not registered. -/
structure Before (modem : Modem) (known seen : Lte) : Prop where
  knows_ready : known.get .ready = modem.ready
  knows_connected : known.get .connected = modem.connected
  sees : (seen.get .ready = modem.ready ∧ seen.get .ready1s = signaled modem ∧ seen.get .connected = modem.connected) ∨
    (modem.networkInfo.registered ≠ .on ∧
      seen.get .ready = false ∧ seen.get .ready1s = false ∧ seen.get .connected = false)

@[simp] theorem signaled_disconnect : signaled (modem.disconnect connected) = signaled modem := by
  unfold Modem.disconnect
  split_ifs
  · exact signaled_stateChange
  · rfl

@[simp] theorem signaled_connect : signaled (modem.connect connected) = signaled modem := by
  unfold Modem.connect
  split_ifs
  · exact signaled_stateChange
  · rfl

/-- The parts of the status, one after the other. -/
theorem Follows.parts (follows : Follows modem lte known seen) (ready connected : Bool) (before : Before modem known seen)
    (idle : modem.signaling = false) (signals : modem.ready = false → signaled modem = false)
    (unregistered : modem.networkInfo.registered ≠ .on → ready = false) (unready : ready = false → connected = false) :
    Follows (((modem.disconnect connected).changeReady ready).connect connected) lte
      ((known.set .ready ready).set .connected ((modem.connected && connected) || connected))
      (((seen.set .ready ready).set .connected ((modem.connected && connected) || connected)).set .ready1s
        (signaled ((modem.disconnect connected).changeReady ready))) := by
  have first : Follows (modem.disconnect connected) lte _ _ := follows.disconnect before.knows_connected
  have sees : Sees (modem.disconnect connected) ready
      (seen.set .connected (seen.get .connected && (connected || !modem.connected))) := by
    rcases before.sees with ⟨same, signal, linked⟩ | ⟨off, same, signal, linked⟩
    · refine .bits (same.trans disconnect_ready.symm) (signal.trans signaled_disconnect.symm) fun past => ?_
      rw [linked, unready past]
      exact Bool.and_not_self _
    · refine .unregistered (unregistered off) same signal ?_
      rw [linked]
      rfl
  have second : Follows ((modem.disconnect connected).changeReady ready) lte _ _ :=
    first.changeReady (before.knows_ready.trans disconnect_ready.symm) (keeps_disconnect.signaling.trans idle)
      (fun off => signaled_disconnect.trans (signals (disconnect_ready.symm.trans off))) sees
  have linked : ((modem.disconnect connected).changeReady ready).connected = (modem.connected && connected) :=
    changeReady_connected.trans disconnect_connected
  have third := second.connect connected linked.symm ?_
  · rw [linked] at third
    exact third
  · rw [linked]
    rcases before.sees with ⟨-, -, linked⟩ | ⟨off, -, -, linked⟩
    · show (seen.get .connected && (connected || !modem.connected)) = _
      rw [linked]
      cases connected <;> simp
    · show (seen.get .connected && (connected || !modem.connected)) = _
      rw [linked, unready (unregistered off)]
      simp

/-- The status is queued. -/
theorem Follows.status (follows : Follows modem lte known seen) (before : Before modem known seen)
    (idle : modem.signaling = false) (signals : modem.ready = false → signaled modem = false) :
    Follows modem.lteConnectionStatus lte
      ((known.set .ready modem.lteConnectionStatus.ready).set .connected modem.lteConnectionStatus.connected)
      (((seen.set .ready modem.lteConnectionStatus.ready).set .connected modem.lteConnectionStatus.connected).set .ready1s
        (signaled modem.lteConnectionStatus)) := by
  have unregistered (off : modem.networkInfo.registered ≠ .on) :
      decide (modem.networkInfo.registered = .on ∧ modem.networkInfo.pdnActive = .on) = false :=
    decide_eq_false fun ready => off ready.1
  have parts := follows.parts (decide (modem.networkInfo.registered = .on ∧ modem.networkInfo.pdnActive = .on))
    (decide (modem.networkInfo.registered = .on ∧ modem.networkInfo.pdnActive = .on) &&
      decide (modem.networkInfo.rrcActive = .on)) before idle signals unregistered fun off => by rw [off, Bool.false_and]
  simpa only [Modem.lteConnectionStatus, connect_ready, changeReady_ready, connect_connected, changeReady_connected,
    disconnect_connected, signaled_connect] using parts

/-- The signal and what is always told the same way are not among what is known. -/
private theorem told_congr {other : Lte} (on : other.on = known.on) (registered : other.registered = known.registered)
    (ready : other.ready = known.ready) (connected : other.connected = known.connected)
    (sleeping : other.sleeping = known.sleeping) (psmActive : other.psmActive = known.psmActive) :
    told other = told known := by
  funext topic
  cases topic with
  | none => rfl
  | some type => cases type <;> simp [told, Lte.get, *]

/-- The queue tells and leads to the state of the modem. -/
def Agrees (modem : Modem) (lte : Lte) : Prop :=
  ∃ lowVoltage, Follows modem lte (view modem lowVoltage) (view modem lowVoltage)

/-- The bits that the status does not compute. -/
structure Base (modem : Modem) (seen : Lte) : Prop where
  on : seen.on = modem.onOff
  registered : seen.registered = decide (modem.networkInfo.registered = .on)
  sleeping : seen.sleeping = decide (modem.networkInfo.sleeping = .on)
  psmActive : seen.psmActive = decide (0 ≤ modem.activeTime)

/-- The status brings the queue in line with the modem. -/
theorem Follows.agrees_status (follows : Follows modem lte known seen) (before : Before modem known seen)
    (idle : modem.signaling = false) (signals : modem.ready = false → signaled modem = false)
    (knows : Base modem known) (sees : Base modem seen) : Agrees modem.lteConnectionStatus lte := by
  have queued := follows.status before idle signals
  refine ⟨seen.lowVoltage, fun kept => ?_⟩
  obtain ⟨latest, settled⟩ := queued kept
  constructor
  · have same : told (view modem.lteConnectionStatus seen.lowVoltage) = told
        ((known.set .ready modem.lteConnectionStatus.ready).set .connected modem.lteConnectionStatus.connected) := by
      refine told_congr ?_ ?_ rfl rfl ?_ ?_
      · exact keeps_status.onOff.trans knows.on.symm
      · rw [view, keeps_status.networkInfo]
        exact knows.registered.symm
      · rw [view, keeps_status.networkInfo]
        exact knows.sleeping.symm
      · rw [view, keeps_status.activeTime]
        exact knows.psmActive.symm
    exact same ▸ latest
  · rw [settled]
    simp only [view, keeps_status.networkInfo, keeps_status.activeTime, keeps_status.onOff, ← sees.on, ← sees.registered,
      ← sees.sleeping, ← sees.psmActive]
    rfl

end Follows

section Events

variable {modem : Modem} {lte known : Lte} {info : NetworkInfo}

theorem Mirrors.quiet (mirrors : Mirrors modem) (off : modem.ready = false) : signaled modem = false := by
  have none := mt mirrors.signals.mp (Bool.eq_false_iff.mp off)
  simp only [Signals, not_or] at none
  simp [signaled, none]

/-- What is known of a modem that is not registered. -/
def Closed (known : Lte) : Prop :=
  known.registered = false → known.ready = false ∧ known.ready1s = false ∧ known.connected = false

theorem Mirrors.closed (mirrors : Mirrors modem) {lowVoltage : Bool} : Closed (view modem lowVoltage) := by
  intro off
  have off : modem.ready = false := by
    rw [mirrors.ready]
    exact decide_eq_false fun ready => of_decide_eq_false off ready.1
  refine ⟨off, mirrors.quiet off, ?_⟩
  exact mirrors.connected.trans (by rw [off, Bool.false_and])

/-- The modem and the queue keep in line when the status is computed for a change of the PDN or the connection. -/
private theorem agrees_change (mirrors : Mirrors modem) (agrees : Agrees modem lte) (idle : modem.signaling = false)
    (registered : info.registered = modem.networkInfo.registered) (sleeping : info.sleeping = modem.networkInfo.sleeping) :
    Agrees { modem with networkInfo := info }.lteConnectionStatus lte := by
  obtain ⟨lowVoltage, follows⟩ := agrees
  have start : Follows { modem with networkInfo := info } lte (view modem lowVoltage) (view modem lowVoltage) := follows
  have base : Base { modem with networkInfo := info } (view modem lowVoltage) :=
    ⟨rfl, by rw [registered]; rfl, by rw [sleeping]; rfl, rfl⟩
  exact start.agrees_status ⟨rfl, rfl, .inl ⟨rfl, rfl, rfl⟩⟩ idle mirrors.quiet base base

private theorem mirrors_change (mirrors : Mirrors modem) (idle : modem.signaling = false)
    (psmActive : info.psmActive = modem.networkInfo.psmActive) :
    Mirrors { modem with networkInfo := info }.lteConnectionStatus :=
  mirrors_status (fun on => mirrors.psmOn (psmActive.symm.trans on))
    (fun off => mirrors.psmOff (psmActive.symm.trans off)) idle
    mirrors.signals

/-- A registration that is known changes nothing. -/
theorem Closed.handle {registered : Bool} (closed : Closed known) (same : known.registered = registered) :
    dtlsLteStateHandler .registration registered known = known := by
  cases registered with
  | true => exact @set_same known .registration true same
  | false =>
    obtain ⟨ready, ready1s, connected⟩ := closed same
    obtain ⟨on, _, _, _, sleeping, _, psmActive, lowVoltage⟩ := known
    subst same ready ready1s connected
    rfl

/-- What is seen when a registration is queued. -/
theorem Follows.registration (follows : Follows modem lte known known) (closed : Closed known) (registered : Bool) :
    Follows (modem.stateChange .registration registered) lte (known.set .registration registered)
      (dtlsLteStateHandler .registration registered known) := by
  by_cases same : known.get .registration = registered
  · rw [closed.handle same]
    exact follows.again .registration registered nofun nofun (closed.handle same)
  · exact follows.change .registration registered nofun nofun same nofun

private theorem ofBool_eq_on {on : Bool} : decide (NetworkState.ofBool on = .on) = on := by
  cases on <;> rfl

/-- A registration, after which the status is computed or nothing was new. -/
private theorem agrees_registration (follows : Follows modem lte known known) (closed : Closed known)
    (knows_ready : known.ready = modem.ready) (knows_connected : known.connected = modem.connected)
    (knows_signal : known.ready1s = signaled modem) (on : known.on = modem.onOff)
    (sleeping : known.sleeping = decide (modem.networkInfo.sleeping = .on))
    (psmActive : known.psmActive = decide (0 ≤ modem.activeTime)) (idle : modem.signaling = false)
    (quiet : modem.ready = false → signaled modem = false) (status : RegStatus)
    (same : modem.networkInfo.registered = .ofBool (Modem.registeredStatus status) →
      known.registered = Modem.registeredStatus status) : Agrees (modem.lteRegistration status) lte := by
  have queued := follows.registration closed (Modem.registeredStatus status)
  unfold Modem.lteRegistration Modem.lteRegistrationSet
  generalize Modem.registeredStatus status = registered at same queued ⊢
  split_ifs with change
  · have start : Follows { modem.stateChange .registration registered with
        networkInfo := { modem.networkInfo with registered := .ofBool registered } } lte _ _ := queued
    refine start.agrees_status ⟨knows_ready, knows_connected, ?_⟩ idle (fun off => signaled_stateChange.trans (quiet off))
      ⟨on, ofBool_eq_on.symm, sleeping, psmActive⟩ ?_
    · cases registered with
      | true => exact .inl ⟨knows_ready, knows_signal.trans signaled_stateChange.symm, knows_connected⟩
      | false => exact .inr ⟨nofun, rfl, rfl, rfl⟩
    · cases registered <;> exact ⟨on, rfl, sleeping, psmActive⟩
  · have old : modem.networkInfo.registered = .ofBool registered := not_not.mp change
    have registers : known.registered = decide (modem.networkInfo.registered = .on) := by
      rw [old, ofBool_eq_on]
      exact same old
    have all : view (modem.stateChange .registration registered) known.lowVoltage = known :=
      Lte.ext on.symm registers.symm knows_ready.symm knows_connected.symm sleeping.symm
        (signaled_stateChange.trans knows_signal.symm) psmActive.symm rfl
    refine ⟨known.lowVoltage, ?_⟩
    rw [all]
    rwa [closed.handle (same old), @set_same known .registration registered (same old)] at queued

private theorem mirrors_stateChange {type : StateType} {active : Bool} (mirrors : Mirrors modem) :
    Mirrors (modem.stateChange type active) :=
  ⟨mirrors.ready, mirrors.connected, mirrors.psmOn, mirrors.psmOff, signals_stateChange.trans mirrors.signals⟩

private theorem mirrors_registration (mirrors : Mirrors modem) (idle : modem.signaling = false) (status : RegStatus) :
    Mirrors (modem.lteRegistration status) := by
  unfold Modem.lteRegistration Modem.lteRegistrationSet
  split_ifs
  · exact mirrors_change (mirrors_stateChange mirrors) idle rfl
  · exact mirrors_stateChange mirrors

private theorem agrees_registered (mirrors : Mirrors modem) (agrees : Agrees modem lte) (idle : modem.signaling = false)
    (status : RegStatus) : Agrees (modem.lteRegistration status) lte := by
  obtain ⟨lowVoltage, follows⟩ := agrees
  refine agrees_registration follows mirrors.closed rfl rfl rfl rfl rfl rfl idle mirrors.quiet status fun same => ?_
  rw [view, same, ofBool_eq_on]

/-- The connection. -/
private theorem keeps_connection (mirrors : Mirrors modem) (agrees : Agrees modem lte) (idle : modem.signaling = false)
    (connect : Bool) : Mirrors (modem.lteConnectionStatusSet connect) ∧ Agrees (modem.lteConnectionStatusSet connect) lte ∧
      (modem.lteConnectionStatusSet connect).signaling = false := by
  unfold Modem.lteConnectionStatusSet
  split_ifs
  · exact ⟨mirrors_change mirrors idle rfl, agrees_change mirrors agrees idle rfl rfl, keeps_status.signaling.trans idle⟩
  · exact ⟨mirrors, agrees, idle⟩

/-- The PDN. -/
private theorem keeps_pdn (mirrors : Mirrors modem) (agrees : Agrees modem lte) (idle : modem.signaling = false)
    (active : Bool) :
    Mirrors (modem.ltePdnStatusSet active) ∧ Agrees (modem.ltePdnStatusSet active) lte := by
  unfold Modem.ltePdnStatusSet
  split_ifs
  · exact ⟨mirrors_change mirrors idle rfl, agrees_change mirrors agrees idle rfl rfl⟩
  · exact ⟨mirrors, agrees⟩

/-- A change that sets one bit only. -/
theorem Follows.set (follows : Follows modem lte known known) (type : StateType) (active : Bool)
    (direct : type = .on ∨ type = .sleeping ∨ type = .psmActive) :
    Follows (modem.stateChange type active) lte (known.set type active) (known.set type active) := by
  have handled : dtlsLteStateHandler type active known = known.set type active := by
    rcases direct with rfl | rfl | rfl <;> rfl
  have signal : type ≠ .ready1s := by rcases direct with rfl | rfl | rfl <;> exact nofun
  have voltage : type ≠ .lowVoltage := by rcases direct with rfl | rfl | rfl <;> exact nofun
  by_cases same : known.get type = active
  · have again := follows.again type active signal (fun same => absurd same voltage) (handled.trans (set_same same))
    rwa [set_same same] at again ⊢
  · have change := follows.change type active signal (fun same => absurd same voltage) same voltage
    rwa [handled] at change

/-- The modem goes to sleep or wakes up. -/
private theorem keeps_sleeping (mirrors : Mirrors modem) (agrees : Agrees modem lte) (sleep : Bool) :
    Mirrors (modem.lteNetworkSleepingSet sleep) ∧ Agrees (modem.lteNetworkSleepingSet sleep) lte := by
  unfold Modem.lteNetworkSleepingSet
  split_ifs
  · obtain ⟨lowVoltage, follows⟩ := agrees
    refine ⟨⟨mirrors.ready, mirrors.connected, mirrors.psmOn, mirrors.psmOff, signals_stateChange.trans mirrors.signals⟩,
      lowVoltage, ?_⟩
    have start : Follows { modem with networkInfo := { modem.networkInfo with sleeping := .ofBool sleep } } lte
        (view modem lowVoltage) (view modem lowVoltage) := follows
    have queued := start.set .sleeping sleep (.inr (.inl rfl))
    have all : (view modem lowVoltage).set .sleeping sleep = view ({ modem with
        networkInfo := { modem.networkInfo with sleeping := .ofBool sleep } }.stateChange .sleeping sleep) lowVoltage :=
      Lte.ext rfl rfl rfl rfl ofBool_eq_on.symm signaled_stateChange.symm rfl rfl
    rwa [all] at queued
  · exact ⟨mirrors, agrees⟩

/-- The times of PSM. -/
private theorem keeps_psm (mirrors : Mirrors modem) (agrees : Agrees modem lte) (activeTime : Int) :
    Mirrors (modem.lteSetPsmStatus activeTime) ∧ Agrees (modem.lteSetPsmStatus activeTime) lte := by
  obtain ⟨lowVoltage, follows⟩ := agrees
  unfold Modem.lteSetPsmStatus
  dsimp only
  split_ifs with change
  · refine ⟨⟨mirrors.ready, mirrors.connected, fun on => ?_, fun off => ?_, signals_stateChange.trans mirrors.signals⟩,
      lowVoltage, ?_⟩
    · have on : NetworkState.ofBool (decide (0 ≤ activeTime)) = .on := on
      exact of_decide_eq_true (ofBool_eq_on.symm.trans (decide_eq_true on))
    · have off : NetworkState.ofBool (decide (0 ≤ activeTime)) = .off := off
      by_contra negative
      have positive : decide (0 ≤ activeTime) = true := decide_eq_true (Int.not_lt.mp negative)
      rw [positive] at off
      exact nomatch off
    have start : Follows { modem with
        activeTime
        networkInfo := { modem.networkInfo with psmActive := .ofBool (decide (0 ≤ activeTime)) } } lte
        (view modem lowVoltage) (view modem lowVoltage) := follows
    have queued := start.set .psmActive (decide (0 ≤ activeTime)) (.inr (.inr rfl))
    have all : (view modem lowVoltage).set .psmActive (decide (0 ≤ activeTime)) = view ({ modem with
        activeTime
        networkInfo := { modem.networkInfo with
          psmActive := .ofBool (decide (0 ≤ activeTime)) } }.stateChange .psmActive (decide (0 ≤ activeTime))) lowVoltage :=
      Lte.ext rfl rfl rfl rfl rfl signaled_stateChange.symm rfl rfl
    rwa [all] at queued
  · have same : modem.networkInfo.psmActive = .ofBool (decide (0 ≤ activeTime)) := not_not.mp change
    have active : decide (0 ≤ modem.activeTime) = decide (0 ≤ activeTime) := by
      cases positive : decide (0 ≤ activeTime) with
      | true => exact decide_eq_true (mirrors.psmOn (same.trans (by rw [positive]; rfl)))
      | false => exact decide_eq_false (Int.not_le.mpr (mirrors.psmOff (same.trans (by rw [positive]; rfl))))
    refine ⟨⟨mirrors.ready, mirrors.connected, fun on => ?_, fun off => ?_, mirrors.signals⟩, lowVoltage, ?_⟩
    · exact of_decide_eq_true (active.symm.trans (decide_eq_true (mirrors.psmOn on)))
    · exact Int.not_le.mp (of_decide_eq_false (active.symm.trans (decide_eq_false (Int.not_le.mpr (mirrors.psmOff off)))))
    have all : view modem lowVoltage = view { modem with activeTime } lowVoltage :=
      Lte.ext rfl rfl rfl rfl rfl rfl active rfl
    rwa [all] at follows

/-- What is read agrees with what the modem told. -/
structure ReadsTrue (info : NetworkInfo) (reading : Reading) : Prop where
  registered : reading.registered = .on ↔ info.registered = .on
  pdnActive : reading.pdnActive = .on ↔ info.pdnActive = .on
  rrcActive : reading.rrcActive = .on ↔ info.rrcActive = .on

/-- Reading without callbacks. -/
private theorem keeps_overwrite {reading : Reading} (mirrors : Mirrors modem) (agrees : Agrees modem lte)
    (reads : ReadsTrue modem.networkInfo reading) :
    Mirrors (modem.overwrite reading) ∧ Agrees (modem.overwrite reading) lte := by
  have registered : decide (reading.registered = .on) = decide (modem.networkInfo.registered = .on) :=
    decide_eq_decide.mpr reads.registered
  obtain ⟨lowVoltage, follows⟩ := agrees
  refine ⟨⟨?_, ?_, nofun, nofun, mirrors.signals⟩, lowVoltage, ?_⟩
  · refine mirrors.ready.trans (decide_eq_decide.mpr ?_)
    exact and_congr reads.registered.symm reads.pdnActive.symm
  · exact mirrors.connected.trans (congrArg _ (decide_eq_decide.mpr reads.rrcActive.symm))
  · have all : view modem lowVoltage = view (modem.overwrite reading) lowVoltage :=
      Lte.ext rfl registered.symm rfl rfl rfl rfl rfl rfl
    rwa [all] at follows

/-- Reading the PDN. -/
private theorem keeps_readPdn {pdnActive : NetworkState} (mirrors : Mirrors modem) (agrees : Agrees modem lte)
    (reads : pdnActive = .on ↔ modem.networkInfo.pdnActive = .on) :
    Mirrors { modem with networkInfo := { modem.networkInfo with pdnActive } } ∧
      Agrees { modem with networkInfo := { modem.networkInfo with pdnActive } } lte := by
  obtain ⟨lowVoltage, follows⟩ := agrees
  refine ⟨⟨mirrors.ready.trans (decide_eq_decide.mpr (and_congr Iff.rfl reads.symm)), mirrors.connected, mirrors.psmOn,
    mirrors.psmOff, mirrors.signals⟩, lowVoltage, follows⟩

/-- A registration that is new computes the status. -/
private theorem lteRegistration_new {status : RegStatus}
    (new : modem.networkInfo.registered ≠ .ofBool (Modem.registeredStatus status)) :
    modem.lteRegistration status = { modem.stateChange .registration (Modem.registeredStatus status) with
      networkInfo := { modem.networkInfo with
        registered := .ofBool (Modem.registeredStatus status) } }.lteConnectionStatus :=
  if_pos new

/-- Reading with callbacks computes the status anew, whatever is read. -/
private theorem keeps_read (mirrors : Mirrors modem) (agrees : Agrees modem lte) (idle : modem.signaling = false)
    (reading : Reading) :
    Mirrors (modem.modemReadNetworkInfo reading true) ∧ Agrees (modem.modemReadNetworkInfo reading true) lte := by
  obtain ⟨lowVoltage, follows⟩ := agrees
  let cleared := modem.overwrite { reading with registered := .init, rrcActive := .init }
  have other : cleared.networkInfo.registered ≠ .ofBool (Modem.registeredStatus reading.status) := by
    intro same
    have same : NetworkState.init = .ofBool (Modem.registeredStatus reading.status) := same
    cases registered : Modem.registeredStatus reading.status <;> rw [registered] at same <;> exact nomatch same
  have mirrored : Mirrors (cleared.lteRegistration reading.status) := by
    rw [lteRegistration_new other]
    exact mirrors_status nofun nofun idle (signals_stateChange.trans mirrors.signals)
  have start : Follows cleared lte (view modem lowVoltage) (view modem lowVoltage) := follows
  have agreed : Agrees (cleared.lteRegistration reading.status) lte :=
    agrees_registration start mirrors.closed rfl rfl rfl rfl rfl rfl idle mirrors.quiet reading.status
      fun same => absurd same other
  have idle : (cleared.lteRegistration reading.status).signaling = false := by
    rw [lteRegistration_new other]
    exact keeps_status.signaling.trans idle
  obtain ⟨mirrors, agrees, -⟩ := keeps_connection mirrored agreed idle (decide (reading.rrcActive = .on))
  exact ⟨mirrors, agrees⟩

/-- Switching the modem on or off. -/
private theorem keeps_onOff (mirrors : Mirrors modem) (agrees : Agrees modem lte) (onOff : Bool) :
    Mirrors ({ modem with onOff }.stateChange .on onOff) ∧ Agrees ({ modem with onOff }.stateChange .on onOff) lte := by
  obtain ⟨lowVoltage, follows⟩ := agrees
  refine ⟨⟨mirrors.ready, mirrors.connected, mirrors.psmOn, mirrors.psmOff, signals_stateChange.trans mirrors.signals⟩,
    lowVoltage, ?_⟩
  have start : Follows { modem with onOff } lte (view modem lowVoltage) (view modem lowVoltage) := follows
  have queued := start.set .on onOff (.inl rfl)
  have all : (view modem lowVoltage).set .on onOff = view ({ modem with onOff }.stateChange .on onOff) lowVoltage :=
    Lte.ext rfl rfl rfl rfl rfl signaled_stateChange.symm rfl rfl
  rwa [all] at queued

private theorem keeps_cfunOn (mirrors : Mirrors modem) (agrees : Agrees modem lte) (idle : modem.signaling = false)
    (reading : Option Reading) : Mirrors (modem.modemOnCfunOn reading) ∧ Agrees (modem.modemOnCfunOn reading) lte := by
  have start : Mirrors { modem with lowPower := false } ∧ Agrees { modem with lowPower := false } lte :=
    ⟨⟨mirrors.ready, mirrors.connected, mirrors.psmOn, mirrors.psmOff, mirrors.signals⟩, agrees⟩
  unfold Modem.modemOnCfunOn
  dsimp only
  have read : ∀ after, after = reading.elim { modem with lowPower := false }
      (fun reading => { modem with lowPower := false }.modemReadNetworkInfo reading true) →
    Mirrors after ∧ Agrees after lte := by
    rintro after rfl
    cases reading with
    | none => exact start
    | some reading => exact keeps_read start.1 start.2 idle reading
  generalize reading.elim _ _ = after at read ⊢
  obtain ⟨mirrors, agrees⟩ := read after rfl
  by_cases off : after.onOff = true
  · rw [if_neg (not_not.mpr off)]
    exact ⟨mirrors, agrees⟩
  · rw [if_pos off]
    exact keeps_onOff mirrors agrees true

private theorem keeps_cfunOff (mirrors : Mirrors modem) (agrees : Agrees modem lte) :
    Mirrors modem.modemOnCfunOff ∧ Agrees modem.modemOnCfunOff lte := by
  unfold Modem.modemOnCfunOff
  split_ifs
  · exact keeps_onOff mirrors agrees false
  · exact ⟨mirrors, agrees⟩

private theorem keeps_lowPower (mirrors : Mirrors modem) (agrees : Agrees modem lte) :
    Mirrors modem.modemSetLowPower ∧ Agrees modem.modemSetLowPower lte := by
  obtain ⟨lowVoltage, follows⟩ := agrees
  refine ⟨⟨mirrors.ready, mirrors.connected, mirrors.psmOn, mirrors.psmOff,
    (@signals_stateChange modem .lowVoltage true).trans mirrors.signals⟩, ?_⟩
  have signal : signaled (modem.stateChange .lowVoltage true) = signaled modem := signaled_stateChange
  have telling (other : Bool) : Function.update (told (view modem lowVoltage)) (some .lowVoltage) (.change .lowVoltage true) =
      told (view modem.modemSetLowPower other) :=
    (@update_told (view modem lowVoltage) .lowVoltage true nofun fun _ => rfl).trans (told_congr rfl rfl rfl rfl rfl rfl)
  by_cases waits : Job.change .lowVoltage true ∈ modem.queue
  · refine ⟨lowVoltage, fun kept => ?_⟩
    obtain ⟨before, kept⟩ := lost_stateChange kept
    obtain ⟨latest, settled⟩ := follows before
    refine ⟨?_, ?_⟩
    · exact telling lowVoltage ▸ latest.submit kept
    · have same : (modem.stateChange .lowVoltage true).queue = modem.queue := Machine.Notices.submit_of_mem waits
      exact (congrArg (Notices.settled Job.handle · lte) same).trans
        (settled.trans (Lte.ext rfl rfl rfl rfl rfl signal.symm rfl rfl))
  · refine ⟨true, fun kept => ?_⟩
    obtain ⟨before, kept⟩ := lost_stateChange kept
    obtain ⟨latest, settled⟩ := follows before
    refine ⟨?_, ?_⟩
    · exact telling true ▸ latest.submit kept
    · refine (Machine.Notices.settled_submit_new waits).trans ?_
      rw [settled]
      exact Lte.ext rfl rfl rfl rfl rfl signal.symm rfl rfl

/-- The delay of the signal is over. -/
private theorem keeps_delay (mirrors : Mirrors modem) (agrees : Agrees modem lte) (waits : modem.readyDelay = true) :
    Mirrors { modem with readyDelay := false, queue := Notices.submit modem.queue .ready } ∧
      Agrees { modem with readyDelay := false, queue := Notices.submit modem.queue .ready } lte := by
  have ready : modem.ready = true := mirrors.signals.mp (.inr (.inr (.inl waits)))
  have queued : Job.ready ∈ Notices.submit modem.queue .ready := Machine.Notices.mem_submit.mpr (.inr rfl)
  obtain ⟨lowVoltage, follows⟩ := agrees
  refine ⟨⟨mirrors.ready, mirrors.connected, mirrors.psmOn, mirrors.psmOff, fun _ => ready, fun _ => ?_⟩, lowVoltage,
    fun kept => ?_⟩
  · exact .inr (.inr (.inr queued))
  obtain ⟨latest, settled⟩ := follows kept
  have signal : signaled { modem with readyDelay := false, queue := Notices.submit modem.queue .ready } = true := by
    simp [signaled, queued]
  constructor
  · have alone : Notices.lost Job.type modem.queue .ready = false := by
      simp only [Notices.lost, Bool.and_eq_false_imp, List.any_eq_false]
      intro _ other _
      cases other <;> simp [Job.type]
    have telling : Function.update (told (view modem lowVoltage)) (Job.type .ready) .ready = told (view
        { modem with readyDelay := false, queue := Notices.submit modem.queue .ready } lowVoltage) :=
      (Function.update_eq_self none (told (view modem lowVoltage))).trans (told_congr rfl rfl rfl rfl rfl rfl)
    exact telling ▸ latest.submit alone
  · by_cases before : Job.ready ∈ modem.queue
    · have was : signaled modem = true := by simp [signaled, before]
      have same : Notices.submit modem.queue .ready = modem.queue := Machine.Notices.submit_of_mem before
      refine (congrArg (Notices.settled Job.handle · lte) same).trans (settled.trans ?_)
      exact Lte.ext rfl rfl rfl rfl rfl (was.trans signal.symm) rfl rfl
    · refine (Machine.Notices.settled_submit_new before).trans ?_
      rw [settled]
      exact Lte.ext rfl rfl rfl rfl rfl signal.symm rfl rfl

/-- What the application will be does not change when a job runs. -/
private theorem keeps_run {job : Job} {queue : List Job} (mirrors : Mirrors modem) (agrees : Agrees modem lte)
    (next : modem.queue = job :: queue) :
    Mirrors (System.runJob ⟨modem, lte⟩ queue job).modem ∧
      Agrees (System.runJob ⟨modem, lte⟩ queue job).modem (System.runJob ⟨modem, lte⟩ queue job).lte := by
  obtain ⟨lowVoltage, follows⟩ := agrees
  cases job with
  | change type active =>
    have rest : Job.ready ∈ queue ↔ Job.ready ∈ modem.queue := by simp [next]
    have signals : Signals { modem with queue } ↔ Signals modem := by simp [Signals, rest]
    have signal : signaled { modem with queue } = signaled modem := by simp [signaled, rest]
    refine ⟨⟨mirrors.ready, mirrors.connected, mirrors.psmOn, mirrors.psmOff, signals.trans mirrors.signals⟩, lowVoltage,
      fun kept => ?_⟩
    obtain ⟨latest, settled⟩ := follows kept
    rw [next] at latest settled
    have all : view modem lowVoltage = view { modem with queue } lowVoltage :=
      Lte.ext rfl rfl rfl rfl rfl signal.symm rfl rfl
    rw [all] at latest settled
    exact ⟨latest.tail, settled⟩
  | ready =>
    have waits : Job.ready ∈ modem.queue := by simp [next]
    have ready : modem.ready = true := mirrors.signals.mp (.inr (.inr (.inr waits)))
    have runs : System.runJob ⟨modem, lte⟩ queue .ready =
        { modem := { modem with queue, signaling := true }, lte := dtlsLteStateHandler .ready1s true lte } := if_pos ready
    rw [runs]
    have signal : signaled { modem with queue, signaling := true } = signaled modem := by simp [signaled, waits]
    refine ⟨⟨mirrors.ready, mirrors.connected, mirrors.psmOn, mirrors.psmOff, fun _ => ready, fun _ => .inr (.inl rfl)⟩,
      lowVoltage, fun kept => ?_⟩
    obtain ⟨latest, settled⟩ := follows kept
    rw [next] at latest settled
    have all : view modem lowVoltage = view { modem with queue, signaling := true } lowVoltage :=
      Lte.ext rfl rfl rfl rfl rfl signal.symm rfl rfl
    rw [all] at latest settled
    exact ⟨latest.tail, settled⟩

/-- The last part of the signal. -/
private theorem keeps_signal (mirrors : Mirrors modem) (agrees : Agrees modem lte) (signaling : modem.signaling = true) :
    Mirrors { modem with signaling := false, signalReady := true } ∧
      Agrees { modem with signaling := false, signalReady := true } lte := by
  have ready : modem.ready = true := mirrors.signals.mp (.inr (.inl signaling))
  obtain ⟨lowVoltage, follows⟩ := agrees
  refine ⟨⟨mirrors.ready, mirrors.connected, mirrors.psmOn, mirrors.psmOff, fun _ => ready, fun _ => .inl rfl⟩,
    lowVoltage, ?_⟩
  have all : view modem lowVoltage = view { modem with signaling := false, signalReady := true } lowVoltage :=
    Lte.ext rfl rfl rfl rfl rfl (by simp [view, signaled, signaling]) rfl rfl
  rwa [all] at follows

end Events

section Runs

variable {system after : System} {event : Event} {events : List Event}

/-- The events that compute the status. -/
def Event.computes : Event → Bool
  | .registration _ | .rrc _ | .pdn _ | .cfunOn _ | .cmdState _ => true
  | _ => false

/-- The status is not computed inside of `modem_ready_work_fn`, and what is read without callbacks is what was told. -/
structure Regular (system : System) (event : Event) : Prop where
  apart : event.computes → system.modem.signaling = false
  reads : ∀ reading, event = .read reading → ReadsTrue system.modem.networkInfo reading
  readsPdn : ∀ pdnActive, event = .readPdn pdnActive → (pdnActive = .on ↔ system.modem.networkInfo.pdnActive = .on)

/-- A step of the system. -/
def Step (system : System) (event : Event) (after : System) : Prop := system.next event = some after

/-- The modem mirrors the network, and the queue leads the application to it. -/
theorem keeps_step (regular : Regular system event) (moved : Step system event after)
    (mirrors : Mirrors system.modem) (agrees : Agrees system.modem system.lte) :
    Mirrors after.modem ∧ Agrees after.modem after.lte := by
  obtain ⟨modem, lte⟩ := system
  unfold Step System.next at moved
  cases event with
  | registration status =>
    obtain rfl := Option.some.inj moved
    exact ⟨mirrors_registration mirrors (regular.apart rfl) status,
      agrees_registered mirrors agrees (regular.apart rfl) status⟩
  | rrc connected =>
    obtain rfl := Option.some.inj moved
    obtain ⟨mirrors, agrees, -⟩ := keeps_connection mirrors agrees (regular.apart rfl) connected
    cases connected with
    | true => exact keeps_sleeping mirrors agrees false
    | false => exact ⟨mirrors, agrees⟩
  | pdn active =>
    obtain rfl := Option.some.inj moved
    exact keeps_pdn mirrors agrees (regular.apart rfl) active
  | sleep enter =>
    obtain rfl := Option.some.inj moved
    exact keeps_sleeping mirrors agrees enter
  | psm activeTime =>
    obtain rfl := Option.some.inj moved
    exact keeps_psm mirrors agrees activeTime
  | batteryLow =>
    obtain rfl := Option.some.inj moved
    exact keeps_lowPower mirrors agrees
  | cfunOn reading =>
    obtain rfl := Option.some.inj moved
    exact keeps_cfunOn mirrors agrees (regular.apart rfl) reading
  | cfunOff =>
    obtain rfl := Option.some.inj moved
    exact keeps_cfunOff mirrors agrees
  | cmdState reading =>
    obtain rfl := Option.some.inj moved
    exact keeps_read mirrors agrees (regular.apart rfl) reading
  | read reading =>
    obtain rfl := Option.some.inj moved
    exact keeps_overwrite mirrors agrees (regular.reads reading rfl)
  | readPdn pdnActive =>
    obtain rfl := Option.some.inj moved
    exact keeps_readPdn mirrors agrees (regular.readsPdn pdnActive rfl)
  | delay =>
    obtain ⟨waits, equal⟩ := Option.ite_none_right_eq_some.mp moved
    obtain rfl := Option.some.inj equal
    exact keeps_delay mirrors agrees waits
  | run =>
    dsimp only at moved
    split at moved
    · exact nomatch moved
    · split at moved
      · exact nomatch moved
      · next job queue next =>
        obtain rfl := Option.some.inj moved
        exact keeps_run mirrors agrees next
  | signal =>
    obtain ⟨signaling, equal⟩ := Option.ite_none_right_eq_some.mp moved
    obtain rfl := Option.some.inj equal
    exact keeps_signal mirrors agrees signaling

private theorem mirrors_start : Mirrors {} := ⟨rfl, rfl, nofun, nofun, by simp [Signals]⟩

private theorem agrees_start : Agrees {} {} := ⟨false, fun _ => ⟨Machine.Notices.latest_nil, rfl⟩⟩

theorem keeps_path (path : Path (guarded Step Regular) {} events system) :
    Mirrors system.modem ∧ Agrees system.modem system.lte :=
  path.invariant (fun system => Mirrors system.modem ∧ Agrees system.modem system.lte)
    (fun _ _ _ keeps moved => keeps_step moved.1 moved.2 keeps.1 keeps.2) ⟨mirrors_start, agrees_start⟩

instance (info : NetworkInfo) (reading : Reading) : Decidable (ReadsTrue info reading) :=
  decidable_of_iff ((reading.registered = .on ↔ info.registered = .on) ∧ (reading.pdnActive = .on ↔ info.pdnActive = .on) ∧
    (reading.rrcActive = .on ↔ info.rrcActive = .on))
    ⟨fun ⟨registered, pdnActive, rrcActive⟩ => ⟨registered, pdnActive, rrcActive⟩,
      fun reads => ⟨reads.registered, reads.pdnActive, reads.rrcActive⟩⟩

/-- What an event reads is what was told. -/
def Event.readsTrue (info : NetworkInfo) : Event → Bool
  | .read reading => decide (ReadsTrue info reading)
  | .readPdn pdnActive => decide (pdnActive = .on ↔ info.pdnActive = .on)
  | _ => true

private theorem regular_iff : Regular system event ↔
    (event.computes → system.modem.signaling = false) ∧ event.readsTrue system.modem.networkInfo = true := by
  constructor
  · intro regular
    refine ⟨regular.apart, ?_⟩
    cases event with
    | read reading => exact decide_eq_true (regular.reads reading rfl)
    | readPdn pdnActive => exact decide_eq_true (regular.readsPdn pdnActive rfl)
    | _ => rfl
  · rintro ⟨apart, reads⟩
    refine ⟨apart, fun reading same => ?_, fun pdnActive same => ?_⟩
    · subst same
      exact of_decide_eq_true reads
    · subst same
      exact of_decide_eq_true reads

instance : Decidable (Regular system event) := decidable_of_iff _ regular_iff.symm

/-- The bits mirror the network in every run: the modem is ready exactly with a registration and a PDN, it is connected
exactly when it is ready and the radio is, and the signal that it is ready was given or is to come exactly when it is. -/
theorem bits_mirror_network (path : Path (guarded Step Regular) {} events system) : Mirrors system.modem :=
  (keeps_path path).1

/-- A modem that is switched on, registers, connects, signals that it is ready, is read again, and loses its PDN. -/
def attach : List Event :=
  [.cfunOn none, .registration .searching, .registration .registeredHome, .readPdn .off, .run, .pdn true, .rrc true, .run,
    .run, .run, .run, .delay, .run, .run, .signal, .read ⟨.registeredHome, .on, .on, .on⟩,
    .cmdState ⟨.registeredHome, .on, .on, .on⟩, .run, .run, .run, .sleep true, .run, .pdn false]

/-- It meets the conditions. -/
theorem attach_mirrors : ∃ system, Path (guarded Step Regular) {} attach system ∧ Mirrors system.modem := by
  have runs : (attach.foldlM (fun system event => if Regular system event then system.next event else none) {}).isSome := by
    decide
  obtain ⟨system, ran⟩ := Option.isSome_iff_exists.mp runs
  have path : Path (guarded Step Regular) {} attach system := Path.guarded_of_foldlM ran
  exact ⟨system, path, bits_mirror_network path⟩

/-- A PDN that is read before it is told is not noticed: the modem is registered and has a PDN, and is not ready. -/
example : ([.registration .registeredHome, .readPdn .on, .pdn true].foldlM System.next {}).map
    (fun system => (system.modem.networkInfo.pdnActive, system.modem.ready)) = some (.on, false) := by
  decide

/-- As long as no change was lost, the queue leads the application to what the modem is. What it knows of the voltage is
what it was told. -/
theorem application_agrees (path : Path (guarded Step Regular) {} events system) (kept : system.modem.lost = false) :
    ∃ lowVoltage, Notices.settled Job.handle system.modem.queue system.lte = view system.modem lowVoltage := by
  obtain ⟨lowVoltage, follows⟩ := (keeps_path path).2
  exact ⟨lowVoltage, (follows kept).2⟩

/-- It meets the conditions. -/
theorem attach_agrees : ∃ system, Path (guarded Step Regular) {} attach system ∧ system.modem.lost = false ∧
    ∃ lowVoltage, Notices.settled Job.handle system.modem.queue system.lte = view system.modem lowVoltage := by
  have runs : ((attach.foldlM (fun system event => if Regular system event then system.next event else none) {}).map
      fun system => system.modem.lost) = some false := by
    decide
  obtain ⟨system, ran, kept⟩ := Option.map_eq_some_iff.mp runs
  have path : Path (guarded Step Regular) {} attach system := Path.guarded_of_foldlM ran
  exact ⟨system, path, kept, application_agrees path kept⟩

/-- The third of three changes is lost while the jobs of the first two wait: the modem stays ready, the application does
not. -/
example : ([.registration .registeredHome, .pdn true, .pdn false, .pdn true, .run, .run, .run].foldlM System.next {}).map
    (fun system => (system.modem.ready, system.lte.ready, system.modem.queue)) = some (true, false, []) := by
  decide

end Runs

end CoapsClient.ModemState
