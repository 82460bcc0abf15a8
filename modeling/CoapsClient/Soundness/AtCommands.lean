import CoapsClient.Machine.Path
import CoapsClient.Model.Modem.AtCommands

/-! # One AT command at a time

A thread that is in a function of `modem_at.c` owns the mutex. The response handler is set by the owner and cleared without
the mutex, so that what the owner has checked stays true, and a handler that is set belongs to the one request that is on
its way. `Slot` says which of the five situations the modem is in.
-/

namespace CoapsClient.ModemAtCmd

open Machine (Path Mutex)
open ShCmd (Text)

variable {ι η : Type*}

/-- The thread has checked that there is no response handler, or has set it. -/
def Pc.active : Pc η → Bool
  | checked _ | sent _ | replied _ _ | owns _ _ => true
  | _ => false

/-- The thread waits for the modem, or has set the response handler. -/
def Pc.engaged : Pc η → Bool
  | sent _ | owns _ _ => true
  | _ => false

theorem Pc.active_of_engaged {pc : Pc η} (engaged : pc.engaged = true) : pc.active = true := by
  cases pc <;> first | rfl | exact engaged

/-- What `lte_at_response_skip` is while a request is sent. -/
def Stage.skipOf (skip : Option Text) : Stage → Option Text
  | .skip | .clear => none
  | .send | .reset => skip

/-- What it is while a response is handled. -/
def Handling.skipOf (skip : Option Text) : Handling η → Option Text
  | reset => none
  | _ => skip

/-- The request is not delivered yet. -/
def Handling.early : Handling η → Bool
  | called | read _ => true
  | _ => false

/-- What the modem is busy with. -/
inductive Slot (handler : Option η) (skip : Option Text) (response : Option (Response η))
    (outstanding : List (Command ι η)) (accepted : List (Request η)) (delivered : List (Delivery η)) (pc : ι → Pc η) : Prop
  | free (unset : handler = none) (plain : skip = none) (quiet : response = none) (none : outstanding = [])
      (all : accepted = delivered.map (·.request)) (apart : ∀ thread, (pc thread).engaged = false)
  | sync (thread : ι) (cmd : Text) (sent : pc thread = .sent cmd) (unset : handler = none) (plain : skip = none)
      (quiet : response = none) (one : outstanding = [.sync thread cmd]) (all : accepted = delivered.map (·.request))
  | owned (thread : ι) (request : Request η) (stage : Stage) (owns : pc thread = .owns request stage)
      (set : handler = some request.handler) (skips : skip = stage.skipOf request.skip) (quiet : response = none)
      (none : outstanding = []) (all : accepted = delivered.map (·.request))
  | waiting (request : Request η) (set : handler = some request.handler) (skips : skip = request.skip)
      (quiet : response = none) (one : outstanding = [.async request])
      (all : accepted = delivered.map (·.request) ++ [request]) (apart : ∀ thread, (pc thread).active = false)
  | handling (request : Request η) (text : Text) (handling : Handling η) (set : handler = some request.handler)
      (skips : skip = handling.skipOf request.skip) (calls : response = some ⟨request, text, handling⟩)
      (read : ∀ handler, handling = .read handler → handler = request.handler) (none : outstanding = [])
      (all : accepted = delivered.map (·.request) ++ if handling.early then [request] else [])
      (apart : ∀ thread, (pc thread).active = false)

/-- The invariant of the commands. -/
structure Keeps [DecidableEq ι] (state : At ι η) : Prop where
  inside : ∀ thread, state.pc thread ≠ .idle → 0 < state.mutex.level thread
  slot : Slot state.handler state.skip state.response state.outstanding state.accepted state.delivered state.pc
  buffer : ∀ thread cmd reply, state.pc thread = .replied cmd reply → state.buf = reply
  results : ∀ result ∈ state.results, result.buf = result.reply
  deliveries : ∀ delivery ∈ state.delivered, delivery.handler = delivery.request.handler ∧
    delivery.text = strip delivery.request.skip delivery.response

section Slots

variable [DecidableEq ι] {handler : Option η} {skip : Option Text} {response : Option (Response η)}
variable {outstanding : List (Command ι η)} {accepted : List (Request η)} {delivered : List (Delivery η)}
variable {pc : ι → Pc η} {thread : ι} {after : Pc η} {cmd text : Text} {request : Request η} {stage : Stage}

/-- A thread that does not engage the modem, before and after. -/
theorem Slot.move (slot : Slot handler skip response outstanding accepted delivered pc)
    (before : (pc thread).engaged = false) (afterwards : after.engaged = false)
    (checks : after.active = true → handler = none) :
    Slot handler skip response outstanding accepted delivered (Function.update pc thread after) := by
  have engaged : ∀ {other found}, pc other = found → found.engaged = true →
      Function.update pc thread after other = found := by
    intro other found here busy
    have apart : other ≠ thread := by
      rintro rfl
      rw [here, busy] at before
      exact Bool.true_eq_false.mp before
    rw [Function.update_of_ne apart, here]
  have quiet : (∀ other, (pc other).active = false) → handler ≠ none →
      ∀ other, (Function.update pc thread after other).active = false := by
    intro apart set other
    by_cases same : other = thread
    · rw [same, Function.update_self]
      exact Bool.eq_false_iff.mpr fun active => set (checks active)
    · rw [Function.update_of_ne same]
      exact apart other
  cases slot with
  | free unset plain quiet none all apart =>
    refine .free unset plain quiet none all fun other => ?_
    by_cases same : other = thread
    · rwa [same, Function.update_self]
    · rw [Function.update_of_ne same]
      exact apart other
  | sync owner cmd sent unset plain quiet one all => exact .sync owner cmd (engaged sent rfl) unset plain quiet one all
  | owned owner request stage owns set skips quiet none all =>
    exact .owned owner request stage (engaged owns rfl) set skips quiet none all
  | waiting request set skips calls one all apart =>
    exact .waiting request set skips calls one all (quiet apart (set ▸ Option.some_ne_none _))
  | handling request text handling set skips calls read none all apart =>
    exact .handling request text handling set skips calls read none all (quiet apart (set ▸ Option.some_ne_none _))

/-- A thread that owns the mutex and does not engage the modem finds it free, or its response handler set. -/
theorem Slot.of_checked (slot : Slot handler skip response outstanding accepted delivered pc)
    (alone : ∀ other, other ≠ thread → pc other = .idle) (active : (pc thread).active = true)
    (disengaged : (pc thread).engaged = false) :
    handler = none ∧ skip = none ∧ response = none ∧ outstanding = [] ∧ accepted = delivered.map (·.request) := by
  have absurd_engaged : ∀ {other found}, pc other = found → found.engaged = true → False := by
    intro other found here busy
    by_cases same : other = thread
    · rw [← same, here, busy] at disengaged
      exact Bool.true_eq_false.mp disengaged
    · rw [alone other same] at here
      subst here
      exact Bool.false_ne_true busy
  cases slot with
  | free unset plain quiet none all apart => exact ⟨unset, plain, quiet, none, all⟩
  | sync owner cmd sent unset plain quiet one all => exact (absurd_engaged sent rfl).elim
  | owned owner request stage owns set skips quiet none all => exact (absurd_engaged owns rfl).elim
  | waiting request set skips quiet one all apart => exact absurd ((apart thread).symm.trans active) Bool.false_ne_true
  | handling request text handling set skips calls read none all apart =>
    exact absurd ((apart thread).symm.trans active) Bool.false_ne_true

/-- The engaged thread that is there is the one the slot is about. -/
private theorem eq_of_engaged {other : ι} {found : Pc η} (alone : ∀ other, other ≠ thread → pc other = .idle)
    (there : pc other = found) (busy : found.engaged = true) : other = thread := by
  by_contra apart
  rw [alone other apart] at there
  subst there
  exact Bool.false_ne_true busy

theorem Slot.of_sent (slot : Slot handler skip response outstanding accepted delivered pc)
    (alone : ∀ other, other ≠ thread → pc other = .idle) (here : pc thread = .sent cmd) :
    handler = none ∧ skip = none ∧ response = none ∧ outstanding = [.sync thread cmd] ∧
      accepted = delivered.map (·.request) := by
  cases slot with
  | free unset plain quiet none all apart =>
    exact absurd ((apart thread).symm.trans (congrArg Pc.engaged here)) Bool.false_ne_true
  | sync owner cmd sent unset plain quiet one all =>
    obtain rfl := eq_of_engaged alone sent rfl
    obtain rfl := Pc.sent.inj (sent.symm.trans here)
    exact ⟨unset, plain, quiet, one, all⟩
  | owned owner request stage owns set skips quiet none all =>
    obtain rfl := eq_of_engaged alone owns rfl
    exact nomatch owns.symm.trans here
  | waiting request set skips quiet one all apart =>
    exact absurd ((apart thread).symm.trans (congrArg Pc.active here)) Bool.false_ne_true
  | handling request text handling set skips calls read none all apart =>
    exact absurd ((apart thread).symm.trans (congrArg Pc.active here)) Bool.false_ne_true

theorem Slot.of_owns (slot : Slot handler skip response outstanding accepted delivered pc)
    (alone : ∀ other, other ≠ thread → pc other = .idle) (here : pc thread = .owns request stage) :
    handler = some request.handler ∧ skip = stage.skipOf request.skip ∧ response = none ∧ outstanding = [] ∧
      accepted = delivered.map (·.request) := by
  cases slot with
  | free unset plain quiet none all apart =>
    exact absurd ((apart thread).symm.trans (congrArg Pc.engaged here)) Bool.false_ne_true
  | sync owner cmd sent unset plain quiet one all =>
    obtain rfl := eq_of_engaged alone sent rfl
    exact nomatch sent.symm.trans here
  | owned owner request stage owns set skips quiet none all =>
    obtain rfl := eq_of_engaged alone owns rfl
    obtain ⟨rfl, rfl⟩ := Pc.owns.inj (owns.symm.trans here)
    exact ⟨set, skips, quiet, none, all⟩
  | waiting request set skips quiet one all apart =>
    exact absurd ((apart thread).symm.trans (congrArg Pc.active here)) Bool.false_ne_true
  | handling request text handling set skips calls read none all apart =>
    exact absurd ((apart thread).symm.trans (congrArg Pc.active here)) Bool.false_ne_true

/-- The modem answers the request that waits. -/
theorem Slot.answer [DecidableEq η] (slot : Slot handler skip response outstanding accepted delivered pc)
    (sent : .async request ∈ outstanding) :
    Slot handler skip (some ⟨request, text, .called⟩) (outstanding.erase (.async request)) accepted delivered pc := by
  cases slot with
  | free unset plain quiet none all apart => exact absurd (none ▸ sent) List.not_mem_nil
  | sync owner cmd busy unset plain quiet one all =>
    rw [one] at sent
    exact nomatch List.mem_singleton.mp sent
  | owned owner request stage owns set skips quiet none all => exact absurd (none ▸ sent) List.not_mem_nil
  | waiting request set skips quiet one all apart =>
    rw [one] at sent
    obtain rfl := Command.async.inj (List.mem_singleton.mp sent)
    exact .handling request text .called set skips rfl nofun (by rw [one, List.erase_cons_head]) all apart
  | handling request text handling set skips calls read none all apart => exact absurd (none ▸ sent) List.not_mem_nil

omit [DecidableEq ι] in
/-- The response handler goes on with the request that it was called for. -/
theorem Slot.of_response {called : Response η} (slot : Slot handler skip response outstanding accepted delivered pc)
    (calls : response = some called) :
    handler = some called.request.handler ∧ skip = called.handling.skipOf called.request.skip ∧
      (∀ handler, called.handling = .read handler → handler = called.request.handler) ∧ outstanding = [] ∧
      accepted = delivered.map (·.request) ++ (if called.handling.early then [called.request] else []) ∧
      ∀ thread, (pc thread).active = false := by
  cases slot with
  | free unset plain quiet none all apart => exact nomatch quiet.symm.trans calls
  | sync owner cmd busy unset plain quiet one all => exact nomatch quiet.symm.trans calls
  | owned owner request stage owns set skips quiet none all => exact nomatch quiet.symm.trans calls
  | waiting request set skips quiet one all apart => exact nomatch quiet.symm.trans calls
  | handling request text handling set skips called' read none all apart =>
    obtain rfl := Option.some.inj (called'.symm.trans calls)
    exact ⟨set, skips, read, none, all, apart⟩

end Slots

section Steps

variable [DecidableEq ι] {state after : At ι η} {thread : ι} {pc : Pc η} {cmd text : Text} {event : Event ι η}

/-- Only one thread is in a function. -/
theorem Keeps.alone (keeps : Keeps state) (busy : state.pc thread ≠ .idle) :
    ∀ other, other ≠ thread → state.pc other = .idle := by
  intro other apart
  by_contra there
  exact apart (Mutex.level_unique (keeps.inside other there) (keeps.inside thread busy))

/-- A thread that stays in its function, or leaves it with the mutex. -/
private theorem inside_update (inside : ∀ thread, state.pc thread ≠ .idle → 0 < state.mutex.level thread)
    (busy : state.pc thread ≠ .idle) :
    ∀ other, Function.update state.pc thread pc other ≠ .idle → 0 < state.mutex.level other := by
  intro other there
  by_cases same : other = thread
  · exact same ▸ inside thread busy
  · rw [Function.update_of_ne same] at there
    exact inside other there

/-- A thread that locks or unlocks the mutex: the others are in no function. -/
private theorem inside_mutex {mutex : Mutex ι} (inside : ∀ thread, state.pc thread ≠ .idle → 0 < state.mutex.level thread)
    (others : ∀ other, other ≠ thread → state.mutex.level other = 0 ∧ mutex.level other = 0)
    (own : pc ≠ .idle → 0 < mutex.level thread) :
    ∀ other, Function.update state.pc thread pc other ≠ .idle → 0 < mutex.level other := by
  intro other there
  by_cases same : other = thread
  · subst same
    rw [Function.update_self] at there
    exact own there
  · rw [Function.update_of_ne same] at there
    exact absurd (inside other there) (Nat.not_lt.mpr (Nat.le_of_eq (others other same).1))

/-- What the owner changes is read by no other thread. -/
private theorem buffer_update {buf : Text} (alone : ∀ other, other ≠ thread → state.pc other = .idle)
    (own : ∀ cmd reply, pc = .replied cmd reply → buf = reply) :
    ∀ other cmd reply, Function.update state.pc thread pc other = .replied cmd reply → buf = reply := by
  intro other cmd reply there
  by_cases same : other = thread
  · rw [same, Function.update_self] at there
    exact own cmd reply there
  · rw [Function.update_of_ne same, alone other same] at there
    exact nomatch there

/-- A thread that has no reply leaves the replies as they are. -/
private theorem buffer_move (buffer : ∀ thread cmd reply, state.pc thread = .replied cmd reply → state.buf = reply)
    (own : ∀ cmd reply, pc ≠ .replied cmd reply) :
    ∀ other cmd reply, Function.update state.pc thread pc other = .replied cmd reply → state.buf = reply := by
  intro other cmd reply there
  by_cases same : other = thread
  · rw [same, Function.update_self] at there
    exact absurd there (own cmd reply)
  · rw [Function.update_of_ne same] at there
    exact buffer other cmd reply there

/-- A thread that takes the mutex. -/
private theorem keeps_lock {mutex : Mutex ι} (keeps : Keeps state) (idle : state.pc thread = .idle)
    (locked : state.mutex.lock thread = some mutex) (pc : Pc η) (inactive : pc.active = false) :
    Keeps { state.setPc thread pc with mutex } := by
  obtain ⟨level, others⟩ := Mutex.level_lock locked
  refine ⟨inside_mutex keeps.inside others fun _ => level ▸ Nat.succ_pos _, ?_, ?_, keeps.results, keeps.deliveries⟩
  · refine keeps.slot.move (by rw [idle]; rfl) ?_ fun active => absurd (inactive.symm.trans active) Bool.false_ne_true
    exact Bool.eq_false_iff.mpr fun engaged =>
      absurd (inactive.symm.trans (Pc.active_of_engaged engaged)) Bool.false_ne_true
  · refine buffer_move keeps.buffer fun cmd reply same => ?_
    subst same
    exact Bool.true_eq_false.mp inactive

/-- A thread that stays in its function and engages nothing. -/
private theorem keeps_move (keeps : Keeps state) (busy : state.pc thread ≠ .idle)
    (before : (state.pc thread).engaged = false)
    (pc : Pc η) (engaged : pc.engaged = false) (checks : pc.active = true → state.handler = none)
    (own : ∀ cmd reply, pc ≠ .replied cmd reply) : Keeps (state.setPc thread pc) :=
  ⟨inside_update keeps.inside busy, keeps.slot.move before engaged checks, buffer_move keeps.buffer own, keeps.results,
    keeps.deliveries⟩

/-- A thread that unlocks the mutex and is in no function afterwards. -/
private theorem keeps_unlock {mutex : Mutex ι} (keeps : Keeps state) (unlocked : state.mutex.unlock thread = some mutex)
    (before : (state.pc thread).engaged = false) : Keeps { state.setPc thread .idle with mutex } := by
  obtain ⟨-, others⟩ := Mutex.level_unlock unlocked
  exact ⟨inside_mutex keeps.inside others fun busy => absurd rfl busy, keeps.slot.move before rfl nofun,
    buffer_move keeps.buffer nofun, keeps.results, keeps.deliveries⟩

/-- `nrf_modem_at_cmd` is called. -/
private theorem keeps_send (keeps : Keeps state) (here : state.pc thread = .checked cmd) :
    Keeps { state.setPc thread (.sent cmd) with outstanding := state.outstanding ++ [.sync thread cmd] } := by
  have busy : state.pc thread ≠ .idle := by rw [here]; exact nofun
  obtain ⟨unset, plain, quiet, none, all⟩ :=
    keeps.slot.of_checked (keeps.alone busy) (by rw [here]; rfl) (by rw [here]; rfl)
  refine ⟨inside_update keeps.inside busy, ?_, buffer_move keeps.buffer nofun, keeps.results, keeps.deliveries⟩
  exact .sync thread cmd (Function.update_self _ _ _) unset plain quiet (congrArg (· ++ [_]) none) all

/-- The response handler is set. -/
private theorem keeps_cas {request : Request η} (keeps : Keeps state) (here : state.pc thread = .asyncLocked request)
    (unset : state.handler = none) :
    Keeps { state.setPc thread (.owns request .skip) with handler := some request.handler } := by
  have busy : state.pc thread ≠ .idle := by rw [here]; exact nofun
  refine ⟨inside_update keeps.inside busy, ?_, buffer_move keeps.buffer nofun, keeps.results, keeps.deliveries⟩
  cases keeps.slot with
  | free _ plain quiet none all _ => exact .owned thread request .skip (Function.update_self _ _ _) rfl plain quiet none all
  | sync owner cmd sent _ _ _ _ _ =>
    obtain rfl := eq_of_engaged (keeps.alone busy) sent rfl
    exact nomatch sent.symm.trans here
  | owned _ _ _ _ set _ _ _ _ => exact nomatch set.symm.trans unset
  | waiting _ set _ _ _ _ _ => exact nomatch set.symm.trans unset
  | handling _ _ _ set _ _ _ _ _ _ => exact nomatch set.symm.trans unset

/-- The owner of the response handler goes on. -/
private theorem keeps_async {request : Request η} {stage : Stage} (keeps : Keeps state)
    (here : state.pc thread = .owns request stage) (accepts : Bool) :
    Keeps (state.nextAsync thread request accepts stage) := by
  have busy : state.pc thread ≠ .idle := by rw [here]; exact nofun
  have alone := keeps.alone busy
  obtain ⟨set, skips, quiet, none, all⟩ := keeps.slot.of_owns alone here
  have apart : ∀ other, (Function.update state.pc thread .leaving other).active = false := by
    intro other
    by_cases same : other = thread
    · rw [same, Function.update_self]
      rfl
    · rw [Function.update_of_ne same, alone other same]
      rfl
  cases stage with
  | skip =>
    exact ⟨inside_update keeps.inside busy,
      .owned thread request .send (Function.update_self _ _ _) set rfl quiet none all, buffer_move keeps.buffer nofun,
      keeps.results, keeps.deliveries⟩
  | send =>
    cases accepts with
    | true =>
      refine ⟨inside_update keeps.inside busy, ?_, buffer_move keeps.buffer nofun, keeps.results, keeps.deliveries⟩
      exact .waiting request set skips quiet (congrArg (· ++ [_]) none) (congrArg (· ++ [_]) all) apart
    | false =>
      exact ⟨inside_update keeps.inside busy,
        .owned thread request .reset (Function.update_self _ _ _) set skips quiet none all, buffer_move keeps.buffer nofun,
        keeps.results, keeps.deliveries⟩
  | reset =>
    exact ⟨inside_update keeps.inside busy,
      .owned thread request .clear (Function.update_self _ _ _) set rfl quiet none all, buffer_move keeps.buffer nofun,
      keeps.results, keeps.deliveries⟩
  | clear =>
    refine ⟨inside_update keeps.inside busy, .free rfl skips quiet none all fun other => ?_, buffer_move keeps.buffer nofun,
      keeps.results, keeps.deliveries⟩
    exact Bool.eq_false_iff.mpr fun engaged =>
      absurd ((apart other).symm.trans (Pc.active_of_engaged engaged)) Bool.false_ne_true

/-- The response handler goes on. -/
private theorem keeps_handle {response : Response η} (keeps : Keeps state) (calls : state.response = some response) :
    Keeps (state.nextHandle response.request response.response response.handling) := by
  obtain ⟨set, skips, read, none, all, apart⟩ := keeps.slot.of_response calls
  obtain ⟨request, text, handling⟩ := response
  cases handling with
  | called =>
    refine ⟨keeps.inside, ?_, keeps.buffer, keeps.results, keeps.deliveries⟩
    refine .handling request text (.read request.handler) set skips ?_ ?_ none all apart
    · exact congrArg (Option.map _) set
    · rintro handler same
      exact (Handling.read.inj same).symm
  | read handler =>
    have same : handler = request.handler := read handler rfl
    refine ⟨keeps.inside, ?_, keeps.buffer, keeps.results, ?_⟩
    · refine .handling request text .handled set skips rfl nofun none ?_ apart
      exact all.trans (by simp [At.nextHandle, Handling.early])
    · intro delivery member
      rcases List.mem_append.mp member with member | member
      · exact keeps.deliveries delivery member
      · obtain rfl := List.mem_singleton.mp member
        exact ⟨same, congrArg (strip · text) skips⟩
  | handled =>
    exact ⟨keeps.inside, .handling request text .reset set rfl rfl nofun none all apart, keeps.buffer, keeps.results,
      keeps.deliveries⟩
  | reset =>
    refine ⟨keeps.inside, .free rfl skips rfl none (all.trans (List.append_nil _)) fun other => ?_, keeps.buffer,
      keeps.results, keeps.deliveries⟩
    exact Bool.eq_false_iff.mpr fun engaged =>
      absurd ((apart other).symm.trans (Pc.active_of_engaged engaged)) Bool.false_ne_true

variable [DecidableEq η]

/-- The modem is free when a thread has its answer. -/
private theorem slot_answered (keeps : Keeps state) (here : state.pc thread = .sent cmd) (pc : Pc η)
    (disengaged : pc.engaged = false) :
    Slot state.handler state.skip state.response (state.outstanding.erase (.sync thread cmd)) state.accepted state.delivered
      (Function.update state.pc thread pc) := by
  have busy : state.pc thread ≠ .idle := by rw [here]; exact nofun
  obtain ⟨unset, plain, quiet, one, all⟩ := keeps.slot.of_sent (keeps.alone busy) here
  refine .free unset plain quiet (by rw [one]; exact List.erase_cons_head ..) all fun other => ?_
  by_cases same : other = thread
  · rwa [same, Function.update_self]
  · rw [Function.update_of_ne same, keeps.alone busy other same]
    rfl

/-- The modem replies. -/
private theorem keeps_reply (keeps : Keeps state) (here : state.pc thread = .sent cmd) :
    Keeps { state.setPc thread (.replied cmd text) with
      buf := text, outstanding := state.outstanding.erase (.sync thread cmd) } := by
  have busy : state.pc thread ≠ .idle := by rw [here]; exact nofun
  refine ⟨inside_update keeps.inside busy, slot_answered keeps here _ rfl, ?_, keeps.results, keeps.deliveries⟩
  exact buffer_update (keeps.alone busy) fun _ _ same => (Pc.replied.inj same).2

/-- The modem returns an error. -/
private theorem keeps_fail (keeps : Keeps state) (here : state.pc thread = .sent cmd) :
    Keeps { state.setPc thread .leaving with outstanding := state.outstanding.erase (.sync thread cmd) } :=
  ⟨inside_update keeps.inside (by rw [here]; exact nofun), slot_answered keeps here _ rfl, buffer_move keeps.buffer nofun,
    keeps.results, keeps.deliveries⟩

/-- A step of any thread. -/
theorem keeps_step (keeps : Keeps state) (moved : state.next event = some after) : Keeps after := by
  unfold At.next at moved
  cases event with
  | lock thread cmd =>
    obtain ⟨idle, equal⟩ := Option.ite_none_right_eq_some.mp moved
    obtain ⟨mutex, locked, rfl⟩ := Option.map_eq_some_iff.mp equal
    exact keeps_lock keeps idle locked (.locked cmd) rfl
  | check thread =>
    dsimp only at moved
    split at moved
    · next cmd locked =>
      obtain rfl := Option.some.inj moved
      have busy : state.pc thread ≠ .idle := by rw [locked]; exact nofun
      have before : (state.pc thread).engaged = false := by rw [locked]; rfl
      split_ifs with set
      · exact keeps_move keeps busy before .leaving rfl nofun nofun
      · cases cmd with
        | none => exact keeps_move keeps busy before .idle rfl nofun nofun
        | some cmd =>
          exact keeps_move keeps busy before (.checked cmd) rfl (fun _ => Option.not_isSome_iff_eq_none.mp set) nofun
    · exact nomatch moved
  | leave thread =>
    obtain ⟨leaving, equal⟩ := Option.ite_none_right_eq_some.mp moved
    obtain ⟨mutex, unlocked, rfl⟩ := Option.map_eq_some_iff.mp equal
    exact keeps_unlock keeps unlocked (by rw [leaving]; rfl)
  | unlock thread =>
    obtain ⟨idle, equal⟩ := Option.ite_none_right_eq_some.mp moved
    obtain ⟨mutex, unlocked, rfl⟩ := Option.map_eq_some_iff.mp equal
    have stays : state.setPc thread .idle = state := by
      rw [At.setPc, ← idle, Function.update_eq_self]
    have := keeps_unlock keeps unlocked (by rw [idle]; rfl)
    rwa [stays] at this
  | print thread text =>
    have printed : 0 < state.mutex.level thread → (∀ cmd reply, state.pc thread ≠ .replied cmd reply) →
        Keeps { state with buf := text } := by
      intro owns own
      refine ⟨keeps.inside, keeps.slot, fun other cmd reply there => ?_, keeps.results, keeps.deliveries⟩
      have same := Mutex.level_unique (keeps.inside other (by rw [there]; exact nofun)) owns
      exact absurd (same ▸ there) (own cmd reply)
    dsimp only at moved
    split at moved
    · next idle =>
      obtain ⟨owns, equal⟩ := Option.ite_none_right_eq_some.mp moved
      obtain rfl := Option.some.inj equal
      exact printed owns (by rw [idle]; exact nofun)
    · next sends =>
      obtain ⟨owns, equal⟩ := Option.ite_none_right_eq_some.mp moved
      obtain rfl := Option.some.inj equal
      exact printed owns (by rw [sends]; exact nofun)
    · exact nomatch moved
  | send thread =>
    dsimp only at moved
    split at moved
    · next cmd checked =>
      obtain rfl := Option.some.inj moved
      exact keeps_send keeps checked
    · exact nomatch moved
  | reply thread text =>
    dsimp only at moved
    split at moved
    · next cmd sent =>
      obtain rfl := Option.some.inj moved
      exact keeps_reply keeps sent
    · exact nomatch moved
  | fail thread =>
    dsimp only at moved
    split at moved
    · next cmd sent =>
      obtain rfl := Option.some.inj moved
      exact keeps_fail keeps sent
    · exact nomatch moved
  | copy thread =>
    dsimp only at moved
    split at moved
    · next cmd reply replied =>
      obtain rfl := Option.some.inj moved
      have moves := keeps_move keeps (by rw [replied]; exact nofun) (by rw [replied]; rfl) .leaving rfl nofun nofun
      refine ⟨moves.inside, moves.slot, moves.buffer, fun result member => ?_, moves.deliveries⟩
      rcases List.mem_append.mp member with member | member
      · exact keeps.results result member
      · obtain rfl := List.mem_singleton.mp member
        exact keeps.buffer thread cmd reply replied
    · exact nomatch moved
  | lockAsync thread request =>
    obtain ⟨idle, equal⟩ := Option.ite_none_right_eq_some.mp moved
    obtain ⟨mutex, locked, rfl⟩ := Option.map_eq_some_iff.mp equal
    exact keeps_lock keeps idle locked (.asyncLocked request) rfl
  | cas thread =>
    dsimp only at moved
    split at moved
    · next request locked =>
      split_ifs at moved with unset
      · obtain rfl := Option.some.inj moved
        exact keeps_cas keeps locked (Option.isNone_iff_eq_none.mp unset)
      · obtain rfl := Option.some.inj moved
        exact keeps_move keeps (by rw [locked]; exact nofun) (by rw [locked]; rfl) .leaving rfl nofun nofun
    · exact nomatch moved
  | async thread accepts =>
    dsimp only at moved
    split at moved
    · next request stage owns =>
      obtain rfl := Option.some.inj moved
      exact keeps_async keeps owns accepts
    · exact nomatch moved
  | answer request response =>
    obtain ⟨⟨sent, quiet⟩, equal⟩ := Option.ite_none_right_eq_some.mp moved
    obtain rfl := Option.some.inj equal
    exact ⟨keeps.inside, keeps.slot.answer sent, keeps.buffer, keeps.results, keeps.deliveries⟩
  | handle =>
    obtain ⟨response, calls, rfl⟩ := Option.map_eq_some_iff.mp moved
    exact keeps_handle keeps calls

/-- A step of the threads. -/
def Step (state : At ι η) (event : Event ι η) (after : At ι η) : Prop := state.next event = some after

variable {events : List (Event ι η)}

theorem keeps_path (path : Path Step ({} : At ι η) events state) : Keeps state :=
  path.invariant Keeps (fun _ _ _ keeps moved => keeps_step keeps moved)
    ⟨fun _ busy => absurd rfl busy, .free rfl rfl rfl rfl rfl fun _ => rfl, nofun, nofun, nofun⟩

/-- However the threads alternate, the modem has at most one command that it has not answered, of all threads and of both
kinds, and a thread copies the reply to its own command out of the buffer. -/
theorem one_command_at_a_time (path : Path Step ({} : At ι η) events state) :
    state.outstanding.length ≤ 1 ∧ (state.response.isSome → state.outstanding = []) ∧
      ∀ result ∈ state.results, result.buf = result.reply := by
  have keeps := keeps_path path
  refine ⟨?_, ?_, keeps.results⟩
  · cases keeps.slot with
    | free _ _ _ none _ _ => exact none ▸ Nat.zero_le 1
    | sync _ _ _ _ _ _ one _ => exact one ▸ Nat.le_refl 1
    | owned _ _ _ _ _ _ _ none _ => exact none ▸ Nat.zero_le 1
    | waiting _ _ _ _ one _ _ => exact one ▸ Nat.le_refl 1
    | handling _ _ _ _ _ _ _ none _ _ => exact none ▸ Nat.zero_le 1
  · intro some
    obtain ⟨response, calls⟩ := Option.isSome_iff_exists.mp some
    exact (keeps.slot.of_response calls).2.2.2.1

/-- Two threads with a request and a command each. -/
def alternate : List (Event Bool ℕ) :=
  [.lockAsync false ⟨7, some "%X: ".toList, "AT%X".toList⟩, .cas false, .async false true, .async false true, .leave false,
    .lock true (some "AT".toList), .check true, .answer ⟨7, some "%X: ".toList, "AT%X".toList⟩ "%x: 1".toList, .leave true,
    .handle, .handle, .handle, .handle, .lock true (some "AT".toList), .check true, .send true, .reply true "OK".toList,
    .copy true]

/-- The run exists. -/
theorem alternate_one_command : ∃ state, Path Step ({} : At Bool ℕ) alternate state ∧
    state.outstanding.length ≤ 1 ∧ (state.response.isSome → state.outstanding = []) ∧
      ∀ result ∈ state.results, result.buf = result.reply := by
  have runs : (alternate.foldlM At.next ({} : At Bool ℕ)).isSome := by decide
  obtain ⟨state, ran⟩ := Option.isSome_iff_exists.mp runs
  have path : Path Step ({} : At Bool ℕ) alternate state := Path.of_foldlM ran
  exact ⟨state, path, one_command_at_a_time path⟩

/-- However the threads alternate, the requests that the modem took are those whose responses were delivered, in the same
order, and at most one that is on its way; each response was delivered to the handler of its request, behind the text the
request skips; and while no handler is set, none is missing. -/
theorem responses_delivered_once (path : Path Step ({} : At ι η) events state) :
    (∃ missing, state.accepted = state.delivered.map (·.request) ++ missing ∧ missing.length ≤ 1 ∧
      (state.handler = none → missing = [])) ∧
      ∀ delivery ∈ state.delivered, delivery.handler = delivery.request.handler ∧
        delivery.text = strip delivery.request.skip delivery.response := by
  have keeps := keeps_path path
  refine ⟨?_, keeps.deliveries⟩
  cases keeps.slot with
  | free _ _ _ _ all _ => exact ⟨[], all.trans (List.append_nil _).symm, Nat.zero_le 1, fun _ => rfl⟩
  | sync _ _ _ _ _ _ _ all => exact ⟨[], all.trans (List.append_nil _).symm, Nat.zero_le 1, fun _ => rfl⟩
  | owned _ _ _ _ _ _ _ _ all => exact ⟨[], all.trans (List.append_nil _).symm, Nat.zero_le 1, fun _ => rfl⟩
  | waiting request set _ _ _ all _ =>
    exact ⟨[request], all, Nat.le_refl 1, fun unset => nomatch set.symm.trans unset⟩
  | handling request _ handling set _ _ _ _ all _ =>
    refine ⟨_, all, ?_, fun unset => nomatch set.symm.trans unset⟩
    split_ifs
    · exact Nat.le_refl 1
    · exact Nat.zero_le 1

/-- The run exists. -/
theorem alternate_delivered_once : ∃ state, Path Step ({} : At Bool ℕ) alternate state ∧
    (∃ missing, state.accepted = state.delivered.map (·.request) ++ missing ∧ missing.length ≤ 1 ∧
      (state.handler = none → missing = [])) ∧
      ∀ delivery ∈ state.delivered, delivery.handler = delivery.request.handler ∧
        delivery.text = strip delivery.request.skip delivery.response := by
  have runs : (alternate.foldlM At.next ({} : At Bool ℕ)).isSome := by decide
  obtain ⟨state, ran⟩ := Option.isSome_iff_exists.mp runs
  have path : Path Step ({} : At Bool ℕ) alternate state := Path.of_foldlM ran
  exact ⟨state, path, responses_delivered_once path⟩

end Steps

end CoapsClient.ModemAtCmd
