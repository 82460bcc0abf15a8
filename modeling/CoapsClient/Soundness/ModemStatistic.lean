import CoapsClient.Machine.Spans
import CoapsClient.Model.Modem.Statistic

/-! # The times of the network

The statistic adds up what lies between two events of the modem that follow each other: from a wake-up to the connection, from
the connection to its end, from there to the sleep. So the times are those of different parts of a run, and they are never
longer together than the device is running.
-/

namespace CoapsClient.ModemState

open Machine Spans

/-- An event that ends a phase; the sleep with the active time that is expected. -/
inductive Mark where
  | woken
  | connected
  | idle
  | asleep (type : SleepType) (activeTime : ℤ)
deriving DecidableEq, Repr

/-- What an event is for the phases. -/
def Happening.mark (activeTime : ℤ) : Happening → Option Mark
  | .rrc connected => some (if connected then .connected else .idle)
  | .sleepEnter type => some (.asleep type activeTime)
  | .sleepExit => some .woken
  | _ => none

/-- The active time behind an event. -/
def Happening.activeTime (before : ℤ) : Happening → ℤ
  | .psm activeTime => activeTime
  | _ => before

/-- The events of a run that end a phase. -/
def marks (activeTime : ℤ) : List (ℤ × Happening) → List (ℤ × Mark) :=
  collect (fun activeTime happening => happening.mark activeTime) (fun before happening => happening.activeTime before)
    activeTime

/-- From a wake-up to the connection. -/
def wakes (first next : ℤ × Mark) : Bool := decide (first.2 = .woken ∧ next.2 = .connected)

/-- From a connection to its end. -/
def connects (first next : ℤ × Mark) : Bool := decide (first.2 = .connected ∧ next.2 = .idle)

/-- From the end of a connection to the sleep of PSM. -/
def rests (first next : ℤ × Mark) : Bool :=
  match first.2, next.2 with
  | .idle, .asleep .psm _ => true
  | _, _ => false

/-- Such a sleep that comes late. -/
def delays (first next : ℤ × Mark) : Bool :=
  match first.2, next.2 with
  | .idle, .asleep .psm activeTime => Statistic.delayed activeTime (next.1 - first.1)
  | _, _ => false

/-- The event that the phase began with. -/
def Statistic.mark (statistic : Statistic) : ℤ × Mark :=
  (statistic.phaseStartTime,
    match statistic.phase with
    | .asleep => .asleep .flightMode (-1)
    | .wakeup => .woken
    | .connected => .connected
    | .idle => .idle)

/-- The phases between some events were added. -/
structure AddsPhases (statistic next : Statistic) (history : List (ℤ × Mark)) : Prop where
  wakeups : next.lteWakeups = statistic.lteWakeups + UInt32.ofNat (durations wakes history).length
  wakeupTime : next.lteWakeupTime = statistic.lteWakeupTime + (durations wakes history).sum
  connectedTime : next.lteConnectedTime = statistic.lteConnectedTime + (durations connects history).sum
  asleepTime : next.lteAsleepTime = statistic.lteAsleepTime + (durations rests history).sum
  psmDelays : next.ltePsmDelays = statistic.ltePsmDelays + UInt32.ofNat (durations delays history).length
  psmDelayTime : next.ltePsmDelayTime = statistic.ltePsmDelayTime + (durations delays history).sum

variable {statistic next last : Statistic} {first mark : ℤ × Mark} {rest : List (ℤ × Mark)} {happening : Happening}

theorem AddsPhases.refl (statistic : Statistic) (mark : ℤ × Mark) : AddsPhases statistic statistic [mark] := by
  constructor <;> simp

/-- One phase, and those behind it. -/
theorem AddsPhases.trans (begins : AddsPhases statistic next [first, mark]) (goes : AddsPhases next last (mark :: rest)) :
    AddsPhases statistic last (first :: mark :: rest) := by
  have split (counts : ℤ × Mark → ℤ × Mark → Bool) : durations counts (first :: mark :: rest) =
      durations counts [first, mark] ++ durations counts (mark :: rest) := by
    rw [durations_cons_cons, durations_cons_cons, durations_single, List.append_nil]
  constructor
  · rw [split, List.length_append, UInt32.ofNat_add, ← UInt32.add_assoc, ← begins.wakeups, goes.wakeups]
  · rw [split, List.sum_append, ← Int.add_assoc, ← begins.wakeupTime, goes.wakeupTime]
  · rw [split, List.sum_append, ← Int.add_assoc, ← begins.connectedTime, goes.connectedTime]
  · rw [split, List.sum_append, ← Int.add_assoc, ← begins.asleepTime, goes.asleepTime]
  · rw [split, List.length_append, UInt32.ofNat_add, ← UInt32.add_assoc, ← begins.psmDelays, goes.psmDelays]
  · rw [split, List.sum_append, ← Int.add_assoc, ← begins.psmDelayTime, goes.psmDelayTime]

/-- Events between no phase ends. -/
theorem AddsPhases.before (same : AddsPhases statistic next [mark]) (goes : AddsPhases next last (mark :: rest)) :
    AddsPhases statistic last (mark :: rest) := by
  constructor
  · rw [goes.wakeups, same.wakeups]
    simp
  · rw [goes.wakeupTime, same.wakeupTime]
    simp
  · rw [goes.connectedTime, same.connectedTime]
    simp
  · rw [goes.asleepTime, same.asleepTime]
    simp
  · rw [goes.psmDelays, same.psmDelays]
    simp
  · rw [goes.psmDelayTime, same.psmDelayTime]
    simp

/-- Histories with the same spans. -/
theorem AddsPhases.of_same {history other : List (ℤ × Mark)} (adds : AddsPhases statistic next history)
    (same_wakes : durations wakes other = durations wakes history)
    (same_connects : durations connects other = durations connects history)
    (same_rests : durations rests other = durations rests history)
    (same_delays : durations delays other = durations delays history) : AddsPhases statistic next other where
  wakeups := same_wakes ▸ adds.wakeups
  wakeupTime := same_wakes ▸ adds.wakeupTime
  connectedTime := same_connects ▸ adds.connectedTime
  asleepTime := same_rests ▸ adds.asleepTime
  psmDelays := same_delays ▸ adds.psmDelays
  psmDelayTime := same_delays ▸ adds.psmDelayTime

/-- No phase begins with a sleep. -/
private theorem addsPhases_asleep {time : ℤ} {type : SleepType} {activeTime : ℤ} :
    AddsPhases statistic next ((time, .asleep type activeTime) :: rest) ↔ AddsPhases statistic next rest := by
  have wakes_none : durations wakes ((time, .asleep type activeTime) :: rest) = durations wakes rest :=
    durations_of_first fun _ => rfl
  have connects_none : durations connects ((time, .asleep type activeTime) :: rest) = durations connects rest :=
    durations_of_first fun _ => rfl
  have rests_none : durations rests ((time, .asleep type activeTime) :: rest) = durations rests rest :=
    durations_of_first fun _ => rfl
  have delays_none : durations delays ((time, .asleep type activeTime) :: rest) = durations delays rest :=
    durations_of_first fun _ => rfl
  exact ⟨fun adds => adds.of_same wakes_none.symm connects_none.symm rests_none.symm delays_none.symm,
    fun adds => adds.of_same wakes_none connects_none rests_none delays_none⟩

private theorem activeTime_next (statistic : Statistic) (now : ℤ) (happening : Happening) :
    (statistic.next now happening).activeTime = happening.activeTime statistic.activeTime := by
  cases happening with
  | registration status =>
    simp only [Statistic.next, Statistic.lteRegistration, Statistic.lteStartSearch, Statistic.lteEndSearch]
    split_ifs <;> rfl
  | rrc connected =>
    simp only [Statistic.next, Statistic.rrcUpdate]
    split_ifs <;> rfl
  | cell tac id =>
    simp only [Statistic.next, Statistic.lteUpdateCell]
    split_ifs <;> rfl
  | sleepEnter type =>
    simp only [Statistic.next, Statistic.modemSleepEnter]
    split_ifs <;> rfl
  | _ => rfl

/-- An event that ends no phase. -/
private theorem next_of_none (now : ℤ) (unmarked : happening.mark statistic.activeTime = none) :
    AddsPhases statistic (statistic.next now happening) [statistic.mark] ∧
      (statistic.next now happening).mark = statistic.mark := by
  have kept : ∀ next : Statistic, next.lteWakeups = statistic.lteWakeups → next.lteWakeupTime = statistic.lteWakeupTime →
      next.lteConnectedTime = statistic.lteConnectedTime → next.lteAsleepTime = statistic.lteAsleepTime →
      next.ltePsmDelays = statistic.ltePsmDelays → next.ltePsmDelayTime = statistic.ltePsmDelayTime →
      AddsPhases statistic next [statistic.mark] := by
    intro next wakeups wakeupTime connectedTime asleepTime psmDelays psmDelayTime
    constructor <;> simp [wakeups, wakeupTime, connectedTime, asleepTime, psmDelays, psmDelayTime]
  cases happening with
  | registration status =>
    simp only [Statistic.next, Statistic.lteRegistration, Statistic.lteStartSearch, Statistic.lteEndSearch]
    split_ifs <;> exact ⟨kept _ rfl rfl rfl rfl rfl rfl, rfl⟩
  | cell tac id =>
    simp only [Statistic.next, Statistic.lteUpdateCell]
    split_ifs <;> exact ⟨kept _ rfl rfl rfl rfl rfl rfl, rfl⟩
  | rrc connected => cases unmarked
  | sleepEnter type => cases unmarked
  | sleepExit => cases unmarked
  | _ => exact ⟨kept _ rfl rfl rfl rfl rfl rfl, rfl⟩

/-- An event that ends a phase. -/
private theorem next_of_mark (now : ℤ) {mark : Mark} (marked : happening.mark statistic.activeTime = some mark) :
    AddsPhases statistic (statistic.next now happening) [statistic.mark, (now, mark)] ∧
      ((statistic.next now happening).mark = (now, mark) ∨
        (∃ type activeTime, mark = .asleep type activeTime) ∧ (statistic.next now happening).phase = .asleep) := by
  cases happening with
  | rrc connected =>
    obtain rfl := Option.some.inj marked
    cases connected with
    | true =>
      refine ⟨?_, .inl ?_⟩
      · cases phase : statistic.phase <;> constructor <;>
          simp [Statistic.next, Statistic.rrcUpdate, Statistic.enters, Statistic.lteIncWakeups, Statistic.mark, phase,
            durations_cons_cons, wakes, connects, rests, delays]
      · rfl
    | false =>
      refine ⟨?_, .inl ?_⟩
      · cases phase : statistic.phase <;> constructor <;>
          simp [Statistic.next, Statistic.rrcUpdate, Statistic.enters, Statistic.lteAddConnected, Statistic.mark, phase,
            durations_cons_cons, wakes, connects, rests, delays]
      · rfl
  | sleepExit =>
    obtain rfl := Option.some.inj marked
    refine ⟨?_, .inl rfl⟩
    cases phase : statistic.phase <;> constructor <;>
      simp [Statistic.next, Statistic.enters, Statistic.mark, phase, durations_cons_cons, wakes, connects, rests, delays]
  | sleepEnter type =>
    obtain rfl := Option.some.inj marked
    refine ⟨?_, .inr ⟨⟨type, _, rfl⟩, rfl⟩⟩
    cases phase : statistic.phase with
    | idle =>
      cases type with
      | psm =>
        cases late : Statistic.delayed statistic.activeTime (now - statistic.phaseStartTime) <;> constructor <;>
          simp [Statistic.next, Statistic.modemSleepEnter, Statistic.lteAddAsleep, Statistic.lteIncPsmDelays, Statistic.mark,
            phase, late, durations_cons_cons, wakes, connects, rests, delays]
      | _ =>
        constructor <;>
          simp [Statistic.next, Statistic.modemSleepEnter, Statistic.mark, phase, durations_cons_cons, wakes, connects, rests,
            delays]
    | _ =>
      cases type <;> constructor <;>
        simp [Statistic.next, Statistic.modemSleepEnter, Statistic.mark, phase, durations_cons_cons, wakes, connects, rests,
          delays]
  | _ => cases marked

/-- The phases of a run are added. -/
private theorem run_phases (history : List (ℤ × Happening)) (statistic : Statistic) :
    AddsPhases statistic (statistic.run history) (statistic.mark :: marks statistic.activeTime history) := by
  induction history generalizing statistic with
  | nil => exact .refl statistic statistic.mark
  | cons event rest ih =>
    obtain ⟨now, happening⟩ := event
    have behind := ih (statistic.next now happening)
    rw [activeTime_next] at behind
    have split : marks statistic.activeTime ((now, happening) :: rest) =
        ((happening.mark statistic.activeTime).map fun mark => (now, mark)).toList ++
          marks (happening.activeTime statistic.activeTime) rest := rfl
    rw [split]
    cases marked : happening.mark statistic.activeTime with
    | none =>
      obtain ⟨adds, same⟩ := next_of_none now marked
      rw [same] at behind
      exact adds.before behind
    | some mark =>
      obtain ⟨adds, same | ⟨⟨type, activeTime, rfl⟩, asleep⟩⟩ := next_of_mark now marked
      · rw [same] at behind
        exact adds.trans behind
      · refine adds.trans (addsPhases_asleep.mpr ?_)
        rw [Statistic.mark, asleep] at behind
        exact addsPhases_asleep.mp behind

/-- The registrations of a run. -/
def registrations (history : List (ℤ × Happening)) : List (ℤ × RegStatus) :=
  collect (fun _ happening =>
    match happening with
    | .registration status => some status
    | _ => none) (fun _ _ => ()) () history

/-- From a search to the next registration. -/
def searches (first _next : ℤ × RegStatus) : Bool := decide (first.2 = .searching ∧ first.1 ≠ 0)

/-- The search that goes on. -/
def Statistic.search (statistic : Statistic) : ℤ × RegStatus :=
  (statistic.networkSearchTime, if statistic.networkSearchTime = 0 then .unknown else .searching)

/-- Only a registration changes the search. -/
private theorem search_next (statistic : Statistic) (now : ℤ) (other : ∀ status, happening ≠ .registration status) :
    (statistic.next now happening).networkSearchTime = statistic.networkSearchTime ∧
      (statistic.next now happening).lteSearchTime = statistic.lteSearchTime := by
  cases happening with
  | registration status => exact absurd rfl (other status)
  | rrc connected =>
    simp only [Statistic.next, Statistic.rrcUpdate]
    split_ifs <;> exact ⟨rfl, rfl⟩
  | cell tac id =>
    simp only [Statistic.next, Statistic.lteUpdateCell]
    split_ifs <;> exact ⟨rfl, rfl⟩
  | sleepEnter type =>
    simp only [Statistic.next, Statistic.modemSleepEnter]
    split_ifs <;> exact ⟨rfl, rfl⟩
  | _ => exact ⟨rfl, rfl⟩

/-- A registration ends a search, and begins one if the modem searches. -/
private theorem search_registration (statistic : Statistic) (now : ℤ) (status : RegStatus) (later : List (ℤ × RegStatus)) :
    (statistic.lteRegistration now status).lteSearchTime =
        statistic.lteSearchTime + (if searches statistic.search (now, status) then [now - statistic.search.1] else []).sum ∧
      durations searches ((statistic.lteRegistration now status).search :: later) =
        durations searches ((now, status) :: later) := by
  have added : searches statistic.search (now, status) = decide (statistic.networkSearchTime ≠ 0) := by
    by_cases none : statistic.networkSearchTime = 0 <;> simp [searches, Statistic.search, none]
  rw [added]
  by_cases searching : status = .searching
  · subst searching
    constructor
    · by_cases none : statistic.networkSearchTime = 0 <;>
        simp [Statistic.lteRegistration, Statistic.lteStartSearch, Statistic.search, none]
    · by_cases zero : now = 0
      · have none : durations searches ((now, .searching) :: later) = durations searches later :=
          durations_of_first fun next => by simp [searches, zero]
        rw [none]
        exact durations_of_first fun next => by
          simp [searches, Statistic.search, Statistic.lteRegistration, Statistic.lteStartSearch, zero]
      · have same : (statistic.lteRegistration now .searching).search = (now, .searching) := by
          simp [Statistic.search, Statistic.lteRegistration, Statistic.lteStartSearch, zero]
        rw [same]
  · constructor
    · by_cases none : statistic.networkSearchTime = 0 <;>
        simp [Statistic.lteRegistration, Statistic.lteEndSearch, Statistic.search, none, searching]
    · have ended : (statistic.lteRegistration now status).networkSearchTime = 0 := by
        by_cases none : statistic.networkSearchTime = 0 <;>
          simp [Statistic.lteRegistration, Statistic.lteEndSearch, none, searching]
      have none : durations searches ((now, status) :: later) = durations searches later :=
        durations_of_first fun next => by simp [searches, searching]
      rw [none]
      exact durations_of_first fun next => by simp [searches, Statistic.search, ended]

/-- The times of the searches are added. -/
private theorem run_searches (history : List (ℤ × Happening)) (statistic : Statistic) :
    (statistic.run history).lteSearchTime =
      statistic.lteSearchTime + (durations searches (statistic.search :: registrations history)).sum := by
  induction history generalizing statistic with
  | nil => exact (Int.add_zero _).symm
  | cons event rest ih =>
    obtain ⟨now, happening⟩ := event
    have behind : (statistic.run ((now, happening) :: rest)).lteSearchTime = _ := ih (statistic.next now happening)
    rw [behind]
    by_cases registers : ∃ status, happening = .registration status
    · obtain ⟨status, rfl⟩ := registers
      obtain ⟨added, same⟩ := search_registration statistic now status (registrations rest)
      have split : registrations ((now, .registration status) :: rest) = (now, status) :: registrations rest := rfl
      rw [split, durations_cons_cons, List.sum_append, ← Int.add_assoc, ← added, ← same]
      rfl
    · have other : ∀ status, happening ≠ .registration status := fun status same => registers ⟨status, same⟩
      obtain ⟨search, time⟩ := search_next statistic now other
      have split : registrations ((now, happening) :: rest) = registrations rest := by
        cases happening with
        | registration status => exact absurd rfl (other status)
        | _ => rfl
      rw [split, time]
      simp only [Statistic.search, search]

/-- The times are those between the events: from each wake-up that is followed by a connection to that connection, from each
connection to its end, from there to the sleep of PSM, and from each search to the next registration. What counts as delayed
is a sleep that comes more than five seconds behind the active time that the network has granted last. -/
theorem times_of_phases (history : List (ℤ × Happening)) :
    let statistic := ({} : Statistic).run history
    let phases := marks (-1) history
    statistic.lteWakeups = UInt32.ofNat (durations wakes phases).length ∧
      statistic.lteWakeupTime = (durations wakes phases).sum ∧
      statistic.lteConnectedTime = (durations connects phases).sum ∧
      statistic.lteAsleepTime = (durations rests phases).sum ∧
      statistic.ltePsmDelays = UInt32.ofNat (durations delays phases).length ∧
      statistic.ltePsmDelayTime = (durations delays phases).sum ∧
      statistic.lteSearchTime = (durations searches (registrations history)).sum := by
  have adds := addsPhases_asleep.mp (run_phases history {})
  have search := run_searches history {}
  rw [durations_of_first fun _ => rfl] at search
  refine ⟨?_, ?_, ?_, ?_, ?_, ?_, ?_⟩
  · exact adds.wakeups.trans (UInt32.zero_add _)
  · exact adds.wakeupTime.trans (Int.zero_add _)
  · exact adds.connectedTime.trans (Int.zero_add _)
  · exact adds.asleepTime.trans (Int.zero_add _)
  · exact adds.psmDelays.trans (UInt32.zero_add _)
  · exact adds.psmDelayTime.trans (Int.zero_add _)
  · exact search.trans (Int.zero_add _)

/-- If the clock does not go back, the times of waking up, of the connections and of the way to sleep are together not longer
than the device is running, and neither is that of the searches; the delayed sleeps are a part of the way to sleep. -/
theorem times_within_uptime (history : List (ℤ × Happening)) (order : InOrder history) (now : ℤ) (started : 0 ≤ now)
    (times : ∀ event ∈ history, 0 ≤ event.1 ∧ event.1 ≤ now) :
    let statistic := ({} : Statistic).run history
    0 ≤ statistic.lteWakeupTime ∧ 0 ≤ statistic.lteConnectedTime ∧ 0 ≤ statistic.ltePsmDelayTime ∧
      statistic.ltePsmDelayTime ≤ statistic.lteAsleepTime ∧
      statistic.lteWakeupTime + statistic.lteConnectedTime + statistic.lteAsleepTime ≤ now ∧
      0 ≤ statistic.lteSearchTime ∧ statistic.lteSearchTime ≤ now := by
  obtain ⟨-, wakeupTime, connectedTime, asleepTime, -, psmDelayTime, searchTime⟩ := times_of_phases history
  have phases : InOrder (marks (-1) history) := collect_inOrder order
  have found : InOrder (registrations history) := collect_inOrder order
  have phase_times : ∀ mark ∈ marks (-1) history, 0 ≤ mark.1 ∧ mark.1 ≤ now := by
    intro mark member
    obtain ⟨event, there, same⟩ := time_of_collect member
    exact same ▸ times event there
  have search_times : ∀ mark ∈ registrations history, 0 ≤ mark.1 ∧ mark.1 ≤ now := by
    intro mark member
    obtain ⟨event, there, same⟩ := time_of_collect member
    exact same ▸ times event there
  have two : ∀ first next, (wakes first next && connects first next) = false := by
    rintro ⟨_, first⟩ ⟨_, next⟩
    cases first <;> simp [wakes, connects]
  have three : ∀ first next, ((wakes first next || connects first next) && rests first next) = false := by
    rintro ⟨_, first⟩ ⟨_, next⟩
    cases first <;> simp [wakes, connects, rests]
  have part : ∀ first next, delays first next = true → rests first next = true := by
    rintro ⟨_, first⟩ ⟨_, next⟩
    cases first with
    | idle =>
      cases next with
      | asleep type activeTime => cases type <;> simp [delays, rests]
      | _ => simp [delays]
    | _ => simp [delays]
  have together : (durations (fun first next => wakes first next || connects first next || rests first next)
      (marks (-1) history)).sum ≤ now := durations_le_now phases started phase_times
  rw [← durations_or three, ← durations_or two] at together
  simp only [wakeupTime, connectedTime, asleepTime, psmDelayTime, searchTime]
  exact ⟨durations_nonneg phases, durations_nonneg phases, durations_nonneg phases, durations_mono part phases, together,
    durations_nonneg found, durations_le_now found started search_times⟩

/-- The modem is registered, sends, sleeps late, and wakes up to send again. -/
private def twoMessages : List (ℤ × Happening) :=
  [(1000, .registration .searching), (5000, .registration .registeredHome), (5100, .psm 2), (5200, .rrc true),
    (9000, .rrc false), (20000, .sleepEnter .psm), (30000, .sleepExit), (31000, .rrc true), (33000, .rrc false), (34000, .sleepEnter .psm)]

/-- The times of two messages. -/
theorem two_messages_within_uptime :
    let statistic := ({} : Statistic).run twoMessages
    (statistic.lteWakeupTime, statistic.lteConnectedTime, statistic.lteAsleepTime, statistic.ltePsmDelayTime,
        statistic.lteSearchTime) = (1000, 5800, 12000, 11000, 4000) ∧
      statistic.lteWakeupTime + statistic.lteConnectedTime + statistic.lteAsleepTime ≤ 34000 :=
  ⟨by decide, (times_within_uptime twoMessages (by rw [InOrder]; decide) 34000 (by decide) (by decide)).2.2.2.2.1⟩

end CoapsClient.ModemState
