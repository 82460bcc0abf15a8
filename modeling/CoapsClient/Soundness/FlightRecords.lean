import CoapsClient.Model.Dtls.Flight
import CoapsClient.Machine.Packing

/-! # The datagrams of a flight

The records of a flight are sent in datagrams of whole records, in their order, and the buffer is never left. The
client relies on two things that it does not check: a record of a flight is not empty and fits the buffer, and a flight
is not given up while its records are collected. Without the second, they are sent with the next flight.
-/

namespace CoapsClient.DtlsFlight

open Machine (Packs PacksUpTo packs_nil packsUpTo_nil)
open DtlsClient (maxDtlsBuf)

/-- What holds of the flights: the buffer is not too long, the datagrams of each flight that was sent are its records,
and so are those of the flight that is collected, with what is collected. -/
structure Channel.Kept (channel : Channel) : Prop where
  bound : channel.buffer.dtlsBufferLen ≤ maxDtlsBuf
  packs : PacksUpTo channel.flight.datagrams channel.buffer.collected channel.flight.records
  same : ∀ flight ∈ channel.sent, flight.datagrams.flatten = flight.records.flatten
  sent : ∀ flight ∈ channel.sent, Packs flight.datagrams flight.records

/-- Whether records are collected behind an event. -/
def Event.collects (collecting : Bool) : Event → Bool
  | .record _ dtlsFlight => collecting || decide (1 < dtlsFlight)
  | .flush _ => false
  | .connected => false

/-- A record of a flight fits and is not empty, and no flight is given up while records are collected. -/
def Event.Fits (collecting : Bool) : Event → Prop
  | .record data dtlsFlight => 1 < dtlsFlight → 0 < data.length ∧ data.length ≤ maxDtlsBuf
  | .flush dtlsFlight => dtlsFlight = 0 → collecting = false
  | .connected => True

/-- Each event of a sequence fits. -/
def Fits : Bool → List Event → Prop
  | _, [] => True
  | collecting, event :: events => event.Fits collecting ∧ Fits (event.collects collecting) events

/-- The flights are kept at every time. -/
def FlightsKept (events : List Event) : Prop :=
  ∀ done, done <+: events → ∃ channel, run done = some channel ∧ channel.Kept

section Step

variable {channel next : Channel} {collecting : Bool} {event : Event} {data : List UInt8} {dtlsFlight : ℕ}

/-- The flights are kept, and records are collected as it is noted. -/
structure Channel.Sound (channel : Channel) (collecting : Bool) : Prop extends channel.Kept where
  some_collected : collecting = true ↔ channel.buffer.dtlsBufferLen ≠ 0
  no_flight : channel.buffer.dtlsBufferLen = 0 → channel.flight = {}

private theorem initial_sound : Channel.Sound {} false where
  bound := Nat.zero_le _
  packs := packsUpTo_nil
  same _ found := absurd found List.not_mem_nil
  sent _ found := absurd found List.not_mem_nil
  some_collected := by decide
  no_flight _ := rfl

theorem Channel.Sound.collected_ne_nil (sound : channel.Sound collecting) (some : channel.buffer.dtlsBufferLen ≠ 0) :
    channel.buffer.collected ≠ [] := by
  intro none
  have length := collected_length sound.bound
  rw [none] at length
  exact some length.symm

/-- The flight is sent and collects nothing more. -/
theorem Channel.Sound.packed (sound : channel.Sound collecting) (some : channel.buffer.dtlsBufferLen ≠ 0) :
    Packs (channel.flight.datagrams ++ [channel.buffer.collected]) channel.flight.records :=
  sound.packs.close (sound.collected_ne_nil some)

/-- A record of a flight is collected, if it fits behind what the buffer holds then. -/
theorem Channel.Sound.collect (sound : channel.Sound collecting) {start moved : Buffer} {datagrams : List (List UInt8)}
    (packs : PacksUpTo datagrams start.collected channel.flight.records) (appended : start.append data = some moved)
    (some : 0 < data.length) :
    Channel.Sound { channel with buffer := moved, flight := ⟨channel.flight.records ++ [data], datagrams⟩ } true := by
  obtain ⟨collected, length, bound⟩ := append_collected appended
  have nonempty : moved.dtlsBufferLen ≠ 0 := by omega
  exact {
    bound := bound
    packs := by
      rw [collected]
      exact packs.collect data
    same := sound.same
    sent := sound.sent
    some_collected := by simpa using nonempty
    no_flight := fun none => absurd none nonempty }

/-- A record of a flight. -/
theorem Channel.Sound.record (sound : channel.Sound collecting) (some : 0 < data.length)
    (fits : data.length ≤ maxDtlsBuf) (collects : 1 < dtlsFlight) :
    ∃ next, step channel (.record data dtlsFlight) = .some next ∧ next.Sound true := by
  have room : ∀ start : Buffer, start.dtlsBufferLen + data.length ≤ maxDtlsBuf → ∃ moved, start.append data = .some moved :=
    fun start place => ⟨_, append_eq_some_iff.mpr ⟨place, rfl⟩⟩
  have nonempty : data.length ≠ 0 := by omega
  by_cases full : maxDtlsBuf < channel.buffer.dtlsBufferLen + data.length
  · obtain ⟨moved, appended⟩ := room channel.buffer.send.1 (by simpa [Buffer.send] using fits)
    have packed := (sound.packed (by omega)).upTo
    rw [← @send_collected channel.buffer] at packed
    refine ⟨_, ?_, sound.collect packed appended some⟩
    simp only [step, dtlsSendToPeer, if_pos collects, if_pos full, appended, if_neg nonempty, Option.map_some]
    rfl
  · obtain ⟨moved, appended⟩ := room channel.buffer (by omega)
    refine ⟨_, ?_, sound.collect sound.packs appended some⟩
    simp only [step, dtlsSendToPeer, if_pos collects, if_neg full, appended, if_neg nonempty, Option.map_some,
      List.append_nil]

/-- A record that is longer than the buffer is written behind it. -/
private theorem step_record_long (long : maxDtlsBuf < data.length) (collects : 1 < dtlsFlight) :
    step channel (.record data dtlsFlight) = none := by
  have outside : ∀ start : Buffer, start.append data = none := by
    intro start
    unfold Buffer.append
    rw [if_neg (by omega)]
  simp only [step, dtlsSendToPeer, if_pos collects, outside, Option.map_none]

/-- An empty record is an empty datagram. -/
private theorem not_kept_of_empty (collects : 1 < dtlsFlight) (ran : step channel (.record [] dtlsFlight) = some next) :
    ¬ next.Kept := by
  intro kept
  have empty : [] ∈ next.flight.datagrams := by
    simp only [step, dtlsSendToPeer, if_pos collects, Option.map_eq_some_iff] at ran
    obtain ⟨result, appended, rfl⟩ := ran
    split at appended
    · contradiction
    · obtain rfl := Option.some.inj appended
      simp
  obtain ⟨closed, rest, -, packed, -⟩ := kept.packs
  exact packed.2 [] empty rfl

/-- The flight of a flush is sent. -/
theorem Channel.Sound.flush (sound : channel.Sound collecting) (given : dtlsFlight = 0 → collecting = false) :
    ∃ next, step channel (.flush dtlsFlight) = some next ∧ next.Sound false := by
  refine ⟨_, rfl, ?_⟩
  by_cases none : channel.buffer.dtlsBufferLen = 0
  · have kept : DtlsFlight.flush channel.buffer dtlsFlight = (channel.buffer, []) := if_neg fun both => both.2 none
    have collected : channel.buffer.collected = [] := by rw [Buffer.collected, none, List.take_zero]
    simp only [kept, List.isEmpty_nil, if_true]
    exact {
      bound := sound.bound
      packs := collected.symm ▸ packsUpTo_nil
      same := sound.same
      sent := sound.sent
      some_collected := by simpa using none
      no_flight := fun _ => rfl }
  · have flying : dtlsFlight ≠ 0 := fun zero => by
      have collects := sound.some_collected.mpr none
      simp [given zero] at collects
    have sends : DtlsFlight.flush channel.buffer dtlsFlight = channel.buffer.send := if_pos ⟨flying, none⟩
    have packed := sound.packed none
    simp only [sends, Buffer.send, List.isEmpty_cons, Bool.false_eq_true, if_false]
    exact {
      bound := Nat.zero_le _
      packs := packsUpTo_nil
      same := fun flight found => by
        rcases List.mem_append.mp found with found | found
        · exact sound.same flight found
        · obtain rfl := List.mem_singleton.mp found
          exact packed.flatten_eq
      sent := fun flight found => by
        rcases List.mem_append.mp found with found | found
        · exact sound.sent flight found
        · obtain rfl := List.mem_singleton.mp found
          exact packed
      some_collected := by simp
      no_flight := fun _ => rfl }

/-- Records of a flight that is given up stay in the buffer. -/
theorem Channel.Sound.not_kept_of_given_up (sound : channel.Sound true)
    (ran : DtlsFlight.step channel (.flush 0) = some next) : ¬ next.Kept := by
  intro kept
  have some := sound.collected_ne_nil (sound.some_collected.mp rfl)
  obtain rfl := Option.some.inj ran
  have together := kept.packs.flatten_eq
  exact some (by simpa [DtlsFlight.flush] using together)

theorem Channel.Sound.connected (sound : channel.Sound collecting) :
    ∃ next, step channel .connected = some next ∧ next.Sound false :=
  ⟨_, rfl, {
    bound := Nat.zero_le _
    packs := packsUpTo_nil
    same := sound.same
    sent := sound.sent
    some_collected := by simp
    no_flight := fun _ => rfl }⟩

/-- An event that fits keeps the flights. -/
theorem Channel.Sound.step (sound : channel.Sound collecting) (fits : event.Fits collecting) :
    ∃ next, step channel event = some next ∧ next.Sound (event.collects collecting) := by
  cases event with
  | flush dtlsFlight => exact sound.flush fits
  | connected => exact sound.connected
  | record data dtlsFlight =>
    by_cases collects : 1 < dtlsFlight
    · obtain ⟨some, fits⟩ := fits collects
      simpa [Event.collects, collects] using sound.record some fits collects
    · refine ⟨channel, ?_, by simpa [Event.collects, collects] using sound⟩
      simp only [DtlsFlight.step, dtlsSendToPeer, if_neg collects, Option.map_some]

/-- An event that does not fit loses a flight. -/
theorem Channel.Sound.fits_of_kept (sound : channel.Sound collecting) (ran : DtlsFlight.step channel event = some next)
    (kept : next.Kept) : event.Fits collecting := by
  cases event with
  | connected => trivial
  | flush dtlsFlight =>
    rintro rfl
    cases collecting with
    | false => rfl
    | true => exact absurd kept (sound.not_kept_of_given_up ran)
  | record data dtlsFlight =>
    intro collects
    constructor
    · refine List.length_pos_iff.mpr ?_
      rintro rfl
      exact not_kept_of_empty collects ran kept
    · refine not_lt.mp fun long => ?_
      rw [step_record_long long collects] at ran
      contradiction

/-- From a sound channel the flights of a sequence are kept exactly if each of its events fits. -/
theorem Channel.Sound.run_iff (sound : channel.Sound collecting) (events : List Event) :
    (∀ done, done <+: events → ∃ next, done.foldlM DtlsFlight.step channel = some next ∧ next.Kept) ↔
      Fits collecting events := by
  induction events generalizing channel collecting with
  | nil =>
    constructor
    · exact fun _ => trivial
    · intro _ done start
      obtain rfl := List.prefix_nil.mp start
      exact ⟨channel, rfl, sound.toKept⟩
  | cons event events ih =>
    constructor
    · intro kept
      obtain ⟨next, ran, first⟩ := kept [event] ⟨events, rfl⟩
      have moved : DtlsFlight.step channel event = some next := by simpa using ran
      have fits := sound.fits_of_kept moved first
      obtain ⟨same, again, later⟩ := sound.step fits
      obtain rfl := Option.some.inj (again.symm.trans moved)
      refine ⟨fits, (ih later).mp fun done start => ?_⟩
      obtain ⟨last, ran, kept⟩ := kept (event :: done) (List.prefix_cons_inj event |>.mpr start)
      refine ⟨last, ?_, kept⟩
      rwa [List.foldlM_cons, moved] at ran
    · rintro ⟨fits, rest⟩ done start
      obtain ⟨next, moved, later⟩ := sound.step fits
      cases done with
      | nil => exact ⟨channel, rfl, sound.toKept⟩
      | cons first done =>
        obtain ⟨rfl, behind⟩ := List.cons_prefix_cons.mp start
        obtain ⟨last, ran, kept⟩ := (ih later).mpr rest done behind
        refine ⟨last, ?_, kept⟩
        rw [List.foldlM_cons, moved]
        exact ran

end Step

/-- The buffer is never left, and the datagrams of every flight are its records, exactly if each record of a flight
fits the buffer and is not empty, and no flight is given up while its records are collected. -/
theorem flightsKept_iff (events : List Event) : FlightsKept events ↔ Fits false events :=
  initial_sound.run_iff events

/-- A record of 513 bytes is written behind the buffer. -/
theorem not_flightsKept_long : ¬ ∀ events, FlightsKept events := by
  intro all
  obtain ⟨channel, ran, -⟩ := all [.record (List.replicate 513 22) 3] _ List.prefix_rfl
  have outside : run [.record (List.replicate 513 22) 3] = none := by decide +kernel
  rw [outside] at ran
  contradiction

/-- The rest of a flight that is given up goes out in front of the next one. -/
example : (run [.record [21, 2] 3, .flush 0, .record [22, 1] 3, .flush 3]).map Channel.sent =
    some [⟨[[22, 1]], [[21, 2, 22, 1]]⟩] := by decide +kernel

end CoapsClient.DtlsFlight
