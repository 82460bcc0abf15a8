import CoapsClient.Model.Dtls.Client
import CoapsClient.Machine.Region

/-! # The records of a flight

`dtls_buffer` with its bytes: `dtls_send_to_peer` collects the records of a handshake, and `recvfrom_peer` and
`sendto_peer` send the rest of a flight. A call hands some datagrams to `send_to_peer`; what that makes of them does
not change the buffer. A write outside of the buffer has no value. `dtls_flight` is given with each call.
-/

namespace CoapsClient.DtlsFlight

open Machine (Cells)
open DtlsClient (maxDtlsBuf)

/-- `dtls_buffer` and `dtls_buffer_len`. -/
structure Buffer where
  dtlsBuffer : Cells maxDtlsBuf := .zero maxDtlsBuf
  dtlsBufferLen : ℕ := 0
deriving DecidableEq

/-- The bytes that are collected. -/
def Buffer.collected (buffer : Buffer) : List UInt8 := buffer.dtlsBuffer.bytes.take buffer.dtlsBufferLen

/-- `memmove` to the end of the collected bytes. -/
def Buffer.append (buffer : Buffer) (data : List UInt8) : Option Buffer :=
  if buffer.dtlsBufferLen + data.length ≤ maxDtlsBuf then
    some { dtlsBuffer := buffer.dtlsBuffer.store buffer.dtlsBufferLen data
           dtlsBufferLen := buffer.dtlsBufferLen + data.length }
  else none

/-- All that is collected is sent. -/
def Buffer.send (buffer : Buffer) : Buffer × List (List UInt8) :=
  ({ buffer with dtlsBufferLen := 0 }, [buffer.collected])

/-- `dtls_send_to_peer`: the buffer and the datagrams. -/
def dtlsSendToPeer (buffer : Buffer) (dtlsFlight : ℕ) (data : List UInt8) : Option (Buffer × List (List UInt8)) :=
  if 1 < dtlsFlight then
    let (buffer, sent) := if maxDtlsBuf < buffer.dtlsBufferLen + data.length then buffer.send else (buffer, [])
    match buffer.append data with
    | none => none
    | some buffer => some (buffer, if data.length = 0 then sent ++ [data] else sent)
  else some (buffer, [data])

/-- The end of `recvfrom_peer`, and of `sendto_peer` when it sends a flight again. -/
def flush (buffer : Buffer) (dtlsFlight : ℕ) : Buffer × List (List UInt8) :=
  if dtlsFlight ≠ 0 ∧ buffer.dtlsBufferLen ≠ 0 then buffer.send else (buffer, [])

/-- What happens to the buffer. -/
inductive Event where
  | record (data : List UInt8) (dtlsFlight : ℕ)
  | flush (dtlsFlight : ℕ)
  /-- `DTLS_EVENT_CONNECTED` empties the buffer. -/
  | connected
deriving DecidableEq, Repr

/-- A flight: its records, and the datagrams that were sent for it. -/
structure Flight where
  records : List (List UInt8) := []
  datagrams : List (List UInt8) := []
deriving DecidableEq, Repr

/-- The buffer, the flight that is collected, and those that were sent. The records of a flight are those that are
handed over with `dtls_flight` above 1; it ends where the rest is flushed, or is not because `dtls_flight` is 0. -/
structure Channel where
  buffer : Buffer := {}
  flight : Flight := {}
  sent : List Flight := []
deriving DecidableEq

/-- One event. -/
def step (channel : Channel) : Event → Option Channel
  | .record data dtlsFlight =>
      (dtlsSendToPeer channel.buffer dtlsFlight data).map fun result =>
        if 1 < dtlsFlight then
          { channel with
            buffer := result.1
            flight := ⟨channel.flight.records ++ [data], channel.flight.datagrams ++ result.2⟩ }
        else { channel with buffer := result.1 }
  | .flush dtlsFlight =>
      let result := flush channel.buffer dtlsFlight
      some
        { buffer := result.1
          flight := {}
          sent :=
            if result.2.isEmpty then channel.sent
            else channel.sent ++ [⟨channel.flight.records, channel.flight.datagrams ++ result.2⟩] }
  | .connected => some { channel with buffer := { channel.buffer with dtlsBufferLen := 0 }, flight := {} }

/-- A sequence of events. -/
def run (events : List Event) : Option Channel := events.foldlM step {}

section Lemmas

variable {buffer next : Buffer} {data : List UInt8} {dtlsFlight : ℕ}

theorem append_eq_some_iff : buffer.append data = some next ↔ buffer.dtlsBufferLen + data.length ≤ maxDtlsBuf ∧
    next = { dtlsBuffer := buffer.dtlsBuffer.store buffer.dtlsBufferLen data
             dtlsBufferLen := buffer.dtlsBufferLen + data.length } := by
  unfold Buffer.append
  split
  · next fits => simp [fits, eq_comm]
  · next big => simp [big]

/-- What is collected behind a record. -/
theorem append_collected (appended : buffer.append data = some next) :
    next.collected = buffer.collected ++ data ∧ next.dtlsBufferLen = buffer.dtlsBufferLen + data.length ∧
      next.dtlsBufferLen ≤ maxDtlsBuf := by
  obtain ⟨fits, rfl⟩ := append_eq_some_iff.mp appended
  refine ⟨?_, rfl, fits⟩
  have length : (buffer.dtlsBuffer.bytes.take buffer.dtlsBufferLen ++ data).length = buffer.dtlsBufferLen + data.length := by
    rw [List.length_append, List.length_take, buffer.dtlsBuffer.size_eq]
    omega
  unfold Buffer.collected
  rw [Machine.Cells.store_bytes _ fits, ← length, List.take_left]

theorem send_collected : buffer.send.1.collected = [] := List.take_zero

theorem collected_length (place : buffer.dtlsBufferLen ≤ maxDtlsBuf) : buffer.collected.length = buffer.dtlsBufferLen := by
  rw [Buffer.collected, List.length_take, buffer.dtlsBuffer.size_eq]
  omega

/-- The length that a record leaves in the buffer. -/
def lengthAfter (len dtlsFlight count : ℕ) : ℕ :=
  if 1 < dtlsFlight then (if maxDtlsBuf < len + count then 0 else len) + count else len

private theorem dtlsSendToPeer_length {sent : List (List UInt8)}
    (ran : dtlsSendToPeer buffer dtlsFlight data = some (next, sent)) :
    next.dtlsBufferLen = lengthAfter buffer.dtlsBufferLen dtlsFlight data.length := by
  unfold lengthAfter
  unfold dtlsSendToPeer at ran
  by_cases collects : 1 < dtlsFlight
  · simp only [if_pos collects] at ran ⊢
    have appends : ∀ start : Buffer, ∀ rest : List (List UInt8), (match start.append data with
          | none => none
          | some buffer => some (buffer, if data.length = 0 then rest ++ [data] else rest)) = some (next, sent) →
        next.dtlsBufferLen = start.dtlsBufferLen + data.length := by
      intro start rest ran
      cases appended : start.append data with
      | none => simp [appended] at ran
      | some moved =>
        obtain ⟨-, length, -⟩ := append_collected appended
        obtain ⟨rfl, -⟩ : moved = next ∧ _ := by simpa [appended] using ran
        exact length
    by_cases full : maxDtlsBuf < buffer.dtlsBufferLen + data.length
    · simp only [if_pos full] at ran ⊢
      exact appends _ _ ran
    · simp only [if_neg full] at ran ⊢
      exact appends _ _ ran
  · simp only [if_neg collects] at ran ⊢
    obtain ⟨rfl, -⟩ := Prod.mk.inj (Option.some.inj ran)
    rfl

/-- The request model counts the same length. -/
private theorem dtlsSendToPeer_counts {env : DtlsClient.Env} {client : DtlsClient.Client} (record : DtlsClient.Record) :
    (DtlsClient.dtlsSendToPeer env client record).1.dtlsBufferLen =
      lengthAfter client.dtlsBufferLen client.dtlsFlight record.len := by
  have kept : ∀ (client : DtlsClient.Client) (len : ℕ) (sendto : DtlsClient.Sendto),
      (DtlsClient.sendToPeer env client len sendto).1.dtlsBufferLen = client.dtlsBufferLen := by
    intro client len sendto
    unfold DtlsClient.sendToPeer DtlsClient.networkAdjustInitialTimeout DtlsClient.startFlight
    dsimp only
    repeat' split
    all_goals rfl
  unfold DtlsClient.dtlsSendToPeer lengthAfter
  by_cases collects : 1 < client.dtlsFlight
  · simp only [if_pos collects]
    by_cases full : maxDtlsBuf < client.dtlsBufferLen + record.len
    · simp only [if_pos full]
      split
      · rw [kept]
      · rfl
    · simp only [if_neg full]
      split
      · rw [kept]
      · rfl
  · simp only [if_neg collects]
    exact kept _ _ _

/-- The bytes have the length that the request model counts. -/
theorem dtlsSendToPeer_simulates {env : DtlsClient.Env} {client : DtlsClient.Client} {sendto : DtlsClient.Sendto}
    {sent : List (List UInt8)} (same : client.dtlsBufferLen = buffer.dtlsBufferLen)
    (ran : dtlsSendToPeer buffer client.dtlsFlight data = some (next, sent)) :
    (DtlsClient.dtlsSendToPeer env client ⟨data.length, sendto⟩).1.dtlsBufferLen = next.dtlsBufferLen := by
  rw [dtlsSendToPeer_counts, dtlsSendToPeer_length ran, same]

end Lemmas

end CoapsClient.DtlsFlight
