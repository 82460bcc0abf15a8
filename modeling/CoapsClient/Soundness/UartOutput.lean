import CoapsClient.Machine.Path
import CoapsClient.Model.Shell.UartOutput

/-! # What the log sends

Each text leaves with its line ends as CR LF and with one at its end, in chunks that fit into the buffer. A chunk that
passed the spinlock is sent, as the UART is not suspended while `UART_PENDING` is set; and a pause of the output always
has the work that ends it.
-/

namespace CoapsClient.UartManager

open Machine (Chunks Path Works guarded)

/-- The bytes of a text: `'\r'` is dropped, and a line end is CR LF. -/
def crlf (text : List UInt8) : List UInt8 :=
  text.flatMap fun c => if c = cr then [] else if c = lf then [cr, lf] else [c]

/-- The text ends with a line end. -/
def endsLine (text : List UInt8) : Bool := (text.filter (· ≠ cr)).getLast? == some lf

/-- The bytes of a text with a line end behind it, unless it has one. -/
def ended (text : List UInt8) : List UInt8 := crlf text ++ if endsLine text then [] else [cr, lf]

private theorem crlf_snoc (text : List UInt8) (c : UInt8) : crlf (text ++ [c]) = crlf text ++ crlf [c] :=
  List.flatMap_append

private theorem endsLine_snoc (text : List UInt8) (c : UInt8) :
    endsLine (text ++ [c]) = if c = cr then endsLine text else decide (c = lf) := by
  unfold endsLine
  rw [List.filter_append]
  split_ifs with drop
  · simp [drop]
  · have kept : [c].filter (· ≠ cr) = [c] := List.filter_cons_of_pos (decide_eq_true drop)
    rw [kept, List.getLast?_concat]
    rfl

/-- What is written and counted while a text is printed behind others. -/
structure Printed (size : ℕ) (front text : List UInt8) (output : Output) : Prop where
  fits : output.buffer.Fits size
  bytes : output.buffer.items ++ (List.replicate output.lines [cr, lf]).flatten = front ++ crlf text
  lines : output.lines = 0 ↔ endsLine text = false

variable {size : ℕ} {front text : List UInt8} {output : Output}

/-- The line ends that were counted are written. -/
private theorem uartTxOutNl_spec (room : 0 < size) (fits : output.buffer.Fits size) : ∃ buffer,
    (List.replicate output.lines [cr, lf]).flatten.foldlM Chunks.push output.buffer = some buffer ∧
      uartTxOutNl output = some ⟨buffer, 0⟩ ∧ buffer.Fits size ∧
      buffer.items = output.buffer.items ++ (List.replicate output.lines [cr, lf]).flatten := by
  obtain ⟨buffer, ran, fits, items⟩ :=
    Chunks.emits_foldlM room (List.replicate output.lines [cr, lf]).flatten output.buffer fits
  exact ⟨buffer, ran, congrArg (Option.map _) ran, fits, items⟩

theorem Printed.func (room : 0 < size) (printed : Printed size front text output) (c : UInt8) :
    ∃ after, uartTxOutFunc output c = some after ∧ Printed size front (text ++ [c]) after := by
  obtain ⟨fits, bytes, lines⟩ := printed
  by_cases drop : c = cr
  · refine ⟨output, if_pos drop, fits, ?_, ?_⟩
    · rw [crlf_snoc, bytes, drop]
      exact (congrArg _ (List.append_nil _)).symm
    · rw [endsLine_snoc, if_pos drop, lines]
  by_cases line : c = lf
  · refine ⟨{ output with lines := output.lines + 1 }, ?_, fits, ?_, ?_⟩
    · rw [uartTxOutFunc, if_neg drop, if_pos line]
    · have more : (List.replicate (output.lines + 1) [cr, lf]).flatten =
          (List.replicate output.lines [cr, lf]).flatten ++ [cr, lf] := by
        rw [List.replicate_succ', List.flatten_append, List.flatten_singleton]
      rw [more, ← List.append_assoc, bytes, crlf_snoc, line, List.append_assoc]
      rfl
    · rw [endsLine_snoc, if_neg drop, line]
      exact iff_of_false (Nat.succ_ne_zero _) Bool.true_eq_false.mp
  · obtain ⟨buffer, -, ran, fits, items⟩ := uartTxOutNl_spec room fits
    obtain ⟨after, pushed, fits, added⟩ := Chunks.emits_push room c buffer fits
    refine ⟨⟨after, 0⟩, ?_, fits, ?_, ?_⟩
    · rw [uartTxOutFunc, if_neg drop, if_neg line, ran]
      exact congrArg (Option.map _) pushed
    · rw [added, items, bytes, crlf_snoc]
      simp [crlf, drop, line]
    · rw [endsLine_snoc, if_neg drop]
      exact iff_of_true rfl (decide_eq_false line)

theorem Printed.foldlM (room : 0 < size) (printed : Printed size front text output) (more : List UInt8) :
    ∃ after, more.foldlM uartTxOutFunc output = some after ∧ Printed size front (text ++ more) after := by
  induction more generalizing text output with
  | nil => exact ⟨output, rfl, (List.append_nil text).symm ▸ printed⟩
  | cons c more ih =>
    obtain ⟨middle, ran, printed⟩ := printed.func room c
    obtain ⟨after, rest, printed⟩ := ih printed
    refine ⟨after, ?_, by rwa [List.append_assoc] at printed⟩
    rw [List.foldlM_cons, ran]
    exact rest

/-- Everything written is handed on. -/
structure Flushed (size : ℕ) (front : List UInt8) (output : Output) : Prop where
  fits : output.buffer.Fits size
  lines : output.lines = 0
  offset : output.buffer.offset = 0
  chunks : output.buffer.chunks.flatten = front

theorem Flushed.items (flushed : Flushed size front output) : output.buffer.items = front := by
  rw [Chunks.items, flushed.offset, flushed.chunks]
  exact List.append_nil front

theorem Flushed.printed (flushed : Flushed size front output) : Printed size front [] output := by
  refine ⟨flushed.fits, ?_, iff_of_true flushed.lines rfl⟩
  rw [flushed.items, flushed.lines]
  rfl

theorem Printed.flush (room : 0 < size) (printed : Printed size front text output) :
    ∃ after, uartTxOutFlush output = some after ∧ Flushed size (front ++ ended text) after := by
  obtain ⟨fits, bytes, lines⟩ := printed
  obtain ⟨written, some, equal⟩ : ∃ written : Output, written.lines ≠ 0 ∧
      (if output.lines = 0 then { output with lines := 1 } else output) = written ∧ written.buffer = output.buffer ∧
      written.buffer.items ++ (List.replicate written.lines [cr, lf]).flatten = front ++ ended text := by
    split_ifs with none
    · refine ⟨_, Nat.one_ne_zero, rfl, rfl, ?_⟩
      rw [none] at bytes
      rw [ended, lines.mp none, ← List.append_assoc, ← bytes]
      simp
    · refine ⟨_, none, rfl, rfl, ?_⟩
      have line : endsLine text = true := Bool.not_eq_false _ ▸ fun ends => none (lines.mpr ends)
      rw [ended, line, bytes]
      exact (congrArg _ (List.append_nil _)).symm
  obtain ⟨start, same, bytes⟩ := equal
  obtain ⟨buffer, pushed, ran, fits, items⟩ := uartTxOutNl_spec room (same ▸ fits : written.buffer.Fits size)
  have filled : 0 < buffer.offset := by
    refine Chunks.offset_foldlM ?_ pushed
    obtain ⟨lines, equal⟩ := Nat.exists_eq_succ_of_ne_zero some
    rw [equal, List.replicate_succ]
    exact List.cons_ne_nil _ _
  refine ⟨⟨buffer.flush, 0⟩, ?_, fits.flush filled, rfl, rfl, ?_⟩
  · rw [uartTxOutFlush, start, ran]
    rfl
  · rw [Chunks.flatten_flush, items, bytes]

theorem Flushed.log (room : 0 < size) (flushed : Flushed size front output) (text : List UInt8) :
    ∃ after, uartLogText output text = some after ∧ Flushed size (front ++ ended text) after := by
  obtain ⟨written, ran, printed⟩ := flushed.printed.foldlM room text
  obtain ⟨after, flush, flushed⟩ := printed.flush room
  exact ⟨after, by rw [uartLogText, ran]; exact flush, flushed⟩

example : [[97, cr, lf, 98, lf, lf], []].flatMap ended = [97, cr, lf, 98, cr, lf, cr, lf, cr, lf] := by decide

/-- The chunk that passed the spinlock and is not transmitted yet. -/
def Log.chunk : Log → Option (List UInt8)
  | locked data | reset data => some data
  | _ => none

/-- `UART_PENDING` is set. -/
def Log.sends : Log → Bool
  | locked _ | reset _ | awaiting | ending => true
  | _ => false

namespace Uart

/-- The invariant of the transmissions. -/
structure Transmits (uart : Uart) : Prop where
  pending : uart.pending = uart.log.sends
  /-- The UART is not suspended while something is to be sent. -/
  kept : uart.pending = true → uart.suspended = false
  active : uart.suspended = false → uart.active = true
  suspending : uart.rx = .suspending → uart.suspended = true
  resumed : uart.rx = .resumed → uart.active = true
  busy : uart.transmitting.isSome = true → uart.log = .awaiting
  cleared : ∀ data, uart.log = .reset data → uart.sem = false
  /-- The semaphore is given with the end of the transmission. -/
  given : uart.log = .awaiting → uart.sem = uart.transmitting.isNone
  chunks : uart.accepted = uart.sent ++ uart.log.chunk.toList ++ uart.transmitting.toList

/-- A wait for the semaphore ends only with the transmission. -/
def InTime (uart : Uart) : Event → Prop
  | .timeout => uart.transmitting = none
  | _ => True

instance decidableInTime (uart : Uart) : (event : Event) → Decidable (InTime uart event)
  | .timeout => inferInstanceAs (Decidable (uart.transmitting = none))
  | .process | .processed | .out _ | .lock | .reset | .tx | .take | .clear | .done | .line _ | .rx | .received _ | .begin _
  | .pauseFn => inferInstanceAs (Decidable True)

variable {uart after : Uart} {data : List UInt8}

/-- Nothing is transmitted unless the log thread waits for it. -/
theorem Transmits.idle (transmits : Transmits uart) (elsewhere : uart.log ≠ .awaiting) : uart.transmitting = none := by
  rw [← Option.not_isSome_iff_eq_none]
  exact fun busy => elsewhere (transmits.busy busy)

/-- The log thread goes on without a chunk. -/
theorem Transmits.move (transmits : Transmits uart) {log : Log} (before : uart.log.sends = false)
    (afterwards : log.sends = false) (silent : uart.log.chunk = none) (quiet : log.chunk = none)
    (elsewhere : log ≠ .awaiting) : Transmits { uart with log } := by
  have unset : uart.pending = false := transmits.pending.trans before
  have idle := transmits.idle (by rintro there; rw [there] at before; exact Bool.true_eq_false.mp before)
  refine { transmits with
    pending := unset.trans afterwards.symm
    busy := fun busy => ?_
    cleared := fun data ready => ?_
    given := fun waits => absurd waits elsewhere
    chunks := ?_ }
  · rw [idle] at busy
    exact absurd busy Bool.false_ne_true
  · rw [show log = .reset data from ready] at quiet
    exact nomatch quiet
  · rw [quiet, ← silent]
    exact transmits.chunks

theorem Transmits.lock (transmits : Transmits uart) (checked : uart.log = .checked data)
    (free : uart.suspended = false) :
    Transmits { uart with log := .locked data, pending := true, accepted := uart.accepted ++ [data] } := by
  have idle := transmits.idle (by rw [checked]; exact nofun)
  have chunks := transmits.chunks
  rw [checked, idle] at chunks
  refine { transmits with
    pending := rfl, kept := fun _ => free, busy := fun busy => ?_, cleared := nofun, given := nofun, chunks := ?_ }
  · rw [idle] at busy
    exact absurd busy Bool.false_ne_true
  · rw [idle, chunks]
    simp [Log.chunk]

theorem Transmits.reset (transmits : Transmits uart) (locked : uart.log = .locked data) :
    Transmits { uart with log := .reset data, sem := false } := by
  have idle := transmits.idle (by rw [locked]; exact nofun)
  have pending := transmits.pending
  have chunks := transmits.chunks
  rw [locked] at pending chunks
  refine { transmits with
    pending := pending, busy := fun busy => ?_, cleared := fun _ _ => rfl, given := nofun, chunks := chunks }
  rw [idle] at busy
  exact absurd busy Bool.false_ne_true

theorem Transmits.reset_active (transmits : Transmits uart) (ready : uart.log = .reset data) :
    uart.active = true ∧ uart.transmitting = none := by
  have pending : uart.pending = true := transmits.pending.trans (by rw [ready]; rfl)
  exact ⟨transmits.active (transmits.kept pending), transmits.idle (by rw [ready]; exact nofun)⟩

theorem Transmits.tx (transmits : Transmits uart) (ready : uart.log = .reset data) :
    Transmits { uart with
      log := .awaiting
      transmitting := if uart.active = true ∧ uart.transmitting = none then some data else uart.transmitting } := by
  have pending := transmits.pending
  have chunks := transmits.chunks
  rw [if_pos (transmits.reset_active ready)]
  rw [ready] at pending chunks
  refine { transmits with
    pending := pending, busy := fun _ => rfl, cleared := nofun, given := fun _ => ?_, chunks := ?_ }
  · exact transmits.cleared data ready
  · rw [chunks, (transmits.reset_active ready).2]
    simp [Log.chunk]

/-- The log thread is behind the transmission. -/
theorem Transmits.taken (transmits : Transmits uart) (waits : uart.log = .awaiting) (past : uart.transmitting = none)
    (sem : Bool) : Transmits { uart with log := .ending, sem } := by
  have pending := transmits.pending
  have chunks := transmits.chunks
  rw [waits] at pending chunks
  refine { transmits with
    pending := pending, busy := fun busy => ?_, cleared := nofun, given := nofun, chunks := chunks }
  rw [past] at busy
  exact absurd busy Bool.false_ne_true

theorem Transmits.clear (transmits : Transmits uart) (ending : uart.log = .ending) :
    Transmits { uart with log := .writing, pending := false } := by
  have idle := transmits.idle (by rw [ending]; exact nofun)
  have chunks := transmits.chunks
  rw [ending] at chunks
  refine { transmits with
    pending := rfl, kept := nofun, busy := fun busy => ?_, cleared := nofun, given := nofun, chunks := chunks }
  rw [idle] at busy
  exact absurd busy Bool.false_ne_true

theorem Transmits.done (transmits : Transmits uart) (busy : uart.transmitting = some data) :
    Transmits { uart with transmitting := none, sem := true, sent := uart.sent ++ [data] } := by
  have chunks := transmits.chunks
  have waits : uart.log = .awaiting := transmits.busy (by rw [busy]; rfl)
  rw [busy, waits] at chunks
  refine { transmits with
    busy := nofun
    cleared := fun data ready => nomatch waits.symm.trans ready
    given := fun _ => rfl
    chunks := ?_ }
  rw [chunks, waits]
  simp [Log.chunk]

/-- `uart_enable_rx_fn` suspends the device only while nothing is to be sent, and resumes it before it clears
`UART_SUSPENDED`. -/
theorem Transmits.rx (transmits : Transmits uart) (moved : uart.nextRx uart.rx = some after) : Transmits after := by
  unfold nextRx at moved
  split at moved
  · exact nomatch moved
  · obtain rfl := Option.some.inj moved
    exact { transmits with active := fun _ => rfl, suspending := nofun, resumed := fun _ => rfl }
  · next resumed =>
    obtain rfl := Option.some.inj moved
    exact { transmits with
      kept := fun _ => rfl, active := fun _ => transmits.resumed resumed, suspending := nofun, resumed := nofun }
  · obtain rfl := Option.some.inj moved
    split_ifs with pending
    · exact { transmits with suspending := nofun, resumed := nofun }
    · exact { transmits with
        kept := fun set => absurd set pending, active := nofun, suspending := fun _ => rfl, resumed := nofun }
  · next suspending =>
    obtain rfl := Option.some.inj moved
    have suspended := transmits.suspending suspending
    exact { transmits with
      active := fun free => absurd (free.symm.trans suspended) Bool.false_ne_true, suspending := nofun, resumed := nofun }

theorem Transmits.txPause (transmits : Transmits uart) (pause : Bool) : Transmits (uart.txPause pause) := by
  unfold Uart.txPause
  split_ifs with changes pauses waits
  · exact { transmits with }
  · have moved : Transmits { uart with log := .writing } :=
      transmits.move (by rw [waits]; rfl) rfl (by rw [waits]; rfl) rfl nofun
    exact { moved with }
  · exact { transmits with }
  · exact transmits

private theorem transmits_step {event : Event} (transmits : Transmits uart)
    (moved : guarded (fun uart event after => uart.next event = some after) InTime uart event after) :
    Transmits after := by
  obtain ⟨inTime, moved⟩ := moved
  unfold next at moved
  cases event with
  | process =>
    obtain ⟨idle, equal⟩ := Option.ite_none_right_eq_some.mp moved
    obtain rfl := Option.some.inj equal
    refine transmits.move (by rw [idle]; rfl) ?_ (by rw [idle]; rfl) ?_ ?_
    all_goals split_ifs
    any_goals rfl
    all_goals exact nofun
  | processed =>
    obtain ⟨writing, equal⟩ := Option.ite_none_right_eq_some.mp moved
    obtain rfl := Option.some.inj equal
    exact transmits.move (by rw [writing]; rfl) rfl (by rw [writing]; rfl) rfl nofun
  | out data =>
    obtain ⟨⟨writing, -⟩, equal⟩ := Option.ite_none_right_eq_some.mp moved
    obtain rfl := Option.some.inj equal
    split_ifs
    · exact transmits
    · exact transmits.move (by rw [writing]; rfl) rfl (by rw [writing]; rfl) rfl nofun
  | lock =>
    dsimp only at moved
    split at moved
    · next data checked =>
      obtain rfl := Option.some.inj moved
      split_ifs with suspended
      · exact transmits.move (by rw [checked]; rfl) rfl (by rw [checked]; rfl) rfl nofun
      · exact transmits.lock checked (Bool.not_eq_true _ ▸ suspended)
    · exact nomatch moved
  | reset =>
    dsimp only at moved
    split at moved
    · next data locked =>
      obtain rfl := Option.some.inj moved
      exact transmits.reset locked
    · exact nomatch moved
  | tx =>
    dsimp only at moved
    split at moved
    · next data ready =>
      obtain rfl := Option.some.inj moved
      exact transmits.tx ready
    · exact nomatch moved
  | take =>
    obtain ⟨⟨waits, given⟩, equal⟩ := Option.ite_none_right_eq_some.mp moved
    obtain rfl := Option.some.inj equal
    exact transmits.taken waits (Option.isNone_iff_eq_none.mp ((transmits.given waits).symm.trans given)) false
  | timeout =>
    obtain ⟨waits, equal⟩ := Option.ite_none_right_eq_some.mp moved
    obtain rfl := Option.some.inj equal
    exact transmits.taken waits inTime uart.sem
  | clear =>
    obtain ⟨ending, equal⟩ := Option.ite_none_right_eq_some.mp moved
    obtain rfl := Option.some.inj equal
    exact transmits.clear ending
  | done =>
    obtain ⟨data, busy, rfl⟩ := Option.map_eq_some_iff.mp moved
    exact transmits.done busy
  | line high =>
    obtain ⟨idle, equal⟩ := Option.ite_none_right_eq_some.mp moved
    obtain rfl := Option.some.inj equal
    split_ifs <;> exact { transmits with suspending := nofun, resumed := nofun }
  | rx => exact transmits.rx moved
  | received lineEnd =>
    obtain rfl := Option.some.inj moved
    exact { transmits with }
  | begin work =>
    obtain ⟨-, equal⟩ := Option.ite_none_right_eq_some.mp moved
    obtain rfl := Option.some.inj equal
    exact { transmits with }
  | pauseFn =>
    obtain ⟨work, -, rfl⟩ := Option.map_eq_some_iff.mp moved
    exact { transmits.txPause (work = .start) with }

/-- A step of the UART. -/
def Step (uart : Uart) (event : Event) (after : Uart) : Prop := uart.next event = some after

/-- The invariant of the pause. -/
structure Pauses (uart : Uart) : Prop where
  /-- The work that ends the pause is scheduled, or its handler is running. -/
  ends : uart.inPause = true → uart.works.isPending .finish = true ∨ uart.works.running = some .finish
  waits : uart.log = .waiting → uart.inPause = true

theorem Pauses.txPause (pauses : Pauses uart) {work : PauseWork} (running : uart.works.running = some work) :
    Pauses { uart.txPause (work = .start) with works := (uart.txPause (work = .start)).works.finish } := by
  by_cases start : work = .start
  · subst start
    have other : uart.works.running ≠ some .finish := by
      rw [running]
      decide
    have unmarked : uart.works.marked .finish = false := Works.marked_of_ne other
    unfold Uart.txPause
    split_ifs with changes pause
    · exact ⟨fun _ => .inl (by simp [unmarked]), fun _ => rfl⟩
    · exact absurd rfl pause
    · exact absurd rfl pause
    · refine ⟨fun paused => ?_, pauses.waits⟩
      exact .inl ((pauses.ends paused).resolve_right other)
  · have ends : decide (work = .start) = false := decide_eq_false start
    rw [ends]
    unfold Uart.txPause
    split_ifs with changes pause waits
    · exact pause.elim
    · refine ⟨fun paused => absurd paused Bool.false_ne_true, fun there => ?_⟩
      cases there
    · exact ⟨fun paused => absurd paused Bool.false_ne_true, fun there => absurd there waits⟩
    · have free : uart.inPause = false := not_not.mp changes
      exact ⟨fun paused => absurd (free.symm.trans paused) Bool.false_ne_true, pauses.waits⟩

/-- The log thread goes on, but not to wait for the end of a pause. -/
theorem Pauses.move (pauses : Pauses uart) (works : after.works = uart.works) (paused : after.inPause = uart.inPause)
    (elsewhere : after.log ≠ .waiting ∨ after.log = uart.log) : Pauses after := by
  refine ⟨?_, fun waits => ?_⟩
  · rw [works, paused]
    exact pauses.ends
  · rw [paused]
    exact pauses.waits ((elsewhere.resolve_left (not_not_intro waits)).symm.trans waits)

private theorem pauses_step {event : Event} (pauses : Pauses uart) (moved : uart.next event = some after) :
    Pauses after := by
  unfold next at moved
  cases event with
  | process =>
    obtain ⟨-, equal⟩ := Option.ite_none_right_eq_some.mp moved
    obtain rfl := Option.some.inj equal
    refine ⟨pauses.ends, fun waits => ?_⟩
    by_contra free
    cases (if_neg free).symm.trans waits
  | processed =>
    obtain ⟨-, equal⟩ := Option.ite_none_right_eq_some.mp moved
    obtain rfl := Option.some.inj equal
    exact pauses.move rfl rfl (.inl (by simp))
  | out data =>
    obtain ⟨-, equal⟩ := Option.ite_none_right_eq_some.mp moved
    obtain rfl := Option.some.inj equal
    split_ifs
    · exact pauses
    · exact pauses.move rfl rfl (.inl (by simp))
  | lock =>
    dsimp only at moved
    split at moved
    · obtain rfl := Option.some.inj moved
      split_ifs <;> exact pauses.move rfl rfl (.inl (by simp))
    · cases moved
  | reset =>
    dsimp only at moved
    split at moved
    · obtain rfl := Option.some.inj moved
      exact pauses.move rfl rfl (.inl (by simp))
    · cases moved
  | tx =>
    dsimp only at moved
    split at moved
    · obtain rfl := Option.some.inj moved
      exact pauses.move rfl rfl (.inl (by simp))
    · cases moved
  | take =>
    obtain ⟨-, equal⟩ := Option.ite_none_right_eq_some.mp moved
    obtain rfl := Option.some.inj equal
    exact pauses.move rfl rfl (.inl (by simp))
  | timeout =>
    obtain ⟨-, equal⟩ := Option.ite_none_right_eq_some.mp moved
    obtain rfl := Option.some.inj equal
    exact pauses.move rfl rfl (.inl (by simp))
  | clear =>
    obtain ⟨-, equal⟩ := Option.ite_none_right_eq_some.mp moved
    obtain rfl := Option.some.inj equal
    exact pauses.move rfl rfl (.inl (by simp))
  | done =>
    obtain ⟨data, -, rfl⟩ := Option.map_eq_some_iff.mp moved
    exact pauses.move rfl rfl (.inr rfl)
  | line high =>
    obtain ⟨-, equal⟩ := Option.ite_none_right_eq_some.mp moved
    obtain rfl := Option.some.inj equal
    exact pauses.move rfl rfl (.inr rfl)
  | rx =>
    dsimp only at moved
    unfold nextRx at moved
    split at moved
    · cases moved
    all_goals
      obtain rfl := Option.some.inj moved
      first | exact pauses.move rfl rfl (.inr rfl) | (split_ifs <;> exact pauses.move rfl rfl (.inr rfl))
  | received lineEnd =>
    obtain rfl := Option.some.inj moved
    refine ⟨fun paused => ?_, pauses.waits⟩
    rcases pauses.ends paused with pending | running
    · left
      cases lineEnd <;> simp [pending]
    · right
      cases lineEnd <;> simp [running]
  | begin work =>
    obtain ⟨⟨idle, -⟩, equal⟩ := Option.ite_none_right_eq_some.mp moved
    obtain rfl := Option.some.inj equal
    refine ⟨fun paused => ?_, pauses.waits⟩
    have pending := (pauses.ends paused).resolve_right (by simp [idle])
    by_cases same : work = .finish
    · exact .inr (by rw [same]; rfl)
    · exact .inl (by simp [pending, Ne.symm same])
  | pauseFn =>
    obtain ⟨work, running, rfl⟩ := Option.map_eq_some_iff.mp moved
    exact pauses.txPause running

private theorem pauses_path {events : List Event} (path : Path Step {} events uart) : Pauses uart :=
  path.invariant Pauses (fun _ _ _ pauses moved => pauses_step pauses moved) ⟨nofun, nofun⟩

/-- In every run in which transmissions end in time, `uart_tx` is called for a device that is active and not busy, the
device stays active until the transmission is done, and the chunks that passed the spinlock are sent in this order and each
once. A log thread that waits for the end of a pause has the work that ends it. -/
theorem transmissions_complete {events : List Event} (path : Path (guarded Step InTime) {} events uart) :
    (∀ data, uart.log = .reset data → uart.active = true ∧ uart.transmitting = none) ∧
      (uart.transmitting.isSome = true → uart.active = true) ∧
      (∃ missing, uart.accepted = uart.sent ++ missing ∧ missing.length ≤ 1 ∧ (uart.pending = false → missing = [])) ∧
      (uart.log = .waiting → uart.works.isPending .finish = true ∨ uart.works.running = some .finish) := by
  have transmits : Transmits uart := path.invariant Transmits (fun _ _ _ transmits moved => transmits_step transmits moved)
    ⟨rfl, nofun, fun _ => rfl, nofun, nofun, nofun, nofun, nofun, rfl⟩
  have pauses := pauses_path (path.mono fun _ _ _ moved => moved.2)
  refine ⟨fun data ready => transmits.reset_active ready, fun busy => ?_,
    ⟨uart.log.chunk.toList ++ uart.transmitting.toList, ?_, ?_, fun free => ?_⟩,
    fun waits => pauses.ends (pauses.waits waits)⟩
  · have pending : uart.pending = true := transmits.pending.trans (by rw [transmits.busy busy]; rfl)
    exact transmits.active (transmits.kept pending)
  · exact transmits.chunks.trans (List.append_assoc _ _ _)
  · by_cases waits : uart.log = .awaiting
    · rw [waits]
      cases uart.transmitting with
      | none => exact Nat.zero_le 1
      | some data => exact Nat.le_refl 1
    · rw [transmits.idle waits, Option.toList_none, List.append_nil]
      cases uart.log.chunk with
      | none => exact Nat.zero_le 1
      | some data => exact Nat.le_refl 1
  · have silent : uart.log.sends = false := transmits.pending.symm.trans free
    rw [transmits.idle (by rintro there; rw [there] at silent; exact Bool.true_eq_false.mp silent)]
    cases log : uart.log with
    | locked data =>
      rw [log] at silent
      exact absurd silent Bool.true_eq_false.mp
    | reset data =>
      rw [log] at silent
      exact absurd silent Bool.true_eq_false.mp
    | _ => rfl

/-- A chunk is sent while the line gets low, and another one waits for the end of a pause. -/
def sending : List Event :=
  [.process, .out [97, cr, lf], .lock, .line false, .rx, .reset, .tx, .received false, .begin .start, .pauseFn, .done,
    .take, .clear, .processed, .process, .line false, .rx, .rx, .received true, .begin .stop, .pauseFn, .line true, .rx, .rx,
    .out [98, cr, lf], .lock, .reset, .tx]

/-- The run exists. -/
theorem sending_complete : ∃ uart, Path (guarded Step InTime) {} sending uart ∧
    ((∀ data, uart.log = .reset data → uart.active = true ∧ uart.transmitting = none) ∧
      (uart.transmitting.isSome = true → uart.active = true) ∧
      (∃ missing, uart.accepted = uart.sent ++ missing ∧ missing.length ≤ 1 ∧ (uart.pending = false → missing = [])) ∧
      (uart.log = .waiting → uart.works.isPending .finish = true ∨ uart.works.running = some .finish)) := by
  have runs : (sending.foldlM (fun uart event => if InTime uart event then next uart event else none)
      ({} : Uart)).isSome := by decide
  obtain ⟨uart, ran⟩ := Option.isSome_iff_exists.mp runs
  have path : Path (guarded Step InTime) {} sending uart := Path.guarded_of_foldlM ran
  exact ⟨uart, path, transmissions_complete path⟩

end Uart

end CoapsClient.UartManager
