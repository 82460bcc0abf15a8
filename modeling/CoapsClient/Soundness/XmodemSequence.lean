import CoapsClient.Model.Update.UartSteps

/-! # Failed writes and the order of the blocks of a transfer

`xmodem_block` moves on whether the write of the block succeeds or not. A block whose write fails is
answered with a NAK, its retransmission is then taken for a duplicate and acknowledged, and the image
has a gap. Only a failed write of the first block, while the start work still makes attempts, is
repaired by the next attempt.

As long as no write fails, the receiver writes the blocks in order once the first start attempt of a
transfer has reset it. Before that attempt it still expects the next block of the transfer before, and
takes it. The header is checked only when a chunk arrives: a frame that is dropped while its write work
is queued can be followed by one whose number and complement do not agree, and that one is written.
-/

namespace CoapsClient.XmodemUpdate

open Machine

section Failures

/-- The frames are numbered from one on, with the complement of the number and a passed check. -/
def InOrder (crc16 : List UInt8 → UInt16) (frames : List Frame) : Prop :=
  ∀ index frame, frames[index]? = some frame →
    frame.number = UInt8.ofNat (index + 1) ∧ frame.complement = ~~~frame.number ∧
      frame.checks crc16 = true

/-- The frames of the image: those that were written without an error. -/
def Uart.image (uart : Uart) : List Frame := (uart.writes.filter (·.2 == 0)).map (·.1)

/-- The number of the block that is expected after the image. -/
def Uart.expected (uart : Uart) : UInt8 := UInt8.ofNat (uart.image.length + 1)

/-- The start work is scheduled, but no attempt of the transfer was made. -/
def Uart.waits (uart : Uart) : Prop := uart.startWork = true ∧ uart.updateStart = false

/-- A write failed while the transfer still starts. -/
def Uart.stumbled (uart : Uart) : Prop := uart.updateStart = true ∧ uart.xmodem.block ≠ 1

/-- What ties the receiver to the image. -/
structure Sequence (crc16 : List UInt8 → UInt16) (uart : Uart) : Prop where
  inside : uart.xmodem.len ≤ uart.xmodem.buffer.length
  ordered : InOrder crc16 uart.image
  starting : uart.updateStart = true → uart.startWork = true
  fresh : uart.startWork = true → uart.update = true ∨ uart.writeWork = true → uart.image = []
  waiting : uart.update = true → uart.waits → uart.writeWork = false
  expects : uart.update = true → ¬ uart.waits → ¬ uart.stumbled → uart.xmodem.block = uart.expected
  queued : uart.writeWork = true → uart.xmodem.block = uart.expected
  header : uart.writeWork = true → uart.xmodem.len ≠ 0 →
    headerLen ≤ uart.xmodem.len ∧ uart.xmodem.numbered

variable {crc16 : List UInt8 → UInt16} {uart next : Uart} {env : Env} {label : Label}

theorem InOrder.snoc {frames : List Frame} {frame : Frame} (ordered : InOrder crc16 frames)
    (number : frame.number = UInt8.ofNat (frames.length + 1)) (complement : frame.complement = ~~~frame.number)
    (checks : frame.checks crc16 = true) : InOrder crc16 (frames ++ [frame]) := by
  intro index other found
  rcases Nat.lt_or_ge index frames.length with before | behind
  · rw [List.getElem?_append_left before] at found
    exact ordered index other found
  · rw [List.getElem?_append_right behind, List.getElem?_singleton] at found
    obtain ⟨last, same⟩ := Option.ite_none_right_eq_some.mp found
    obtain rfl := Option.some.inj same
    obtain rfl : index = frames.length := by omega
    exact ⟨number, complement, checks⟩

/-- A step that keeps the receiver, the image, the start and the write work, and the flags or clears
them. -/
structure Calm (uart next : Uart) : Prop where
  startWork : next.startWork = uart.startWork
  writeWork : next.writeWork = uart.writeWork
  xmodem : next.xmodem = uart.xmodem
  writes : next.writes = uart.writes
  flags : next.update = uart.update ∧ next.updateStart = uart.updateStart ∨
    next.update = false ∧ next.updateStart = false

theorem Quiet.calm (quiet : Quiet uart next) : Calm uart next :=
  ⟨quiet.startWork, quiet.writeWork, quiet.xmodem, quiet.writes, quiet.flags⟩

theorem Sequence.of_calm (sequence : Sequence crc16 uart) (calm : Calm uart next) : Sequence crc16 next := by
  have image : next.image = uart.image := by rw [Uart.image, calm.writes, Uart.image]
  have expected : next.expected = uart.expected := by rw [Uart.expected, image, Uart.expected]
  obtain ⟨inside, ordered, starting, fresh, waiting, expects, queued, header⟩ := sequence
  rcases calm.flags with ⟨update, updateStart⟩ | ⟨update, updateStart⟩
  · have waits : next.waits ↔ uart.waits := by rw [Uart.waits, calm.startWork, updateStart, Uart.waits]
    have stumbled : next.stumbled ↔ uart.stumbled := by rw [Uart.stumbled, calm.xmodem, updateStart, Uart.stumbled]
    constructor
    · rwa [calm.xmodem]
    · rwa [image]
    · rwa [calm.startWork, updateStart]
    · rwa [calm.startWork, update, calm.writeWork, image]
    · rwa [update, waits, calm.writeWork]
    · rwa [update, waits, stumbled, calm.xmodem, expected]
    · rwa [calm.writeWork, calm.xmodem, expected]
    · rwa [calm.writeWork, calm.xmodem]
  · constructor
    · rwa [calm.xmodem]
    · rwa [image]
    · simp [updateStart]
    · rw [calm.startWork, update, calm.writeWork, image]
      exact fun starts running => fresh starts (.inr (running.resolve_left Bool.false_ne_true))
    · simp [update]
    · simp [update]
    · rwa [calm.writeWork, calm.xmodem, expected]
    · rwa [calm.writeWork, calm.xmodem]

/-- The receiver drops what it has of a frame. -/
theorem Sequence.retry (sequence : Sequence crc16 uart) :
    Sequence crc16 { uart with xmodem := xmodemRetry uart.xmodem } := by
  obtain ⟨inside, ordered, starting, fresh, waiting, expects, queued, header⟩ := sequence
  exact ⟨Nat.zero_le _, ordered, starting, fresh, waiting, expects, queued, fun _ empty => absurd rfl empty⟩

/-- A start attempt. -/
theorem Sequence.attempted (attempted : Attempted uart next) (starts : uart.startWork = true)
    (sequence : Sequence crc16 uart) : Sequence crc16 next := by
  have image : next.image = uart.image := by rw [Uart.image, attempted.writes, Uart.image]
  have first : next.update = true ∨ next.writeWork = true → next.xmodem.block = next.expected := by
    rw [attempted.update, attempted.writeWork, attempted.block, Uart.expected, image]
    intro running
    rw [sequence.fresh starts running]
    rfl
  constructor
  · simp [attempted.len]
  · rw [image]
    exact sequence.ordered
  · exact fun _ => attempted.startWork
  · rw [attempted.update, attempted.writeWork, image]
    exact fun _ running => sequence.fresh starts running
  · rintro update ⟨_, waits⟩
    rw [attempted.updateStart, Bool.or_eq_false_iff] at waits
    rw [attempted.writeWork]
    exact sequence.waiting (attempted.update ▸ update) ⟨starts, waits.1⟩
  · exact fun update _ _ => first (.inl update)
  · exact fun queued => first (.inr queued)
  · exact fun _ some => absurd attempted.len some

/-- The start gives up. -/
theorem Sequence.stopped (quiet : Quiet { uart with startWork := false } next)
    (update : next.update = false) (updateStart : next.updateStart = false) (sequence : Sequence crc16 uart) :
    Sequence crc16 next := by
  have image : next.image = uart.image := by rw [Uart.image, quiet.writes, Uart.image]
  have expected : next.expected = uart.expected := by rw [Uart.expected, image, Uart.expected]
  obtain ⟨inside, ordered, starting, fresh, waiting, expects, queued, header⟩ := sequence
  constructor
  · rwa [quiet.xmodem]
  · rwa [image]
  · simp [updateStart]
  · simp [quiet.startWork]
  · simp [update]
  · simp [update]
  · rwa [quiet.writeWork, quiet.xmodem, expected]
  · rwa [quiet.writeWork, quiet.xmodem]

/-- A chunk for a receiver that is in step with the image. -/
theorem Sequence.data (chunk : List UInt8) (update : uart.update = true) (attempted : ¬ uart.waits)
    (clean : ¬ uart.stumbled) (kept : uart.writeWork = true → uart.xmodem.len ≠ 0)
    (sequence : Sequence crc16 uart) : Sequence crc16 (xmodemHandler uart chunk) := by
  have inStep := sequence.expects update attempted clean
  rw [xmodemHandler_eq]
  rcases xmodemAppend_cases uart.xmodem chunk with ⟨_, same⟩ | ⟨_, pushed, reported⟩
  · have calm : Calm uart { uart with
        xmodem := uart.xmodem
        nakWork := uart.nakWork || XmodemState.notOk == .notOk
        writeWork := uart.writeWork || XmodemState.notOk == .blockReady
        readyWork := uart.readyWork || XmodemState.notOk == .ready } :=
      ⟨rfl, by simp, rfl, rfl, .inl ⟨rfl, rfl⟩⟩
    rw [same]
    exact sequence.of_calm calm
  · rw [pushed]
    refine ⟨push_len_le sequence.inside chunk, sequence.ordered, sequence.starting,
      fun starts _ => sequence.fresh starts (.inl update), fun _ waits => absurd waits attempted,
      fun _ _ _ => inStep, fun _ => inStep, ?_⟩
    intro queued _
    rcases Bool.or_eq_true_iff.mp queued with before | now
    · obtain ⟨long, numbered⟩ := sequence.header before (kept before)
      have longer : headerLen ≤ (uart.xmodem.push chunk).len := Nat.le_trans long (Nat.le_add_right _ _)
      refine ⟨longer, ?_⟩
      simp only [headerLen] at long
      rw [Xmodem.numbered, byteAt_push sequence.inside chunk (by omega), byteAt_push sequence.inside chunk (by omega)]
      exact numbered
    · obtain ⟨_, numbered, complete⟩ := reported.mp (by simpa using now)
      simp only [Xmodem.frameLen] at complete
      exact ⟨by simp only; omega, numbered⟩

/-- The write work runs and leaves the image alone. -/
theorem Sequence.dequeue {nakWork : Bool} {writes : List (Frame × Int)} (same : writes = uart.writes)
    (sequence : Sequence crc16 uart) : Sequence crc16 { uart with writeWork := false, nakWork, writes } := by
  subst same
  obtain ⟨inside, ordered, starting, fresh, waiting, expects, queued, header⟩ := sequence
  exact ⟨inside, ordered, starting, fun starts running => fresh starts (.inl (running.resolve_right Bool.false_ne_true)),
    fun _ _ => rfl, expects, fun queued => absurd queued Bool.false_ne_true,
    fun queued => absurd queued Bool.false_ne_true⟩

/-- The expected block was given to `appl_update_write`: the receiver moves on. -/
structure Wrote (crc16 : List UInt8 → UInt16) (rc : Int) (uart next : Uart) : Prop where
  holds : Holds crc16 uart.xmodem uart.xmodem.block
  queued : uart.writeWork = true
  update : next.update = uart.update
  writeWork : next.writeWork = false
  xmodem : next.xmodem = { uart.xmodem with block := uart.xmodem.block + 1, len := 0 }
  writes : next.writes = uart.writes ++ [(uart.xmodem.frame, rc)]

/-- The block was written, and the start is over. -/
theorem Sequence.written (wrote : Wrote crc16 0 uart next) (started : next.updateStart = false)
    (starts : next.startWork = (uart.startWork && !uart.updateStart)) (sequence : Sequence crc16 uart) :
    Sequence crc16 next := by
  have inStep := sequence.queued wrote.queued
  have some : uart.xmodem.len ≠ 0 := by
    have complete := wrote.holds.complete
    simp only [Xmodem.frameLen, headerLen] at complete
    omega
  have complement : uart.xmodem.frame.complement = ~~~uart.xmodem.frame.number :=
    (sequence.header wrote.queued some).2
  have image : next.image = uart.image ++ [uart.xmodem.frame] := by
    simp [Uart.image, wrote.writes]
  have expected : next.xmodem.block = next.expected := by
    rw [wrote.xmodem, Uart.expected, image, List.length_append, UInt8.ofNat_add]
    simp only [inStep, Uart.expected]
    rfl
  constructor
  · simp [wrote.xmodem]
  · rw [image]
    exact sequence.ordered.snoc (wrote.holds.number.trans inStep) complement wrote.holds.checks
  · simp [started]
  · -- The start work can be left only if the transfer has ended: before an attempt nothing is queued.
    rw [starts, wrote.update, wrote.writeWork]
    intro left running
    obtain ⟨scheduled, notStarted⟩ := Bool.and_eq_true_iff.mp left
    have update := running.resolve_right Bool.false_ne_true
    have idle := sequence.waiting update ⟨scheduled, by simpa using notStarted⟩
    rw [wrote.queued] at idle
    exact absurd idle (by decide)
  · exact fun _ _ => wrote.writeWork
  · exact fun _ _ _ => expected
  · simp [wrote.writeWork]
  · simp [wrote.writeWork]

/-- The write of the first block failed while the transfer still starts. -/
theorem Sequence.failed {rc : Int} (wrote : Wrote crc16 rc uart next) (error : rc < 0)
    (starting : uart.updateStart = true) (started : next.updateStart = true)
    (starts : next.startWork = uart.startWork) (sequence : Sequence crc16 uart) : Sequence crc16 next := by
  have scheduled := sequence.starting starting
  have nonzero : (rc == 0) = false := by
    rw [beq_eq_false_iff_ne]
    omega
  have image : next.image = uart.image := by
    simp [Uart.image, wrote.writes, nonzero]
  have stumbled : next.stumbled := by
    refine ⟨started, ?_⟩
    rw [wrote.xmodem, sequence.queued wrote.queued, Uart.expected, sequence.fresh scheduled (.inr wrote.queued)]
    exact (by decide : UInt8.ofNat 1 + 1 ≠ 1)
  constructor
  · simp [wrote.xmodem]
  · rw [image]
    exact sequence.ordered
  · exact fun _ => starts.trans scheduled
  · rw [image]
    exact fun _ _ => sequence.fresh scheduled (.inr wrote.queued)
  · exact fun _ _ => wrote.writeWork
  · exact fun _ _ clean => absurd stumbled clean
  · simp [wrote.writeWork]
  · simp [wrote.writeWork]

/-- The write work, if a write fails only while the transfer still starts. -/
theorem Sequence.write (queued : uart.writeWork = true)
    (result : ApplUpdate.write env.write = 0 ∨ uart.updateStart = true ∧ ApplUpdate.write env.write < 0)
    (sequence : Sequence crc16 uart) : Sequence crc16 (writeFn crc16 env uart) := by
  rw [writeFn_eq]
  rcases xmodemWriteBlock_cases crc16 env.write uart.xmodem with
    ⟨rc, error, rejected⟩ | ⟨holds, written⟩ | ⟨_, duplicated⟩
  · simp only [rejected, error, if_true]
    refine (sequence.dequeue ?_).of_calm (retryTransfer_quiet env _).calm
    simp
  · rcases result with ok | ⟨starting, failed⟩
    · have done : ¬ (0 : Int) < 0 := by decide
      have other : (0 : Int) ≠ duplicate := by decide
      simp only [written, ok, done, other, if_false]
      exact sequence.written ⟨holds, queued, rfl, rfl, rfl, rfl⟩ rfl rfl
    · simp only [written, failed, if_true, retryTransfer, Uart.taken, starting]
      exact sequence.failed ⟨holds, queued, rfl, rfl, rfl, rfl⟩ failed starting rfl rfl
  · have passed : ¬ duplicate < 0 := by decide
    simp only [duplicated, passed, if_true, if_false]
    have dropped : Sequence crc16 { uart with writeWork := false, nakWork := false, xmodem := xmodemRetry uart.xmodem } :=
      (sequence.dequeue rfl).retry
    have same : (uart.taken ⟨{ uart.xmodem with len := 0 }, duplicate, none⟩).writes = uart.writes := by
      simp [Uart.taken]
    split
    · exact dropped.of_calm ⟨rfl, rfl, rfl, same, .inl ⟨rfl, rfl⟩⟩
    · exact dropped.of_calm ⟨rfl, rfl, rfl, same, .inl ⟨rfl, rfl⟩⟩

/-- A transfer begins, with no frame of an earlier one left to write. -/
theorem Sequence.update (apply : Bool) (idle : uart.writeWork = false)
    (sequence : Sequence crc16 uart) : Sequence crc16 (shCmdUpdate env uart apply) := by
  simp only [shCmdUpdate]
  split_ifs
  · exact sequence
  · obtain ⟨inside, ordered, starting, fresh, waiting, expects, queued, header⟩ := sequence
    refine ⟨inside, fun index frame found => absurd found (by simp [Uart.image]), fun _ => rfl, fun _ _ => rfl,
      fun _ _ => idle, fun _ attempted clean => ?_, fun queued => absurd queued (by simp [idle]),
      fun queued => absurd queued (by simp [idle])⟩
    have starting : uart.updateStart = true := by
      by_contra other
      exact attempted ⟨rfl, Bool.eq_false_iff.mpr other⟩
    by_contra other
    exact clean ⟨starting, other⟩
  · exact sequence.of_calm ⟨rfl, rfl, rfl, rfl, .inl ⟨rfl, rfl⟩⟩

/-- What the steps have to meet. No transfer begins while the write work is queued. No byte arrives
before the first start attempt, between a failed write and the next attempt, or while the write work is
queued for a frame that was dropped. A write fails only while the transfer still starts. -/
def sequenceCondition (uart : Uart) (label : Label) : Bool :=
  match label.event with
  | .update _ => !uart.writeWork
  | .data _ =>
      (!uart.startWork || uart.updateStart) && (!uart.updateStart || uart.xmodem.block == 1) &&
        (!uart.writeWork || uart.xmodem.len != 0)
  | .write =>
      ApplUpdate.write label.env.write == 0 ||
        (uart.updateStart && decide (ApplUpdate.write label.env.write < 0))
  | _ => true

theorem Sequence.step (moved : guarded (Step crc16) (fun uart label => sequenceCondition uart label = true)
    uart label next) (sequence : Sequence crc16 uart) : Sequence crc16 next := by
  obtain ⟨condition, moved⟩ := moved
  obtain ⟨event, env⟩ := label
  cases event with
  | update apply =>
    obtain rfl := Option.some.inj moved
    exact sequence.update apply (by simpa [sequenceCondition] using condition)
  | data chunk =>
    obtain rfl := Option.some.inj moved
    simp only [receiverLoop]
    split_ifs with executing update
    · exact sequence
    · simp only [sequenceCondition, Bool.and_eq_true, Bool.or_eq_true, Bool.not_eq_true', beq_iff_eq,
        bne_iff_ne] at condition
      obtain ⟨⟨attempted, clean⟩, kept⟩ := condition
      refine sequence.data chunk update ?_ ?_ ?_
      · rintro ⟨starts, waits⟩
        simp [starts, waits] at attempted
      · rintro ⟨starting, other⟩
        simp [starting, other] at clean
      · intro queued
        exact kept.resolve_left (by simp [queued])
    · exact sequence
  | start =>
    obtain ⟨starts, moved⟩ := Option.ite_none_right_eq_some.mp moved
    obtain rfl := Option.some.inj moved
    rcases startFn_cases env uart with attempted | ⟨quiet, update, updateStart⟩
    · exact sequence.attempted attempted starts
    · exact sequence.stopped quiet update updateStart
  | nak =>
    obtain ⟨_, moved⟩ := Option.ite_none_right_eq_some.mp moved
    obtain rfl := Option.some.inj moved
    have dropped : Sequence crc16 { uart with nakWork := false, xmodem := xmodemRetry uart.xmodem } :=
      sequence.retry.of_calm ⟨rfl, rfl, rfl, rfl, .inl ⟨rfl, rfl⟩⟩
    exact dropped.of_calm (retryTransfer_quiet env _).calm
  | ack =>
    obtain ⟨_, moved⟩ := Option.ite_none_right_eq_some.mp moved
    obtain rfl := Option.some.inj moved
    exact sequence.of_calm ⟨rfl, rfl, rfl, rfl, .inl ⟨rfl, rfl⟩⟩
  | timeout =>
    obtain ⟨_, moved⟩ := Option.ite_none_right_eq_some.mp moved
    obtain rfl := Option.some.inj moved
    simp only [timeoutFn]
    split
    · exact sequence.of_calm ⟨rfl, rfl, rfl, rfl, .inl ⟨rfl, rfl⟩⟩
    · exact sequence.of_calm ⟨rfl, rfl, rfl, rfl, .inr ⟨rfl, rfl⟩⟩
  | write =>
    obtain ⟨queued, moved⟩ := Option.ite_none_right_eq_some.mp moved
    obtain rfl := Option.some.inj moved
    refine sequence.write queued ?_
    simpa [sequenceCondition] using condition
  | ready =>
    obtain ⟨_, moved⟩ := Option.ite_none_right_eq_some.mp moved
    obtain rfl := Option.some.inj moved
    exact sequence.of_calm ⟨rfl, rfl, rfl, rfl, .inr ⟨rfl, rfl⟩⟩
  | otherUpdate dfu =>
    obtain rfl := Option.some.inj moved
    exact sequence.of_calm ⟨rfl, rfl, rfl, rfl, .inl ⟨rfl, rfl⟩⟩

private theorem sequence_initial (crc16 : List UInt8 → UInt16) : Sequence crc16 initial := by
  refine ⟨Nat.le_refl 0, ?_, ?_, ?_, ?_, ?_, ?_, ?_⟩
  · intro index frame found
    simp [Uart.image, initial] at found
  all_goals simp [initial]

/-- The image has no gap: its blocks are numbered from one on. A frame that is to be written is compared
with the first block that is not in the image, so a block whose write failed is still expected. -/
structure NoBlockMissing (crc16 : List UInt8 → UInt16) (uart : Uart) : Prop where
  ordered : InOrder crc16 uart.image
  expects : uart.writeWork = true → uart.xmodem.block = uart.expected

/-- In a run whose steps meet the condition no block is missing from the image. -/
theorem no_block_missing (crc16 : List UInt8 → UInt16) (labels : List Label) (uart : Uart)
    (path : Path (guarded (Step crc16) fun uart label => sequenceCondition uart label = true) initial labels uart) :
    NoBlockMissing crc16 uart := by
  have sequence : Sequence crc16 uart :=
    path.invariant (Sequence crc16) (fun _ _ _ kept moved => kept.step moved) (sequence_initial crc16)
  exact ⟨sequence.ordered, sequence.queued⟩

/-- The write of the first block fails, and the next start attempt asks for the block again. -/
private def repeatedStart : List Label :=
  begun ++ received 1 (-5) ++ [⟨.start, {}⟩] ++ received 1 0 ++ received 2 0 ++ complete

/-- The image is complete though the first write failed. -/
theorem first_block_written_again :
    ∃ uart, Path (guarded (Step crc16ItuT) fun uart label => sequenceCondition uart label = true) initial
        repeatedStart uart ∧
      (uart.image.map Frame.number, uart.ended) = ([1, 2], some 0) ∧ NoBlockMissing crc16ItuT uart := by
  have ends : (repeatedStart.foldlM
      (fun uart label => if sequenceCondition uart label = true then step crc16ItuT uart label else none)
      initial).map (fun uart => (uart.image.map Frame.number, uart.ended)) = some ([1, 2], some 0) := by
    decide +kernel
  obtain ⟨uart, ran, shown⟩ := Option.map_eq_some_iff.mp ends
  have path := Path.guarded_of_foldlM ran
  exact ⟨uart, path, shown, no_block_missing crc16ItuT repeatedStart uart path⟩

/-- The second write fails, and the peer sends the block again. -/
private def repeatedBlock : List Label :=
  begun ++ received 1 0 ++ received 2 (-5) ++ received 2 0 ++ [⟨.ack, {}⟩] ++ complete

/-- The retransmission is acknowledged as a duplicate, and the transfer ends with a gap. -/
theorem second_block_lost :
    ((repeatedBlock.foldlM (step crc16ItuT) initial).map fun uart =>
        (uart.image.map Frame.number, uart.sent, uart.ended)) =
      some ([1], [crcRequest, ack, nak, ack, ack], some 0) := by
  decide +kernel

end Failures

section Order

variable {crc16 : List UInt8 → UInt16} {uart next : Uart} {env : Env} {label : Label}

/-- `appl_update_write` succeeds. -/
def writeSucceeds (label : Label) : Bool := label.event != .write || ApplUpdate.write label.env.write == 0

/-- What the steps have to meet: no transfer begins while the write work is queued, and no byte arrives
before the first start attempt or while the write work is queued for a frame that was dropped. -/
def orderCondition (uart : Uart) (label : Label) : Bool :=
  match label.event with
  | .update _ => !uart.writeWork
  | .data _ => (!uart.startWork || uart.updateStart) && (!uart.writeWork || uart.xmodem.len != 0)
  | _ => true

/-- All writes succeeded, so the receiver is at the first block while the transfer starts. -/
structure Delivered (crc16 : List UInt8 → UInt16) (uart : Uart) : Prop extends Sequence crc16 uart where
  first : uart.updateStart = true → uart.xmodem.block = 1
  succeeded : ∀ write ∈ uart.writes, write.2 = 0

/-- Without a failed write the image is all that was written. -/
theorem Delivered.image_eq (delivered : Delivered crc16 uart) : uart.image = uart.writes.map (·.1) := by
  have all : uart.writes.filter (·.2 == 0) = uart.writes := by
    rw [List.filter_eq_self]
    intro write member
    simp [delivered.succeeded write member]
  rw [Uart.image, all]

private theorem sequenceCondition_of_order (delivered : Delivered crc16 uart)
    (condition : orderCondition uart label = true) (succeeds : writeSucceeds label = true) :
    sequenceCondition uart label = true := by
  obtain ⟨event, env⟩ := label
  cases event with
  | update apply => exact condition
  | data chunk =>
    simp only [orderCondition, Bool.and_eq_true] at condition
    simp only [sequenceCondition, Bool.and_eq_true]
    refine ⟨⟨condition.1, ?_⟩, condition.2⟩
    cases starting : uart.updateStart with
    | false => rfl
    | true => simp [delivered.first starting]
  | write =>
    simp only [writeSucceeds, bne_self_eq_false, Bool.false_or] at succeeds
    simp [sequenceCondition, succeeds]
  | _ => rfl

/-- The facts that no failed write leaves behind. -/
private def Clean (uart : Uart) : Prop :=
  (uart.updateStart = true → uart.xmodem.block = 1) ∧ ∀ write ∈ uart.writes, write.2 = 0

private theorem Clean.of_same (clean : Clean uart) (block : next.xmodem.block = uart.xmodem.block)
    (writes : next.writes = uart.writes)
    (flags : next.updateStart = uart.updateStart ∨ next.updateStart = false) : Clean next := by
  refine ⟨?_, ?_⟩
  · rw [block]
    intro starting
    rcases flags with same | cleared
    · exact clean.1 (same ▸ starting)
    · exact absurd starting (by simp [cleared])
  · rw [writes]
    exact clean.2

private theorem Clean.of_calm (clean : Clean uart) (calm : Calm uart next) : Clean next :=
  clean.of_same (congrArg Xmodem.block calm.xmodem) calm.writes (calm.flags.imp And.right And.right)

private theorem Clean.data (clean : Clean uart) (chunk : List UInt8) : Clean (xmodemHandler uart chunk) := by
  rw [xmodemHandler_eq]
  refine clean.of_same ?_ rfl (.inl rfl)
  rcases xmodemAppend_cases uart.xmodem chunk with ⟨_, same⟩ | ⟨_, pushed, _⟩
  · simp only [same]
  · simp only [pushed, Xmodem.push]

private theorem Clean.write (clean : Clean uart) (ok : ApplUpdate.write env.write = 0) :
    Clean (writeFn crc16 env uart) := by
  rw [writeFn_eq]
  rcases xmodemWriteBlock_cases crc16 env.write uart.xmodem with
    ⟨rc, error, rejected⟩ | ⟨_, written⟩ | ⟨_, duplicated⟩
  · simp only [rejected, error, if_true]
    have taken : Clean (uart.taken { xmodem := uart.xmodem, rc }) :=
      clean.of_same rfl (by simp [Uart.taken]) (.inl rfl)
    exact taken.of_calm (retryTransfer_quiet env _).calm
  · have done : ¬ (0 : Int) < 0 := by decide
    have other : (0 : Int) ≠ duplicate := by decide
    simp only [written, ok, done, other, if_false]
    refine ⟨fun starting => absurd starting Bool.false_ne_true, ?_⟩
    intro write member
    rcases List.mem_append.mp member with old | new
    · exact clean.2 write old
    · obtain rfl : write = (uart.xmodem.frame, 0) := by simpa using new
      rfl
  · have passed : ¬ duplicate < 0 := by decide
    simp only [duplicated, passed, if_true, if_false]
    split
    · exact clean.of_same rfl (by simp [Uart.taken]) (.inl rfl)
    · exact clean.of_same rfl (by simp [Uart.taken]) (.inl rfl)

private theorem Clean.step (moved : Step crc16 uart label next) (succeeds : writeSucceeds label = true)
    (clean : Clean uart) : Clean next := by
  obtain ⟨event, env⟩ := label
  cases event with
  | update apply =>
    obtain rfl := Option.some.inj moved
    simp only [shCmdUpdate]
    split_ifs
    · exact clean
    · exact ⟨clean.1, fun write member => absurd member (by simp)⟩
    · exact clean.of_same rfl rfl (.inl rfl)
  | data chunk =>
    obtain rfl := Option.some.inj moved
    simp only [receiverLoop]
    split_ifs
    · exact clean
    · exact clean.data chunk
    · exact clean
  | start =>
    obtain ⟨_, moved⟩ := Option.ite_none_right_eq_some.mp moved
    obtain rfl := Option.some.inj moved
    rcases startFn_cases env uart with attempted | ⟨quiet, _, updateStart⟩
    · exact ⟨fun _ => attempted.block, attempted.writes ▸ clean.2⟩
    · exact clean.of_same (congrArg Xmodem.block quiet.xmodem) quiet.writes (.inr updateStart)
  | nak =>
    obtain ⟨_, moved⟩ := Option.ite_none_right_eq_some.mp moved
    obtain rfl := Option.some.inj moved
    have dropped : Clean { uart with nakWork := false, xmodem := xmodemRetry uart.xmodem } :=
      clean.of_same rfl rfl (.inl rfl)
    exact dropped.of_calm (retryTransfer_quiet env _).calm
  | ack =>
    obtain ⟨_, moved⟩ := Option.ite_none_right_eq_some.mp moved
    obtain rfl := Option.some.inj moved
    exact clean.of_same rfl rfl (.inl rfl)
  | timeout =>
    obtain ⟨_, moved⟩ := Option.ite_none_right_eq_some.mp moved
    obtain rfl := Option.some.inj moved
    simp only [timeoutFn]
    split
    · exact clean.of_same rfl rfl (.inl rfl)
    · exact clean.of_same rfl rfl (.inr rfl)
  | write =>
    obtain ⟨_, moved⟩ := Option.ite_none_right_eq_some.mp moved
    obtain rfl := Option.some.inj moved
    simp only [writeSucceeds, bne_self_eq_false, Bool.false_or, beq_iff_eq] at succeeds
    exact clean.write succeeds
  | ready =>
    obtain ⟨_, moved⟩ := Option.ite_none_right_eq_some.mp moved
    obtain rfl := Option.some.inj moved
    exact clean.of_same rfl rfl (.inr rfl)
  | otherUpdate dfu =>
    obtain rfl := Option.some.inj moved
    exact clean.of_same rfl rfl (.inl rfl)

/-- The steps that meet the condition, as long as the flash takes every block. -/
def Delivery (crc16 : List UInt8 → UInt16) : Uart → Label → Uart → Prop :=
  guarded (Step crc16) fun uart label => (orderCondition uart label && writeSucceeds label) = true

theorem Delivered.step (moved : Delivery crc16 uart label next) (delivered : Delivered crc16 uart) :
    Delivered crc16 next := by
  obtain ⟨condition, moved⟩ := moved
  obtain ⟨condition, succeeds⟩ := Bool.and_eq_true_iff.mp condition
  have sequence := delivered.toSequence.step
    ⟨sequenceCondition_of_order delivered condition succeeds, moved⟩
  obtain ⟨first, succeeded⟩ := Clean.step moved succeeds ⟨delivered.first, delivered.succeeded⟩
  exact ⟨sequence, first, succeeded⟩

/-- If no write fails and the steps meet the condition, the payloads that a transfer wrote are those of
frames numbered 1, 2, 3 and so on, each once and in order, with the complement of their number and a
passed check. -/
theorem blocks_in_order (crc16 : List UInt8 → UInt16) (labels : List Label) (uart : Uart)
    (path : Path (Delivery crc16) initial labels uart) : InOrder crc16 (uart.writes.map (·.1)) := by
  have start : Delivered crc16 initial := by
    refine ⟨sequence_initial crc16, ?_, ?_⟩
    · simp [initial]
    · simp [initial]
  have delivered : Delivered crc16 uart :=
    path.invariant (Delivered crc16) (fun _ _ _ kept moved => kept.step moved) start
  rw [← delivered.image_eq]
  exact delivered.ordered

/-- A transfer with a repeated frame and noise on the line. -/
private def noisyTransfer : List Label :=
  begun ++ received 1 0 ++ received 1 0 ++ [⟨.ack, {}⟩, ⟨.data [0x55, 0xaa], {}⟩, ⟨.nak, {}⟩] ++ received 2 0 ++
    complete

/-- The blocks of a noisy transfer. -/
theorem noisy_blocks_in_order :
    ∃ uart, Path (Delivery crc16ItuT) initial noisyTransfer uart ∧
      uart.writes.map (·.1.number) = [1, 2] ∧ InOrder crc16ItuT (uart.writes.map (·.1)) := by
  have ends : (noisyTransfer.foldlM (fun uart label =>
      if (orderCondition uart label && writeSucceeds label) = true then step crc16ItuT uart label else none)
      initial).map (fun uart => uart.writes.map (·.1.number)) = some [1, 2] := by
    decide +kernel
  obtain ⟨uart, ran, shown⟩ := Option.map_eq_some_iff.mp ends
  have path := Path.guarded_of_foldlM ran
  exact ⟨uart, path, shown, blocks_in_order crc16ItuT noisyTransfer uart path⟩

/-- A transfer is given up after its first block. The next one begins, and the peer still sends the
second block. -/
private def lateBlock : List Label :=
  begun ++ received 1 0 ++ [⟨.timeout, {}⟩, ⟨.update true, { init := { area := some 1 } }⟩] ++ received 2 0

/-- The second block is the first one that the next transfer writes. -/
theorem late_block_written_first :
    lateBlock.all writeSucceeds = true ∧
      ((lateBlock.foldlM (step crc16ItuT) initial).map fun uart =>
        (uart.update, uart.writes.map (·.1.number))) = some (true, [2]) := by
  decide +kernel

end Order

end CoapsClient.XmodemUpdate
