import CoapsClient.Model.Update.UartSteps

/-! # A rejected frame blocks its retransmission

`appl_update_xmodem_write_block` leaves a frame that fails its check or its number in the buffer, and
the next chunk is appended to it. So the NAK asks for a retransmission that is never looked at: until a
timer drops the buffer, every complete chunk has the rejected frame checked and rejected again.
-/

namespace CoapsClient.XmodemUpdate

open Machine
open ApplUpdate (einval)

variable {crc16 : List UInt8 → UInt16} {xmodem : Xmodem} {uart next : Uart} {env : Env} {label : Label}

/-- The complete frame in the buffer fails its check, or has neither the expected number nor the one
before. -/
structure Rejected (crc16 : List UInt8 → UInt16) (xmodem : Xmodem) : Prop where
  isBlock : xmodem.isBlock = true
  complete : xmodem.frameLen ≤ xmodem.len
  fails : xmodem.frame.checks crc16 = false ∨
    xmodem.block ≠ xmodem.frame.number ∧ xmodem.block ≠ xmodem.frame.number + 1

theorem Rejected.writeBlock (rejected : Rejected crc16 xmodem) (write : ApplUpdate.Answer) :
    xmodemWriteBlock crc16 write xmodem = { xmodem, rc := ebadmsg } := by
  have complete : ¬ xmodem.len < xmodem.frameLen := Nat.not_lt.mpr rejected.complete
  simp only [xmodemWriteBlock, rejected.isBlock, complete, Bool.not_true, Bool.false_eq_true, if_false]
  rcases rejected.fails with failed | ⟨notExpected, notPrevious⟩
  · simp only [failed, Bool.not_false, if_true]
  · simp only [notExpected, notPrevious, if_false, ite_self]

theorem Rejected.push (rejected : Rejected crc16 xmodem) (inside : xmodem.len ≤ xmodem.buffer.length)
    (data : List UInt8) : Rejected crc16 (xmodem.push data) := by
  obtain ⟨isBlock, frameLen, frame⟩ := frame_push inside data rejected.complete
  refine ⟨isBlock.trans rejected.isBlock, ?_, ?_⟩
  · rw [frameLen]
    exact Nat.le_trans rejected.complete (Nat.le_add_right _ _)
  · rw [frame]
    exact rejected.fails

/-- The rejected frame is still in front of everything received since, and nothing was written. -/
structure Blocked (crc16 : List UInt8 → UInt16) (rejected : List UInt8) (writes : List (Frame × Int))
    (uart : Uart) : Prop where
  inside : uart.xmodem.len ≤ uart.xmodem.buffer.length
  rejects : Rejected crc16 uart.xmodem
  front : rejected <+: uart.xmodem.assembled
  writes : uart.writes = writes

variable {bytes : List UInt8} {writes : List (Frame × Int)}

theorem Blocked.data (blocked : Blocked crc16 bytes writes uart) (chunk : List UInt8) :
    Blocked crc16 bytes writes (receiverLoop env uart chunk) := by
  simp only [receiverLoop]
  split_ifs
  · exact blocked
  · rw [xmodemHandler_eq]
    rcases xmodemAppend_cases uart.xmodem chunk with ⟨_, same⟩ | ⟨_, pushed, _⟩
    · rw [same]
      exact ⟨blocked.inside, blocked.rejects, blocked.front, blocked.writes⟩
    · rw [pushed]
      refine ⟨push_len_le blocked.inside chunk, blocked.rejects.push blocked.inside chunk, ?_, blocked.writes⟩
      exact blocked.front.trans (assembled_push blocked.inside chunk ▸ List.prefix_append ..)
  · exact blocked

theorem Blocked.write (env : Env) (blocked : Blocked crc16 bytes writes uart) :
    Blocked crc16 bytes writes (writeFn crc16 env uart) := by
  have bad : ebadmsg < 0 := by decide
  rw [writeFn_eq]
  simp only [blocked.rejects.writeBlock, bad, if_true]
  have quiet := retryTransfer_quiet env (uart.taken { xmodem := uart.xmodem, rc := ebadmsg })
  have same : (uart.taken { xmodem := uart.xmodem, rc := ebadmsg }).writes = uart.writes := by
    simp [Uart.taken]
  refine ⟨?_, ?_, ?_, quiet.writes.trans (same.trans blocked.writes)⟩
  · rw [quiet.xmodem]
    exact blocked.inside
  · rw [quiet.xmodem]
    exact blocked.rejects
  · rw [quiet.xmodem]
    exact blocked.front

/-- The step belongs to no timer: bytes arrive, or the write work runs. -/
def Untimed (label : Label) : Prop := (∃ chunk, label.event = .data chunk) ∨ label.event = .write

theorem Blocked.step (moved : Step crc16 uart label next) (untimed : Untimed label)
    (blocked : Blocked crc16 bytes writes uart) : Blocked crc16 bytes writes next := by
  obtain ⟨event, env⟩ := label
  rcases untimed with ⟨chunk, rfl⟩ | rfl
  · obtain rfl := Option.some.inj moved
    exact blocked.data chunk
  · obtain ⟨_, moved⟩ := Option.ite_none_right_eq_some.mp moved
    obtain rfl := Option.some.inj moved
    exact blocked.write env

theorem Blocked.run {labels : List Label} (path : Path (Step crc16) uart labels next)
    (untimed : ∀ label ∈ labels, Untimed label) (blocked : Blocked crc16 bytes writes uart) :
    Blocked crc16 bytes writes next := by
  induction path with
  | nil _ => exact blocked
  | cons moved _ ih =>
    exact ih (fun label member => untimed label (List.mem_cons_of_mem _ member))
      (blocked.step moved (untimed _ (List.mem_cons_self ..)))

/-- After a complete frame was rejected, nothing that arrives before a timer expires is written, be it
the retransmission in any chunks, and all of it is appended to the rejected frame. -/
theorem retransmission_never_written (crc16 : List UInt8 → UInt16) (past labels : List Label) (env : Env)
    (uart final : Uart) (history : Path (Step crc16) initial past uart)
    (rejected : Rejected crc16 uart.xmodem) (untimed : ∀ label ∈ labels, Untimed label)
    (path : Path (Step crc16) (writeFn crc16 env uart) labels final) :
    final.writes = uart.writes ∧ uart.xmodem.assembled <+: final.xmodem.assembled := by
  have inside : uart.xmodem.len ≤ uart.xmodem.buffer.length :=
    history.invariant (fun uart => uart.xmodem.len ≤ uart.xmodem.buffer.length)
      (fun _ _ _ kept moved => inside_step moved kept) (Nat.le_refl 0)
  have blocked : Blocked crc16 uart.xmodem.assembled uart.writes uart :=
    ⟨inside, rejected, List.prefix_refl _, rfl⟩
  have still := (blocked.write env).run path untimed
  exact ⟨still.writes, still.front⟩

/-- The first block arrives, then the second one with a wrong CRC. -/
private def garbled : List Label :=
  begun ++ received 1 0 ++ [⟨.data ([soh, 2, ~~~2] ++ List.replicate 128 0 ++ [0, 1]), {}⟩]

/-- The retransmission of the second block, in two chunks. -/
private def retransmission : List Label :=
  [⟨.data ((zeroFrame 2).take 60), {}⟩, ⟨.write, {}⟩, ⟨.data ((zeroFrame 2).drop 60), {}⟩, ⟨.write, {}⟩]

/-- A retransmission that is not written. -/
theorem garbled_block_not_rewritten :
    ∃ uart final, Path (Step crc16ItuT) initial garbled uart ∧
      Path (Step crc16ItuT) (writeFn crc16ItuT {} uart) retransmission final ∧
      uart.writes.map (·.1.number) = [1] ∧ final.writes = uart.writes := by
  have ends : (garbled.foldlM (step crc16ItuT) initial).map (fun uart =>
      (uart.writes.map (·.1.number), uart.xmodem.isBlock, decide (uart.xmodem.frameLen ≤ uart.xmodem.len),
        uart.xmodem.frame.checks crc16ItuT,
        (retransmission.foldlM (step crc16ItuT) (writeFn crc16ItuT {} uart)).isSome)) =
      some ([1], true, true, false, true) := by
    decide +kernel
  obtain ⟨uart, ran, shown⟩ := Option.map_eq_some_iff.mp ends
  simp only [Prod.mk.injEq, decide_eq_true_eq] at shown
  obtain ⟨numbers, isBlock, complete, fails, goesOn⟩ := shown
  obtain ⟨final, ranOn⟩ := Option.isSome_iff_exists.mp goesOn
  have history := Path.of_foldlM ran
  have path := Path.of_foldlM ranOn
  have untimed : ∀ label ∈ retransmission, Untimed label := by
    intro label member
    simp only [retransmission, List.mem_cons, List.not_mem_nil, or_false] at member
    rcases member with rfl | rfl | rfl | rfl
    · exact .inl ⟨_, rfl⟩
    · exact .inr rfl
    · exact .inl ⟨_, rfl⟩
    · exact .inr rfl
  exact ⟨uart, final, history, path, numbers, (retransmission_never_written crc16ItuT garbled retransmission {}
    uart final history ⟨isBlock, complete, .inl fails⟩ untimed path).1⟩

/-- The second block arrives with a wrong CRC and is answered with a NAK. The intact retransmission is
answered with a NAK too, and not written. -/
theorem intact_retransmission_rejected :
    (((garbled ++ (⟨.write, {}⟩ : Label) :: received 2 0).foldlM (step crc16ItuT) initial).map fun uart =>
        (uart.writes.map (·.1.number), uart.xmodem.len, uart.sent)) =
      some ([1], 266, [crcRequest, ack, nak, nak]) := by
  decide +kernel

end CoapsClient.XmodemUpdate
