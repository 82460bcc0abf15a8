import CoapsClient.Model.Update.UartSteps

/-! # The timers of an ended transfer

Only the ready work cancels timers when a transfer ends, and it leaves the start work alone. A transfer
that is given up keeps whatever is scheduled; after too many errors that is at least the timeout of the
last block, which then cancels the next update. The write work may still be queued, too, and schedules
a timer of its own.
-/

namespace CoapsClient.XmodemUpdate

open Machine

variable {crc16 : List UInt8 → UInt16} {uart next : Uart} {env : Env} {label : Label}

/-- No timer is scheduled and no block is left to write. -/
structure Unscheduled (uart : Uart) : Prop where
  startWork : uart.startWork = false
  nakWork : uart.nakWork = false
  ackWork : uart.ackWork = false
  timeoutWork : uart.timeoutWork = false
  writeWork : uart.writeWork = false

/-- The start work gives the transfer up. -/
def givesUp (env : Env) (uart : Uart) : Bool :=
  decide (6 ≤ uart.retries) || (uart.retries == 0 && ApplUpdate.erase uart.dfu env.erase != 0)

/-- One more error is answered with a NAK and does not end the transfer. -/
def toleratesError (uart : Uart) : Bool := uart.updateStart || decide (uart.retries < 10)

/-- What the steps that end a transfer have to find: the ready work no start work, the timeout and the
start work none of the other timers, and each of them no block to write. Too many errors must not end
it at all. -/
def timersCondition (crc16 : List UInt8 → UInt16) (uart : Uart) (label : Label) : Bool :=
  match label.event with
  | .ready => !uart.startWork && !uart.writeWork
  | .timeout =>
      uart.updateStart || (!uart.startWork && !uart.nakWork && !uart.ackWork && !uart.writeWork)
  | .start =>
      !givesUp label.env uart || (!uart.nakWork && !uart.ackWork && !uart.timeoutWork && !uart.writeWork)
  | .nak => toleratesError uart
  | .write => decide (0 ≤ (xmodemWriteBlock crc16 label.env.write uart.xmodem).rc) || toleratesError uart
  | _ => true

private theorem retryTransfer_goes_on (tolerates : toleratesError uart = true) :
    (retryTransfer env uart).update = uart.update := by
  simp only [toleratesError, Bool.or_eq_true, decide_eq_true_eq] at tolerates
  simp only [retryTransfer]
  split_ifs with starting few
  · rfl
  · rfl
  · exact absurd tolerates (by simp [starting, few])

private theorem startFn_goes_on (attempts : givesUp env uart = false) : (startFn env uart).update = uart.update := by
  simp only [givesUp, Bool.or_eq_false_iff, Bool.and_eq_false_iff, decide_eq_false_iff_not] at attempts
  simp only [startFn]
  split_ifs with first failed few more
  · exact absurd attempts.2 (by simp [first, failed])
  · rfl
  · rfl
  · rfl
  · exact absurd attempts.1 (by omega)

/-- The works of a step that ends a running transfer. -/
private theorem Unscheduled.of_quiet (quiet : Quiet uart next) (unscheduled : Unscheduled uart) :
    Unscheduled next :=
  ⟨quiet.startWork.trans unscheduled.startWork, quiet.nakWork.trans unscheduled.nakWork,
    quiet.ackWork.trans unscheduled.ackWork, quiet.timeoutWork.trans unscheduled.timeoutWork,
    quiet.writeWork.trans unscheduled.writeWork⟩

/-- A work that runs belongs to a running transfer. -/
private theorem update_of_scheduled {work : Bool} (kept : uart.update = false → Unscheduled uart)
    (scheduled : work = true) (idle : Unscheduled uart → work = false) : uart.update = true := by
  by_contra ended
  have none := idle (kept (Bool.eq_false_iff.mpr ended))
  rw [scheduled] at none
  exact absurd none (by decide)

private theorem unscheduled_step (moved : guarded (Step crc16) (fun uart label => timersCondition crc16 uart label = true)
    uart label next) (kept : uart.update = false → Unscheduled uart) : next.update = false → Unscheduled next := by
  obtain ⟨condition, moved⟩ := moved
  obtain ⟨event, env⟩ := label
  intro ended
  cases event with
  | update apply =>
    obtain rfl := Option.some.inj moved
    simp only [shCmdUpdate] at ended ⊢
    split_ifs at ended ⊢
    · exact kept ended
    · obtain ⟨startWork, nakWork, ackWork, timeoutWork, writeWork⟩ := kept ended
      exact ⟨startWork, nakWork, ackWork, timeoutWork, writeWork⟩
  | data chunk =>
    obtain rfl := Option.some.inj moved
    simp only [receiverLoop] at ended ⊢
    split_ifs at ended ⊢ with executing update
    · exact kept ended
    · rw [xmodemHandler_eq] at ended
      exact absurd update (by simpa using ended)
    · exact kept ended
  | start =>
    obtain ⟨scheduled, moved⟩ := Option.ite_none_right_eq_some.mp moved
    obtain rfl := Option.some.inj moved
    have running := update_of_scheduled kept scheduled Unscheduled.startWork
    simp only [timersCondition, Bool.or_eq_true, Bool.not_eq_true', Bool.and_eq_true] at condition
    rcases startFn_cases env uart with attempted | ⟨quiet, _⟩
    · exact absurd (attempted.update.symm.trans ended) (by simp [running])
    · rcases condition with attempts | ⟨⟨⟨nakWork, ackWork⟩, timeoutWork⟩, writeWork⟩
      · exact absurd ((startFn_goes_on attempts).symm.trans ended) (by simp [running])
      · exact Unscheduled.of_quiet quiet ⟨rfl, nakWork, ackWork, timeoutWork, writeWork⟩
  | nak =>
    obtain ⟨scheduled, moved⟩ := Option.ite_none_right_eq_some.mp moved
    obtain rfl := Option.some.inj moved
    have running := update_of_scheduled kept scheduled Unscheduled.nakWork
    have goesOn : (nakFn env uart).update = uart.update := retryTransfer_goes_on condition
    exact absurd (goesOn.symm.trans ended) (by simp [running])
  | ack =>
    obtain ⟨scheduled, moved⟩ := Option.ite_none_right_eq_some.mp moved
    obtain rfl := Option.some.inj moved
    have running := update_of_scheduled kept scheduled Unscheduled.ackWork
    exact absurd (running.symm.trans ended) (by decide)
  | timeout =>
    obtain ⟨scheduled, moved⟩ := Option.ite_none_right_eq_some.mp moved
    obtain rfl := Option.some.inj moved
    have running := update_of_scheduled kept scheduled Unscheduled.timeoutWork
    simp only [timersCondition, Bool.or_eq_true, Bool.and_eq_true, Bool.not_eq_true'] at condition
    simp only [timeoutFn] at ended ⊢
    split_ifs at ended ⊢ with starting
    · exact absurd running (by simpa using ended)
    · obtain ⟨⟨⟨startWork, nakWork⟩, ackWork⟩, writeWork⟩ := condition.resolve_left starting
      exact ⟨startWork, nakWork, ackWork, rfl, writeWork⟩
  | write =>
    obtain ⟨scheduled, moved⟩ := Option.ite_none_right_eq_some.mp moved
    obtain rfl := Option.some.inj moved
    have running := update_of_scheduled kept scheduled Unscheduled.writeWork
    have goesOn : (writeFn crc16 env uart).update = uart.update := by
      simp only [timersCondition, Bool.or_eq_true, decide_eq_true_eq] at condition
      rw [writeFn_eq]
      simp only
      split_ifs with error
      · exact retryTransfer_goes_on (condition.resolve_left (by omega))
      · rfl
      · rfl
      · rfl
    exact absurd (goesOn.symm.trans ended) (by simp [running])
  | ready =>
    obtain ⟨_, moved⟩ := Option.ite_none_right_eq_some.mp moved
    obtain rfl := Option.some.inj moved
    simp only [timersCondition, Bool.and_eq_true, Bool.not_eq_true'] at condition
    exact ⟨condition.1, rfl, rfl, rfl, condition.2⟩
  | otherUpdate dfu =>
    obtain rfl := Option.some.inj moved
    obtain ⟨startWork, nakWork, ackWork, timeoutWork, writeWork⟩ := kept ended
    exact ⟨startWork, nakWork, ackWork, timeoutWork, writeWork⟩

/-- In a run whose steps meet the condition, no timer is scheduled while no transfer runs. -/
theorem timers_end_with_transfer (crc16 : List UInt8 → UInt16) (labels : List Label) (uart : Uart)
    (path : Path (guarded (Step crc16) fun uart label => timersCondition crc16 uart label = true) initial labels uart)
    (ended : uart.update = false) :
    uart.startWork = false ∧ uart.nakWork = false ∧ uart.ackWork = false ∧ uart.timeoutWork = false := by
  have kept : uart.update = false → Unscheduled uart :=
    path.invariant (fun uart => uart.update = false → Unscheduled uart)
      (fun _ _ _ kept moved => unscheduled_step moved kept) (fun _ => ⟨rfl, rfl, rfl, rfl, rfl⟩)
  obtain ⟨startWork, nakWork, ackWork, timeoutWork, _⟩ := kept ended
  exact ⟨startWork, nakWork, ackWork, timeoutWork⟩

/-- A transfer of two blocks. -/
private def shortTransfer : List Label := begun ++ received 1 0 ++ received 2 0 ++ complete

/-- A complete transfer leaves no timer behind. -/
theorem short_transfer_leaves_no_timer :
    ∃ uart, Path (guarded (Step crc16ItuT) fun uart label => timersCondition crc16ItuT uart label = true) initial
        shortTransfer uart ∧ uart.ended = some 0 ∧
      uart.startWork = false ∧ uart.nakWork = false ∧ uart.ackWork = false ∧ uart.timeoutWork = false := by
  have ends : (shortTransfer.foldlM (fun uart label =>
      if timersCondition crc16ItuT uart label = true then step crc16ItuT uart label else none) initial).map
      (fun uart => (uart.update, uart.ended)) = some (false, some 0) := by
    decide +kernel
  obtain ⟨uart, ran, shown⟩ := Option.map_eq_some_iff.mp ends
  obtain ⟨ended, result⟩ := Prod.mk.inj shown
  have path := Path.guarded_of_foldlM ran
  exact ⟨uart, path, result, timers_end_with_transfer crc16ItuT shortTransfer uart path ended⟩

/-- A byte that looks like the end of a transfer, before its first block. -/
private def earlyEnd : List Label := begun ++ complete

/-- The transfer has ended, and its start work is still scheduled. -/
theorem start_work_outlives_transfer :
    ((earlyEnd.foldlM (step crc16ItuT) initial).map fun uart => (uart.update, uart.startWork)) =
      some (false, true) := by
  decide +kernel

end CoapsClient.XmodemUpdate
