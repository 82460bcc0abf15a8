import CoapsClient.Model.Update.Uart

/-! # What one step of a transfer can do

A chunk is appended to the buffer or dropped, the frame in the buffer is rejected, written or found to
be a duplicate, and a retry keeps the transfer or ends it.
-/

namespace CoapsClient.XmodemUpdate

open ApplUpdate (Answer Dfu einval)

variable {crc16 : List UInt8 → UInt16} {xmodem : Xmodem} {data : List UInt8} {env : Env} {uart next : Uart}

/-- What the receiver has of the next frame. -/
def Xmodem.assembled (xmodem : Xmodem) : List UInt8 := xmodem.buffer.take xmodem.len

/-- The number and its complement in the header agree. -/
def Xmodem.numbered (xmodem : Xmodem) : Prop := xmodem.byteAt 2 = ~~~(xmodem.byteAt 1)

/-- The receiver after a chunk that fits. -/
def Xmodem.push (xmodem : Xmodem) (data : List UInt8) : Xmodem :=
  { xmodem with buffer := place xmodem.buffer xmodem.len data, len := xmodem.len + data.length }

/-- A chunk is dropped, or appended; a block is reported if its header agrees and it is complete. -/
theorem xmodemAppend_cases (xmodem : Xmodem) (data : List UInt8) :
    xmodem.bufferSize ≤ xmodem.len + data.length ∧ xmodemAppend xmodem data = (xmodem, .notOk) ∨
      xmodem.len + data.length < xmodem.bufferSize ∧ (xmodemAppend xmodem data).1 = xmodem.push data ∧
        ((xmodemAppend xmodem data).2 = .blockReady ↔
          (xmodem.push data).isBlock = true ∧ (xmodem.push data).numbered ∧
            (xmodem.push data).frameLen ≤ (xmodem.push data).len) := by
  by_cases fits : xmodem.len + data.length < xmodem.bufferSize
  · refine .inr ⟨fits, ?_⟩
    have appended : xmodemAppend xmodem data =
        if (xmodem.push data).isBlock then
          if (xmodem.push data).len < headerLen then (xmodem.push data, .none)
          else if (xmodem.push data).byteAt 2 ^^^ ~~~((xmodem.push data).byteAt 1) = 0 then
            if (xmodem.push data).len < (xmodem.push data).frameLen then (xmodem.push data, .none)
            else (xmodem.push data, .blockReady)
          else (xmodem.push data, .notOk)
        else if (xmodem.push data).byteAt 0 = eot ∧ (xmodem.push data).len = 1 then (xmodem.push data, .ready)
        else (xmodem.push data, .notOk) := if_pos fits
    rw [appended]
    have header : headerLen ≤ (xmodem.push data).frameLen := by
      simp only [Xmodem.frameLen]
      omega
    split
    · next isBlock =>
      simp only [isBlock, true_and, Xmodem.numbered, UInt8.xor_eq_zero_iff]
      split_ifs <;> grind
    · next other =>
      simp only [other, false_and, iff_false, Bool.false_eq_true]
      split_ifs <;> simp
  · exact .inl ⟨by omega, if_neg fits⟩

theorem push_len_le (inside : xmodem.len ≤ xmodem.buffer.length) (data : List UInt8) :
    (xmodem.push data).len ≤ (xmodem.push data).buffer.length := by
  simp only [Xmodem.push, place, List.length_append, List.length_take, List.length_drop]
  omega

/-- What is assembled stays in front of a chunk. -/
theorem assembled_push (inside : xmodem.len ≤ xmodem.buffer.length) (data : List UInt8) :
    (xmodem.push data).assembled = xmodem.assembled ++ data := by
  have front : (xmodem.buffer.take xmodem.len ++ data).length = xmodem.len + data.length := by
    rw [List.length_append, List.length_take, Nat.min_eq_left inside]
  simp only [Xmodem.assembled, Xmodem.push, place]
  rw [← front, List.take_left]

private theorem byteAt_eq_assembled {pos : ℕ} (inside : pos < xmodem.len) :
    xmodem.byteAt pos = xmodem.assembled.getD pos 0 := by
  simp only [Xmodem.byteAt, Xmodem.assembled, List.getD_eq_getElem?_getD, List.getElem?_take, inside, if_true]

/-- A chunk does not change the bytes before it. -/
theorem byteAt_push {pos : ℕ} (inside : xmodem.len ≤ xmodem.buffer.length) (data : List UInt8)
    (before : pos < xmodem.len) : (xmodem.push data).byteAt pos = xmodem.byteAt pos := by
  have shorter : pos < (xmodem.push data).len := by
    simp only [Xmodem.push]
    omega
  have bound : pos < xmodem.assembled.length := by
    rw [Xmodem.assembled, List.length_take]
    omega
  rw [byteAt_eq_assembled shorter, assembled_push inside, byteAt_eq_assembled before,
    List.getD_eq_getElem?_getD, List.getElem?_append_left bound, List.getD_eq_getElem?_getD]

private theorem slice_place {buffer : List UInt8} {pos first count : ℕ} (data : List UInt8)
    (inside : pos ≤ buffer.length) (before : first + count ≤ pos) :
    ((place buffer pos data).drop first).take count = (buffer.drop first).take count := by
  have len : (buffer.take pos).length = pos := by rw [List.length_take, Nat.min_eq_left inside]
  have split : place buffer pos data = buffer.take pos ++ (data ++ buffer.drop (pos + data.length)) :=
    List.append_assoc ..
  rw [split, List.drop_append_of_le_length (by omega), List.take_append_of_le_length, List.drop_take,
    List.take_take, Nat.min_eq_left (by omega)]
  rw [List.length_drop]
  omega

/-- A complete frame in the buffer is not changed by the bytes behind it. -/
theorem frame_push (inside : xmodem.len ≤ xmodem.buffer.length) (data : List UInt8)
    (complete : xmodem.frameLen ≤ xmodem.len) :
    (xmodem.push data).isBlock = xmodem.isBlock ∧ (xmodem.push data).frameLen = xmodem.frameLen ∧
      (xmodem.push data).frame = xmodem.frame := by
  have long : headerLen + xmodem.blockLen + xmodem.crcLen ≤ xmodem.len := complete
  have header : headerLen = 3 := rfl
  have type : (xmodem.push data).byteAt 0 = xmodem.byteAt 0 := byteAt_push inside data (by omega)
  have number : (xmodem.push data).byteAt 1 = xmodem.byteAt 1 := byteAt_push inside data (by omega)
  have complement : (xmodem.push data).byteAt 2 = xmodem.byteAt 2 := byteAt_push inside data (by omega)
  have blockLen : (xmodem.push data).blockLen = xmodem.blockLen := by
    rw [Xmodem.blockLen, type, Xmodem.blockLen]
  have crcLen : (xmodem.push data).crcLen = xmodem.crcLen := rfl
  refine ⟨?_, ?_, ?_⟩
  · rw [Xmodem.isBlock, type, Xmodem.isBlock]
  · rw [Xmodem.frameLen, blockLen, crcLen, Xmodem.frameLen]
  · rw [Xmodem.frame, number, complement, blockLen, crcLen, Xmodem.frame]
    simp only [Xmodem.push]
    rw [slice_place data inside (by omega), slice_place data inside (by omega)]

/-- The frame in the buffer is complete, passes its check and has the given number. -/
structure Holds (crc16 : List UInt8 → UInt16) (xmodem : Xmodem) (number : UInt8) : Prop where
  isBlock : xmodem.isBlock = true
  complete : xmodem.frameLen ≤ xmodem.len
  checks : xmodem.frame.checks crc16 = true
  number : xmodem.frame.number = number

/-- A block is rejected and stays in the buffer, its payload is given to `appl_update_write`, or it is
the one before the expected block. -/
theorem xmodemWriteBlock_cases (crc16 : List UInt8 → UInt16) (write : Answer) (xmodem : Xmodem) :
    (∃ rc < 0, xmodemWriteBlock crc16 write xmodem = { xmodem, rc }) ∨
      (Holds crc16 xmodem xmodem.block ∧ xmodemWriteBlock crc16 write xmodem =
        { xmodem := { xmodem with block := xmodem.block + 1, len := 0 }
          rc := ApplUpdate.write write
          written := some xmodem.frame }) ∨
      (Holds crc16 xmodem (xmodem.block - 1) ∧ xmodemWriteBlock crc16 write xmodem =
        { xmodem := { xmodem with len := 0 }, rc := duplicate }) := by
  have invalid : einval < 0 := by decide
  have bad : ebadmsg < 0 := by decide
  simp only [xmodemWriteBlock]
  split_ifs with other short failed expected previous
  · exact .inl ⟨_, invalid, rfl⟩
  · exact .inl ⟨_, invalid, rfl⟩
  · exact .inl ⟨_, bad, rfl⟩
  · refine .inr (.inl ⟨⟨by simpa using other, by omega, by simpa using failed, expected.symm⟩, rfl⟩)
  · refine .inr (.inr ⟨⟨by simpa using other, by omega, by simpa using failed, ?_⟩, rfl⟩)
    rw [previous, UInt8.add_sub_cancel]
  · exact .inl ⟨_, bad, rfl⟩

/-- The works and the receiver are as before, and the transfer goes on or is ended. -/
structure Quiet (uart next : Uart) : Prop where
  startWork : next.startWork = uart.startWork
  nakWork : next.nakWork = uart.nakWork
  ackWork : next.ackWork = uart.ackWork
  timeoutWork : next.timeoutWork = uart.timeoutWork
  writeWork : next.writeWork = uart.writeWork
  xmodem : next.xmodem = uart.xmodem
  writes : next.writes = uart.writes
  flags : next.update = uart.update ∧ next.updateStart = uart.updateStart ∨
    next.update = false ∧ next.updateStart = false

theorem retryTransfer_quiet (env : Env) (uart : Uart) : Quiet uart (retryTransfer env uart) := by
  simp only [retryTransfer]
  split_ifs
  · exact ⟨rfl, rfl, rfl, rfl, rfl, rfl, rfl, .inl ⟨rfl, rfl⟩⟩
  · exact ⟨rfl, rfl, rfl, rfl, rfl, rfl, rfl, .inl ⟨rfl, rfl⟩⟩
  · exact ⟨rfl, rfl, rfl, rfl, rfl, rfl, rfl, .inr ⟨rfl, rfl⟩⟩

/-- A start attempt was made: the receiver is new, and the next attempt is scheduled. -/
structure Attempted (uart next : Uart) : Prop where
  startWork : next.startWork = true
  nakWork : next.nakWork = uart.nakWork
  ackWork : next.ackWork = uart.ackWork
  timeoutWork : next.timeoutWork = uart.timeoutWork
  writeWork : next.writeWork = uart.writeWork
  block : next.xmodem.block = 1
  len : next.xmodem.len = 0
  writes : next.writes = uart.writes
  update : next.update = uart.update
  updateStart : next.updateStart = (uart.updateStart || uart.retries == 0)

/-- The start work makes an attempt or gives up. -/
theorem startFn_cases (env : Env) (uart : Uart) :
    Attempted uart (startFn env uart) ∨
      Quiet { uart with startWork := false } (startFn env uart) ∧
        (startFn env uart).update = false ∧ (startFn env uart).updateStart = false := by
  simp only [startFn]
  split
  · next first =>
    split
    · exact .inr ⟨⟨rfl, rfl, rfl, rfl, rfl, rfl, rfl, .inr ⟨rfl, rfl⟩⟩, rfl, rfl⟩
    · exact .inl ⟨rfl, rfl, rfl, rfl, rfl, rfl, rfl, rfl, rfl, by simp [attempt, Uart.out, first]⟩
  · next later =>
    split_ifs
    · exact .inl ⟨rfl, rfl, rfl, rfl, rfl, rfl, rfl, rfl, rfl, by simp [attempt, Uart.out, later]⟩
    · exact .inl ⟨rfl, rfl, rfl, rfl, rfl, rfl, rfl, rfl, rfl, by simp [attempt, Uart.out, later]⟩
    · exact .inr ⟨⟨rfl, rfl, rfl, rfl, rfl, rfl, rfl, .inr ⟨rfl, rfl⟩⟩, rfl, rfl⟩

/-- The works after the write work was taken from the queue. -/
def Uart.taken (uart : Uart) (result : BlockResult) : Uart :=
  { uart with
    writeWork := false
    nakWork := false
    xmodem := result.xmodem
    writes := uart.writes ++ (result.written.map fun frame => (frame, result.rc)).toList }

theorem writeFn_eq (crc16 : List UInt8 → UInt16) (env : Env) (uart : Uart) :
    writeFn crc16 env uart =
      let result := xmodemWriteBlock crc16 env.write uart.xmodem
      if result.rc < 0 then retryTransfer env (uart.taken result)
      else if result.rc = duplicate then
        (if uart.updateStart then uart.taken result else { uart.taken result with ackWork := true })
      else
        { uart.taken result with
          updateStart := false
          startWork := uart.startWork && !uart.updateStart
          retries := 0
          ackWork := false
          timeoutWork := true }.out ack := rfl

/-- A chunk schedules at most one work. -/
theorem xmodemHandler_eq (uart : Uart) (data : List UInt8) :
    xmodemHandler uart data =
      { uart with
        xmodem := (xmodemAppend uart.xmodem data).1
        nakWork := uart.nakWork || (xmodemAppend uart.xmodem data).2 == .notOk
        writeWork := uart.writeWork || (xmodemAppend uart.xmodem data).2 == .blockReady
        readyWork := uart.readyWork || (xmodemAppend uart.xmodem data).2 == .ready } := by
  simp only [xmodemHandler]
  cases (xmodemAppend uart.xmodem data).2 <;> simp

/-- The receiver never counts more bytes than it has. -/
theorem inside_step {label : Label} (moved : Step crc16 uart label next)
    (inside : uart.xmodem.len ≤ uart.xmodem.buffer.length) : next.xmodem.len ≤ next.xmodem.buffer.length := by
  obtain ⟨event, env⟩ := label
  cases event with
  | update apply =>
    obtain rfl := Option.some.inj moved
    simp only [shCmdUpdate]
    split_ifs <;> exact inside
  | data chunk =>
    obtain rfl := Option.some.inj moved
    simp only [receiverLoop]
    split_ifs
    · exact inside
    · rw [xmodemHandler_eq]
      rcases xmodemAppend_cases uart.xmodem chunk with ⟨_, same⟩ | ⟨_, pushed, _⟩
      · rw [same]
        exact inside
      · rw [pushed]
        exact push_len_le inside chunk
    · exact inside
  | start =>
    obtain ⟨_, moved⟩ := Option.ite_none_right_eq_some.mp moved
    obtain rfl := Option.some.inj moved
    rcases startFn_cases env uart with attempted | ⟨quiet, _⟩
    · simp [attempted.len]
    · rw [quiet.xmodem]
      exact inside
  | nak =>
    obtain ⟨_, moved⟩ := Option.ite_none_right_eq_some.mp moved
    obtain rfl := Option.some.inj moved
    simp only [nakFn, (retryTransfer_quiet env _).xmodem, xmodemRetry]
    exact Nat.zero_le _
  | ack =>
    obtain ⟨_, moved⟩ := Option.ite_none_right_eq_some.mp moved
    obtain rfl := Option.some.inj moved
    exact inside
  | timeout =>
    obtain ⟨_, moved⟩ := Option.ite_none_right_eq_some.mp moved
    obtain rfl := Option.some.inj moved
    simp only [timeoutFn]
    split <;> exact inside
  | write =>
    obtain ⟨_, moved⟩ := Option.ite_none_right_eq_some.mp moved
    obtain rfl := Option.some.inj moved
    have taken : (xmodemWriteBlock crc16 env.write uart.xmodem).xmodem.len ≤
        (xmodemWriteBlock crc16 env.write uart.xmodem).xmodem.buffer.length := by
      rcases xmodemWriteBlock_cases crc16 env.write uart.xmodem with ⟨rc, _, result⟩ | ⟨_, result⟩ | ⟨_, result⟩
      · rw [result]
        exact inside
      · rw [result]
        exact Nat.zero_le _
      · rw [result]
        exact Nat.zero_le _
    rw [writeFn_eq]
    simp only
    split_ifs
    · rw [(retryTransfer_quiet env _).xmodem]
      exact taken
    · exact taken
    · exact taken
    · exact taken
  | ready =>
    obtain ⟨_, moved⟩ := Option.ite_none_right_eq_some.mp moved
    obtain rfl := Option.some.inj moved
    exact inside
  | otherUpdate dfu =>
    obtain rfl := Option.some.inj moved
    exact inside

end CoapsClient.XmodemUpdate
