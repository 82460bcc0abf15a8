import CoapsClient.Machine.Crc
import CoapsClient.Model.Update.UartSteps
import Mathlib.Tactic.IntervalCases

/-! # Damaged blocks of a transfer

A block that is received with a CRC is written only if its check agrees. So a block that the line damages in at most sixteen
bits that follow each other is not written: whatever is written in a run is what the peer sent. The algorithm of the operating
system divides by the polynomial of CRC-16, a byte at a time.
-/

namespace CoapsClient.XmodemUpdate

open Machine

variable {crc16 : List UInt8 → UInt16} {uart next : Uart} {label : Label} {frame sent : Frame}

/-- The polynomial of CRC-16, `x^16+x^12+x^5+1` without its leading coefficient. -/
def poly : BitVec 16 := 0x1021#16

/-- `crc16_itu_t` with the seed zero is the remainder of the division by the polynomial. -/
def Standard (crc16 : List UInt8 → UInt16) : Prop :=
  ∀ data, (crc16 data).toBitVec = Crc.run poly 0#16 (Crc.bytesBits data)

private theorem poly_odd : poly.getLsbD 0 = true := rfl

/-- The algorithm for a byte of zeros. -/
private def advance (seed : UInt16) : UInt16 := crcByte seed 0

private theorem crcByte_eq (seed : UInt16) (byte : UInt8) :
    crcByte seed byte = advance (seed ^^^ byte.toUInt16 <<< 8) := by
  have swap : (seed >>> 8 ||| seed <<< 8) ^^^ byte.toUInt16 =
      (seed ^^^ byte.toUInt16 <<< 8) >>> 8 ||| (seed ^^^ byte.toUInt16 <<< 8) <<< 8 := by
    refine UInt16.toBitVec_inj.mp (BitVec.eq_of_getLsbD_eq fun index inside => ?_)
    interval_cases index <;> simp
  have zero : (0 : UInt8).toUInt16 = 0 := rfl
  simp only [advance, crcByte, swap, zero, UInt16.xor_zero]

private theorem swap_xor (seed other : UInt16) :
    ((seed ^^^ other) >>> 8 ||| (seed ^^^ other) <<< 8) =
      (seed >>> 8 ||| seed <<< 8) ^^^ (other >>> 8 ||| other <<< 8) := by
  refine UInt16.toBitVec_inj.mp (BitVec.eq_of_getLsbD_eq fun index inside => ?_)
  interval_cases index <;> simp

private theorem mask_xor (seed other mask : UInt16) : (seed ^^^ other) &&& mask = (seed &&& mask) ^^^ (other &&& mask) := by
  refine UInt16.toBitVec_inj.mp (BitVec.eq_of_getLsbD_eq fun index inside => ?_)
  simp only [UInt16.toBitVec_and, UInt16.toBitVec_xor, BitVec.getLsbD_and, BitVec.getLsbD_xor]
  exact Bool.and_xor_distrib_right ..

private theorem fold_xor {f : UInt16 → UInt16} (sum : ∀ seed other, f (seed ^^^ other) = f seed ^^^ f other)
    (seed other : UInt16) : seed ^^^ other ^^^ f (seed ^^^ other) = (seed ^^^ f seed) ^^^ (other ^^^ f other) := by
  rw [sum, UInt16.xor_assoc, UInt16.xor_assoc, ← UInt16.xor_assoc other, ← UInt16.xor_assoc (f seed), UInt16.xor_comm other]

private theorem advance_xor (seed other : UInt16) : advance (seed ^^^ other) = advance seed ^^^ advance other := by
  have zero : (0 : UInt8).toUInt16 = 0 := rfl
  have low : ∀ seed other : UInt16, ((seed ^^^ other) &&& 0xff) >>> 4 = (seed &&& 0xff) >>> 4 ^^^ (other &&& 0xff) >>> 4 :=
    fun seed other => by rw [mask_xor, UInt16.shiftRight_xor]
  have all : ∀ seed other : UInt16, (seed ^^^ other) <<< 12 = seed <<< 12 ^^^ other <<< 12 :=
    fun seed other => UInt16.shiftLeft_xor
  have last : ∀ seed other : UInt16, ((seed ^^^ other) &&& 0xff) <<< 5 = (seed &&& 0xff) <<< 5 ^^^ (other &&& 0xff) <<< 5 :=
    fun seed other => by rw [mask_xor, UInt16.shiftLeft_xor]
  simp only [advance, crcByte, zero, UInt16.xor_zero, swap_xor]
  rw [fold_xor (f := fun seed => (seed &&& 0xff) >>> 4) low, fold_xor (f := fun seed => seed <<< 12) all,
    fold_xor (f := fun seed => (seed &&& 0xff) <<< 5) last]

/-- What is sent of eight zeros behind the seed is the sum of that behind its two bytes. -/
private theorem advance_eq (seed : UInt16) :
    (advance seed).toBitVec = Crc.run poly seed.toBitVec (List.replicate 8 false) := by
  have high : ∀ byte : BitVec 8, (advance ⟨byte ++ 0#8⟩).toBitVec =
      Crc.run poly (byte ++ 0#8) (List.replicate 8 false) := by decide +kernel
  have low : ∀ byte : BitVec 8, (advance ⟨0#8 ++ byte⟩).toBitVec =
      Crc.run poly (0#8 ++ byte) (List.replicate 8 false) := by decide +kernel
  obtain ⟨upper, lower, split⟩ : ∃ upper lower : BitVec 8, seed = ⟨upper ++ 0#8⟩ ^^^ ⟨0#8 ++ lower⟩ := by
    refine ⟨(seed >>> 8).toUInt8.toBitVec, seed.toUInt8.toBitVec, ?_⟩
    refine UInt16.toBitVec_inj.mp (BitVec.eq_of_getLsbD_eq fun index inside => ?_)
    simp only [UInt16.toBitVec_xor, BitVec.getLsbD_xor, BitVec.getLsbD_append]
    interval_cases index <;> simp
  have sum := Crc.run_xor poly (upper ++ 0#8) (0#8 ++ lower) (List.replicate 8 false) (List.replicate 8 false) rfl
  have zeros : List.zipWith xor (List.replicate 8 false) (List.replicate 8 false) = List.replicate 8 false := rfl
  rw [zeros] at sum
  rw [split, advance_xor, UInt16.toBitVec_xor, high, low, UInt16.toBitVec_xor, ← sum]

/-- A byte may be added in front of the zeros. -/
private theorem load_byte (byte : UInt8) :
    Crc.run poly (byte.toUInt16 <<< 8).toBitVec (Crc.toBits byte.toBitVec) = 0#16 := by
  have all : ∀ byte : BitVec 8, Crc.run poly ((⟨byte⟩ : UInt8).toUInt16 <<< 8).toBitVec (Crc.toBits byte) = 0#16 := by
    decide +kernel
  exact all byte.toBitVec

private theorem crc16ItuT_standard : Standard crc16ItuT := by
  intro data
  have from_seed : ∀ seed : UInt16, (data.foldl crcByte seed).toBitVec =
      Crc.run poly seed.toBitVec (Crc.bytesBits data) := by
    induction data with
    | nil => exact fun seed => rfl
    | cons byte data ih =>
      intro seed
      rw [List.foldl_cons, ih, crcByte_eq, advance_eq, Crc.bytesBits_cons, Crc.run_append, Crc.run_load (load_byte byte),
        Crc.length_toBits, UInt16.toBitVec_xor]
  exact from_seed 0

private theorem be16_pair (upper lower : UInt8) : (be16 [upper, lower]).toBitVec = upper.toBitVec ++ lower.toBitVec := by
  refine BitVec.eq_of_getLsbD_eq fun index inside => ?_
  simp only [be16, List.getD_cons_zero, List.getD_cons_succ, BitVec.getLsbD_append]
  interval_cases index <;> simp

/-- The bits of a check of two bytes. -/
private theorem bytesBits_be16 {check : List UInt8} (two : check.length = 2) :
    Crc.bytesBits check = Crc.toBits (be16 check).toBitVec := by
  obtain ⟨upper, lower, rfl⟩ := List.length_eq_two.mp two
  rw [be16_pair, Crc.toBits_append, Crc.bytesBits_cons, Crc.bytesBits_cons, Crc.bytesBits_nil, List.append_nil]

/-- A frame of the mode with CRC, as the receiver takes it apart. -/
structure WithCrc (crc16 : List UInt8 → UInt16) (frame : Frame) : Prop where
  mode : frame.crc = true
  two : frame.check.length = 2
  checks : frame.checks crc16 = true

/-- The bits that the check is about. -/
def Frame.word (frame : Frame) : List Bool := Crc.bytesBits (frame.payload ++ frame.check)

theorem WithCrc.valid (standard : Standard crc16) (with_crc : WithCrc crc16 frame) : Crc.run poly 0#16 frame.word = 0#16 := by
  have checks := with_crc.checks
  rw [Frame.checks, if_pos with_crc.mode, beq_iff_eq] at checks
  rw [Frame.word, Crc.bytes_valid_iff poly_odd (bytesBits_be16 with_crc.two), ← standard, checks]

/-- A frame that passes its check, and is damaged in a burst only, is not damaged. -/
theorem WithCrc.eq_of_burst (standard : Standard crc16) (received : WithCrc crc16 frame) (with_crc : WithCrc crc16 sent)
    (same : frame.payload.length = sent.payload.length)
    (burst : Crc.Burst 16 (List.zipWith xor frame.word sent.word)) :
    frame.payload = sent.payload ∧ frame.check = sent.check := by
  have length : frame.word.length = sent.word.length := by
    simp [Frame.word, same, received.two, with_crc.two]
  have words := Crc.eq_of_burst poly_odd length (received.valid standard) (with_crc.valid standard) burst
  exact List.append_inj (Crc.bytesBits_inj.mp words) same

variable {env : Env}

private theorem taken_writes (uart : Uart) (xmodem : Xmodem) (rc : Int) (written : Option Frame) :
    (uart.taken { xmodem, rc, written }).writes = uart.writes ++ (written.map fun frame => (frame, rc)).toList := rfl

/-- The write work writes the frame in the buffer, or nothing. -/
private theorem writeFn_writes (crc16 : List UInt8 → UInt16) (env : Env) (uart : Uart) :
    (writeFn crc16 env uart).writes = uart.writes ∨
      ∃ rc, Holds crc16 uart.xmodem uart.xmodem.block ∧
        (writeFn crc16 env uart).writes = uart.writes ++ [(uart.xmodem.frame, rc)] := by
  rw [writeFn_eq]
  rcases xmodemWriteBlock_cases crc16 env.write uart.xmodem with
    ⟨rc, error, rejected⟩ | ⟨holds, written⟩ | ⟨_, duplicated⟩
  · simp only [rejected, error, if_true, (retryTransfer_quiet env _).writes, taken_writes]
    exact .inl (List.append_nil _)
  · refine .inr ⟨ApplUpdate.write env.write, holds, ?_⟩
    simp only [written]
    split_ifs
    · rw [(retryTransfer_quiet env _).writes, taken_writes]
      rfl
    · rfl
    · rfl
    · rfl
  · have passed : ¬ duplicate < 0 := by decide
    simp only [duplicated, passed, if_true, if_false]
    split <;> exact .inl (List.append_nil _)

/-- A step keeps what was written, begins a transfer, or writes the frame in the buffer. -/
private theorem writes_step (moved : Step crc16 uart label next) :
    next.writes = uart.writes ∨ next.writes = [] ∨
      ∃ rc, Holds crc16 uart.xmodem uart.xmodem.block ∧ next.writes = uart.writes ++ [(uart.xmodem.frame, rc)] := by
  obtain ⟨event, env⟩ := label
  cases event with
  | update apply =>
    obtain rfl := Option.some.inj moved
    simp only [shCmdUpdate]
    split_ifs
    · exact .inl rfl
    · exact .inr (.inl rfl)
    · exact .inl rfl
  | data chunk =>
    obtain rfl := Option.some.inj moved
    simp only [receiverLoop, xmodemHandler_eq]
    split_ifs <;> exact .inl rfl
  | start =>
    obtain ⟨_, moved⟩ := Option.ite_none_right_eq_some.mp moved
    obtain rfl := Option.some.inj moved
    rcases startFn_cases env uart with attempted | ⟨quiet, _⟩
    · exact .inl attempted.writes
    · exact .inl quiet.writes
  | nak =>
    obtain ⟨_, moved⟩ := Option.ite_none_right_eq_some.mp moved
    obtain rfl := Option.some.inj moved
    exact .inl (retryTransfer_quiet env _).writes
  | ack =>
    obtain ⟨_, moved⟩ := Option.ite_none_right_eq_some.mp moved
    obtain rfl := Option.some.inj moved
    exact .inl rfl
  | timeout =>
    obtain ⟨_, moved⟩ := Option.ite_none_right_eq_some.mp moved
    obtain rfl := Option.some.inj moved
    simp only [timeoutFn]
    split <;> exact .inl rfl
  | write =>
    obtain ⟨_, moved⟩ := Option.ite_none_right_eq_some.mp moved
    obtain rfl := Option.some.inj moved
    exact (writeFn_writes crc16 env uart).imp_right .inr
  | ready =>
    obtain ⟨_, moved⟩ := Option.ite_none_right_eq_some.mp moved
    obtain rfl := Option.some.inj moved
    exact .inl rfl
  | otherUpdate dfu =>
    obtain rfl := Option.some.inj moved
    exact .inl rfl

/-- What was written passed its check, and the receiver counts no more bytes than it has. -/
structure Checked (crc16 : List UInt8 → UInt16) (uart : Uart) : Prop where
  inside : uart.xmodem.len ≤ uart.xmodem.buffer.length
  written : ∀ write ∈ uart.writes, write.1.crc = true → WithCrc crc16 write.1

theorem Holds.with_crc {xmodem : Xmodem} {number : UInt8} (holds : Holds crc16 xmodem number)
    (inside : xmodem.len ≤ xmodem.buffer.length) (mode : xmodem.crc = true) : WithCrc crc16 xmodem.frame := by
  refine ⟨mode, ?_, holds.checks⟩
  have complete : headerLen + xmodem.blockLen + xmodem.crcLen ≤ xmodem.buffer.length := holds.complete.trans inside
  have two : xmodem.crcLen = 2 := if_pos mode
  simp only [Xmodem.frame, List.length_take, List.length_drop]
  omega

theorem Checked.step (moved : Step crc16 uart label next) (checked : Checked crc16 uart) : Checked crc16 next := by
  refine ⟨inside_step moved checked.inside, ?_⟩
  rcases writes_step moved with same | none | ⟨rc, holds, written⟩
  · rw [same]
    exact checked.written
  · rw [none]
    exact fun write member => absurd member List.not_mem_nil
  · rw [written]
    intro write member mode
    rcases List.mem_append.mp member with old | new
    · exact checked.written write old mode
    · obtain rfl := List.mem_singleton.mp new
      exact holds.with_crc checked.inside mode

/-- In every run a block that was received with a CRC and written is the one that the peer sent, if the line damaged at most
sixteen bits of it that follow each other. -/
theorem damaged_not_written (crc16 : List UInt8 → UInt16) (standard : Standard crc16) (labels : List Label) (uart : Uart)
    (path : Path (Step crc16) initial labels uart) (frame sent : Frame) (rc : Int) (written : (frame, rc) ∈ uart.writes)
    (mode : frame.crc = true) (with_crc : WithCrc crc16 sent) (same : frame.payload.length = sent.payload.length)
    (burst : Crc.Burst 16 (List.zipWith xor frame.word sent.word)) :
    frame.payload = sent.payload ∧ frame.check = sent.check := by
  have start : Checked crc16 initial := ⟨Nat.le_refl 0, fun write member => absurd member List.not_mem_nil⟩
  have checked : Checked crc16 uart := path.invariant (Checked crc16) (fun _ _ _ kept moved => kept.step moved) start
  exact (checked.written _ written mode).eq_of_burst standard with_crc same burst

/-- The first block, as the peer sends it. -/
private def firstFrame : Frame :=
  { number := 1, complement := 0xfe, payload := List.replicate 128 0, check := [0, 0], crc := true }

/-- The first block arrives damaged, and again after the next attempt to start. -/
private def damagedTransfer : List Label :=
  begun ++ [⟨.data ([soh, 1, 0xfe] ++ 0x80 :: 0x01 :: List.replicate 126 0 ++ [0, 0]), {}⟩, ⟨.write, {}⟩, ⟨.start, {}⟩] ++
    received 1 0

/-- The block is written as it was sent. -/
theorem first_frame_written :
    ∃ uart frame, Path (Step crc16ItuT) initial damagedTransfer uart ∧ uart.writes = [(frame, 0)] ∧
      frame.payload = firstFrame.payload ∧ frame.check = firstFrame.check := by
  have ends : (damagedTransfer.foldlM (step crc16ItuT) initial).map Uart.writes = some [(firstFrame, 0)] := by
    decide +kernel
  obtain ⟨uart, ran, shown⟩ := Option.map_eq_some_iff.mp ends
  have path := Path.of_foldlM ran
  have sent : WithCrc crc16ItuT firstFrame := ⟨rfl, rfl, by decide +kernel⟩
  have undamaged : Crc.Burst 16 (List.zipWith xor firstFrame.word firstFrame.word) :=
    ⟨1040, [], 0, by decide +kernel, Nat.zero_le _⟩
  exact ⟨uart, firstFrame, path, shown, damaged_not_written crc16ItuT crc16ItuT_standard damagedTransfer uart path firstFrame
    firstFrame 0 (shown ▸ List.mem_singleton_self _) rfl sent rfl undamaged⟩

end CoapsClient.XmodemUpdate
