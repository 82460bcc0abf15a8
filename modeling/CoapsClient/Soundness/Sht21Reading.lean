import CoapsClient.Model.Environment.Sht21

/-! # Readings of the SHT21

The check of an answer tells every error within eight bits that follow each other, so such an answer is not taken for a
temperature: a reading is what the sensor sent in the first attempt in which the answer arrives.
-/

namespace CoapsClient.Environment.Sht21

open Machine

variable {hold : Bool} {attempts : ℕ → Attempt} {answer sent : Answer}

/-- `P(x)=x^8+x^5+x^4+1`, without its leading coefficient. -/
def poly : BitVec 8 := 0x31#8

private theorem poly_odd : poly.getLsbD 0 = true := rfl

private theorem crcBit_eq (crc : UInt8) : (crcBit crc).toBitVec = Crc.shift poly crc.toBitVec false := by
  have all : ∀ crc : BitVec 8, (crcBit ⟨crc⟩).toBitVec = Crc.shift poly crc false := by decide +kernel
  exact all crc.toBitVec

private theorem iterate_crcBit (count : ℕ) (crc : UInt8) :
    (crcBit^[count] crc).toBitVec = Crc.run poly crc.toBitVec (List.replicate count false) := by
  induction count generalizing crc with
  | zero => rfl
  | succ count ih => rw [Function.iterate_succ_apply, ih, crcBit_eq, List.replicate_succ, Crc.run_cons]

/-- The loops of `calc_crc` divide by the polynomial. -/
private theorem calcCrc_eq (data : List UInt8) : (calcCrc data).toBitVec = Crc.run poly 0#8 (Crc.bytesBits data) := by
  have from_crc : ∀ crc : UInt8, (data.foldl (fun crc byte => crcBit^[8] (crc ^^^ byte)) crc).toBitVec =
      Crc.run poly crc.toBitVec (Crc.bytesBits data) := by
    induction data with
    | nil => exact fun crc => rfl
    | cons byte data ih =>
      intro crc
      rw [List.foldl_cons, ih, iterate_crcBit, UInt8.toBitVec_xor, Crc.bytesBits_cons, Crc.run_append,
        Crc.run_load (Crc.run_toBits poly_odd byte.toBitVec), Crc.length_toBits]
  exact from_crc 0

/-- An answer is a valid word when its check is that of its two bytes. -/
theorem valid_iff (answer : Answer) :
    Crc.run poly 0#8 (Crc.bytesBits answer.bytes) = 0#8 ↔ calcCrc [answer.high, answer.low] = answer.check := by
  have check : Crc.bytesBits [answer.check] = Crc.toBits answer.check.toBitVec := by simp
  rw [Answer.bytes, Crc.bytes_valid_iff poly_odd check, ← calcCrc_eq, UInt8.toBitVec_inj]

/-- The bits in which an answer differs from what the sensor sent. -/
def difference (received sent : Answer) : List Bool :=
  List.zipWith xor (Crc.bytesBits received.bytes) (Crc.bytesBits sent.bytes)

/-- An accepted answer that is damaged in a burst only is not damaged. -/
private theorem eq_of_accept (signed : calcCrc [sent.high, sent.low] = sent.check)
    (checked : calcCrc [answer.high, answer.low] = answer.check) (burst : Crc.Burst 8 (difference answer sent)) :
    answer = sent := by
  have same := Crc.eq_of_burst poly_odd (by simp [Answer.bytes]) ((valid_iff answer).mpr checked)
    ((valid_iff sent).mpr signed) burst
  obtain ⟨high, low, check⟩ := answer
  obtain ⟨sentHigh, sentLow, sentCheck⟩ := sent
  simpa [Answer.bytes] using Crc.bytesBits_inj.mp same

private theorem accept_cases (answer : Answer) :
    answer.low &&& 0x2 = 0 ∧ calcCrc [answer.high, answer.low] = answer.check ∧ accept answer = .ok answer ∨
      ¬(answer.low &&& 0x2 = 0 ∧ calcCrc [answer.high, answer.low] = answer.check) ∧ accept answer = .error enodata := by
  rw [accept]
  split_ifs with status checked
  · exact .inr ⟨fun both => status both.1, rfl⟩
  · exact .inl ⟨not_not.mp status, checked, rfl⟩
  · exact .inr ⟨fun both => checked both.2, rfl⟩

/-- In an attempt the answer arrives as it was sent, and is a temperature. -/
def Arrives (hold : Bool) (attempt : Attempt) (sent : Answer) : Prop :=
  transfer hold attempt = .ok sent ∧ sent.low &&& 0x2 = 0

/-- What the sensor sent in each attempt has its check, and is damaged in bursts only. -/
structure Bursts (hold : Bool) (attempts : ℕ → Attempt) (sent : ℕ → Answer) : Prop where
  signed : ∀ count, calcCrc [(sent count).high, (sent count).low] = (sent count).check
  damaged : ∀ count received, transfer hold (attempts count) = .ok received → Crc.Burst 8 (difference received (sent count))

variable {sent : ℕ → Answer}

/-- An attempt gives what was sent if that arrives, and an error else. -/
private theorem attempt_cases (bursts : Bursts hold attempts sent) (count : ℕ) :
    Arrives hold (attempts count) (sent count) ∧ transfer hold (attempts count) >>= accept = .ok (sent count) ∨
      ¬Arrives hold (attempts count) (sent count) ∧ ∃ err, transfer hold (attempts count) >>= accept = .error err := by
  cases received : transfer hold (attempts count) with
  | error err =>
    refine .inr ⟨fun arrives => ?_, err, rfl⟩
    cases received.symm.trans arrives.1
  | ok answer =>
    rcases accept_cases answer with ⟨status, checked, accepted⟩ | ⟨refused, failed⟩
    · obtain rfl := eq_of_accept (bursts.signed count) checked (bursts.damaged count answer received)
      exact .inl ⟨⟨received, status⟩, accepted⟩
    · refine .inr ⟨fun arrives => ?_, enodata, failed⟩
      obtain rfl := Except.ok.inj (received.symm.trans arrives.1)
      exact refused ⟨arrives.2, bursts.signed count⟩

/-- The loop gives what was sent in the first attempt left in which it arrives. -/
private theorem attemptLoop_eq_ok (bursts : Bursts hold attempts sent) (count : ℕ) (err : Int) (left : ℕ) :
    attemptLoop hold attempts count err left = .ok answer ↔
      ∃ first < left, Arrives hold (attempts (count + first)) (sent (count + first)) ∧ answer = sent (count + first) ∧
        ∀ before < first, ¬Arrives hold (attempts (count + before)) (sent (count + before)) := by
  induction left generalizing count err with
  | zero => simp [attemptLoop]
  | succ left ih =>
    rw [attemptLoop]
    rcases attempt_cases bursts count with ⟨arrives, given⟩ | ⟨none, err, failed⟩
    · rw [given]
      constructor
      · rintro ⟨⟩
        exact ⟨0, Nat.succ_pos left, arrives, rfl, fun before none => absurd none (Nat.not_lt_zero before)⟩
      · rintro ⟨first, -, -, rfl, none⟩
        cases first with
        | zero => rfl
        | succ first => exact absurd arrives (none 0 (Nat.succ_pos first))
    · rw [failed]
      simp only [ih]
      constructor
      · rintro ⟨first, inside, arrives, rfl, before⟩
        rw [Nat.add_right_comm] at arrives
        refine ⟨first + 1, Nat.succ_lt_succ inside, arrives, by rw [Nat.add_right_comm]; rfl, fun index earlier => ?_⟩
        cases index with
        | zero => exact none
        | succ index =>
          rw [← Nat.add_assoc, Nat.add_right_comm]
          exact before index (Nat.lt_of_succ_lt_succ earlier)
      · rintro ⟨first, inside, arrives, rfl, before⟩
        cases first with
        | zero => exact absurd arrives none
        | succ first =>
          refine ⟨first, Nat.lt_of_succ_lt_succ inside, ?_, ?_, fun index earlier => ?_⟩
          · rw [Nat.add_right_comm]
            exact arrives
          · rw [Nat.add_right_comm]
            rfl
          · rw [Nat.add_right_comm]
            exact before (index + 1) (Nat.succ_lt_succ earlier)

/-- Whatever the bus does, if the answers of an attempt are damaged in at most eight bits that follow each other, the
temperature is exactly that of the first of the three attempts in which the answer arrives undamaged and is a temperature,
and there is none if it never does. -/
theorem temperature_undamaged (attempts : ℕ → Attempt) (sent : ℕ → Answer) (bursts : Bursts false attempts sent)
    (value : UInt16) :
    environmentGetTemperature attempts = .ok value ↔
      ∃ first < 3, Arrives false (attempts first) (sent first) ∧ value = (sent first).value ∧
        ∀ before < first, ¬Arrives false (attempts before) (sent before) := by
  have reading : ∀ answer, attemptLoop false attempts 0 enodata 3 = .ok answer ↔ _ := fun answer =>
    attemptLoop_eq_ok bursts 0 enodata 3
  simp only [Nat.zero_add] at reading
  rw [environmentGetTemperature, readTemperature]
  constructor
  · intro taken
    cases read : attemptLoop false attempts 0 enodata 3 with
    | error err => rw [read] at taken; cases taken
    | ok answer =>
      obtain ⟨first, inside, arrives, rfl, before⟩ := (reading answer).mp read
      rw [read] at taken
      exact ⟨first, inside, arrives, (Except.ok.inj taken).symm, before⟩
  · rintro ⟨first, inside, arrives, rfl, before⟩
    rw [(reading (sent first)).mpr ⟨first, inside, arrives, rfl, before⟩]
    rfl

private def warm : Answer := ⟨0x4e, 0x85, 0x6b⟩

/-- Two bits that follow each other are damaged. -/
private def noise : Answer := ⟨0x4f, 0x05, 0x6b⟩

/-- The first answer comes with the third read, and damaged. -/
private def noisyAttempts : ℕ → Attempt
  | 0 => { reads := fun waits => if waits < 2 then none else some noise }
  | _ + 1 => { reads := fun _ => some warm }

private theorem noisy_bursts : Bursts false noisyAttempts fun _ => warm where
  signed := fun _ => by decide +kernel
  damaged := by
    intro count received transferred
    cases count with
    | zero =>
      obtain rfl : received = noise := (Except.ok.inj transferred).symm
      exact ⟨7, [true, true], 15, by decide, by decide⟩
    | succ count =>
      obtain rfl : received = warm := (Except.ok.inj transferred).symm
      exact ⟨24, [], 0, by decide, by decide⟩

/-- The temperature of the second attempt is taken. -/
theorem second_answer_taken : environmentGetTemperature noisyAttempts = .ok 0x4e84 := by
  refine (temperature_undamaged noisyAttempts (fun _ => warm) noisy_bursts 0x4e84).mpr ⟨1, by decide, ⟨rfl, rfl⟩, rfl, ?_⟩
  intro before first
  obtain rfl := Nat.lt_one_iff.mp first
  exact fun arrives => absurd (Except.ok.inj arrives.1) (by decide)

end CoapsClient.Environment.Sht21
