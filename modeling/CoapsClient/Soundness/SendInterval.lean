import CoapsClient.Model.Dtls.Client
import Mathlib.Tactic.Ring

/-! # The register of the send interval

One 32-bit register holds the send interval in its lower 24 bits, and an interval for the next sending alone in
the upper 8. The lower part is never lost. Of the upper part the register has 7 bits and a sign, so a special
interval is scheduled again as it is exactly if it is at most 127, or the same as the send interval.
-/

namespace CoapsClient.DtlsClient

section Register

variable {register : BitVec 32}

/-- The lower part of a register. -/
def baseOf (register : BitVec 32) : ℕ := (register &&& 0xffffff#32).toNat

private theorem baseOf_eq : baseOf register = register.toNat % 16777216 := by
  have mask : (0xffffff#32).toNat = 2 ^ 24 - 1 := rfl
  rw [baseOf, BitVec.toNat_and, mask, Nat.and_two_pow_sub_one_eq_mod]

private theorem baseOf_mask : (register &&& 0xffffff#32).toNat < 2 ^ 24 := by
  have bound := Nat.mod_lt register.toNat (show 0 < 16777216 by decide)
  rw [← baseOf_eq] at bound
  exact bound

/-- The parts of a register that two values are put into. -/
private theorem packed_toNat (special : ℕ) :
    ((register &&& 0xffffff#32) ||| BitVec.ofNat 32 special <<< 24).toNat =
      baseOf register + special % 256 * 16777216 := by
  have shifted : (BitVec.ofNat 32 special <<< 24).toNat = 2 ^ 24 * (special % 256) := by
    rw [BitVec.toNat_shiftLeft, BitVec.toNat_ofNat, Nat.shiftLeft_eq]
    omega
  rw [BitVec.toNat_or, shifted, Nat.or_comm, ← Nat.two_pow_add_eq_or_of_lt baseOf_mask, baseOf]
  omega

/-- The shift back takes the upper part with its sign. -/
private theorem sshiftRight_toInt : (register.sshiftRight 24).toInt = register.toInt / 16777216 := by
  rw [BitVec.toInt_sshiftRight, Int.shiftRight_eq_div_pow]
  rfl

private theorem sshiftRight_ne_zero : register.sshiftRight 24 ≠ 0 ↔ register.toInt / 16777216 ≠ 0 := by
  rw [← sshiftRight_toInt, Ne, ← BitVec.toInt_inj]
  rfl

/-- The seconds of a busy timer, from the parts of the register. -/
private theorem busyInterval_parts {base upper : ℕ} (small : base < 16777216) (byte : upper < 256)
    (parts : register.toNat = base + upper * 16777216) :
    busyInterval register = if upper = 0 then (base : Int) else if upper < 128 then (upper : Int) else upper - 256 := by
  have signed := BitVec.toInt_eq_toNat_cond register
  rw [parts] at signed
  simp only [busyInterval]
  by_cases none : upper = 0
  · subst none
    have value : register.toInt = base := by
      rw [signed, if_pos (by omega)]
      omega
    rw [if_neg (by rw [sshiftRight_ne_zero]; omega), if_pos rfl, value]
  · rw [if_neg none]
    by_cases positive : upper < 128
    · have value : register.toInt = base + upper * 16777216 := by
        rw [signed, if_pos (by omega)]
        omega
      rw [if_pos (by rw [sshiftRight_ne_zero]; omega), if_pos positive, sshiftRight_toInt, value]
      omega
    · have value : register.toInt = base + upper * 16777216 - 4294967296 := by
        rw [signed, if_neg (by omega)]
        omega
      rw [if_pos (by rw [sshiftRight_ne_zero]; omega), if_neg positive, sshiftRight_toInt, value]
      omega

end Register

/-- The seconds a busy `dtls_timer_trigger_fn` schedules the timer again with. -/
def scheduledAgain (client : Client) : Option Int :=
  if 0 < busyInterval client.sendInterval then some (busyInterval client.sendInterval) else none

variable {client : Client} {special : ℕ}

/-- A request is pending, so `dtls_timer_trigger_fn` does not send. -/
private theorem dtlsTimerTriggerFn_busy (busy : client.requestState.pending = true) :
    (dtlsTimerTriggerFn client).timerWork = (scheduledAgain client).isSome := by
  simp only [dtlsTimerTriggerFn, busy, Bool.not_true, Bool.and_false, Bool.false_eq_true, if_false,
    scheduledAgain]
  split <;> simp [*]

/-- The register behind `dtls_coap_next` with an interval. -/
private theorem coapNext_sendInterval (waits : client.sendBuffer = false) (positive : 0 < special) :
    (coapNext client special).sendInterval =
      if baseOf client.sendInterval = special then client.sendInterval &&& 0xffffff#32
      else (client.sendInterval &&& 0xffffff#32) ||| BitVec.ofNat 32 special <<< 24 := by
  by_cases base : (client.sendInterval &&& 0xffffff#32).toNat = special
  · simp only [coapNext, waits, scheduleNext, setNextSendInterval, baseOf, base, positive, Bool.false_eq_true,
      and_false, if_true, if_false]
  · simp only [coapNext, waits, scheduleNext, setNextSendInterval, baseOf, base, positive, Bool.false_eq_true,
      and_true, if_true, if_false]

/-- The parts of this register. -/
private theorem coapNext_parts (waits : client.sendBuffer = false) (positive : 0 < special) :
    (coapNext client special).sendInterval.toNat = client.interval +
      (if special = client.interval then 0 else special % 256) * 16777216 := by
  have same : client.interval = baseOf client.sendInterval := rfl
  rw [coapNext_sendInterval waits positive, same]
  by_cases base : baseOf client.sendInterval = special
  · rw [if_pos base, if_pos base.symm, ← baseOf]
    omega
  · rw [if_neg base, if_neg (Ne.symm base), packed_toNat]

/-- The register does what it is for: `dtls_coap_next` with a special interval keeps the send interval, a client
with this register that finds a request pending schedules its timer with the special interval, and has the send
interval alone in the register behind that. -/
structure SpecialKept (client : Client) (special : ℕ) : Prop where
  base : (coapNext client special).interval = client.interval
  again : ∀ busy : Client, busy.sendInterval = (coapNext client special).sendInterval →
    busy.requestState.pending = true →
    (dtlsTimerTriggerFn busy).timerWork = true ∧ scheduledAgain busy = some (special : Int)
  cleared : ∀ busy : Client, busy.sendInterval = (coapNext client special).sendInterval →
    (dtlsTimerTriggerFn busy).sendInterval = BitVec.ofNat 32 client.interval

private theorem interval_lt : client.interval < 16777216 := baseOf_mask

/-- For every register and every special interval that `dtls_coap_next` is given: the register keeps both exactly
if the special interval fits 7 bits, or is the send interval. -/
theorem specialKept_iff (client : Client) (special : ℕ) (waits : client.sendBuffer = false)
    (positive : 0 < special) (int : special < 2147483648) :
    SpecialKept client special ↔ special ≤ 127 ∨ special = client.interval := by
  have parts := coapNext_parts waits positive
  have small := @interval_lt client
  have base : (coapNext client special).interval = client.interval := by
    change baseOf _ = _
    rw [baseOf_eq, parts]
    omega
  have seconds := busyInterval_parts small (show (if special = client.interval then 0 else special % 256) < 256 by
    split <;> omega) parts
  have cleared (busy : Client) (same : busy.sendInterval = (coapNext client special).sendInterval) :
      (dtlsTimerTriggerFn busy).sendInterval = BitVec.ofNat 32 client.interval := by
    change busy.sendInterval &&& 0xffffff#32 = _
    rw [same, ← base, Client.interval, BitVec.ofNat_toNat, BitVec.setWidth_eq]
  have again (busy : Client) (same : busy.sendInterval = (coapNext client special).sendInterval) :
      scheduledAgain busy = some (special : Int) ↔ special ≤ 127 ∨ special = client.interval := by
    rw [scheduledAgain, same, seconds]
    by_cases isBase : special = client.interval
    · simp [← isBase, positive]
    · rw [if_neg isBase]
      split_ifs <;> simp only [Option.some.injEq, false_iff] <;> omega
  constructor
  · intro kept
    have pending : ({ coapNext client special with requestState := .receive } : Client).requestState.pending = true :=
      rfl
    exact (again _ rfl).mp (kept.again { coapNext client special with requestState := .receive } rfl pending).2
  · intro fits
    refine ⟨base, fun busy same pending => ?_, cleared⟩
    have seconds := (again busy same).mpr fits
    exact ⟨by rw [dtlsTimerTriggerFn_busy pending, seconds]; rfl, seconds⟩

/-- A send interval of an hour with a failure interval of a minute. -/
theorem specialKept_minute : SpecialKept { sendInterval := 3600 } 60 :=
  (specialKept_iff { sendInterval := 3600 } 60 rfl (by decide) (by decide)).mpr (.inl (by decide))

/-- With a failure interval of five minutes the timer of a busy client is scheduled again in 44 seconds. -/
theorem not_specialKept_five_minutes :
    scheduledAgain { coapNext { sendInterval := 3600 } 300 with requestState := .receive } = some 44 ∧
      ¬ SpecialKept { sendInterval := 3600 } 300 := by
  have again : scheduledAgain { coapNext { sendInterval := 3600 } 300 with requestState := .receive } = some 44 := by
    decide
  refine ⟨again, fun kept => ?_⟩
  have expected := (kept.again { coapNext { sendInterval := 3600 } 300 with requestState := .receive } rfl rfl).2
  rw [again] at expected
  contradiction

end CoapsClient.DtlsClient
