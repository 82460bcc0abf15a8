import Mathlib.Data.List.Basic

/-! # Cyclic redundancy checks

A check divides a message by a polynomial, bit by bit, the highest bit of each byte first. The polynomial is given without
its leading coefficient; its width is that of the check. A word is a message with its check behind it, and is valid when
nothing remains of it.
-/

namespace CoapsClient.Machine.Crc

variable {width : ℕ} (poly : BitVec width)

/-- What a bit that is shifted out adds. -/
def feedback (out : Bool) : BitVec width := if out then poly else 0#(width)

/-- One bit is shifted in. -/
def shift (crc : BitVec width) (bit : Bool) : BitVec width := crc <<< 1 ^^^ feedback poly (crc.msb ^^ bit)

def run (crc : BitVec width) (bits : List Bool) : BitVec width := bits.foldl (shift poly) crc

variable {poly} {crc other : BitVec width} {bits more : List Bool}

@[simp] theorem run_nil (crc : BitVec width) : run poly crc [] = crc := rfl

@[simp] theorem run_cons (crc : BitVec width) (bit : Bool) (bits : List Bool) :
    run poly crc (bit :: bits) = run poly (shift poly crc bit) bits := rfl

theorem run_append (crc : BitVec width) (bits more : List Bool) :
    run poly crc (bits ++ more) = run poly (run poly crc bits) more := List.foldl_append

theorem feedback_xor (out more : Bool) : feedback poly (out ^^ more) = feedback poly out ^^^ feedback poly more := by
  cases out <;> cases more <;> simp [feedback]

theorem shift_xor (crc other : BitVec width) (bit more : Bool) :
    shift poly (crc ^^^ other) (bit ^^ more) = shift poly crc bit ^^^ shift poly other more := by
  have outs : ((crc.msb ^^ other.msb) ^^ (bit ^^ more)) = ((crc.msb ^^ bit) ^^ (other.msb ^^ more)) := by
    cases crc.msb <;> cases other.msb <;> cases bit <;> cases more <;> rfl
  simp only [shift, BitVec.msb_xor, BitVec.shiftLeft_xor_distrib]
  rw [outs, feedback_xor]
  ac_rfl

variable (poly) in
/-- What remains of a sum is the sum of what remains. -/
theorem run_xor (crc other : BitVec width) (bits more : List Bool) (same : bits.length = more.length) :
    run poly (crc ^^^ other) (List.zipWith xor bits more) = run poly crc bits ^^^ run poly other more := by
  induction bits generalizing crc other more with
  | nil =>
    obtain rfl := List.length_eq_zero_iff.mp same.symm
    rfl
  | cons bit bits ih =>
    obtain ⟨last, more, rfl⟩ := List.exists_of_length_succ more same.symm
    rw [List.zipWith_cons_cons, run_cons, shift_xor]
    exact ih _ _ _ (Nat.succ.inj same)

@[simp] theorem shift_zero : shift poly 0#(width) false = 0#(width) := by
  simp [shift, feedback]

@[simp] theorem run_zeros (count : ℕ) : run poly 0#(width) (List.replicate count false) = 0#(width) := by
  induction count with
  | zero => rfl
  | succ count ih => rw [List.replicate_succ, run_cons, shift_zero, ih]

variable {bit : Bool}

theorem width_pos (odd : poly.getLsbD 0 = true) : 0 < width := BitVec.lt_of_getLsbD odd

/-- Without feedback the bits move up. -/
theorem getMsbD_shift (same : crc.msb = bit) (index : ℕ) :
    (shift poly crc bit).getMsbD index = crc.getMsbD (index + 1) := by
  rw [shift, same, Bool.xor_self, feedback, if_neg Bool.false_ne_true, BitVec.xor_zero, BitVec.getMsbD_shiftLeft]

/-- The last bit tells the feedback. -/
theorem getMsbD_shift_last (odd : poly.getLsbD 0 = true) :
    (shift poly crc bit).getMsbD (width - 1) = (crc.msb ^^ bit) := by
  have behind : crc.getMsbD (width - 1 + 1) = false :=
    BitVec.getMsbD_of_ge _ _ (Nat.le_of_eq (Nat.sub_add_cancel (width_pos odd)).symm)
  have last : poly.getMsbD (width - 1) = true := by
    rw [BitVec.getLsbD_eq_getMsbD, Nat.sub_zero] at odd
    exact (Bool.and_eq_true_iff.mp odd).2
  rw [shift, BitVec.getMsbD_xor, BitVec.getMsbD_shiftLeft, behind, Bool.false_xor, feedback]
  cases crc.msb ^^ bit with
  | true => exact last
  | false => exact BitVec.getMsbD_zero

/-- Of no more bits than the check has nothing remains when they are the first ones of the check, and zeros follow there. -/
theorem run_eq_zero_iff (odd : poly.getLsbD 0 = true) (short : bits.length ≤ width) :
    run poly crc bits = 0#(width) ↔ ∀ index < width, crc.getMsbD index = bits.getD index false := by
  induction bits generalizing crc with
  | nil =>
    refine ⟨fun zero index _ => ?_, fun zeros => BitVec.eq_of_getMsbD_eq fun index inside => ?_⟩
    · rw [run_nil] at zero
      rw [zero]
      exact BitVec.getMsbD_zero
    · exact (zeros index inside).trans BitVec.getMsbD_zero.symm
  | cons bit bits ih =>
    have positive := width_pos odd
    have behind : bits.getD (width - 1) false = false := by
      rw [List.getD_eq_getElem?_getD, List.getElem?_eq_none (Nat.le_sub_one_of_lt short)]
      rfl
    rw [run_cons, ih (Nat.le_of_succ_le short)]
    constructor
    · intro shifted
      have same : crc.msb = bit := by
        have last := shifted (width - 1) (Nat.sub_lt positive Nat.one_pos)
        rw [getMsbD_shift_last odd, behind] at last
        exact bne_eq_false_iff_eq.mp last
      intro index inside
      cases index with
      | zero => exact same
      | succ index => exact (getMsbD_shift same index).symm.trans (shifted index (Nat.lt_of_succ_lt inside))
    · intro bits_of
      have same : crc.msb = bit := bits_of 0 positive
      intro index inside
      rw [getMsbD_shift same]
      by_cases last : index + 1 < width
      · exact bits_of (index + 1) last
      · obtain rfl : index = width - 1 := by omega
        rw [behind]
        exact BitVec.getMsbD_of_ge _ _ (Nat.not_lt.mp last)

/-- Zeros leave nothing only of nothing. -/
theorem eq_zero_of_run_zeros (odd : poly.getLsbD 0 = true) {count : ℕ}
    (zero : run poly crc (List.replicate count false) = 0#(width)) : crc = 0#(width) := by
  induction count generalizing crc with
  | zero => exact zero
  | succ count ih =>
    rw [List.replicate_succ, run_cons] at zero
    have single : run poly crc [false] = 0#(width) := ih zero
    have short : [false].length ≤ width := width_pos odd
    have zeros := (run_eq_zero_iff odd short).mp single
    refine BitVec.eq_of_getMsbD_eq fun index inside => (zeros index inside).trans ?_
    rw [BitVec.getMsbD_zero]
    cases index with
    | zero => rfl
    | succ index => rfl

/-- The bits of an error lie within so many ones that follow each other. -/
def Burst (length : ℕ) (error : List Bool) : Prop :=
  ∃ before burst behind, error = List.replicate before false ++ burst ++ List.replicate behind false ∧ burst.length ≤ length

/-- Something remains of an error that is not longer than the check. -/
theorem run_burst (odd : poly.getLsbD 0 = true) {error : List Bool} (burst : Burst width error)
    (zero : run poly 0#(width) error = 0#(width)) : ∀ bit ∈ error, bit = false := by
  obtain ⟨before, burst, behind, rfl, short⟩ := burst
  rw [run_append, run_append, run_zeros] at zero
  have none := (run_eq_zero_iff odd short).mp (eq_zero_of_run_zeros odd zero)
  have clear : ∀ bit ∈ burst, bit = false := by
    intro bit member
    obtain ⟨index, inside, rfl⟩ := List.getElem_of_mem member
    have bit_of := none index (Nat.lt_of_lt_of_le inside short)
    rw [BitVec.getMsbD_zero, List.getD_eq_getElem?_getD, List.getElem?_eq_getElem inside] at bit_of
    exact bit_of.symm
  intro bit member
  simp only [List.mem_append, List.mem_replicate] at member
  rcases member with (⟨-, same⟩ | member) | ⟨-, same⟩
  · exact same
  · exact clear bit member
  · exact same

/-- Words without a difference are the same. -/
theorem eq_of_difference {word other : List Bool} (same : word.length = other.length)
    (none : ∀ bit ∈ List.zipWith xor word other, bit = false) : word = other := by
  induction word generalizing other with
  | nil => exact (List.length_eq_zero_iff.mp same.symm).symm
  | cons bit word ih =>
    obtain ⟨last, other, rfl⟩ := List.exists_of_length_succ other same.symm
    rw [List.zipWith_cons_cons] at none
    have head := none _ List.mem_cons_self
    rw [bne_eq_false_iff_eq.mp head, ih (Nat.succ.inj same) fun bit member => none bit (List.mem_cons_of_mem _ member)]

/-- Valid words that differ in a burst only do not differ. -/
theorem eq_of_burst (odd : poly.getLsbD 0 = true) {word other : List Bool} (same : word.length = other.length)
    (valid : run poly 0#(width) word = 0#(width)) (other_valid : run poly 0#(width) other = 0#(width))
    (burst : Burst width (List.zipWith xor word other)) : word = other := by
  have sum := run_xor poly 0#(width) 0#(width) word other same
  rw [BitVec.xor_self, valid, other_valid, BitVec.xor_self] at sum
  exact eq_of_difference same (run_burst odd burst sum)

/-- The bits of a check, the highest first. -/
def toBits (crc : BitVec width) : List Bool := (List.range width).map crc.getMsbD

@[simp] theorem length_toBits (crc : BitVec width) : (toBits crc).length = width := by
  simp [toBits]

theorem getD_toBits (crc : BitVec width) {index : ℕ} (inside : index < width) :
    (toBits crc).getD index false = crc.getMsbD index := by
  simp [toBits, List.getD_eq_getElem?_getD, inside]

theorem toBits_append {more : ℕ} (upper : BitVec width) (lower : BitVec more) :
    toBits (upper ++ lower) = toBits upper ++ toBits lower := by
  refine List.ext_getElem (by simp) fun index inside _ => ?_
  rw [length_toBits] at inside
  simp only [toBits, List.getElem_map, List.getElem_range, List.getElem_append, List.length_map, List.length_range,
    BitVec.getMsbD_append]
  split_ifs <;> first | rfl | omega

/-- A word is valid when it ends with the check of its message. -/
theorem valid_iff (odd : poly.getLsbD 0 = true) (message : List Bool) (check : BitVec width) :
    run poly 0#(width) (message ++ toBits check) = 0#(width) ↔ run poly 0#(width) message = check := by
  rw [run_append, run_eq_zero_iff odd (Nat.le_of_eq (length_toBits check))]
  refine ⟨fun same => BitVec.eq_of_getMsbD_eq fun index inside => ?_, fun same index inside => ?_⟩
  · rw [same index inside, getD_toBits check inside]
  · rw [same, getD_toBits check inside]

theorem zipWith_zeros (bits : List Bool) : List.zipWith xor (List.replicate bits.length false) bits = bits := by
  induction bits with
  | nil => rfl
  | cons bit bits ih => rw [List.length_cons, List.replicate_succ, List.zipWith_cons_cons, ih, Bool.false_xor]

/-- Bits may be added to the check before, and zeros be shifted in then. -/
theorem run_load {load : BitVec width} (loaded : run poly load bits = 0#(width)) (crc : BitVec width) :
    run poly crc bits = run poly (crc ^^^ load) (List.replicate bits.length false) := by
  have sum := run_xor poly (crc ^^^ load) load (List.replicate bits.length false) bits (by simp)
  rw [zipWith_zeros, loaded, BitVec.xor_zero, BitVec.xor_assoc, BitVec.xor_self, BitVec.xor_zero] at sum
  exact sum

/-- Nothing remains of a check that is shifted in over itself. -/
theorem run_toBits (odd : poly.getLsbD 0 = true) (load : BitVec width) : run poly load (toBits load) = 0#(width) := by
  rw [run_eq_zero_iff odd (Nat.le_of_eq (length_toBits load))]
  exact fun index inside => (getD_toBits load inside).symm

/-- The bits of bytes, the highest of each first. -/
def bytesBits (bytes : List UInt8) : List Bool := bytes.flatMap fun byte => toBits byte.toBitVec

@[simp] theorem bytesBits_nil : bytesBits [] = [] := rfl

@[simp] theorem bytesBits_cons (byte : UInt8) (bytes : List UInt8) :
    bytesBits (byte :: bytes) = toBits byte.toBitVec ++ bytesBits bytes :=
  List.flatMap_cons

theorem bytesBits_append (bytes more : List UInt8) : bytesBits (bytes ++ more) = bytesBits bytes ++ bytesBits more :=
  List.flatMap_append

@[simp] theorem length_bytesBits (bytes : List UInt8) : (bytesBits bytes).length = 8 * bytes.length := by
  induction bytes with
  | nil => rfl
  | cons byte bytes ih =>
    rw [bytesBits_cons, List.length_append, length_toBits, ih, List.length_cons]
    omega

theorem toBits_inj {crc other : BitVec width} : toBits crc = toBits other ↔ crc = other := by
  refine ⟨fun same => BitVec.eq_of_getMsbD_eq fun index inside => ?_, fun same => same ▸ rfl⟩
  rw [← getD_toBits crc inside, same, getD_toBits other inside]

theorem bytesBits_inj {bytes more : List UInt8} : bytesBits bytes = bytesBits more ↔ bytes = more := by
  refine ⟨fun same => ?_, fun same => same ▸ rfl⟩
  have length : bytes.length = more.length := by
    have eight := congrArg List.length same
    rw [length_bytesBits, length_bytesBits] at eight
    exact Nat.eq_of_mul_eq_mul_left (by decide) eight
  induction bytes generalizing more with
  | nil => exact (List.length_eq_zero_iff.mp length.symm).symm
  | cons byte bytes ih =>
    obtain ⟨last, more, rfl⟩ := List.exists_of_length_succ more length.symm
    rw [bytesBits_cons, bytesBits_cons] at same
    obtain ⟨head, tail⟩ := List.append_inj same (by rw [length_toBits, length_toBits])
    rw [UInt8.toBitVec_inj.mp (toBits_inj.mp head), ih tail (Nat.succ.inj length)]

/-- Bytes with a check behind them are valid when it is theirs. -/
theorem bytes_valid_iff (odd : poly.getLsbD 0 = true) {bytes check : List UInt8} {crc : BitVec width}
    (sent : bytesBits check = toBits crc) :
    run poly 0#(width) (bytesBits (bytes ++ check)) = 0#(width) ↔ run poly 0#(width) (bytesBits bytes) = crc := by
  rw [bytesBits_append, sent, valid_iff odd]

end CoapsClient.Machine.Crc
