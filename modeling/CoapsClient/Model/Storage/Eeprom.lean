import CoapsClient.Model.Storage.Pages

/-! # One write to an EEPROM section

An EEPROM has no pages to recycle. `writeItem` frees a used next slot by erasing its first byte,
while a slot counts as free only when its whole time field is erased. So the write keeps the stored
log when the other bytes of that time field happen to be erased already, and leaves a section without
a free slot when they are not.
-/

namespace CoapsClient.ApplStorage

open Machine Math RingLog

/-- Behind its first byte the time field of the slot is erased. -/
def TailErased (setup : StorageSetup) (memory : Memory) (slot : ℕ) : Prop :=
  ∀ offset < timeSize, 0 < offset → memory (slotAddress setup slot + offset) = setup.eraseValue

/-- An EEPROM that answers every operation. -/
structure EepromDevice (setup : StorageSetup) (device : Device) : Prop where
  isEeprom : setup.config.isFlashDevice = false
  healthy : device.faults = []
  erasedOnes : setup.eraseValue = 0xff
  overwrites : ∀ old new, device.merge old new = new

variable {setup : StorageSetup} {slots cursor kept : ℕ} {device : Device} {memory : Memory}
  {log : List (List UInt8)}

/-- Erasing the first byte of a slot with an erased tail frees that slot and no other. -/
theorem EepromDevice.slotsOf_free (eeprom : EepromDevice setup device) (layout : Layout setup slots)
    {slot : ℕ} (tail : TailErased setup memory slot) (other : ℕ) :
    slotsOf setup (Effect.apply device.merge memory (.program (slotAddress setup slot) [0xff])) other =
      if other = slot then none else slotsOf setup memory other := by
  have positive := layout.itemSize_pos
  split
  · next same =>
    subst same
    rw [slotsOf_eq_none_iff]
    intro offset bound
    by_cases first : offset = 0
    · subst first
      rw [Nat.add_zero, Effect.apply_program_over eeprom.overwrites (Nat.le_refl _) (by simp),
        eeprom.erasedOnes, Nat.sub_self]
      rfl
    · rw [Effect.apply_of_not_touches (by simp only [Effect.Touches, List.length_singleton]; omega)]
      exact tail offset bound (by omega)
  · next differs =>
    apply slotsOf_congr layout.itemSize_ge
    intro index inside
    apply Effect.apply_of_not_touches
    rintro ⟨lower, upper⟩
    exact slot_apart differs inside ⟨lower, Nat.lt_of_lt_of_le upper
      (by rw [List.length_singleton]; omega)⟩

/-- The effects that make room on an EEPROM. -/
theorem EepromDevice.room_eq (eeprom : EepromDevice setup device) (layout : Layout setup slots)
    (two : 2 ≤ slots) (stored : Stored setup slots device.memory cursor log kept) :
    room setup device (slotAddress setup (advance slots cursor)) =
      if kept + 1 = slots then [.program (slotAddress setup (advance slots cursor)) [0xff]] else [] := by
  rw [room, if_neg (by simp [eeprom.isEeprom])]
  simp only [eepromRoom, stored.next_used_iff layout two]

/-- How many entries an EEPROM ring keeps after the next write. -/
def keptAfter (slots kept : ℕ) : ℕ := if kept + 1 = slots then kept else kept + 1

/-- With an erased tail in the next slot, making room leaves the newest entries and a gap. -/
theorem EepromDevice.makeRoom (eeprom : EepromDevice setup device) (layout : Layout setup slots)
    (two : 2 ≤ slots) (stored : Stored setup slots device.memory cursor log kept)
    (tail : TailErased setup device.memory (advance slots cursor)) :
    ∃ left, left + 1 = keptAfter slots kept ∧ left + 1 < slots ∧
      Holds slots cursor (slotsOf setup (replay device.merge device.memory
        (room setup device (slotAddress setup (advance slots cursor))))) log left ∧
      HeaderIntact setup (replay device.merge device.memory
        (room setup device (slotAddress setup (advance slots cursor)))) ∧
      (Recoverable cursor left ∨ slots ≤ cursor + 1) := by
  have few := stored.ring.kept_lt
  have bound := stored.ring.cursor_lt
  rw [eeprom.room_eq layout two stored, keptAfter]
  by_cases full : kept + 1 = slots
  · rw [if_pos full, if_pos full, replay_cons, replay_nil]
    have oldest : back slots cursor (kept - 1) = advance slots cursor := by
      simp only [advance, back]
      split <;> split <;> omega
    have cleared : Holds slots cursor (fun slot => if slot = advance slots cursor then none
        else slotsOf setup device.memory slot) log (kept - 1) := by
      apply stored.ring.clear (by omega)
      · intro age younger same
        have := back_injective (by omega) (by omega) (same.trans oldest.symm)
        omega
      · intro age lower upper
        rw [show age = kept - 1 by omega, oldest]
    rw [← funext (eeprom.slotsOf_free layout tail)] at cleared
    refine ⟨kept - 1, by omega, by omega, cleared, layout.header_program device _ _ stored.header, ?_⟩
    simp only [Recoverable]
    omega
  · rw [if_neg full, if_neg full]
    exact ⟨kept, rfl, by omega, stored.ring, stored.header, Or.inl stored.found⟩

theorem EepromDevice.after (eeprom : EepromDevice setup device) (effects : List Effect) (offset : ℕ) :
    EepromDevice { setup with currentOffset := offset } (device.after effects) :=
  ⟨eeprom.isEeprom, eeprom.healthy, eeprom.erasedOnes, eeprom.overwrites⟩

/-- With an erased tail in the next slot the log grows by the item; a full ring drops its oldest. -/
theorem EepromDevice.write (eeprom : EepromDevice setup device) (layout : Layout setup slots)
    (two : 2 ≤ slots) (stored : Stored setup slots device.memory cursor log kept) (time : Int)
    (value : List UInt8) :
    ∃ data effects,
      writeItem setup time value device =
        ((0, { setup with currentOffset := slotAddress setup (advance slots cursor) }),
          device.after effects) ∧
      (TailErased setup device.memory (advance slots cursor) →
        Stored { setup with currentOffset := slotAddress setup (advance slots cursor) } slots
          (device.after effects).memory (advance slots cursor)
          (itemBytes setup data time value :: log) (keptAfter slots kept)) ∧
      ∀ offset < timeSize, 0 < offset →
        (device.after effects).memory (slotAddress setup (advance slots cursor) + offset) =
          device.memory (slotAddress setup (advance slots cursor) + offset) := by
  have bound := stored.ring.cursor_lt
  obtain ⟨data, _, written⟩ := writeItem_slot layout eeprom.healthy bound stored.offset time value
  have first := itemBytes_first layout data time value
  rw [← eeprom.erasedOnes] at first
  have size : (itemBytes setup data time value).length = setup.itemSize := itemBytes_length data time value
  refine ⟨data, _, written, ?_, ?_⟩
  · intro tail
    obtain ⟨left, count, space, ring, intact, found⟩ := eeprom.makeRoom layout two stored tail
    rw [Device.after_memory, replay_append, replay_cons, replay_nil, ← count]
    set prepared := replay device.merge device.memory
      (room setup device (slotAddress setup (advance slots cursor)))
    have programmed : ∀ index < setup.itemSize, Effect.apply device.merge prepared
        (.program (slotAddress setup cursor) (itemBytes setup data time value))
        (slotAddress setup cursor + index) = (itemBytes setup data time value).getD index 0 := by
      intro index inside
      rw [Effect.apply_program_over eeprom.overwrites (by omega) (by omega), Nat.add_sub_cancel_left]
    have view := layout.slotsOf_item size first programmed
    have pushed := ring.push space (itemBytes setup data time value)
    rw [← view] at pushed
    refine ⟨rfl, layout.header_program device cursor _ intact, pushed, Holds.recoverable_push found, ?_⟩
    intro entry member
    rcases List.mem_cons.mp member with rfl | earlier
    · exact first
    · exact stored.entries entry earlier
  · intro offset short behind
    have large := layout.itemSize_ge
    have apart : advance slots cursor ≠ cursor := by
      simp only [advance]
      split <;> omega
    rw [Device.after_memory, replay_append, replay_cons, replay_nil,
      item_frame size (slot_apart apart (by omega)), eeprom.room_eq layout two stored]
    split
    · rw [replay_cons, replay_nil, Effect.apply_of_not_touches]
      rintro ⟨_, upper⟩
      rw [List.length_singleton] at upper
      omega
    · rfl

end CoapsClient.ApplStorage
