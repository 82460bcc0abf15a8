import CoapsClient.Model.Storage.Recycle
import CoapsClient.Model.Storage.Store

/-! # One write to a flash section

`FlashState` is what a flash section keeps from write to write: the stored log, free slots that are
erased as a whole, and the page recycled last. `FlashState.makeRoom` says what the section looks like
after the effects that make room and before the item is programmed, `FlashState.write` what a whole
write does. No byte is programmed that was not erased before.
-/

namespace CoapsClient.ApplStorage

open Machine Math RingLog

/-- A free slot has no byte left of an older item. -/
def Blank (setup : StorageSetup) (slots : ℕ) (memory : Memory) : Prop :=
  ∀ slot < slots, slotsOf setup memory slot = none →
    Uniform memory (slotAddress setup slot) setup.itemSize setup.eraseValue

/-- A flash that answers every operation and programs erased bytes faithfully. -/
structure FlashDevice (setup : StorageSetup) (device : Device) : Prop where
  healthy : device.faults = []
  pageSize_eq : device.pageSize = setup.pageSize
  eraseValue_eq : device.eraseValue = setup.eraseValue
  erasedOnes : setup.eraseValue = 0xff
  programs : ∀ new, device.merge setup.eraseValue new = new

/-- A flash section between two writes. -/
structure FlashState (setup : StorageSetup) (slots perPage header : ℕ) (device : Device) (cursor : ℕ)
    (log : List (List UInt8)) (kept : ℕ) (recycled : Option ℕ) : Prop
    extends FlashDevice setup device where
  stored : Stored setup slots device.memory cursor log kept
  blank : Blank setup slots device.memory
  reach : Reach slots perPage header cursor kept log.length recycled

variable {setup : StorageSetup} {slots perPage header cursor kept : ℕ} {device : Device}
  {memory : Memory} {log : List (List UInt8)} {recycled : Option ℕ}

theorem Paged.header_bytes (paged : Paged setup slots perPage header) :
    headerSize ≤ header * setup.itemSize := by
  have := paged.header_fits
  have := paged.startOffset_eq
  omega

theorem Paged.page_eq_headers (paged : Paged setup slots perPage header) {slot : ℕ} :
    slotAddress setup slot / setup.pageSize * setup.pageSize = setup.headersOffset ↔
      blockFloor perPage (header + slot) = 0 := by
  rw [paged.pageAddress]
  have := paged.itemSize_pos
  constructor
  · intro same
    have : blockFloor perPage (header + slot) * setup.itemSize = 0 := by omega
    rcases Nat.mul_eq_zero.mp this with zero | zero <;> omega
  · intro zero
    simp [zero]

/-- A page that is not the first one starts behind the header. -/
theorem Paged.header_before_page (paged : Paged setup slots perPage header) {slot : ℕ}
    (later : blockFloor perPage (header + slot) ≠ 0) :
    setup.headersOffset + headerSize ≤
      slotAddress setup slot / setup.pageSize * setup.pageSize := by
  have units : header ≤ blockFloor perPage (header + slot) := by
    have short := paged.header_le
    rcases Nat.lt_or_ge perPage 2 with one | two
    · have unit : perPage = 1 := by have := paged.perPage_pos; omega
      subst unit
      simp [blockFloor]
    · have : perPage ≤ blockFloor perPage (header + slot) := by
        simp only [blockFloor] at later ⊢
        exact Nat.le_mul_of_pos_left _ (Nat.pos_of_ne_zero fun zero => later (by simp [zero]))
      omega
  have bytes := paged.header_bytes
  have scaled := Nat.mul_le_mul_right setup.itemSize units
  rw [paged.pageAddress]
  omega

/-- A first page that has slots holds the whole header. -/
theorem Paged.header_in_page (paged : Paged setup slots perPage header) {slot : ℕ}
    (first : blockFloor perPage (header + slot) = 0) : headerSize ≤ setup.pageSize := by
  have inside := lt_blockFloor_add (header + slot) paged.perPage_pos
  have scaled := Nat.mul_le_mul_right setup.itemSize (show header ≤ perPage by omega)
  have bytes := paged.header_bytes
  rw [paged.pageSize_eq]
  omega

/-- Erase the page of a slot. -/
def erasePage (setup : StorageSetup) (slot : ℕ) : Effect :=
  .fill (slotAddress setup slot / setup.pageSize * setup.pageSize) setup.pageSize setup.eraseValue

/-- Erasing a page keeps free slots blank. -/
theorem Paged.blank_erasePage (paged : Paged setup slots perPage header) (device : Device)
    (blank : Blank setup slots memory) (slot : ℕ) :
    Blank setup slots ((erasePage setup slot).apply device.merge memory) := by
  intro other bound isFree
  rw [erasePage, paged.slotsOf_fill] at isFree
  intro index inside
  by_cases shared : inPage perPage header slot other
  · obtain ⟨lower, upper⟩ := (paged.byte_inPage index inside).mpr shared
    rw [← paged.pageAddress] at lower upper
    exact Effect.apply_fill lower upper
  · rw [if_neg shared] at isFree
    rw [erasePage, paged.pageAddress, Effect.apply_of_not_touches]
    · exact blank other bound isFree index inside
    · intro touched
      exact shared ((paged.byte_inPage index inside).mp touched)

theorem Paged.header_erasePage (paged : Paged setup slots perPage header) (device : Device) {slot : ℕ}
    (later : blockFloor perPage (header + slot) ≠ 0) (intact : HeaderIntact setup memory) :
    HeaderIntact setup ((erasePage setup slot).apply device.merge memory) := by
  have before := paged.header_before_page later
  intro index bound
  rw [erasePage, Effect.apply_of_not_touches (by rintro ⟨lower, _⟩; omega)]
  exact intact index bound

/-- Erasing the first page erases the header. -/
theorem Paged.headers_erased (paged : Paged setup slots perPage header) (device : Device)
    (memory : Memory) {slot : ℕ}
    (first : blockFloor perPage (header + slot) = 0) :
    Uniform ((erasePage setup slot).apply device.merge memory) setup.headersOffset headerSize
      setup.eraseValue := by
  have start := paged.page_eq_headers.mpr first
  have whole := paged.header_in_page first
  intro index bound
  rw [erasePage, start]
  exact Effect.apply_fill (by omega) (by omega)

/-- Rewriting the header on erased bytes restores it. -/
private theorem header_restored (lengthEq : setup.header.length = headerSize)
    (programs : ∀ new, device.merge setup.eraseValue new = new)
    (erased : Uniform memory setup.headersOffset headerSize setup.eraseValue) :
    HeaderIntact setup
      (Effect.apply device.merge memory (.program setup.headersOffset setup.header)) := by
  intro index bound
  rw [Effect.apply_program_erased programs (by rwa [lengthEq]) (by omega) (by rw [lengthEq]; omega)]
  congr 1
  omega

/-- Rewriting the header keeps free slots blank. -/
theorem Layout.blank_header (layout : Layout setup slots) (blank : Blank setup slots memory) :
    Blank setup slots
      (Effect.apply device.merge memory (.program setup.headersOffset setup.header)) := by
  intro slot bound isFree index inside
  rw [layout.slotsOf_header] at isFree
  rw [Effect.apply_of_not_touches]
  · exact blank slot bound isFree index inside
  · rintro ⟨_, upper⟩
    have := layout.header_fits
    rw [layout.header_length] at upper
    simp only [slotAddress] at upper
    omega

/-- The section with room behind the cursor, before the item is programmed. -/
structure Prepared (setup : StorageSetup) (slots perPage header : ℕ) (memory : Memory) (cursor : ℕ)
    (log : List (List UInt8)) (left : ℕ) (recycled : Option ℕ) : Prop where
  intact : HeaderIntact setup memory
  ring : Holds slots cursor (slotsOf setup memory) log left
  blank : Blank setup slots memory
  room : left + 1 < slots
  reach : Reach slots perPage header (advance slots cursor) (left + 1) (log.length + 1) recycled
  found : Recoverable cursor left ∨ slots ≤ cursor + 1

/-- What a flash does to make room: nothing, or one page is erased and its header restored. -/
theorem FlashState.room_eq (paged : Paged setup slots perPage header)
    (state : FlashState setup slots perPage header device cursor log kept recycled) :
    room setup device (slotAddress setup (advance slots cursor)) =
      if kept + 1 = slots then
        erasePage setup (advance slots cursor) ::
          if blockFloor perPage (header + advance slots cursor) = 0 then
            [.program setup.headersOffset setup.header] else []
      else [] := by
  rw [room, if_pos paged.isFlash]
  simp only [flashRoom, state.stored.next_used_iff paged.toLayout paged.two, state.pageSize_eq,
    state.eraseValue_eq, paged.page_eq_headers, erasePage]

/-- The page of the next slot, erased: what is left of the ring. -/
theorem FlashState.erase_ring (paged : Paged setup slots perPage header)
    (state : FlashState setup slots perPage header device cursor log kept recycled)
    (full : kept + 1 = slots) :
    ∃ left, left + 1 < slots ∧ (∀ age < kept, left ≤ age →
        inPage perPage header (advance slots cursor) (back slots cursor age)) ∧
      Holds slots cursor (slotsOf setup
        ((erasePage setup (advance slots cursor)).apply device.merge device.memory)) log left ∧
      Reach slots perPage header (advance slots cursor) (left + 1) (log.length + 1)
        (some (blockFloor perPage (header + advance slots cursor))) ∧
      (Recoverable cursor left ∨ slots ≤ cursor + 1) := by
  have bound := state.stored.ring.cursor_lt
  obtain ⟨left, fewer, keeps, drops, reach, found⟩ := state.reach.recycle paged bound full
  have view : slotsOf setup ((erasePage setup (advance slots cursor)).apply device.merge device.memory) =
      fun slot => if inPage perPage header (advance slots cursor) slot then none
        else slotsOf setup device.memory slot :=
    funext (paged.slotsOf_fill (advance slots cursor))
  have cleared := state.stored.ring.clear fewer keeps drops
  rw [← view] at cleared
  refine ⟨left, ?_, fun age upper lower => drops age lower upper, cleared, reach, ?_⟩
  · -- The next slot is the oldest one and lies in the page, so at least one entry is gone.
    have two := paged.two
    by_contra many
    have position : back slots cursor (slots - 2) = advance slots cursor := by
      simp only [advance, back]
      split <;> split <;> omega
    apply keeps (slots - 2) (by omega)
    rw [position]
    exact ⟨blockFloor_le _ _, lt_blockFloor_add _ paged.perPage_pos⟩
  · simp only [Recoverable]
    omega

/-- Making room programs erased bytes only and leaves a section that is ready for the item. -/
theorem FlashState.makeRoom (paged : Paged setup slots perPage header)
    (state : FlashState setup slots perPage header device cursor log kept recycled) :
    ∃ left, (∀ age < kept, left ≤ age → kept + 1 = slots ∧
        inPage perPage header (advance slots cursor) (back slots cursor age)) ∧
      Clean device.merge setup.eraseValue device.memory
        (room setup device (slotAddress setup (advance slots cursor))) ∧
      Prepared setup slots perPage header (replay device.merge device.memory
          (room setup device (slotAddress setup (advance slots cursor)))) cursor log left
        (if kept + 1 = slots then some (blockFloor perPage (header + advance slots cursor))
          else recycled) := by
  rw [state.room_eq paged]
  have few := state.stored.ring.kept_lt
  by_cases full : kept + 1 = slots
  · rw [if_pos full, if_pos full]
    obtain ⟨left, space, drops, ring, reach, found⟩ := state.erase_ring paged full
    have blank := paged.blank_erasePage device state.blank (advance slots cursor)
    refine ⟨left, fun age upper lower => ⟨full, drops age upper lower⟩, ?_⟩
    by_cases first : blockFloor perPage (header + advance slots cursor) = 0
    · have erased := paged.headers_erased device device.memory first
      rw [if_pos first, erasePage, clean_fill, clean_program, paged.header_length]
      refine ⟨⟨erased, clean_nil _⟩, ?_⟩
      rw [replay_cons, replay_cons, replay_nil]
      refine ⟨header_restored paged.header_length state.programs erased, ?_,
        paged.blank_header blank, space, reach, found⟩
      rwa [funext (paged.slotsOf_header)]
    · rw [if_neg first]
      exact ⟨⟨trivial, trivial⟩, paged.header_erasePage device first state.stored.header, ring, blank,
        space, reach, found⟩
  · rw [if_neg full, if_neg full]
    refine ⟨kept, by omega, trivial, state.stored.header, state.stored.ring, state.blank, by omega, ?_,
      Or.inl state.stored.found⟩
    exact state.reach.push paged state.stored.ring.cursor_lt (by omega)

theorem Paged.move (paged : Paged setup slots perPage header) (offset : ℕ) :
    Paged { setup with currentOffset := offset } slots perPage header :=
  ⟨paged.toLayout.move offset, paged.isFlash, paged.perPage_pos, paged.pageSize_eq, paged.aligned, paged.startOffset_eq, paged.total,
    paged.pages_ge, paged.header_pos, paged.header_le, paged.two⟩

theorem FlashDevice.after (flash : FlashDevice setup device) (effects : List Effect) (offset : ℕ) :
    FlashDevice { setup with currentOffset := offset } (device.after effects) :=
  ⟨flash.healthy, flash.pageSize_eq, flash.eraseValue_eq, flash.erasedOnes, flash.programs⟩

/-- The item fills the blank slot under the cursor; the ring moves on. -/
theorem Prepared.program {left : ℕ} (paged : Paged setup slots perPage header)
    (prepared : Prepared setup slots perPage header memory cursor log left recycled)
    (programs : ∀ new, device.merge setup.eraseValue new = new) {bytes : List UInt8}
    (size : bytes.length = setup.itemSize) (first : bytes.getD 0 0 ≠ setup.eraseValue)
    (entries : ∀ entry ∈ log, entry.getD 0 0 ≠ setup.eraseValue) :
    Uniform memory (slotAddress setup cursor) setup.itemSize setup.eraseValue ∧
      Stored { setup with currentOffset := slotAddress setup (advance slots cursor) } slots
        (Effect.apply device.merge memory (.program (slotAddress setup cursor) bytes))
        (advance slots cursor) (bytes :: log) (left + 1) ∧
      Blank setup slots
        (Effect.apply device.merge memory (.program (slotAddress setup cursor) bytes)) := by
  have erased := prepared.blank cursor prepared.ring.cursor_lt prepared.ring.cursor_free
  have programmed : ∀ index < setup.itemSize,
      Effect.apply device.merge memory (.program (slotAddress setup cursor) bytes)
        (slotAddress setup cursor + index) = bytes.getD index 0 := by
    intro index inside
    rw [Effect.apply_program_erased programs (by rwa [size]) (by omega) (by omega),
      Nat.add_sub_cancel_left]
  have view := paged.slotsOf_item size first programmed
  have ring := prepared.ring.push prepared.room bytes
  rw [← view] at ring
  refine ⟨erased, ⟨rfl, paged.header_program device cursor bytes prepared.intact, ring,
    Holds.recoverable_push prepared.found, ?_⟩, ?_⟩
  · intro entry member
    rcases List.mem_cons.mp member with rfl | earlier
    · exact first
    · exact entries entry earlier
  · intro slot bound isFree index inside
    have differs : slot ≠ cursor := by
      rintro rfl
      rw [view, Function.update_self] at isFree
      contradiction
    rw [view, Function.update_of_ne differs] at isFree
    rw [item_frame size (slot_apart differs inside)]
    exact prepared.blank slot bound isFree index inside

/-- The bytes of an item in a blank slot: a short value is padded with erased bytes. -/
def logEntry (config : StorageConfig) (time : Int) (value : List UInt8) : List UInt8 :=
  bigEndian timeSize (timeField time) ++
    (value.take config.valueSize ++ List.replicate (config.valueSize - value.length) 0xff)

private theorem itemBytes_blank (layout : Layout setup slots) {data : Buffer}
    (blank : ∀ index < setup.itemSize, data index = 0xff) (time : Int) (value : List UInt8) :
    itemBytes setup data time value = logEntry setup.config time value := by
  have fits := layout.itemSize_eq
  rw [itemBytes_eq layout, logEntry, storedValue]
  congr 2
  rw [List.eq_replicate_iff]
  refine ⟨by simp, ?_⟩
  intro byte member
  obtain ⟨index, inside, rfl⟩ := List.mem_map.mp member
  have := List.mem_range.mp inside
  exact blank _ (by omega)

/-- The effects of a write: those that make room, then the item. -/
def writeEffects (setup : StorageSetup) (slots : ℕ) (device : Device) (cursor : ℕ) (time : Int)
    (value : List UInt8) : List Effect :=
  room setup device (slotAddress setup (advance slots cursor)) ++
    [.program (slotAddress setup cursor) (logEntry setup.config time value)]

/-- The page that a write recycles. -/
theorem FlashState.erasedPage_eq (paged : Paged setup slots perPage header)
    (state : FlashState setup slots perPage header device cursor log kept recycled)
    (time : Int) (value : List UInt8) :
    erasedPage (writeEffects setup slots device cursor time value) =
      if kept + 1 = slots then
        some (setup.headersOffset + blockFloor perPage (header + advance slots cursor) * setup.itemSize)
      else none := by
  rw [writeEffects, state.room_eq paged, erasedPage]
  by_cases full : kept + 1 = slots
  · rw [if_pos full, if_pos full, List.cons_append, List.findSome?_cons, erasePage, paged.pageAddress]
  · rw [if_neg full, if_neg full]
    rfl

/-- A write on a flash: the log grows by the item and loses at most what lies in the page of the next
slot, and every byte is programmed on erased flash. -/
theorem FlashState.write (paged : Paged setup slots perPage header)
    (state : FlashState setup slots perPage header device cursor log kept recycled)
    (time : Int) (value : List UInt8) :
    ∃ left,
      (∀ age < kept, left ≤ age → kept + 1 = slots ∧
        inPage perPage header (advance slots cursor) (back slots cursor age)) ∧
      writeItem setup time value device =
        ((0, { setup with currentOffset := slotAddress setup (advance slots cursor) }),
          device.after (writeEffects setup slots device cursor time value)) ∧
      Clean device.merge setup.eraseValue device.memory
        (writeEffects setup slots device cursor time value) ∧
      FlashState { setup with currentOffset := slotAddress setup (advance slots cursor) } slots perPage
        header (device.after (writeEffects setup slots device cursor time value)) (advance slots cursor)
        (logEntry setup.config time value :: log) (left + 1)
        (if kept + 1 = slots then some (blockFloor perPage (header + advance slots cursor))
          else recycled) := by
  have bound := state.stored.ring.cursor_lt
  obtain ⟨data, content, written⟩ := writeItem_slot paged.toLayout state.healthy bound
    state.stored.offset time value
  obtain ⟨left, drops, clean, prepared⟩ := state.makeRoom paged
  have first := itemBytes_first paged.toLayout data time value
  have erased := state.blank cursor bound state.stored.ring.cursor_free
  have item : itemBytes setup data time value = logEntry setup.config time value := by
    apply itemBytes_blank paged.toLayout
    intro index inside
    rw [content index inside, erased index inside, state.erasedOnes]
  rw [← state.erasedOnes] at first
  obtain ⟨target, stored, blank⟩ := prepared.program paged state.programs (itemBytes_length data time value)
    first state.stored.entries
  rw [item] at written stored blank
  refine ⟨left, drops, written, ?_, ?_⟩
  · rw [writeEffects, clean_append, clean_program, ← item, itemBytes_length]
    exact ⟨clean, target, clean_nil _⟩
  · refine ⟨state.toFlashDevice.after _ _, ?_, ?_, prepared.reach⟩
    · rw [Device.after_memory, writeEffects, replay_append, replay_cons, replay_nil]
      exact stored
    · rw [Device.after_memory, writeEffects, replay_append, replay_cons, replay_nil]
      exact blank

end CoapsClient.ApplStorage
