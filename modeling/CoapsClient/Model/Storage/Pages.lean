import CoapsClient.Model.Storage.Write
import CoapsClient.Math.Rounding

/-! # Slots and flash pages

In units of one item a flash section is `header` units of header followed by the slots, and
`perPage` units make a page. `inPage` says which slots share the page of a slot. The lemmas give
the ring view after each effect of a write: recycling a page frees exactly its slots, rewriting the
header leaves the slots alone, programming an item fills one slot.
-/

namespace CoapsClient.ApplStorage

open Machine Math RingLog

/-- A flash section whose slots tile the pages as well. -/
structure Paged (setup : StorageSetup) (slots perPage header : ℕ) : Prop extends Layout setup slots where
  isFlash : setup.config.isFlashDevice = true
  perPage_pos : 0 < perPage
  pageSize_eq : setup.pageSize = perPage * setup.itemSize
  aligned : setup.pageSize ∣ setup.headersOffset
  startOffset_eq : setup.startOffset = setup.headersOffset + header * setup.itemSize
  total : header + slots = setup.config.pages * perPage
  pages_ge : 2 ≤ setup.config.pages
  header_pos : 0 < header
  header_le : header ≤ 2
  two : 2 ≤ slots

/-- The two slots lie in one page. -/
def inPage (perPage header slot other : ℕ) : Prop :=
  blockFloor perPage (header + slot) ≤ header + other ∧
    header + other < blockFloor perPage (header + slot) + perPage

instance (perPage header slot : ℕ) : DecidablePred (inPage perPage header slot) :=
  fun _ => inferInstanceAs (Decidable (_ ∧ _))

/-- The first slot behind the page of a slot. -/
def pageEnd (perPage header slot : ℕ) : ℕ := blockFloor perPage (header + slot) + perPage - header

variable {setup : StorageSetup} {slots perPage header : ℕ} {device : Device} {memory : Memory}

theorem Paged.slotAddress_eq (paged : Paged setup slots perPage header) (slot : ℕ) :
    slotAddress setup slot = setup.headersOffset + (header + slot) * setup.itemSize := by
  rw [slotAddress, paged.startOffset_eq]
  ring

theorem Paged.pageAddress (paged : Paged setup slots perPage header) (slot : ℕ) :
    slotAddress setup slot / setup.pageSize * setup.pageSize =
      setup.headersOffset + blockFloor perPage (header + slot) * setup.itemSize := by
  have aligned := paged.aligned
  rw [paged.pageSize_eq] at aligned
  rw [paged.slotAddress_eq, paged.pageSize_eq]
  exact blockFloor_scaled paged.itemSize_pos paged.perPage_pos aligned

/-- A byte of a slot lies in the page of another slot exactly when the slots share the page. -/
theorem Paged.byte_inPage (paged : Paged setup slots perPage header) {slot other : ℕ} (index : ℕ)
    (inside : index < setup.itemSize) :
    (setup.headersOffset + blockFloor perPage (header + slot) * setup.itemSize ≤
        slotAddress setup other + index ∧
      slotAddress setup other + index <
        setup.headersOffset + blockFloor perPage (header + slot) * setup.itemSize + setup.pageSize) ↔
      inPage perPage header slot other := by
  have size := paged.pageSize_eq
  rw [paged.slotAddress_eq]
  set floor := blockFloor perPage (header + slot) with floorEq
  have scale : floor * setup.itemSize + setup.pageSize = (floor + perPage) * setup.itemSize := by
    rw [size]
    ring
  have split (low high : ℕ) (order : low < high) : (low + 1) * setup.itemSize ≤ high * setup.itemSize :=
    Nat.mul_le_mul_right _ order
  constructor
  · rintro ⟨lower, upper⟩
    constructor
    · by_contra below
      have := split _ _ (Nat.lt_of_not_le below)
      rw [← floorEq, Nat.succ_mul] at this
      omega
    · by_contra beyond
      have := Nat.mul_le_mul_right setup.itemSize (Nat.le_of_not_lt beyond)
      rw [← floorEq] at this
      omega
  · rintro ⟨lower, upper⟩
    have below := Nat.mul_le_mul_right setup.itemSize lower
    have beyond := split _ _ upper
    rw [← floorEq] at below beyond
    rw [Nat.succ_mul] at beyond
    constructor <;> omega

/-- Recycling a page frees exactly the slots of the page. -/
theorem Paged.slotsOf_fill (paged : Paged setup slots perPage header) (slot other : ℕ) :
    slotsOf setup (Effect.apply device.merge memory
        (.fill (slotAddress setup slot / setup.pageSize * setup.pageSize) setup.pageSize
          setup.eraseValue)) other =
      if inPage perPage header slot other then none else slotsOf setup memory other := by
  rw [paged.pageAddress]
  have large := paged.itemSize_ge
  split
  · next shared =>
    rw [slotsOf_eq_none_iff]
    intro index bound
    obtain ⟨lower, upper⟩ := (paged.byte_inPage index (by omega)).mpr shared
    exact Effect.apply_fill lower upper
  · next apart =>
    apply slotsOf_congr large
    intro index bound
    exact Effect.apply_of_not_touches (fun touched => apart ((paged.byte_inPage index bound).mp touched))

/-- Rewriting the header leaves the slots alone. -/
theorem Layout.slotsOf_header (layout : Layout setup slots) (slot : ℕ) :
    slotsOf setup (Effect.apply device.merge memory (.program setup.headersOffset setup.header)) slot =
      slotsOf setup memory slot := by
  apply slotsOf_congr layout.itemSize_ge
  intro index _
  apply Effect.apply_of_not_touches
  rintro ⟨_, upper⟩
  have := layout.header_fits
  rw [layout.header_length] at upper
  simp only [slotAddress] at upper
  omega

/-- Programming bytes of a slot leaves the header in place. -/
theorem Layout.header_program (layout : Layout setup slots) (device : Device) (slot : ℕ)
    (bytes : List UInt8) (intact : HeaderIntact setup memory) :
    HeaderIntact setup
      (Effect.apply device.merge memory (.program (slotAddress setup slot) bytes)) := by
  have fits := layout.header_fits
  intro index bound
  rw [Effect.apply_of_not_touches]
  · exact intact index bound
  · rintro ⟨lower, _⟩
    simp only [slotAddress] at lower
    omega

/-- Programming an item into one slot leaves the bytes of the others alone. -/
theorem item_frame {cursor query : ℕ} {bytes : List UInt8}
    (size : bytes.length = setup.itemSize)
    (outside : ¬ (slotAddress setup cursor ≤ query ∧ query < slotAddress setup cursor + setup.itemSize)) :
    Effect.apply device.merge memory (.program (slotAddress setup cursor) bytes) query = memory query := by
  apply Effect.apply_of_not_touches
  rintro ⟨lower, upper⟩
  rw [size] at upper
  exact outside ⟨lower, upper⟩

theorem slot_apart {cursor other index : ℕ} (differs : other ≠ cursor)
    (inside : index < setup.itemSize) :
    ¬ (slotAddress setup cursor ≤ slotAddress setup other + index ∧
      slotAddress setup other + index < slotAddress setup cursor + setup.itemSize) := by
  rintro ⟨lower, upper⟩
  rcases Nat.lt_or_gt_of_ne differs with before | behind
  · have := slotAddress_before setup before
    omega
  · have := slotAddress_before setup behind
    omega

/-- A programmed item, read back as the content of its slot. -/
theorem Layout.slotsOf_item (layout : Layout setup slots) {cursor : ℕ} {bytes : List UInt8}
    (size : bytes.length = setup.itemSize) (first : bytes.getD 0 0 ≠ setup.eraseValue)
    (programmed : ∀ index < setup.itemSize,
      Effect.apply device.merge memory (.program (slotAddress setup cursor) bytes)
        (slotAddress setup cursor + index) = bytes.getD index 0) :
    slotsOf setup (Effect.apply device.merge memory (.program (slotAddress setup cursor) bytes)) =
      Function.update (slotsOf setup memory) cursor (some bytes) := by
  have positive := layout.itemSize_pos
  funext other
  by_cases same : other = cursor
  · subst same
    rw [Function.update_self, slotsOf_of_first]
    · congr 1
      apply List.ext_getElem
      · simp [size]
      · intro index leftBound rightBound
        simp only [List.length_map, List.length_range] at leftBound
        rw [List.getElem_map, List.getElem_range, programmed index leftBound]
        exact List.getD_eq_getElem _ _ (by omega)
    · have start := programmed 0 positive
      rw [Nat.add_zero] at start
      rw [start]
      exact first
  · rw [Function.update_of_ne same]
    apply slotsOf_congr layout.itemSize_ge
    intro index inside
    exact item_frame size (slot_apart same inside)

end CoapsClient.ApplStorage
