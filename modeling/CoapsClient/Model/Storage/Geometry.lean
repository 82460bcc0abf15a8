import CoapsClient.Model.Storage.Store
import Mathlib.Tactic.IntervalCases

/-! # How many items a section holds

`initSetup` computes the borders of a section from the page size and the value size. When the item
size divides the scan buffer it is eight, sixteen or thirty-two bytes, the header takes the room of
one or two items, and the rest of the section is slots.
-/

namespace CoapsClient.ApplStorage

open Machine Math RingLog

/-- Items that fit one page. -/
def itemsPerPage (config : StorageConfig) (device : Device) : ℕ :=
  sectionPageSize config device / (config.valueSize + timeSize)

/-- Items the header takes the room of. -/
def headerItems (config : StorageConfig) : ℕ :=
  headerSlots (config.valueSize + timeSize) headerSize (config.valueSize + timeSize) /
    (config.valueSize + timeSize)

/-- Items that fit the section. -/
def slotCount (config : StorageConfig) (device : Device) : ℕ :=
  config.pages * itemsPerPage config device - headerItems config

variable {config : StorageConfig} {device : Device}

/-- Value sizes whose items tile the scan buffer. -/
theorem itemSize_cases {size : ℕ} (divides : size + timeSize ∣ maxItemSize) :
    size = 2 ∨ size = 10 ∨ size = 26 := by
  obtain ⟨count, product⟩ := divides
  change 32 = (size + 6) * count at product
  have few : count < 6 := by
    by_contra many
    have := Nat.mul_le_mul (show 6 ≤ size + 6 by omega) (show 6 ≤ count by omega)
    omega
  interval_cases count <;> omega

/-- The header takes two items of eight bytes or one larger item. -/
theorem headerItems_spec (divides : config.valueSize + timeSize ∣ maxItemSize) :
    headerSlots (config.valueSize + timeSize) headerSize (config.valueSize + timeSize) =
        headerItems config * (config.valueSize + timeSize) ∧
      0 < headerItems config ∧ headerItems config ≤ 2 ∧
      headerSize ≤ headerItems config * (config.valueSize + timeSize) := by
  simp only [headerItems]
  rcases itemSize_cases divides with size | size | size <;> rw [size] <;> decide

theorem sectionAt_startOffset (start offset : ℕ) (device : Device)
    (divides : config.valueSize + timeSize ∣ maxItemSize) :
    (sectionAt config start device offset).startOffset =
      start + headerItems config * (config.valueSize + timeSize) := by
  rw [← (headerItems_spec divides).1]
  rfl

private theorem sectionAt_endOffset (start offset : ℕ)
    (dividesPage : config.valueSize + timeSize ∣ sectionPageSize config device) :
    (sectionAt config start device offset).endOffset =
      start + config.pages * itemsPerPage config device * (config.valueSize + timeSize) := by
  rw [Nat.mul_assoc, itemsPerPage, Nat.div_mul_cancel dividesPage]
  rfl

section

variable (divides : config.valueSize + timeSize ∣ maxItemSize)
  (dividesPage : config.valueSize + timeSize ∣ sectionPageSize config device)
include divides dividesPage

/-- Room for two items in bytes is room for two items in units. -/
theorem itemRoom_of_bytes {start offset : ℕ}
    (two : (sectionAt config start device offset).startOffset +
      2 * (sectionAt config start device offset).itemSize ≤
        (sectionAt config start device offset).endOffset) :
    headerItems config + 2 ≤ config.pages * itemsPerPage config device := by
  have positive : 0 < config.valueSize + timeSize := by
    simp only [timeSize]
    omega
  have itemEq : (sectionAt config start device offset).itemSize = config.valueSize + timeSize := rfl
  rw [sectionAt_startOffset _ _ _ divides, sectionAt_endOffset _ _ dividesPage, itemEq, Nat.add_assoc,
    ← Nat.add_mul] at two
  by_contra short
  have := Nat.mul_lt_mul_of_pos_right (Nat.lt_of_not_le short) positive
  omega

/-- The slots of a section and where they lie. -/
theorem section_layout (start offset : ℕ)
    (units : headerItems config ≤ config.pages * itemsPerPage config device) :
    Layout (sectionAt config start device offset) (slotCount config device) ∧
      (sectionAt config start device offset).startOffset =
        (sectionAt config start device offset).headersOffset +
          headerItems config * (sectionAt config start device offset).itemSize ∧
      headerItems config + slotCount config device = config.pages * itemsPerPage config device := by
  have startEq := sectionAt_startOffset start offset device divides
  have total : headerItems config + slotCount config device =
      config.pages * itemsPerPage config device := by
    simp only [slotCount]
    omega
  have bytes := (headerItems_spec divides).2.2.2
  refine ⟨⟨rfl, divides, ?_, ?_, ?_⟩, startEq, total⟩
  · simp [sectionAt, setupOf, headerOf, headerSize]
  · rw [startEq]
    exact Nat.add_le_add_left bytes start
  · rw [sectionAt_endOffset _ _ dividesPage, startEq, ← total]
    change _ = _ + slotCount config device * (config.valueSize + timeSize)
    ring

end

end CoapsClient.ApplStorage
