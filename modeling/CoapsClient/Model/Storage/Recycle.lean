import CoapsClient.Model.Storage.Pages

/-! # Which entries a recycled page takes along

The arithmetic of the flash ring. `Reach` relates the number of kept entries to the page that was
recycled last: either no page was recycled and everything is kept, or the recycled page is the one
the cursor is in and only the rest of it is missing. The smallest flash ring, two slots in one page
behind a page of header, recycles the page on every write and keeps one entry.
-/

namespace CoapsClient.ApplStorage

open Machine Math RingLog

/-- How far back the kept entries reach; the index is the first unit of the page recycled last. -/
inductive Reach (slots perPage header cursor kept written : ℕ) : Option ℕ → Prop
  | fresh (filled : kept = cursor) (all : kept = written) :
      Reach slots perPage header cursor kept written none
  | recycled (rest : kept + pageEnd perPage header cursor = cursor + slots) :
      Reach slots perPage header cursor kept written (some (blockFloor perPage (header + cursor)))
  | single (twoSlots : slots = 2) (twoUnits : perPage = 2) (pageOfHeader : header = 2) (one : kept = 1) :
      Reach slots perPage header cursor kept written (some (blockFloor perPage (header + cursor)))

variable {setup : StorageSetup} {slots perPage header cursor kept written : ℕ} {recycled : Option ℕ}

theorem Paged.pageEnd_le (paged : Paged setup slots perPage header) {slot : ℕ} (bound : slot < slots) :
    pageEnd perPage header slot ≤ slots := by
  have := blockFloor_add_le (show header + slot < setup.config.pages * perPage by
    rw [← paged.total]; omega)
  rw [← paged.total] at this
  simp only [pageEnd]
  omega

theorem Paged.lt_pageEnd (paged : Paged setup slots perPage header) (slot : ℕ) :
    slot < pageEnd perPage header slot ∧
      header + pageEnd perPage header slot = blockFloor perPage (header + slot) + perPage := by
  have := lt_blockFloor_add (header + slot) paged.perPage_pos
  simp only [pageEnd]
  omega

private theorem mem_page_zero {slot : ℕ} :
    inPage perPage header 0 slot ↔ slot < pageEnd perPage header 0 := by
  have := blockFloor_le perPage (header + 0)
  simp only [inPage, pageEnd]
  omega

/-- A ring inside one page has two slots behind a page of header. -/
theorem Paged.single_page (paged : Paged setup slots perPage header)
    (onePage : slots ≤ pageEnd perPage header 0) : slots = 2 ∧ perPage = 2 ∧ header = 2 := by
  have last := paged.pageEnd_le (show 0 < slots by have := paged.two; omega)
  have border := (paged.lt_pageEnd 0).2
  have below := blockFloor_le perPage (header + 0)
  have count : blockFloor perPage (header + 0) + perPage = setup.config.pages * perPage := by
    rw [← paged.total]
    omega
  have pages := paged.pages_ge
  have short := paged.header_le
  have two := paged.two
  -- The page of slot zero is the last one, so the pages before it are all header.
  have before : (setup.config.pages - 1) * perPage = blockFloor perPage (header + 0) := by
    rw [Nat.sub_mul]
    omega
  have atLeast : perPage ≤ (setup.config.pages - 1) * perPage :=
    Nat.le_mul_of_pos_left _ (by omega)
  have total := paged.total
  rcases Nat.lt_or_ge perPage 2 with one | twoUnits
  · have unit : perPage = 1 := by have := paged.perPage_pos; omega
    subst unit
    omega
  · omega

/-- While the next slot is free it lies in the cursor's page, or nothing was recycled yet. -/
theorem Reach.push (paged : Paged setup slots perPage header)
    (reach : Reach slots perPage header cursor kept written recycled) (bound : cursor < slots)
    (room : kept + 1 < slots) :
    Reach slots perPage header (advance slots cursor) (kept + 1) (written + 1) recycled := by
  cases reach with
  | fresh filled all =>
    have next : advance slots cursor = cursor + 1 := if_pos (by omega)
    rw [next]
    exact .fresh (by omega) (by omega)
  | recycled rest =>
    have border := (paged.lt_pageEnd cursor).2
    have last := paged.pageEnd_le bound
    have next : advance slots cursor = cursor + 1 := if_pos (by omega)
    have same : blockFloor perPage (header + (cursor + 1)) = blockFloor perPage (header + cursor) :=
      blockFloor_succ_inside (header + cursor) (by omega)
    rw [next, ← same]
    refine .recycled ?_
    simp only [pageEnd] at rest ⊢
    rw [same]
    omega
  | single twoSlots _ _ one => omega

/-- What the page of a used next slot takes along: the oldest entries, and only those. The entries
that stay cover everything before the cursor, unless the ring wraps. -/
theorem Reach.recycle (paged : Paged setup slots perPage header)
    (reach : Reach slots perPage header cursor kept written recycled) (bound : cursor < slots)
    (full : kept + 1 = slots) :
    ∃ left ≤ kept,
      (∀ age < left, ¬ inPage perPage header (advance slots cursor) (back slots cursor age)) ∧
      (∀ age, left ≤ age → age < kept →
        inPage perPage header (advance slots cursor) (back slots cursor age)) ∧
      Reach slots perPage header (advance slots cursor) (left + 1) (written + 1)
        (some (blockFloor perPage (header + advance slots cursor))) ∧
      (cursor ≤ left ∨ cursor + 1 = slots) := by
  have two := paged.two
  by_cases tiny : slots = 2 ∧ perPage = 2 ∧ header = 2
  · obtain ⟨rfl, rfl, rfl⟩ := tiny
    have atBorder : ∀ slot < 2, blockFloor 2 (2 + slot) = 2 := by decide
    have next := advance_lt cursor (show 0 < 2 by omega)
    refine ⟨0, by omega, by simp, ?_, .single rfl rfl rfl rfl, by omega⟩
    intro age _ ageBound
    have position := back_lt bound (show age < 2 by omega)
    simp only [inPage]
    rw [atBorder _ next]
    omega
  have atEnd : cursor + 1 = slots ∨ cursor + 1 < slots ∧ cursor + 1 = pageEnd perPage header cursor := by
    cases reach with
    | fresh filled _ => omega
    | recycled rest => omega
    | single twoSlots twoUnits pageOfHeader _ => exact absurd ⟨twoSlots, twoUnits, pageOfHeader⟩ tiny
  rcases atEnd with wraps | ⟨inside, border⟩
  · -- The ring wraps: the page of slot zero is recycled.
    have next : advance slots cursor = 0 := if_neg (by omega)
    have apart : pageEnd perPage header 0 < slots := by
      by_contra onePage
      exact tiny (paged.single_page (by omega))
    rw [next]
    refine ⟨slots - 1 - pageEnd perPage header 0, by omega, ?_, ?_, .recycled (by omega), Or.inr wraps⟩
    · intro age ageBound
      rw [mem_page_zero, back, if_pos (by omega)]
      omega
    · intro age lower upper
      rw [mem_page_zero, back, if_pos (by omega)]
      omega
  · -- The next slot opens a page.
    have next : advance slots cursor = cursor + 1 := if_pos inside
    have unit := (paged.lt_pageEnd cursor).2
    have floor : blockFloor perPage (header + (cursor + 1)) = header + (cursor + 1) :=
      blockFloor_succ_border (header + cursor) paged.perPage_pos (by omega)
    have last := paged.pageEnd_le inside
    have behind : pageEnd perPage header (cursor + 1) = cursor + 1 + perPage := by
      simp only [pageEnd]
      rw [floor]
      omega
    rw [next]
    refine ⟨slots - 1 - perPage, by omega, ?_, ?_, .recycled (by omega), Or.inl (by omega)⟩
    · intro age ageBound
      simp only [inPage, back]
      rw [floor]
      split <;> omega
    · intro age lower upper
      simp only [inPage, back]
      rw [floor, if_neg (by omega)]
      omega

/-- Inside the section the page that is recycled is not the one with the header. -/
theorem Reach.border (paged : Paged setup slots perPage header)
    (reach : Reach slots perPage header cursor kept written recycled) (full : kept + 1 = slots)
    (inside : cursor + 1 < slots) : blockFloor perPage (header + advance slots cursor) ≠ 0 := by
  have next : advance slots cursor = cursor + 1 := if_pos inside
  rw [next]
  cases reach with
  | fresh filled _ => omega
  | recycled rest =>
    have unit := (paged.lt_pageEnd cursor).2
    have opens := blockFloor_succ_border (header + cursor) paged.perPage_pos (by omega)
    rw [Nat.add_assoc] at opens
    omega
  | single twoSlots twoUnits pageOfHeader _ =>
    have atBorder : ∀ slot < 2, blockFloor 2 (2 + slot) = 2 := by decide
    rw [twoUnits, pageOfHeader, atBorder _ (by omega)]
    decide

/-- Every one of the newest `slots` entries outside the page recycled last is kept. -/
theorem Reach.keeps_outside (paged : Paged setup slots perPage header)
    (reach : Reach slots perPage header cursor kept written recycled) (bound : cursor < slots)
    {age : ℕ} (recent : age < slots) (existing : age < written)
    (outside : ∀ floor, recycled = some floor →
      ¬ (floor ≤ header + back slots cursor age ∧ header + back slots cursor age < floor + perPage)) :
    age < kept := by
  cases reach with
  | fresh filled all => omega
  | recycled rest =>
    have apart := outside _ rfl
    have below := blockFloor_le perPage (header + cursor)
    by_contra old
    apply apart
    have last := paged.pageEnd_le bound
    have position : back slots cursor age = slots + cursor - 1 - age := if_neg (by omega)
    simp only [pageEnd] at rest
    omega
  | single twoSlots twoUnits pageOfHeader one =>
    have apart := outside _ rfl
    subst twoSlots twoUnits pageOfHeader
    have atBorder : ∀ slot < 2, blockFloor 2 (2 + slot) = 2 := by decide
    have position := back_lt bound recent
    rw [atBorder cursor bound] at apart
    omega

end CoapsClient.ApplStorage
