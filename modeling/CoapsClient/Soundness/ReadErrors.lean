import CoapsClient.Soundness.FlashLog

/-! # Read errors while the write position is searched

`initOffset` reads the slots in chunks and passes over a chunk that it cannot read. A free slot that
is found behind such a chunk is accepted, and when none is found the section is formatted, whether the
chunks were full or unreadable. The initialisation is safe exactly when a chunk with a free slot is
reached through successful reads alone.

A read of the header that fails is reported and leaves the section as it was; only the reads of the
scan are treated differently.
-/

namespace CoapsClient.ApplStorage

open Machine Math RingLog

/-- The number of chunks a scan reads at most. -/
def chunkCount (setup : StorageSetup) : ℕ :=
  (setup.endOffset - setup.startOffset + (maxItemSize - 1)) / maxItemSize

def chunkAddress (setup : StorageSetup) (chunk : ℕ) : ℕ := setup.startOffset + chunk * maxItemSize

/-- The read buffer with a chunk in it. -/
def chunkBuffer (setup : StorageSetup) (device : Device) (chunk : ℕ) : Buffer :=
  device.stack.load 0 maxItemSize fun offset => device.memory (chunkAddress setup chunk + offset)

/-- The free slot that a successful read of the chunk shows. -/
def chunkFree (setup : StorageSetup) (device : Device) (chunk : ℕ) : Option ℕ :=
  if chunkAddress setup chunk < setup.endOffset then
    findErased setup (chunkBuffer setup device chunk) (chunkAddress setup chunk) maxItemSize 0
  else none

/-- The slot is free in a chunk whose read, and every read before it, succeeds. -/
def ReachedFree (setup : StorageSetup) (device : Device) (results : List Int) (offset : ℕ) : Prop :=
  ∃ chunk, chunkFree setup device chunk = some offset ∧ ∀ earlier ≤ chunk, results.getD earlier 0 = 0

/-- Nothing is erased or written, and success is reported only for a slot that was reached through
successful reads. -/
def SafeInit (setup : StorageSetup) (device : Device) (results : List Int) : Prop :=
  let outcome := initOffset setup device
  newEffects device outcome.2 = [] ∧
    (outcome.1.1 ≠ 0 ∨ ReachedFree setup device results outcome.1.2.currentOffset)

variable {setup : StorageSetup} {device : Device} {results : List Int}

/-- The device when the scan is about to read a chunk. -/
def Device.atChunk (device : Device) (results : List Int) (chunk : ℕ) : Device :=
  { device with faults := results.drop chunk }

private theorem readMemory_atChunk (address : ℕ) (data : Buffer) (index count chunk : ℕ) :
    readMemory address data index count (device.atChunk results chunk) =
      ((results.getD chunk 0,
        if results.getD chunk 0 = 0 then
          data.load index count fun offset => device.memory (address + offset) else data),
        device.atChunk results (chunk + 1)) := by
  have drops : (device.atChunk results chunk).faults = results.drop chunk := rfl
  have attempted : attempt (device.atChunk results chunk) =
      (results.getD chunk 0, device.atChunk results (chunk + 1)) := by
    simp only [attempt, Device.atChunk]
    by_cases inside : chunk < results.length
    · rw [List.drop_eq_getElem_cons inside, List.getD_eq_getElem _ _ inside]
    · have rest : results.drop chunk = [] := List.drop_eq_nil_of_le (by omega)
      have later : results.drop (chunk + 1) = [] := List.drop_eq_nil_of_le (by omega)
      rw [List.getD_eq_default _ _ (by omega)]
      simp only [rest, later]
  simp only [readMemory, run_bind, attempted]
  by_cases ok : results.getD chunk 0 = 0
  · rw [if_pos ok, if_pos ok]
    rfl
  · rw [if_neg ok, if_neg ok]
    rfl

/-- The read shows a free slot. -/
def Shown (setup : StorageSetup) (device : Device) (results : List Int) (chunk : ℕ) : Prop :=
  results.getD chunk 0 = 0 ∧ chunkFree setup device chunk ≠ none

private theorem chunkBuffer_eq {data : Buffer} (behind : ∀ index, maxItemSize ≤ index → data index = device.stack index)
    (chunk : ℕ) :
    data.load 0 maxItemSize (fun offset => device.memory (chunkAddress setup chunk + offset)) =
      chunkBuffer setup device chunk := by
  funext index
  by_cases inside : index < maxItemSize
  · rw [chunkBuffer, Buffer.load_inside (Nat.zero_le _) (by omega),
      Buffer.load_inside (Nat.zero_le _) (by omega)]
  · rw [chunkBuffer, Buffer.load_outside (Or.inr (by omega)), Buffer.load_outside (Or.inr (by omega))]
    exact behind index (by omega)

/-- One turn of the scan: it stops at a chunk that shows a free slot and passes over every other. -/
private theorem scanChunks_turn {data : Buffer} (behind : ∀ index, maxItemSize ≤ index → data index = device.stack index)
    (fuel chunk : ℕ) (inSection : chunkAddress setup chunk < setup.endOffset) :
    (∃ offset, chunkFree setup device chunk = some offset ∧ results.getD chunk 0 = 0 ∧
      scanChunks setup (fuel + 1) (chunkAddress setup chunk) data (device.atChunk results chunk) =
        ((0, { setup with currentOffset := offset }), device.atChunk results (chunk + 1))) ∨
    ¬ Shown setup device results chunk ∧ ∃ data' : Buffer,
      (∀ index, maxItemSize ≤ index → data' index = device.stack index) ∧
      scanChunks setup (fuel + 1) (chunkAddress setup chunk) data (device.atChunk results chunk) =
        scanChunks setup fuel (chunkAddress setup (chunk + 1)) data' (device.atChunk results (chunk + 1)) := by
  have next : chunkAddress setup (chunk + 1) = chunkAddress setup chunk + maxItemSize := by
    simp only [chunkAddress]
    ring
  have free : chunkFree setup device chunk =
      findErased setup (chunkBuffer setup device chunk) (chunkAddress setup chunk) maxItemSize 0 :=
    if_pos inSection
  rw [next]
  simp only [scanChunks, if_pos inSection, run_bind, readMemory_atChunk]
  by_cases ok : results.getD chunk 0 = 0
  · simp only [if_pos ok, chunkBuffer_eq behind]
    cases found : findErased setup (chunkBuffer setup device chunk) (chunkAddress setup chunk)
        maxItemSize 0 with
    | some offset =>
      rw [ok]
      exact Or.inl ⟨offset, free.trans found, rfl, rfl⟩
    | none =>
      refine Or.inr ⟨fun shown => shown.2 (free.trans found), chunkBuffer setup device chunk, ?_, rfl⟩
      intro index beyond
      exact Buffer.load_outside (Or.inr (by omega))
  · simp only [if_neg ok]
    exact Or.inr ⟨fun shown => ok shown.1, data, behind, rfl⟩

private theorem not_shown_behind {chunk : ℕ} (behind : setup.endOffset ≤ chunkAddress setup chunk) :
    ¬ Shown setup device results chunk :=
  fun shown => shown.2 (if_neg (by omega))

/-- The scan stops at the first chunk that shows a free slot, and formats when there is none. -/
private theorem scanChunks_run (fuel : ℕ) : ∀ (chunk : ℕ) (data : Buffer),
    (∀ index, maxItemSize ≤ index → data index = device.stack index) →
    setup.endOffset ≤ chunkAddress setup chunk + fuel →
    (∃ stop offset, chunkFree setup device stop = some offset ∧ results.getD stop 0 = 0 ∧
      (∀ earlier, chunk ≤ earlier → earlier < stop → ¬ Shown setup device results earlier) ∧
      scanChunks setup fuel (chunkAddress setup chunk) data (device.atChunk results chunk) =
        ((0, { setup with currentOffset := offset }), device.atChunk results (stop + 1))) ∨
    ((∀ later, chunk ≤ later → ¬ Shown setup device results later) ∧
      ∃ last, setup.endOffset ≤ chunkAddress setup last ∧
        scanChunks setup fuel (chunkAddress setup chunk) data (device.atChunk results chunk) =
          format setup (device.atChunk results last)) := by
  have later_address (chunk later : ℕ) (order : chunk ≤ later) :
      chunkAddress setup chunk ≤ chunkAddress setup later :=
    Nat.add_le_add_left (Nat.mul_le_mul_right _ order) _
  have ended (fuel chunk : ℕ) (data : Buffer) (behind : setup.endOffset ≤ chunkAddress setup chunk) :
      (∀ later, chunk ≤ later → ¬ Shown setup device results later) ∧
      ∃ last, setup.endOffset ≤ chunkAddress setup last ∧
        scanChunks setup fuel (chunkAddress setup chunk) data (device.atChunk results chunk) =
          format setup (device.atChunk results last) := by
    refine ⟨fun later order => not_shown_behind (behind.trans (later_address _ _ order)), chunk, behind, ?_⟩
    cases fuel with
    | zero => rfl
    | succ fuel => rw [scanChunks, if_neg (by omega)]
  induction fuel with
  | zero =>
    intro chunk data _ enough
    exact Or.inr (ended 0 chunk data (by omega))
  | succ fuel ih =>
    intro chunk data behind enough
    by_cases inSection : chunkAddress setup chunk < setup.endOffset
    · rcases scanChunks_turn behind fuel chunk inSection with ⟨offset, free, ok, stops⟩ | ⟨notShown, data', behind', turns⟩
      · exact Or.inl ⟨chunk, offset, free, ok, fun earlier lower upper => by omega, stops⟩
      · have next : chunkAddress setup (chunk + 1) = chunkAddress setup chunk + maxItemSize := by
          simp only [chunkAddress]
          ring
        have wide : 0 < maxItemSize := by decide
        rw [turns]
        rcases ih (chunk + 1) data' behind' (by omega) with
          ⟨stop, offset, free, ok, before, stops⟩ | ⟨none, formats⟩
        · refine Or.inl ⟨stop, offset, free, ok, ?_, stops⟩
          intro earlier lower upper
          by_cases here : earlier = chunk
          · exact here ▸ notShown
          · exact before earlier (by omega) upper
        · refine Or.inr ⟨?_, formats⟩
          intro later order
          by_cases here : later = chunk
          · exact here ▸ notShown
          · exact none later (by omega)
    · exact Or.inr (ended (fuel + 1) chunk data (by omega))

/-- A format that meets no error erases the section and writes its header. -/
private theorem format_effects (healthy : device.faults = []) :
    newEffects device (format setup device).2 ≠ [] := by
  obtain ⟨effects, erased⟩ : ∃ effects, eraseMemory setup.config.isFlashDevice setup.headersOffset
      (setup.endOffset - setup.headersOffset) device = (0, device.after effects) := by
    simp only [eraseMemory]
    cases setup.config.isFlashDevice with
    | true => exact ⟨_, flashEraseMemory_healthy healthy _ _⟩
    | false =>
      obtain ⟨effects, ran, _⟩ := eepromEraseBlocks_healthy _ device setup.headersOffset _ healthy
        (Nat.le_refl (setup.endOffset - setup.headersOffset))
      exact ⟨effects, ran⟩
  have formatted : (format setup device).2 =
      device.after (effects ++ [.program setup.headersOffset setup.header]) := by
    simp only [format, run_bind, erased, Int.reduceLT, ↓reduceIte,
      initHeaders_healthy (show (device.after effects).faults = [] from healthy), Device.after_after]
    rfl
  rw [formatted, newEffects_after]
  simp

/-- With a valid header that is read without error, the initialisation is the scan. -/
private theorem initOffset_scans (script : device.faults = 0 :: results)
    (intact : HeaderIntact setup device.memory) :
    ∃ data : Buffer, (∀ index, maxItemSize ≤ index → data index = device.stack index) ∧
      initOffset setup device = scanChunks setup (setup.endOffset - setup.startOffset)
        (chunkAddress setup 0) data (device.atChunk results 0) := by
  have start : chunkAddress setup 0 = setup.startOffset := by simp [chunkAddress]
  have headerRead : readMemory setup.headersOffset device.stack 0 headerSize device =
      ((0, device.stack.load 0 headerSize fun offset =>
        device.memory (setup.headersOffset + offset)), device.atChunk results 0) := by
    have attempted : attempt device = (0, device.atChunk results 0) := by
      simp only [attempt, script]
      rfl
    simp only [readMemory, run_bind, attempted]
    rfl
  refine ⟨device.stack.load 0 headerSize fun offset => device.memory (setup.headersOffset + offset),
    ?_, ?_⟩
  · intro index beyond
    have : headerSize ≤ maxItemSize := by decide
    exact Buffer.load_outside (Or.inr (by omega))
  · simp only [initOffset, run_bind, run_get,
      headerRead, headerMatches_iff.mpr intact, ↓reduceIte, start]

/-- For every content with a valid header and every script of results for the reads of the scan, the
initialisation is safe exactly when some chunk with a free slot is reached through successful reads. -/
theorem init_with_read_errors (script : device.faults = 0 :: results)
    (few : results.length ≤ chunkCount setup) (intact : HeaderIntact setup device.memory) :
    SafeInit setup device results ↔ ∃ offset, ReachedFree setup device results offset := by
  obtain ⟨data, behind, scans⟩ := initOffset_scans script intact
  have enough : setup.endOffset ≤ chunkAddress setup 0 + (setup.endOffset - setup.startOffset) := by
    simp only [chunkAddress]
    omega
  rcases scanChunks_run (setup.endOffset - setup.startOffset) 0 data behind enough with
    ⟨stop, offset, free, ok, before, stops⟩ | ⟨none, last, beyond, formats⟩
  · -- The scan stopped at a chunk; the slot counts when no read before it failed.
    have outcome := scans.trans stops
    have quiet : newEffects device (device.atChunk results (stop + 1)) = [] := by
      simp [newEffects, Device.atChunk]
    rw [SafeInit, outcome]
    constructor
    · rintro ⟨_, failed | reached⟩
      · exact absurd rfl failed
      · exact ⟨offset, reached⟩
    · rintro ⟨other, chunk, isFree, reads⟩
      refine ⟨quiet, Or.inr ⟨stop, free, ?_⟩⟩
      have first : stop ≤ chunk := by
        by_contra later
        exact before chunk (Nat.zero_le _) (by omega) ⟨reads chunk (Nat.le_refl _), by simp [isFree]⟩
      intro earlier order
      exact reads earlier (by omega)
  · -- No chunk showed a free slot, so the section was formatted.
    have exhausted : results.drop last = [] := by
      apply List.drop_eq_nil_of_le
      have : chunkCount setup ≤ last := by
        simp only [chunkAddress] at beyond
        simp only [chunkCount]
        change setup.endOffset ≤ setup.startOffset + last * 32 at beyond
        change (setup.endOffset - setup.startOffset + 31) / 32 ≤ last
        omega
      omega
    have erases : newEffects (device.atChunk results last)
        (format setup (device.atChunk results last)).2 ≠ [] := format_effects exhausted
    rw [SafeInit, scans.trans formats]
    constructor
    · rintro ⟨quiet, _⟩
      exact absurd quiet erases
    · rintro ⟨offset, chunk, isFree, reads⟩
      exact absurd ⟨reads chunk (Nat.le_refl _), by simp [isFree]⟩ (none chunk (Nat.zero_le _))

/-- The small section with one item, on a device with a script for the reads of its initialisation. -/
def scriptedDevice (results : List Int) : Device :=
  { (smallStore.writeAll [(1000, [1])]).device with faults := 0 :: results }

theorem init_second_read_fails : SafeInit smallStore.setup (scriptedDevice [0, -5]) [0, -5] := by
  refine (init_with_read_errors rfl (by decide +kernel) ?_).mpr ⟨24, 0, by decide +kernel, ?_⟩
  · intro index bound
    revert index
    decide +kernel
  · intro earlier order
    rw [Nat.le_zero.mp order]
    rfl

/-- Two failing reads make the initialisation erase the section with its item. -/
theorem init_reads_fail :
    HeaderIntact smallStore.setup (scriptedDevice [-5, -5]).memory ∧
      slotsOf smallStore.setup (scriptedDevice [-5, -5]).memory 0 ≠ none ∧
      slotsOf smallStore.setup (scriptedDevice [-5, -5]).memory 1 = none ∧
      ¬ SafeInit smallStore.setup (scriptedDevice [-5, -5]) [-5, -5] := by
  refine ⟨?_, by decide +kernel, by decide +kernel, ?_⟩
  · intro index bound
    revert index
    decide +kernel
  · rintro ⟨quiet, _⟩
    revert quiet
    decide +kernel

end CoapsClient.ApplStorage
