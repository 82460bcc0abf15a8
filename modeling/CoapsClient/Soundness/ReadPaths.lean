import CoapsClient.Model.Storage.Walks
import CoapsClient.Soundness.FlashLog

/-! # Two read paths

`appl_storage_read_int_items` fills its arrays in one walk, `appl_storage_read_bytes_item` starts a walk for each
item. Both see the same items, whatever the device holds and whichever reads fail. The time of an item that is
only skipped is written to the first entry of the array; no statement here says what is left there when no item
follows.
-/

namespace CoapsClient.ApplStorage

open Machine Math

/-- What `appl_storage_read_bytes_item` delivers for an entry of the arrays. -/
def delivered (setups : List StorageSetup) (id : Int) (index size : ℕ) (device : Device) (entry : ℕ) : ReadResult :=
  (readBytesItem setups id (index + entry) true (some size) device).1

/-- The number of consecutive entries for which something is delivered. -/
def deliveredCount (setups : List StorageSetup) (id : Int) (index size count : ℕ) (device : Device) : ℕ :=
  ((List.range count).takeWhile fun entry => decide (0 < (delivered setups id index size device entry).rc)).length

/-- The entries below the bound have their values, and those behind it that are to be kept are as before. -/
def EntriesFilled (before after : Option Entries) (bound : ℕ) (values : ℕ → Option ℕ) (kept : ℕ → Prop) : Prop :=
  match before, after with
  | none, none => True
  | some before, some after =>
    (∀ entry < bound, some (after entry) = values entry) ∧
      ∀ entry, bound ≤ entry → kept entry → after entry = before entry
  | _, _ => False

/-- Entries filled from a first one up to a bound. -/
def fillEntries (entries : Option Entries) (values : ℕ → ℕ) (first bound : ℕ) : Option Entries :=
  entries.map fun entries entry => if first ≤ entry ∧ entry < bound then values entry else entries entry

/-- The length of the initial run of a predicate. -/
private theorem takeWhile_range_length {present : ℕ → Bool} {count bound : ℕ} (small : bound ≤ count)
    (run : ∀ entry < bound, present entry = true) (stop : bound < count → present bound = false) :
    ((List.range count).takeWhile present).length = bound := by
  obtain ⟨rest, rfl⟩ : ∃ rest, count = bound + rest := ⟨count - bound, by omega⟩
  rw [List.range_add, List.takeWhile_append_of_pos (by simpa using run), List.length_append, List.length_range]
  cases rest with
  | zero => rfl
  | succ rest =>
    have ends : present bound = false := stop (by omega)
    simp [List.range_succ_eq_map, ends]

/-- What was stored in an entry is overwritten. -/
private theorem storeEntry_again (entries : Option Entries) (entry : ℕ) (first second : Option ℕ) :
    storeEntry (storeEntry entries entry first) entry second = storeEntry entries entry (second.or first) := by
  cases entries <;> cases first <;> cases second <;> simp [storeEntry]

/-- One entry more is filled. -/
private theorem fillEntries_store {entries : Option Entries} {values : ℕ → ℕ} {first bound : ℕ} (order : first < bound) :
    fillEntries (storeEntry entries first (some (values first))) values (first + 1) bound =
      fillEntries entries values first bound := by
  cases entries with
  | none => rfl
  | some entries =>
    refine congrArg some (funext fun entry => ?_)
    by_cases here : entry = first
    · subst here
      simp [order]
    · have same : (first + 1 ≤ entry ∧ entry < bound) ↔ (first ≤ entry ∧ entry < bound) := by omega
      simp only [Function.update_of_ne here, same]

@[simp] theorem fillEntries_none (entries : Option Entries) (values : ℕ → ℕ) (first : ℕ) :
    fillEntries entries values first first = entries := by
  cases entries with
  | none => rfl
  | some entries =>
    refine congrArg some (funext fun entry => ?_)
    simp only [if_neg (show ¬ (first ≤ entry ∧ entry < first) by omega)]

/-- Filled entries behind one that was written before are filled entries, but for that one. -/
private theorem fillEntries_filled {entries : Option Entries} {values : ℕ → ℕ} {bound : ℕ} {leaked : Option ℕ}
    {expected : ℕ → Option ℕ} {kept : ℕ → Prop} (same : ∀ entry < bound, some (values entry) = expected entry)
    (first : leaked = none ∨ ∀ entry, kept entry → 0 < entry) :
    EntriesFilled entries (fillEntries (storeEntry entries 0 leaked) values 0 bound) bound expected kept := by
  cases entries with
  | none => cases leaked <;> exact trivial
  | some entries =>
    cases leaked with
    | none =>
      constructor
      · intro entry inside
        simp [inside, same]
      · intro entry behind _
        simp [behind]
    | some leaked =>
      have positive : ∀ entry, kept entry → 0 < entry := by
        rcases first with none | positive
        · contradiction
        · exact positive
      constructor
      · intro entry inside
        simp [inside, same]
      · intro entry behind keep
        have other : entry ≠ 0 := (positive entry keep).ne'
        simp [behind, other]

variable {setup : StorageSetup} {device : Device} {count : ℕ}

/-- An item that is there is read in the same way with every pair of pointers. -/
private theorem walkResult_present (two : setup.config.valueSize = 2) (errors : ∀ rc ∈ device.faults, rc ≤ 0) {item : ℕ}
    (present : Present setup device item) :
    ∃ time value, value.length = 2 ∧ ∀ times size, 2 ≤ size →
      walkResult setup device times (some size) item =
        { rc := 2, time := if times then some time else none, value } := by
  have nonpositive : device.result item ≤ 0 := by
    simp only [Device.result, List.getD_eq_getElem?_getD]
    cases found : device.faults[item]? with
    | none => exact Int.le_refl 0
    | some rc => exact errors rc (List.mem_of_getElem? found)
  simp only [Present, walkResult, itemResult] at present ⊢
  generalize (device.stack.load 0 setup.itemSize fun offset =>
    device.memory ((previousOffset setup)^[item + 1] setup.currentOffset + offset)) = data at present ⊢
  by_cases ok : device.result item = 0
  · rw [if_pos ok] at present
    split at present
    · exact absurd present (lt_irrefl 0)
    · next used =>
      refine ⟨ofBigEndian ((List.range timeSize).map data) * msecPerSec,
        (List.range 2).map fun index => data (timeSize + index), rfl, fun times size wide => ?_⟩
      simp only [if_pos ok, if_neg used, two, Nat.min_eq_right wide]
      rfl
  · rw [if_neg ok] at present
    exact absurd present (not_lt.mpr nonpositive)

/-- An item that is not there leaves its result only. -/
private theorem walkResult_missing (two : setup.config.valueSize = 2) {item : ℕ} (missing : ¬ Present setup device item) :
    ∃ rc ≤ 0, ∀ times value, walkResult setup device times value item = { rc } := by
  simp only [Present, walkResult, itemResult] at missing
  simp only [walkResult, itemResult]
  by_cases ok : device.result item = 0
  · simp only [ok, if_true] at missing ⊢
    split at missing
    · next erased => exact ⟨0, le_refl 0, fun _ _ => by rw [if_pos erased]⟩
    · simp [two] at missing
  · simp only [ok, if_false] at missing ⊢
    exact ⟨_, not_lt.mp missing, fun _ _ => rfl⟩

/-- The code of an item. -/
def codeAt (setup : StorageSetup) (device : Device) (item : ℕ) : ℕ :=
  ofBigEndian (walkResult setup device true (some 2) item).value

/-- The time of an item. -/
def timeAt (setup : StorageSetup) (device : Device) (item : ℕ) : ℕ :=
  ((walkResult setup device true (some 2) item).time).getD 0

/-- One turn of the loop at an item that is there. -/
structure TurnsAt (setup : StorageSetup) (device : Device) (items : IntItems) (item : ℕ) (after : IntItems) : Prop where
  read : after.read = items.read
  code : ofBigEndian after.data = codeAt setup device item
  data : after.data.length = 2
  codes : after.codes = items.codes
  times : after.times = storeEntry items.times items.read (some (timeAt setup device item))

private theorem turn_present (two : setup.config.valueSize = 2) (errors : ∀ rc ∈ device.faults, rc ≤ 0) {item : ℕ}
    (present : Present setup device item) (items : IntItems) (data : items.data.length = 2) (inside : items.read < count)
    (index fuel : ℕ) :
    ∃ after, TurnsAt setup device items item after ∧
      readInts setup count (fuel + 1) ((previousOffset setup)^[item] setup.currentOffset) index items
          (device.skip item) =
        readInts setup count fuel ((previousOffset setup)^[item + 1] setup.currentOffset) (index - 1)
          (if 0 < index then after else after.next) (device.skip (item + 1)) := by
  obtain ⟨time, value, length, same⟩ := walkResult_present two errors present
  have whole : value ++ items.data.drop value.length = value := by
    rw [length, ← data, List.drop_length, List.append_nil]
  refine ⟨items.after (walkResult setup device items.times.isSome (some 2) item), ?_, ?_⟩
  · rw [same _ 2 (Nat.le_refl 2)]
    refine ⟨rfl, ?_, (congrArg List.length whole).trans length, rfl, ?_⟩
    · simp only [IntItems.after, whole, codeAt, same true 2 (Nat.le_refl 2)]
    · simp only [IntItems.after, timeAt, same true 2 (Nat.le_refl 2), if_true, Option.getD_some]
      cases items.times with
      | none => rfl
      | some times => rfl
  · have positive : ¬ (walkResult setup device items.times.isSome (some 2) item).rc ≤ 0 := by
      simp [same _ 2 (Nat.le_refl 2)]
    simp only [readInts, if_pos inside, run_bind, readItem_walk]
    rw [if_neg positive]
    split
    · rfl
    · next last => rw [show index - 1 = index by omega]

private theorem turn_missing (two : setup.config.valueSize = 2) {item : ℕ} (missing : ¬ Present setup device item)
    (items : IntItems) (inside : items.read < count) (index fuel : ℕ) :
    (readInts setup count (fuel + 1) ((previousOffset setup)^[item] setup.currentOffset) index items
      (device.skip item)).1 = { items with rc := (walkResult setup device true (some 2) item).rc } := by
  obtain ⟨rc, nonpositive, same⟩ := walkResult_missing two missing
  have ends : (walkResult setup device items.times.isSome (some 2) item).rc ≤ 0 := by
    rw [same]
    exact nonpositive
  simp only [readInts, if_pos inside, run_bind, readItem_walk]
  rw [if_pos ends, same, same]
  rfl

/-- What the loop leaves that fills the entries of the arrays from the first open one. -/
structure FilledTo (setup : StorageSetup) (device : Device) (index count : ℕ) (items : IntItems) (bound : ℕ)
    (result : IntItems) : Prop where
  lower : items.read ≤ bound
  upper : bound ≤ count
  present : ∀ entry, items.read ≤ entry → entry < bound → Present setup device (index + entry)
  stop : bound < count → ¬ Present setup device (index + bound)
  read : result.read = bound
  codes : result.codes = fillEntries items.codes (fun entry => codeAt setup device (index + entry)) items.read bound
  times : result.times = fillEntries items.times (fun entry => timeAt setup device (index + entry)) items.read bound
  rc : bound = items.read → bound < count → result.rc = (walkResult setup device true (some 2) (index + bound)).rc

/-- The turns that fill entries, by induction on the turns that are left. -/
private theorem readInts_fill (two : setup.config.valueSize = 2) (errors : ∀ rc ∈ device.faults, rc ≤ 0)
    (index count : ℕ) (fuel : ℕ) : ∀ items : IntItems, items.read ≤ count → count - items.read ≤ fuel →
    items.data.length = 2 →
    ∃ bound, FilledTo setup device index count items bound
      (readInts setup count fuel ((previousOffset setup)^[index + items.read] setup.currentOffset) 0 items
        (device.skip (index + items.read))).1 := by
  have done (items : IntItems) (full : items.read = count) :
      FilledTo setup device index count items items.read items :=
    ⟨Nat.le_refl _, full.le, fun entry lower upper => by omega, fun inside => by omega, rfl,
      (fillEntries_none ..).symm, (fillEntries_none ..).symm, fun _ inside => by omega⟩
  induction fuel with
  | zero =>
    intro items small enough _
    exact ⟨items.read, done items (by omega)⟩
  | succ fuel ih =>
    intro items small enough data
    by_cases inside : items.read < count
    · by_cases present : Present setup device (index + items.read)
      · obtain ⟨after, turn, run⟩ := turn_present two errors present items data inside 0 fuel
        rw [run]
        have next : after.next.read = items.read + 1 := congrArg (· + 1) turn.read
        have code : after.next.codes =
            storeEntry items.codes items.read (some (codeAt setup device (index + items.read))) := by
          simp only [IntItems.next, turn.codes, turn.read, turn.code]
        have time : after.next.times =
            storeEntry items.times items.read (some (timeAt setup device (index + items.read))) := turn.times
        obtain ⟨bound, filled⟩ := ih after.next (by omega) (by omega) turn.data
        have behind : items.read < bound := by
          have := filled.lower
          omega
        rw [next] at filled
        refine ⟨bound, behind.le, filled.upper, ?_, filled.stop, filled.read, ?_, ?_, fun first => by omega⟩
        · intro entry lower upper
          by_cases here : entry = items.read
          · exact here ▸ present
          · exact filled.present entry (by omega) upper
        · refine filled.codes.trans ?_
          rw [code, next]
          exact fillEntries_store behind
        · refine filled.times.trans ?_
          rw [time, next]
          exact fillEntries_store behind
      · rw [turn_missing two present items inside]
        exact ⟨items.read, Nat.le_refl _, inside.le, fun entry lower upper => by omega, fun _ => present, rfl,
          (fillEntries_none ..).symm, (fillEntries_none ..).symm, fun _ _ => rfl⟩
    · simp only [readInts, if_neg inside]
      exact ⟨items.read, done items (by omega)⟩

/-- What skipping leaves: entries of the arrays are not filled, but the time of the item is written to the first
one. -/
structure Skipped (items : IntItems) (result : IntItems) : Prop where
  read : result.read = 0
  codes : result.codes = items.codes
  times : ∃ leaked, result.times = storeEntry items.times 0 leaked

theorem TurnsAt.skipped {items after : IntItems} {item : ℕ} (turn : TurnsAt setup device items item after)
    (start : items.read = 0) : Skipped items after :=
  ⟨turn.read.trans start, turn.codes, _, start ▸ turn.times⟩

theorem Skipped.trans {items middle result : IntItems} (first : Skipped items middle) (second : Skipped middle result) :
    Skipped items result := by
  obtain ⟨_, firstTimes⟩ := first.times
  obtain ⟨_, secondTimes⟩ := second.times
  refine ⟨second.read, second.codes.trans first.codes, ?_⟩
  rw [secondTimes, firstTimes, storeEntry_again]
  exact ⟨_, rfl⟩

/-- The turns that skip items: they end at the first item that is not there, or go on with the entries. -/
private theorem readInts_skip (two : setup.config.valueSize = 2) (errors : ∀ rc ∈ device.faults, rc ≤ 0) (fuel : ℕ)
    (index : ℕ) : ∀ (item : ℕ) (items : IntItems), items.read = 0 → 0 < count → items.data.length = 2 →
    (∃ after, Skipped items after ∧ after.data.length = 2 ∧ (index = 0 → after = items) ∧
      (∀ earlier, item ≤ earlier → earlier < item + index → Present setup device earlier) ∧
      readInts setup count (index + fuel) ((previousOffset setup)^[item] setup.currentOffset) index items
          (device.skip item) =
        readInts setup count fuel ((previousOffset setup)^[item + index] setup.currentOffset) 0 after
          (device.skip (item + index))) ∨
    ∃ stop result, item ≤ stop ∧ stop < item + index ∧
      (∀ earlier, item ≤ earlier → earlier < stop → Present setup device earlier) ∧ ¬ Present setup device stop ∧
      (readInts setup count (index + fuel) ((previousOffset setup)^[item] setup.currentOffset) index items
        (device.skip item)).1 = result ∧
      Skipped items result ∧ result.rc = (walkResult setup device false none stop).rc := by
  induction index with
  | zero =>
    intro item items start _ data
    refine .inl ⟨items, ⟨start, rfl, none, rfl⟩, data, fun _ => rfl, fun earlier lower upper => by omega, ?_⟩
    rw [Nat.zero_add, Nat.add_zero]
  | succ index ih =>
    intro item items start positive data
    have inside : items.read < count := by omega
    rw [show index + 1 + fuel = index + fuel + 1 by omega]
    by_cases present : Present setup device item
    · obtain ⟨first, turn, run⟩ := turn_present two errors present items data inside (index + 1) (index + fuel)
      rw [if_pos (Nat.succ_pos index), Nat.add_sub_cancel] at run
      have skipped := turn.skipped start
      rw [run]
      rcases ih (item + 1) first skipped.read positive turn.data with
        ⟨after, rest, length, _, run, goes⟩ | ⟨stop, result, lower, upper, run, missing, ends, rest, rc⟩
      · refine .inl ⟨after, skipped.trans rest, length, by omega, ?_, ?_⟩
        · intro earlier lower upper
          by_cases here : earlier = item
          · exact here ▸ present
          · exact run earlier (by omega) (by omega)
        · rw [goes, Nat.add_right_comm item 1 index, Nat.add_assoc item index 1]
      · refine .inr ⟨stop, result, by omega, by omega, ?_, missing, ends, skipped.trans rest, rc⟩
        intro earlier lower upper
        by_cases here : earlier = item
        · exact here ▸ present
        · exact run earlier (by omega) upper
    · refine .inr ⟨item, _, Nat.le_refl _, by omega, fun earlier lower upper => by omega, present,
        turn_missing two present items inside (index + 1) (index + fuel), ⟨start, rfl, none, rfl⟩, ?_⟩
      obtain ⟨rc, _, same⟩ := walkResult_missing two present
      rw [same, same]

section Delivered

variable {setups : List StorageSetup} {id : Int} {index size : ℕ}

private theorem delivered_unknown (unknown : applStorageSetup setups id = none) (entry : ℕ) :
    delivered setups id index size device entry = { rc := einval } := by
  simp only [delivered, readBytesItem, unknown]
  rfl

private theorem delivered_item (known : applStorageSetup setups id = some setup) {entry : ℕ}
    (present : ∀ earlier < index + entry, Present setup device earlier) :
    delivered setups id index size device entry = walkResult setup device true (some size) (index + entry) := by
  simp only [delivered, readBytesItem, known]
  have walk := @readIndex_walk setup device true (some size) (index + entry) 0
    fun earlier _ upper => present earlier (by omega)
  rw [Nat.zero_add] at walk
  exact walk

private theorem delivered_stopped (known : applStorageSetup setups id = some setup) {entry stop : ℕ}
    (present : ∀ earlier < stop, Present setup device earlier) (inside : stop < index + entry)
    (missing : ¬ Present setup device stop) :
    delivered setups id index size device entry = { rc := (walkResult setup device false none stop).rc } := by
  simp only [delivered, readBytesItem, known]
  exact readIndex_stopped true (some size) (index + entry) 0 stop (fun earlier _ upper => present earlier upper)
    (Nat.zero_le _) (by omega) missing

/-- The entries for which something is delivered, counted over a walk that goes through the skipped items. -/
private theorem deliveredCount_eq (known : applStorageSetup setups id = some setup) (two : setup.config.valueSize = 2)
    (errors : ∀ rc ∈ device.faults, rc ≤ 0) (wide : 2 ≤ size) {bound : ℕ} (small : bound ≤ count)
    (present : ∀ item < index + bound, Present setup device item)
    (stop : bound < count → ¬ Present setup device (index + bound)) :
    deliveredCount setups id index size count device = bound := by
  apply takeWhile_range_length small
  · intro entry inside
    rw [delivered_item known fun earlier order => present earlier (by omega)]
    obtain ⟨_, _, _, same⟩ := walkResult_present two errors (present (index + entry) (by omega))
    simp [same true size wide]
  · intro inside
    rw [delivered_item known present]
    obtain ⟨rc, nonpositive, same⟩ := walkResult_missing two (stop inside)
    simpa [same] using nonpositive

/-- Without a first item nothing is delivered. -/
private theorem deliveredCount_zero (none : (delivered setups id index size device 0).rc ≤ 0) :
    deliveredCount setups id index size count device = 0 := by
  apply takeWhile_range_length (Nat.zero_le _)
  · intro entry inside
    contradiction
  · intro _
    simpa using none

/-- What the loop variables say about the entries that are delivered one by one. -/
structure PathsAgree (setups : List StorageSetup) (id : Int) (index size count : ℕ) (device : Device)
    (times codes : Option Entries) (items : IntItems) (read : ℕ) : Prop where
  rc : items.rc =
    (if 0 < read then (read : Int).bmod 4294967296
    else if count = 0 then einval else (delivered setups id index size device 0).rc)
  codes : EntriesFilled codes items.codes read
    (fun entry => some (ofBigEndian (delivered setups id index size device entry).value)) (fun _ => True)
  times : EntriesFilled times items.times read
    (fun entry => (delivered setups id index size device entry).time) (fun entry => 0 < entry ∨ index = 0)

/-- The loop variables in front of the loop. -/
def startItems (device : Device) (times codes : Option Entries) : IntItems :=
  { data := [device.stack 0, device.stack 1], times, codes }

variable {times codes : Option Entries}

private theorem readIntItems_known (known : applStorageSetup setups id = some setup) :
    (readIntItems setups id index times codes count device).1 =
      (let items := (readInts setup count (index + count) setup.currentOffset index
        (startItems device times codes) device).1
      if 0 < items.read then { items with rc := (items.read : Int).bmod 4294967296 } else items) := by
  simp only [readIntItems, run_bind, run_get, known]
  rfl

/-- Without entries the arrays are as before, but for the first entry of a skipped item. -/
private theorem storeEntry_filled {entries : Option Entries} {leaked : Option ℕ} {values : ℕ → Option ℕ} {kept : ℕ → Prop}
    (first : leaked = none ∨ ∀ entry, kept entry → 0 < entry) :
    EntriesFilled entries (storeEntry entries 0 leaked) 0 values kept := by
  have filled := @fillEntries_filled entries (fun _ => 0) 0 leaked values kept
    (fun entry inside => by contradiction) first
  rwa [fillEntries_none] at filled

private theorem pathsAgree_unknown (unknown : applStorageSetup setups id = none) :
    PathsAgree setups id index size count device times codes
      (readIntItems setups id index times codes count device).1 (deliveredCount setups id index size count device) := by
  have rcs (entry : ℕ) : delivered setups id index size device entry = { rc := einval } := delivered_unknown unknown entry
  have empty : deliveredCount setups id index size count device = 0 := deliveredCount_zero (by rw [rcs]; decide)
  have left : (readIntItems setups id index times codes count device).1 = startItems device times codes := by
    simp only [readIntItems, run_bind, run_get, unknown]
    rfl
  rw [empty, left]
  constructor
  · rw [rcs]
    simp [startItems]
  · exact @storeEntry_filled codes none _ _ (.inl rfl)
  · exact @storeEntry_filled times none _ _ (.inl rfl)

/-- When no entry is asked for, no read is done. -/
private theorem pathsAgree_empty (known : applStorageSetup setups id = some setup) :
    PathsAgree setups id index size 0 device times codes
      (readIntItems setups id index times codes 0 device).1 (deliveredCount setups id index size 0 device) := by
  have empty : deliveredCount setups id index size 0 device = 0 := rfl
  have left : (readIntItems setups id index times codes 0 device).1 = startItems device times codes := by
    rw [readIntItems_known known]
    cases index <;> rfl
  rw [empty, left]
  constructor
  · simp [startItems]
  · exact @storeEntry_filled codes none _ _ (.inl rfl)
  · exact @storeEntry_filled times none _ _ (.inl rfl)

section Walks

variable (known : applStorageSetup setups id = some setup) (two : setup.config.valueSize = 2)
  (errors : ∀ rc ∈ device.faults, rc ≤ 0) (wide : 2 ≤ size) (positive : 0 < count)
include known positive

/-- The walk ends at a skipped item, for both paths. -/
private theorem pathsAgree_stopped {stop : ℕ} (inside : stop < index)
    (present : ∀ earlier < stop, Present setup device earlier)
    (missing : ¬ Present setup device stop)
    (skipped : Skipped (startItems device times codes) (readInts setup count (index + count) setup.currentOffset index
      (startItems device times codes) device).1)
    (rc : (readInts setup count (index + count) setup.currentOffset index (startItems device times codes) device).1.rc =
      (walkResult setup device false none stop).rc) :
    PathsAgree setups id index size count device times codes
      (readIntItems setups id index times codes count device).1 (deliveredCount setups id index size count device) := by
  have atStop (entry : ℕ) : delivered setups id index size device entry =
      { rc := (walkResult setup device false none stop).rc } :=
    delivered_stopped known present (by omega) missing
  have empty : deliveredCount setups id index size count device = 0 :=
    deliveredCount_zero (by rw [atStop]; exact not_lt.mp missing)
  have skips : index ≠ 0 := by omega
  obtain ⟨leaked, timesEq⟩ := skipped.times
  rw [readIntItems_known known]
  dsimp only
  rw [if_neg (by rw [skipped.read]; exact lt_irrefl 0), empty]
  constructor
  · rw [atStop]
    simp [positive.ne', rc]
  · rw [skipped.codes]
    exact @storeEntry_filled codes none _ _ (.inl rfl)
  · rw [timesEq]
    exact storeEntry_filled (.inr fun entry keep => keep.resolve_right skips)

include two errors wide

/-- All skipped items are there, and the entries are filled. -/
private theorem pathsAgree_filled {after : IntItems} {bound : ℕ} (skipped : Skipped (startItems device times codes) after)
    (same : index = 0 → after = startItems device times codes)
    (present : ∀ earlier < index, Present setup device earlier)
    (filled : FilledTo setup device index count after bound (readInts setup count (index + count) setup.currentOffset
      index (startItems device times codes) device).1) :
    PathsAgree setups id index size count device times codes
      (readIntItems setups id index times codes count device).1 (deliveredCount setups id index size count device) := by
  have items_present : ∀ item < index + bound, Present setup device item := by
    intro item upper
    rcases Nat.lt_or_ge item index with early | late
    · exact present item early
    · obtain ⟨entry, rfl⟩ := Nat.exists_eq_add_of_le late
      exact filled.present entry (by rw [skipped.read]; omega) (by omega)
  have counted : deliveredCount setups id index size count device = bound :=
    deliveredCount_eq known two errors wide filled.upper items_present filled.stop
  have values (entry : ℕ) (inside : entry < bound) :
      codeAt setup device (index + entry) = ofBigEndian (delivered setups id index size device entry).value ∧
        some (timeAt setup device (index + entry)) = (delivered setups id index size device entry).time := by
    obtain ⟨time, value, _, same⟩ := walkResult_present two errors (items_present (index + entry) (by omega))
    rw [delivered_item known fun earlier upper => items_present earlier (by omega), codeAt, timeAt,
      same true 2 (Nat.le_refl 2), same true size wide]
    exact ⟨rfl, rfl⟩
  obtain ⟨leaked, timesEq, keeps⟩ : ∃ leaked, after.times = storeEntry times 0 leaked ∧
      (leaked = none ∨ ∀ entry, (0 < entry ∨ index = 0) → 0 < entry) := by
    by_cases first : index = 0
    · exact ⟨none, congrArg IntItems.times (same first), .inl rfl⟩
    · obtain ⟨leaked, timesEq⟩ := skipped.times
      exact ⟨leaked, timesEq, .inr fun entry keep => keep.resolve_right first⟩
  have filledCodes : EntriesFilled codes (fillEntries codes (fun entry => codeAt setup device (index + entry)) 0 bound)
      bound (fun entry => some (ofBigEndian (delivered setups id index size device entry).value)) (fun _ => True) :=
    @fillEntries_filled _ _ _ none _ _ (fun entry inside => congrArg some (values entry inside).1) (.inl rfl)
  have filledTimes := @fillEntries_filled times _ _ leaked _ _ (fun entry inside => (values entry inside).2) keeps
  have codesEq := filled.codes
  have filledTimesEq := filled.times
  rw [skipped.read, skipped.codes] at codesEq
  rw [skipped.read, timesEq] at filledTimesEq
  rw [readIntItems_known known, counted]
  dsimp only
  rw [filled.read]
  rcases Nat.eq_zero_or_pos bound with rfl | some_item
  · obtain ⟨rc, _, same⟩ := walkResult_missing two (filled.stop positive)
    rw [if_neg (lt_irrefl 0)]
    refine ⟨?_, codesEq ▸ filledCodes, filledTimesEq ▸ filledTimes⟩
    rw [if_neg (lt_irrefl 0), if_neg positive.ne', filled.rc skipped.read.symm positive,
      delivered_item known items_present, same, same]
  · rw [if_pos some_item]
    refine ⟨?_, codesEq ▸ filledCodes, filledTimesEq ▸ filledTimes⟩
    rw [if_pos some_item]

end Walks

end Delivered

/-- Both read paths agree. The entries that are delivered one by one are counted and filled in by the one walk,
and those behind them are not written, but for the first one when items are skipped and none follows; with no
entry the result is that of the first read, or that of an unknown section when no entry is asked for. -/
theorem read_paths_agree (setups : List StorageSetup) (id : Int) (index size count : ℕ) (device : Device)
    (times codes : Option Entries) (two : ∀ setup, applStorageSetup setups id = some setup → setup.config.valueSize = 2)
    (wide : 2 ≤ size) (errors : ∀ rc ∈ device.faults, rc ≤ 0) :
    let items := (readIntItems setups id index times codes count device).1
    let read := deliveredCount setups id index size count device
    items.rc =
        (if 0 < read then (read : Int).bmod 4294967296
        else if count = 0 then einval else (delivered setups id index size device 0).rc) ∧
      EntriesFilled codes items.codes read
        (fun entry => some (ofBigEndian (delivered setups id index size device entry).value)) (fun _ => True) ∧
      EntriesFilled times items.times read
        (fun entry => (delivered setups id index size device entry).time) (fun entry => 0 < entry ∨ index = 0) := by
  intro items read
  have agree : PathsAgree setups id index size count device times codes items read := by
    cases known : applStorageSetup setups id with
    | none => exact pathsAgree_unknown known
    | some setup =>
      have two := two setup known
      rcases Nat.eq_zero_or_pos count with rfl | positive
      · exact pathsAgree_empty known
      · rcases readInts_skip two errors count index 0 (startItems device times codes) rfl positive rfl with
          ⟨after, skipped, data, same, present, goes⟩ | ⟨stop, ended, _, inside, present, missing, rfl, skipped, rc⟩
        · obtain ⟨bound, filled⟩ := readInts_fill two errors index count count after (by rw [skipped.read]; omega)
            (by rw [skipped.read]; omega) data
          have run := congrArg Prod.fst goes
          rw [Nat.zero_add] at run
          rw [skipped.read, Nat.add_zero, ← run] at filled
          exact pathsAgree_filled known two errors wide positive skipped same
            (fun earlier upper => present earlier (Nat.zero_le _) (by omega)) filled
        · exact pathsAgree_stopped known positive (by omega)
            (fun earlier upper => present earlier (Nat.zero_le _) upper) missing skipped rc
  exact ⟨agree.rc, agree.codes, agree.times⟩

/-- The small section with three codes. -/
def threeCodes : Store := smallStore.writeAll [(1000, [0, 1]), (2000, [0, 2]), (3000, [0, 3])]

/-- Behind the newest of three codes there are two more. -/
theorem read_two_codes :
    deliveredCount [threeCodes.setup] 1 1 2 5 threeCodes.device = 2 ∧
      (readIntItems [threeCodes.setup] 1 1 none (some fun _ => 7) 5 threeCodes.device).1.rc = 2 ∧
      EntriesFilled (some fun _ => 7)
        (readIntItems [threeCodes.setup] 1 1 none (some fun _ => 7) 5 threeCodes.device).1.codes 2
        (fun entry => some (ofBigEndian (delivered [threeCodes.setup] 1 1 2 threeCodes.device entry).value))
        (fun _ => True) := by
  have counted : deliveredCount [threeCodes.setup] 1 1 2 5 threeCodes.device = 2 := by decide +kernel
  have two : ∀ setup, applStorageSetup [threeCodes.setup] 1 = some setup → setup.config.valueSize = 2 := by
    intro setup known
    have first : applStorageSetup [threeCodes.setup] 1 = some threeCodes.setup := by decide +kernel
    obtain rfl : threeCodes.setup = setup := Option.some_inj.mp (first.symm.trans known)
    decide +kernel
  have healthy : ∀ rc ∈ threeCodes.device.faults, rc ≤ 0 := by decide +kernel
  obtain ⟨rc, codes, _⟩ := read_paths_agree [threeCodes.setup] 1 1 2 5 threeCodes.device none (some fun _ => 7)
    two (Nat.le_refl 2) healthy
  rw [counted] at rc codes
  exact ⟨counted, rc, codes⟩

/-- The result for an unknown section is not the number of its items, and the time of a skipped item is written to
the array although no item follows. -/
theorem unknown_and_skipped :
    ((readIntItems [] 1 0 none none 1 zeroedFlash).1.rc = einval ∧ deliveredCount [] 1 0 2 1 zeroedFlash = 0) ∧
      (let store := smallStore.writeAll [(1000, [0, 1])]
      deliveredCount [store.setup] 1 1 2 1 store.device = 0 ∧
        ((readIntItems [store.setup] 1 1 (some fun _ => 7) none 1 store.device).1.times.map (· 0)) = some 1000) := by
  decide +kernel

end CoapsClient.ApplStorage
