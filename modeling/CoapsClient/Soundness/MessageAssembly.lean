import CoapsClient.Soundness.DeviceSection
import CoapsClient.Soundness.SensorSections

/-! # A message in its buffer

`coap_appl_client_prepare_post` puts the sections of a report one behind another. A line end is stored in front of each
section but that of the modem, and the section gets the rest of the buffer. What `snprintf` returns is added although
there was no room for it, so that the payload stays in the buffer exactly if each section fits in the room that it gets.
-/

namespace CoapsClient.CoapAppl

open Machine
open Environment (Config)
open ShCmd (Text)

variable {config : Config} {α : Type}

/-- A section: how much it appends for a room, and when it fits there. -/
structure Section where
  builder : Writer → Option (Writer × ℤ)
  length : ℕ → ℕ
  fits : ℕ → Prop
  builds : ∀ room, Builds room builder (length room) (fits room)

namespace Section

/-- The index behind the section, which is the old one where nothing is appended. -/
def behind (part : Section) (size index : ℕ) : ℕ :=
  if 0 < part.length (size - (index + 1)) then index + 1 + part.length (size - (index + 1)) else index

/-- The line end and the section fit behind an index. -/
def FitsAt (part : Section) (size index : ℕ) : Prop := index < size ∧ part.fits (size - (index + 1))

private theorem behind_le {part : Section} {size index : ℕ} (fits : part.FitsAt size index) :
    part.behind size index ≤ size := by
  have le := (part.builds _).le fits.2
  have inside := fits.1
  rw [behind]
  split <;> omega

end Section

/-- The sections fit one behind another. -/
def SectionsFit (size : ℕ) : ℕ → List Section → Prop
  | _, [] => True
  | index, first :: rest => first.FitsAt size index ∧ SectionsFit size (first.behind size index) rest

/-- How much is written about the environment. -/
def EnvSource.length (format : ℕ → α → Text) (room : ℕ) : EnvSource config α → ℕ
  | .sensor histories current => (envText format histories current).length
  | .modem answer => (temperatureText answer room).length

def EnvSource.Fits (format : ℕ → α → Text) (room : ℕ) : EnvSource config α → Prop
  | .sensor histories current => EnvFits format histories current room
  | .modem answer => TemperatureFits answer room

theorem EnvSource.builds (format : ℕ → α → Text) (source : EnvSource config α) (room : ℕ) :
    Builds room (source.prepare format) (source.length format room) (source.Fits format room) := by
  cases source with
  | sensor histories current => exact env_builds format histories current room
  | modem answer => exact temperature_builds answer room

section Reports

variable (format : ℕ → α → Text) (date : ℤ → Text) (report : Report config α) (flags : Flags)

def simSection : Section where
  builder := coapApplClientPrepareSimInfo report.sim flags
  length _ := (simText report.sim flags).length
  fits room := (simText report.sim flags).length ≤ room
  builds := simInfo_builds report.sim flags

def netSection : Section where
  builder := coapApplClientPrepareNetInfo format report.net flags
  length _ := (netText format report.net flags).length
  fits := NetFits format report.net flags
  builds := netInfo_builds report.net format flags

def statsSection : Section where
  builder := coapApplClientPrepareNetStats report.coverage report.statistic flags
  length room := (statsText report.coverage report.statistic flags room).length
  fits room := (statsText report.coverage report.statistic flags room).length ≤ room
  builds := netStats_builds report.coverage report.statistic flags

def locationSection (location : GnssTimes × Gnss α) : Section where
  builder := coapApplClientPrepareLocationInfo format location.1 location.2
  length _ := (locationText format location.2).length
  fits room := (locationText format location.2).length ≤ room
  builds := location_builds location.1 location.2 format

def envSection : Section where
  builder := report.environment.prepare format
  length room := report.environment.length format room
  fits room := report.environment.Fits format room
  builds := report.environment.builds format

def scaleSection (scale : Scale α) : Section where
  builder := scaleSampleDesc format date scale true
  length room := (scaleText format date scale room).length
  fits room := (scaleText format date scale room).length ≤ room
  builds := scale_builds format date scale

def measSection : Section where
  builder := modemGetLastNeighborCellMeas report.meas
  length room := (measText report.meas room).length
  fits room := 0 < room
  builds := meas_builds report.meas

/-- A section, if its flag is set. -/
def sectionIf (flag : Bool) (part : Section) : List Section := if flag then [part] else []

/-- The sections behind that of the modem. -/
def furtherSections : List Section :=
  sectionIf flags.simInfo (simSection report flags) ++
  (sectionIf flags.netInfo (netSection format report flags) ++
  (sectionIf flags.netStats (statsSection report flags) ++
  (report.location.toList.flatMap (fun location => sectionIf flags.locationInfo (locationSection format location)) ++
  (sectionIf flags.envInfo (envSection format report) ++
  (report.scale.toList.flatMap (fun scale => sectionIf flags.scaleInfo (scaleSection format date scale)) ++
  sectionIf flags.netScanInfo (measSection report))))))

/-- The index behind the section of the modem. -/
def modemEnd (trigger : Option Text) (size : ℕ) : ℕ :=
  if flags.modemInfo then (modemLines date report.device flags trigger size).length - 1 else 0

/-- Each section fits in the room that is left for it. -/
def MessageFits (trigger : Option Text) (size : ℕ) : Prop :=
  (flags.modemInfo → ModemFits date report.device flags trigger size) ∧
    SectionsFit size (modemEnd date report flags trigger size) (furtherSections format date report flags)

end Reports

/-- No section returned more than the length that it was given. -/
def Payload.Bounded (payload : Payload) : Prop := ∀ call ∈ payload.calls, call.2 ≤ call.1

/-- A message that was written in its buffer only, with sections and a payload that are not longer than their buffers. -/
def InBuffer (size : ℕ) (result : Option Payload) : Prop :=
  ∃ payload, result = some payload ∧ payload.Bounded ∧ payload.writer.index ≤ size

/-- A payload in which a section returned too much. -/
def Payload.Exceeded (payload : Payload) : Prop := ∃ call ∈ payload.calls, (call.1 : ℤ) < call.2

def addSection (payload : Payload) (part : Section) : Option Payload := payload.next part.builder

section Steps

variable {payload next : Payload} {size index room : ℕ} {result : ℤ} {part : Section}

theorem Payload.Bounded.add {writer : Writer} (bounded : payload.Bounded) (le : result ≤ room) :
    Payload.Bounded { writer, calls := payload.calls ++ [(room, result)] } := by
  intro call member
  rcases List.mem_append.mp member with old | new
  · exact bounded call old
  · obtain rfl := List.mem_singleton.mp new
    exact le

theorem Payload.Exceeded.not_bounded (exceeded : payload.Exceeded) : ¬ payload.Bounded := by
  obtain ⟨call, member, more⟩ := exceeded
  exact fun bounded => absurd (bounded call member) (Int.not_le.mpr more)

/-- A further section keeps the calls in front of it. -/
private theorem addSection_exceeded (exceeded : payload.Exceeded) (run : addSection payload part = some next) :
    next.Exceeded := by
  obtain ⟨call, member, more⟩ := exceeded
  obtain ⟨stored, _, run⟩ := Option.bind_eq_some_iff.mp run
  obtain ⟨called, _, run⟩ := Option.bind_eq_some_iff.mp run
  obtain rfl := Option.some_inj.mp run
  exact ⟨call, List.mem_append_left _ member, more⟩

private theorem sections_exceeded {sections : List Section} (exceeded : payload.Exceeded)
    (run : sections.foldlM addSection payload = some next) : next.Exceeded := by
  induction sections generalizing payload with
  | nil =>
    obtain rfl := Option.some_inj.mp run
    exact exceeded
  | cons first rest ih =>
    rw [List.foldlM_cons] at run
    obtain ⟨middle, run₁, run₂⟩ := Option.bind_eq_some_iff.mp run
    exact ih (addSection_exceeded exceeded run₁) run₂

/-- Behind the line end, the builder gets the room that is left. -/
private theorem store_inside (at' : payload.writer.At size ⟨0, index⟩) (inside : index < size) :
    ∃ stored, payload.writer.store '\n' = some stored ∧ stored.index = index ∧
      (stored.move (stored.index + 1)).At size ⟨0, index + 1⟩ ∧
      (stored.move (stored.index + 1)).room = size - (index + 1) := by
  have positive : ¬ payload.writer.index < 0 := by
    rw [at'.index]
    exact Int.not_lt.mpr (Int.natCast_nonneg _)
  have put' : put payload.writer.cells payload.writer.index.toNat '\n' =
      some (payload.writer.cells.set payload.writer.index.toNat '\n') := by
    refine put_eq ?_
    rw [at'.index, at'.length, Int.toNat_natCast]
    exact inside
  have run : payload.writer.store '\n' =
      some { payload.writer with cells := payload.writer.cells.set payload.writer.index.toNat '\n' } := by
    rw [Writer.store, if_neg positive, put']
    rfl
  refine ⟨_, run, at'.index, ⟨?_, at'.size, at'.start, ?_⟩, ?_⟩
  · simp [Writer.move, at'.length]
  · simp [Writer.move, at'.index]
  · simp only [Writer.room, Writer.move, at'.index, at'.size]
    split <;> omega

private theorem store_outside (at' : payload.writer.At size ⟨0, index⟩) (outside : ¬ index < size) :
    payload.writer.store '\n' = none := by
  rw [Writer.store]
  split
  · rfl
  · rw [put_eq_none, Option.map_none]
    rw [at'.index, at'.length, Int.toNat_natCast]
    exact Nat.le_of_not_lt outside

/-- What a section leaves that is called behind its line end. -/
private theorem addSection_called {stored called : Writer} (run : payload.writer.store '\n' = some stored)
    (run' : (stored.move (stored.index + 1)).call part.builder = some (called, result)) :
    addSection payload part = some {
      writer := called.move (if 0 < result then stored.index + 1 + result else stored.index)
      calls := payload.calls ++ [((stored.move (stored.index + 1)).room, result)] } := by
  rw [addSection, Payload.next, run, Option.bind_eq_bind, Option.bind_some]
  dsimp only
  rw [run']
  rfl

private theorem addSection_none {stored : Writer} (run : payload.writer.store '\n' = some stored)
    (none' : (stored.move (stored.index + 1)).call part.builder = none) : addSection payload part = none := by
  rw [addSection, Payload.next, run, Option.bind_eq_bind, Option.bind_some]
  dsimp only
  rw [none']
  rfl

/-- A section that fits moves the index behind it. -/
private theorem addSection_inside (at' : payload.writer.At size ⟨0, index⟩) (bounded : payload.Bounded)
    (fits : part.FitsAt size index) :
    ∃ next, addSection payload part = some next ∧ next.writer.At size ⟨0, part.behind size index⟩ ∧
      next.Bounded := by
  obtain ⟨stored, run, index', moved, room⟩ := store_inside at' fits.1
  obtain ⟨called, run', at₁⟩ := ((part.builds _).call moved fits.1).1 fits.2
  have le := (part.builds _).le fits.2
  refine ⟨_, addSection_called run run', ?_, ?_⟩
  · refine ⟨at₁.length, at₁.size, at₁.start, ?_⟩
    simp only [Writer.move, index', Section.behind, Int.natCast_pos]
    split
    · omega
    · rfl
  · refine bounded.add ?_
    rw [room]
    exact Int.ofNat_le.mpr le

/-- A section that does not fit is written outside of the buffer, or returns too much. -/
private theorem addSection_outside (at' : payload.writer.At size ⟨0, index⟩) (not' : ¬ part.FitsAt size index) :
    addSection payload part = none ∨ ∃ next, addSection payload part = some next ∧ next.Exceeded := by
  by_cases inside : index < size
  · obtain ⟨stored, run, index', moved, room⟩ := store_inside at' inside
    obtain none' | ⟨called, result, run', more, at₁⟩ :=
      ((part.builds _).call moved inside).2 fun fits => not' ⟨inside, fits⟩
    · exact .inl (addSection_none run none')
    · refine .inr ⟨_, addSection_called run run', ?_⟩
      refine ⟨_, List.mem_append_right _ (List.mem_singleton.mpr rfl), ?_⟩
      rw [room]
      dsimp only
      omega
  · refine .inl ?_
    rw [addSection, Payload.next, store_outside at' inside]
    rfl

/-- The sections stay in the buffer exactly if they fit one behind another. -/
private theorem sections_inBuffer_iff {sections : List Section} (at' : payload.writer.At size ⟨0, index⟩)
    (inside : index ≤ size)
    (bounded : payload.Bounded) :
    InBuffer size (sections.foldlM addSection payload) ↔ SectionsFit size index sections := by
  induction sections generalizing payload index with
  | nil => exact ⟨fun _ => trivial, fun _ => ⟨payload, rfl, bounded, by rw [at'.index]; exact Int.ofNat_le.mpr inside⟩⟩
  | cons first rest ih =>
    rw [List.foldlM_cons, SectionsFit]
    by_cases fits : first.FitsAt size index
    · obtain ⟨next, run, at₁, bounded₁⟩ := addSection_inside at' bounded fits
      rw [run, Option.bind_eq_bind, Option.bind_some, ih at₁ (Section.behind_le fits) bounded₁]
      exact ⟨fun rest => ⟨fits, rest⟩, And.right⟩
    · refine ⟨?_, fun both => absurd both.1 fits⟩
      rintro ⟨last, run, bounded', -⟩
      obtain ⟨middle, run₁, run₂⟩ := Option.bind_eq_some_iff.mp run
      obtain none' | ⟨next, run', exceeded⟩ := addSection_outside at' fits
      · rw [none'] at run₁
        cases run₁
      · obtain rfl := Option.some_inj.mp (run₁.symm.trans run')
        exact absurd bounded' (sections_exceeded exceeded run₂).not_bounded

end Steps

section Messages

variable (format : ℕ → α → Text) (date : ℤ → Text) (report : Report config α) (flags : Flags) (trigger : Option Text)
variable {payload : Payload}

private theorem nextIf_eq (flag : Bool) (part : Section) :
    payload.nextIf flag part.builder = (sectionIf flag part).foldlM addSection payload := by
  cases flag with
  | false => rfl
  | true =>
    rw [Payload.nextIf, if_pos rfl, sectionIf, if_pos rfl, List.foldlM_cons]
    exact (bind_pure (payload.next part.builder)).symm

private theorem nextOf_eq {β : Type} (source : Option β) (flag : Bool) (part : β → Section) :
    payload.nextOf source flag (fun source => (part source).builder) =
      (source.toList.flatMap fun source => sectionIf flag (part source)).foldlM addSection payload := by
  cases source with
  | none => rfl
  | some source =>
    rw [Payload.nextOf, Option.toList_some, List.flatMap_singleton]
    exact nextIf_eq flag (part source)

private theorem prepareSections_eq : prepareSections format date report flags trigger payload =
    (payload.firstIf flags.modemInfo (coapApplClientPrepareModemInfo date report.device flags trigger)).bind
      ((furtherSections format date report flags).foldlM addSection) := by
  have sim := fun payload : Payload => @nextIf_eq payload flags.simInfo (simSection report flags)
  have net := fun payload : Payload => @nextIf_eq payload flags.netInfo (netSection format report flags)
  have stats := fun payload : Payload => @nextIf_eq payload flags.netStats (statsSection report flags)
  have location := fun payload : Payload => @nextOf_eq payload _ report.location flags.locationInfo (locationSection format)
  have env := fun payload : Payload => @nextIf_eq payload flags.envInfo (envSection format report)
  have scale := fun payload : Payload => @nextOf_eq payload _ report.scale flags.scaleInfo (scaleSection format date)
  have meas := fun payload : Payload => @nextIf_eq payload flags.netScanInfo (measSection report)
  simp only [simSection, netSection, statsSection] at sim net stats
  simp only [locationSection, envSection, scaleSection, measSection] at location env scale meas
  simp only [prepareSections, sim, net, stats, location, env, scale, meas, furtherSections, List.foldlM_append]
  rfl

variable {size : ℕ} {writer : Writer}

private theorem writer_room (at' : writer.At size (.of 0 [])) : writer.room = size := at'.room (Nat.zero_le _)

/-- The section of the modem, which is the first one. -/
private theorem modemSection_inside (at' : writer.At size ⟨0, 0⟩)
    (fits : flags.modemInfo → ModemFits date report.device flags trigger size) :
    ∃ next, Payload.firstIf flags.modemInfo (coapApplClientPrepareModemInfo date report.device flags trigger) { writer } =
        some next ∧ next.writer.At size ⟨0, modemEnd date report flags trigger size⟩ ∧ next.Bounded ∧
      modemEnd date report flags trigger size ≤ size := by
  unfold Payload.firstIf modemEnd
  split
  · next shown =>
    have builds := modemInfo_builds date report.device flags trigger size
    have whole : Builds (size - 0) _ _ _ := builds
    obtain ⟨called, run, at₁⟩ := (Builds.call whole at' (Nat.zero_le _)).1 (fits shown)
    have room : writer.room = size := writer_room at'
    refine ⟨_, by rw [Payload.first, run]; rfl, ?_, ?_, builds.le (fits shown)⟩
    · refine ⟨?_, ?_, ?_, ?_⟩
      · split <;> exact at₁.length
      · split <;> exact at₁.size
      · split <;> exact at₁.start
      · have index := at₁.index
        dsimp only at index ⊢
        split
        · rfl
        · omega
    · refine Payload.Bounded.add (fun _ => nofun) ?_
      rw [room]
      exact Int.ofNat_le.mpr (builds.le (fits shown))
  · exact ⟨{ writer }, rfl, at', fun _ => nofun, Nat.zero_le _⟩

private theorem modemSection_outside (at' : writer.At size ⟨0, 0⟩) (shown : flags.modemInfo)
    (not' : ¬ ModemFits date report.device flags trigger size) :
    Payload.firstIf flags.modemInfo (coapApplClientPrepareModemInfo date report.device flags trigger) { writer } = none ∨
      ∃ next, Payload.firstIf flags.modemInfo (coapApplClientPrepareModemInfo date report.device flags trigger) { writer } =
        some next ∧ next.Exceeded := by
  have whole : Builds (size - 0) _ _ _ := modemInfo_builds date report.device flags trigger size
  have room : writer.room = size := writer_room at'
  rw [Payload.firstIf, if_pos shown, Payload.first]
  obtain none' | ⟨called, result, run, more, -⟩ := (Builds.call whole at' (Nat.zero_le _)).2 not'
  · refine .inl ?_
    rw [none']
    rfl
  · refine .inr ⟨_, by rw [run]; rfl, ?_⟩
    refine ⟨(writer.room, result), List.mem_singleton.mpr rfl, ?_⟩
    rw [room]
    dsimp only
    omega

/-- The sections of a report stay in the buffer exactly if each fits in the room that is left for it. -/
private theorem prepareSections_inBuffer_iff (at' : writer.At size ⟨0, 0⟩) :
    InBuffer size (prepareSections format date report flags trigger { writer }) ↔
      MessageFits format date report flags trigger size := by
  rw [prepareSections_eq]
  by_cases fits : flags.modemInfo → ModemFits date report.device flags trigger size
  · obtain ⟨next, run, at₁, bounded, inside⟩ := modemSection_inside date report flags trigger at' fits
    rw [run, Option.bind_some, sections_inBuffer_iff at₁ inside bounded, MessageFits]
    exact ⟨fun rest => ⟨fits, rest⟩, And.right⟩
  · refine ⟨?_, fun both => absurd both.1 fits⟩
    rintro ⟨last, run, bounded, -⟩
    obtain ⟨shown, not'⟩ := Classical.not_imp.mp fits
    obtain ⟨middle, run₁, run₂⟩ := Option.bind_eq_some_iff.mp run
    obtain none' | ⟨next, run', exceeded⟩ := modemSection_outside date report flags trigger at' shown not'
    · rw [none'] at run₁
      cases run₁
    · obtain rfl := Option.some_inj.mp (run₁.symm.trans run')
      exact absurd bounded (sections_exceeded exceeded run₂).not_bounded

/-- A message stays in its buffer exactly if it has its payload already, or each section fits in the room that is left for
it behind the sections in front of it. -/
theorem message_assembly (cells : Text) :
    InBuffer cells.length (preparePayload format date report flags trigger (.new cells)) ↔
      flags.setPayload ∨ MessageFits format date report flags trigger cells.length := by
  have at' : (Writer.new cells).At cells.length ⟨0, 0⟩ := ⟨rfl, rfl, rfl, rfl⟩
  unfold preparePayload
  split
  · next given => exact ⟨fun _ => .inl given, fun _ => ⟨_, rfl, fun _ => nofun, Int.le_refl _⟩⟩
  · next given =>
    rw [prepareSections_inBuffer_iff format date report flags trigger at']
    exact ⟨.inr, fun either => either.resolve_left given⟩

/-- The line of a card has 13 characters: there is room for three of them, but all are counted. -/
theorem message_assembly_overflows :
    ¬ ∀ (config : Config) (α : Type) (format : ℕ → α → Text) (date : ℤ → Text) (report : Report config α) (flags : Flags)
      (trigger : Option Text) (cells : Text), cells ≠ [] →
        InBuffer cells.length (preparePayload format date report flags trigger (.new cells)) := by
  intro claim
  let config : Config := ⟨0, by decide, 0, false⟩
  obtain ⟨payload, run, bounded, -⟩ := claim config ℕ (fun _ _ => []) (fun _ => [])
    { sim := { valid := true, imsi := "1234567".toList } } { minimal := true, simInfo := true } none
    (List.replicate 4 ' ') (by decide)
  have calls : payload.calls = [(3, 13)] := by
    obtain rfl := Option.some_inj.mp run
    rfl
  exact absurd (bounded (3, 13) (by rw [calls]; exact List.mem_singleton.mpr rfl)) (by decide)

end Messages

end CoapsClient.CoapAppl
