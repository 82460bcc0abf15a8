import CoapsClient.Soundness.ReportDescriptions

/-! # The length of the network sections

The sections of the SIM card, the network and the statistics as texts. A line of the network that is empty is taken back,
but its line end needs room.
-/

namespace CoapsClient.CoapAppl

open Machine
open ShCmd (Text)
open Modem (LteCeInfo invalidSignalValue)

variable {α : Type}

def cardText (sim : SimInfo) (flags : Flags) : Text :=
  if flags.complete then
    "ICCID: ".toList ++ sim.iccid ++ ", eDRX cycle: ".toList ++
      (if sim.edrxCycleSupport then "on".toList else "off".toList) ++ (hpplmnText sim ++ ['\n'])
  else []

/-- The section of a card that is valid. -/
def simText (sim : SimInfo) (flags : Flags) : Text :=
  if sim.valid then
    cardText sim flags ++ (imsiText sim ++
      if sim.forbidden ≠ [] then ['\n'] ++ ("Forbidden: ".toList ++ sim.forbidden) else [])
  else []

private theorem printSim_prints (sim : SimInfo) (flags : Flags) : Prints (printSim sim flags) (simText sim flags) :=
  .when (.bind (.when (.bind .print (.bind .print .append))) (.bind .print (.when (.bind .append .print))))

theorem simInfo_builds (sim : SimInfo) (flags : Flags) (room : ℕ) :
    Builds room (coapApplClientPrepareSimInfo sim flags) (simText sim flags).length ((simText sim flags).length ≤ room) :=
  ((printSim_prints sim flags).grows room 0 []).builds fun _ => rfl

/-- A text with a line end behind it, if there is one. -/
def separated (front : Text) : Text := front ++ if front = [] then [] else ['\n']

theorem separated_of_ne_nil {front : Text} (some' : front ≠ []) : separated front = front ++ ['\n'] := by
  rw [separated, if_neg some']

theorem separate_eq (writer : Writer) : separate writer = (if writer.index ≠ 0 then writer.append '\n' else some writer).map
    Writer.mark := by
  unfold separate
  split
  · cases writer.append '\n' <;> rfl
  · rfl

theorem separate_grows {size start : ℕ} {front : Text} :
    Grows size separate (.of start front) (.of (separated front).length (separated front)) := by
  have grows : Grows size (fun writer => if writer.index ≠ 0 then writer.append '\n' else some writer) (.of start front)
      (.of start (front ++ if front ≠ [] then ['\n'] else [])) := by
    refine Grows.test .append fun writer at' _ => ?_
    rw [at'.index]
    simp [Place.of]
  have same : front ++ (if front ≠ [] then ['\n'] else []) = separated front := by
    by_cases empty : front = []
    · simp [separated, empty]
    · simp [separated, empty]
  rw [same] at grows
  rw [funext separate_eq]
  exact grows.mark

/-- Behind the end of the buffer there is no room for a line end. -/
theorem separate_none {writer : Writer} {size : ℕ} (lost : writer.Lost) (length : writer.cells.length = size)
    (size' : writer.size = size) : separate writer = none := by
  have behind := lost.behind
  have open' := lost.open'
  rw [separate_eq, if_pos (by omega), Writer.append_eq_none behind, Option.map_none]

/-- At the end of the buffer there is no room for a line end. -/
theorem separate_full {writer : Writer} {size start : ℕ} {front : Text} (at' : writer.At size (.of start front))
    (some' : front ≠ []) (full : size ≤ front.length) :
    separate writer = none := by
  have positive := List.length_pos_of_ne_nil some'
  have index : writer.index = front.length := at'.index
  have behind : (writer.cells.length : ℤ) ≤ writer.index := by
    rw [at'.length, index]
    omega
  rw [separate_eq, if_pos (by omega), Writer.append_eq_none behind, Option.map_none]

/-- The cell, and what is in front of it. -/
def networkText (network : NetworkInfo) (flags : Flags) : Text :=
  (if flags.minimal then "Net".toList else "Network".toList) ++ ": ".toList ++ modemGetNetworkModeDescription network.mode ++
    ((if ¬ flags.minimal then [','] ++ modemGetRegistrationShortDescription network.status else []) ++
      if network.registered = .on then
        ",Band ".toList ++ unsigned network.band ++
          ((if network.plmnLock = .on then ",#PLMN ".toList else ",PLMN ".toList) ++ network.provider ++
            ((if ¬ flags.minimal then ",TAC ".toList ++ unsigned network.tac else []) ++
              (",Cell ".toList ++ unsigned network.cell ++ (",EARFCN ".toList ++ unsigned network.earfcn))))
      else [])

private theorem printNetwork_prints (network : NetworkInfo) (flags : Flags) :
    Prints (printNetwork network flags) (networkText network flags) :=
  .bind .print (.bind (printIf_prints _ _) (.when (.bind .print (.bind .print (.bind (printIf_prints _ _)
    (.bind .print .print))))))

private theorem networkText_ne_nil (network : NetworkInfo) (flags : Flags) : networkText network flags ≠ [] := by
  refine List.append_ne_nil_of_left_ne_nil (List.append_ne_nil_of_left_ne_nil ?_ _) _
  exact List.append_ne_nil_of_right_ne_nil _ (by decide)

/-- The line of the packet network with its line end in front. -/
def pdnLine (net : Net α) : Text :=
  if net.network.registered = .on then
    ['\n'] ++ ((if pdnText net.readPdn ≠ [] then pdnText net.readPdn else []) ++
      if rateLimitText net.network ≠ [] then rateLimitText net.network else [])
  else []

def psmText (net : Net α) : Text :=
  match net.psm with
  | none => []
  | some psm =>
    if 0 ≤ psm.activeTime then
      "PSM: TAU ".toList ++ decimal psm.tau ++ " [s], Act ".toList ++ decimal psm.activeTime ++ " [s]".toList
    else
      "PSM: n.a.".toList ++
        if net.woicTimeout ≠ 0 then ", woic timeout ".toList ++ decimal net.woicTimeout ++ " [s]".toList
        else ", no woic.".toList

/-- Something behind a comma, if it is not the first. -/
def behindComma (front text : Text) : Text := (if front = [] then [] else ", ".toList) ++ text

def raiText (rai : Option Rai) (front : Text) : Text :=
  match rai with
  | none | some .unknown => []
  | some rai => behindComma front (modemGetRaiDescription rai)

def releaseText (releaseTime : ℤ) (front : Text) : Text :=
  if 0 ≤ releaseTime then behindComma front ("Released: ".toList ++ decimal releaseTime ++ " ms".toList) else []

/-- The line of the power saving. -/
def savingText (net : Net α) : Text :=
  psmText net ++ raiText net.rai (psmText net) ++ releaseText net.releaseTime (psmText net ++ raiText net.rai (psmText net))

/-- The network and the packet network. -/
def netFront (net : Net α) (flags : Flags) : Text :=
  networkText net.network flags ++ if flags.minimal then [] else pdnLine net

/-- The section of the network. -/
def netText (format : ℕ → α → Text) (net : Net α) (flags : Flags) : Text :=
  netFront net flags ++
    if flags.minimal then []
    else
      (if savingText net = [] then [] else ['\n'] ++ savingText net) ++
        match net.edrx with
        | none => []
        | some edrx => ['\n'] ++ edrxText format [] edrx

/-- The section fits; the line end of the power saving needs room also when nothing is behind it. -/
def NetFits (format : ℕ → α → Text) (net : Net α) (flags : Flags) (room : ℕ) : Prop :=
  (netText format net flags).length ≤ room ∧ (¬ flags.minimal → (netFront net flags).length < room)

section Nets

variable {size start : ℕ} {front line : Text} (net : Net α) (format : ℕ → α → Text)

private theorem printPdn_grows (some' : front ≠ []) :
    ∃ start', Grows size (printPdn net) (.of start front) (.of start' (front ++ pdnLine net)) := by
  unfold printPdn pdnLine
  by_cases on : net.network.registered = .on
  · have separates := @separate_grows size start front
    rw [separated_of_ne_nil some'] at separates
    have prints := Prints.bind (printIf_prints (pdnText net.readPdn ≠ []) (pdnText net.readPdn))
      (printIf_prints (rateLimitText net.network ≠ []) (rateLimitText net.network))
    simp only [on, ↓reduceIte]
    rw [← List.append_assoc]
    exact ⟨_, separates.bind (prints.grows size _ _)⟩
  · simp only [on, ↓reduceIte, List.append_nil]
    exact ⟨start, .skip⟩

private theorem printPsm_prints : Prints (printPsm net) (psmText net) := by
  unfold printPsm psmText
  cases net.psm with
  | none => exact .skip
  | some psm => exact .ite .print (.bind .print (.ite .print .print))

/-- A comma, if the line that starts behind a front is not empty. -/
theorem printComma_grows :
    Grows size printComma (.of front.length (front ++ line))
      (.of front.length (front ++ line ++ if line = [] then [] else ", ".toList)) := by
  have grows : Grows size printComma (.of front.length (front ++ line))
      (.of front.length (front ++ line ++ if line ≠ [] then ", ".toList else [])) := by
    refine Grows.test .print fun writer at' _ => ?_
    rw [at'.start, at'.index, Place.of, ← List.length_pos_iff, List.length_append]
    dsimp only
    omega
  by_cases empty : line = []
  · simpa [empty] using grows
  · simpa [empty] using grows

private theorem printRai_grows (rai : Option Rai) :
    Grows size (printRai rai) (.of front.length (front ++ line)) (.of front.length (front ++ line ++ raiText rai line)) := by
  have prints : ∀ text : Text, Grows size (fun writer => (printComma writer).bind fun writer => writer.print text)
      (.of front.length (front ++ line)) (.of front.length (front ++ line ++ behindComma line text)) := by
    intro text
    rw [behindComma, ← List.append_assoc]
    exact .bind printComma_grows .print
  cases rai with
  | none =>
    rw [raiText, List.append_nil]
    exact .skip
  | some rai =>
    cases rai with
    | unknown =>
      rw [raiText, List.append_nil]
      exact .skip
    | noRai => exact prints _
    | cpRai => exact prints _
    | asRai => exact prints _
    | asAndCpRai => exact prints _
    | other => exact prints _

private theorem printRelease_grows (releaseTime : ℤ) :
    Grows size (printRelease releaseTime) (.of front.length (front ++ line))
      (.of front.length (front ++ line ++ releaseText releaseTime line)) := by
  unfold printRelease releaseText
  by_cases known : 0 ≤ releaseTime
  · simp only [known, ↓reduceIte]
    rw [behindComma, ← List.append_assoc]
    exact .bind printComma_grows .print
  · simp only [known, ↓reduceIte, List.append_nil]
    exact .skip

/-- A step within a line keeps the start of the line. -/
def Stays (step : Writer → Option Writer) : Prop := ∀ writer next, step writer = some next → next.start = writer.start

theorem Stays.bind {step next : Writer → Option Writer} (first : Stays step) (second : Stays next) :
    Stays fun writer => (step writer).bind next := by
  intro writer last run
  obtain ⟨middle, run₁, run₂⟩ := Option.bind_eq_some_iff.mp run
  exact (second middle last run₂).trans (first writer middle run₁)

private theorem printComma_stays : Stays printComma := by
  intro writer next run
  unfold printComma printIf at run
  split at run
  · exact Prints.print.start writer next run
  · obtain rfl := Option.some_inj.mp run
    rfl

private theorem commaPrint_stays (text : Text) :
    Stays fun writer => (printComma writer).bind fun writer => writer.print text :=
  printComma_stays.bind Prints.print.start

private theorem printRai_stays (rai : Option Rai) : Stays (printRai rai) := by
  cases rai with
  | none => exact Prints.skip.start
  | some rai =>
    cases rai with
    | unknown => exact Prints.skip.start
    | noRai => exact commaPrint_stays _
    | cpRai => exact commaPrint_stays _
    | asRai => exact commaPrint_stays _
    | asAndCpRai => exact commaPrint_stays _
    | other => exact commaPrint_stays _

private theorem printRelease_stays (releaseTime : ℤ) : Stays (printRelease releaseTime) := by
  intro writer next run
  unfold printRelease at run
  split at run
  · exact commaPrint_stays _ writer next run
  · obtain rfl := Option.some_inj.mp run
    rfl

/-- What is written of the power saving behind its line end. -/
def printSavingLine (net : Net α) (writer : Writer) : Option Writer :=
  ((printPsm net writer).bind (printRai net.rai)).bind (printRelease net.releaseTime)

/-- An empty line is taken back with the line end in front of it. -/
def takeBack (writer : Writer) : Option Writer :=
  if writer.start < writer.index then some writer else some (writer.move (writer.start - 1))

private theorem printSaving_eq : printSaving net = fun writer => (separate writer).bind fun writer =>
    (printSavingLine net writer).bind takeBack := by
  funext writer
  simp only [printSavingLine, Option.bind_assoc]
  rfl

private theorem printSavingLine_grows : Grows size (printSavingLine net) (.of front.length front)
    (.of front.length (front ++ savingText net)) := by
  have psm := (printPsm_prints net).grows size front.length front
  have rai := @printRai_grows size front (psmText net) net.rai
  have release := @printRelease_grows size front (psmText net ++ raiText net.rai (psmText net)) net.releaseTime
  rw [← List.append_assoc] at release
  rw [savingText, ← List.append_assoc, ← List.append_assoc]
  exact (psm.bind rai).bind release

private theorem printSavingLine_stays : Stays (printSavingLine net) :=
  ((Stays.bind (printPsm_prints net).start (printRai_stays net.rai)).bind (printRelease_stays net.releaseTime))

/-- The line of the power saving; its line end needs room also when it is taken back. -/
private theorem printSaving_leads (some' : front ≠ []) :
    Leads size (printSaving net) (.of start front)
      ⟨front.length + 1, (front ++ if savingText net = [] then [] else ['\n'] ++ savingText net).length⟩
      (front.length < size ∧ (front ++ if savingText net = [] then [] else ['\n'] ++ savingText net).length ≤ size) := by
  have separates := @separate_grows size start front
  have line := @printSavingLine_grows α size (front ++ ['\n']) net
  have stays := printSavingLine_stays net
  rw [separated_of_ne_nil some'] at separates
  have length : (front ++ ['\n']).length = front.length + 1 := by simp
  rw [printSaving_eq]
  generalize savingText net = saving at line ⊢
  refine ⟨?_, ?_, fun _ fits => fits.2⟩
  · rintro writer at' room ⟨inside, short⟩
    obtain ⟨middle, run, at₁⟩ := separates.moves.inside writer at' room (length.trans_le inside)
    have fits : (front ++ ['\n'] ++ saving).length ≤ size := by
      by_cases empty : saving = []
      · rw [empty, List.append_nil]
        exact length.trans_le inside
      · rw [if_neg empty, ← List.append_assoc] at short
        exact short
    obtain ⟨last, run', at₂⟩ := line.moves.inside middle at₁ (length.trans_le inside) fits
    rw [run, Option.bind_some, run', Option.bind_some, takeBack, at₂.start, at₂.index]
    by_cases empty : saving = []
    · subst empty
      rw [if_neg (by simp [Place.of]), if_pos rfl, List.append_nil, List.append_nil]
      have before : ((Place.of (front ++ ['\n']).length (front ++ ['\n'])).start : ℤ) - 1 = front.length := by
        simp only [Place.of, length]
        omega
      rw [before]
      exact ⟨_, rfl, at₂.length, at₂.size, by rw [← length]; exact at₂.start, rfl⟩
    · have positive := List.length_pos_of_ne_nil empty
      have ahead : ((Place.of (front ++ ['\n']).length (front ++ ['\n'] ++ saving)).start : ℤ) <
          (Place.of (front ++ ['\n']).length (front ++ ['\n'] ++ saving)).index := by
        simp only [Place.of, List.length_append] at positive ⊢
        omega
      rw [if_pos ahead, if_neg empty, ← List.append_assoc, ← length]
      exact ⟨last, rfl, at₂⟩
  · intro writer at' room not' last run
    obtain ⟨middle, run₁, run₂⟩ := Option.bind_eq_some_iff.mp run
    obtain ⟨ended, run₃, run₄⟩ := Option.bind_eq_some_iff.mp run₂
    by_cases inside : front.length < size
    · obtain ⟨_, same, at₁⟩ := separates.moves.inside writer at' room (length.trans_le inside)
      obtain rfl := Option.some_inj.mp (run₁.symm.trans same)
      have empty : saving ≠ [] := by
        rintro rfl
        rw [if_pos rfl, List.append_nil] at not'
        exact not' ⟨inside, room⟩
      rw [if_neg empty, ← List.append_assoc] at not'
      obtain ⟨lost, cells, size'⟩ := line.moves.outside middle at₁ (length.trans_le inside) (fun fits => not' ⟨inside, fits⟩)
        ended run₃
      rw [at₁.length] at cells
      rw [at₁.size] at size'
      have start' := stays middle ended run₃
      rw [at₁.start, Place.of, length] at start'
      have open' := lost.open'
      have ahead : ended.start < ended.index := by
        rw [start']
        dsimp only
        omega
      rw [takeBack, if_pos ahead] at run₄
      obtain rfl := Option.some_inj.mp run₄
      exact ⟨lost, cells.trans at'.length.symm, size'.trans at'.size.symm⟩
    · rw [separate_full at' some' (by omega)] at run₁
      cases run₁

private theorem printSaving_strays : Strays size (printSaving net) := by
  intro writer lost length size'
  rw [printSaving_eq]
  dsimp only
  rw [separate_none lost length size', Option.bind_none]
  exact Writer.outside_none

def edrxLine (edrx : Option (Edrx α)) : Text :=
  match edrx with
  | none => []
  | some edrx => ['\n'] ++ edrxText format [] edrx

private theorem modemPrintEdrx_prints (edrx : Edrx α) :
    Prints (fun writer => writer.advance (modemPrintEdrx format [] edrx)) (edrxText format [] edrx) :=
  .advance (fun room => (Prints.print.grows room 0 []).builds fun _ => rfl)
    ((Prints.print.grows 0 0 []).advances fun _ => rfl)

private theorem printEdrx_grows (edrx : Option (Edrx α)) (some' : front ≠ []) :
    ∃ start', Grows size (printEdrx format edrx) (.of start front) (.of start' (front ++ edrxLine format edrx)) := by
  cases edrx with
  | none =>
    rw [edrxLine, List.append_nil]
    exact ⟨start, .skip⟩
  | some edrx =>
    have separates := @separate_grows size start front
    rw [separated_of_ne_nil some'] at separates
    rw [edrxLine, ← List.append_assoc]
    exact ⟨_, separates.bind ((modemPrintEdrx_prints format edrx).grows size _ _)⟩

private theorem printLate_strays (some' : front ≠ []) :
    Strays size fun writer => (printSaving net writer).bind (printEdrx format net.edrx) := by
  obtain ⟨start', edrx⟩ := @printEdrx_grows α size 0 front format net.edrx some'
  exact (printSaving_strays net).bind edrx.moves.strays

/-- The lines behind the packet network. -/
private theorem printLate_leads (some' : front ≠ []) :
    ∃ start', Leads size (fun writer => (printSaving net writer).bind (printEdrx format net.edrx)) (.of start front)
      (.of start' (front ++ ((if savingText net = [] then [] else ['\n'] ++ savingText net) ++ edrxLine format net.edrx)))
      (front.length < size ∧ (front ++ ((if savingText net = [] then [] else ['\n'] ++ savingText net) ++
        edrxLine format net.edrx)).length ≤ size) := by
  have saving := @printSaving_leads α size start front net some'
  obtain ⟨start', edrx⟩ := @printEdrx_grows α size (front.length + 1)
    (front ++ if savingText net = [] then [] else ['\n'] ++ savingText net) format net.edrx (by simp [some'])
  have both := saving.then edrx.moves.toLeads edrx.moves.strays
  rw [← List.append_assoc]
  refine ⟨start', both.congr rfl ⟨fun fits => ⟨fits.1.1, fits.2⟩, fun fits => ⟨⟨fits.1, ?_⟩, fits.2⟩⟩⟩
  exact edrx.le.trans fits.2

/-- The section of the network. -/
theorem netInfo_builds (flags : Flags) (room : ℕ) :
    Builds room (coapApplClientPrepareNetInfo format net flags) (netText format net flags).length
      (NetFits format net flags room) := by
  have network := (printNetwork_prints net.network flags).grows room 0 []
  have some' := networkText_ne_nil net.network flags
  rw [List.nil_append] at network
  have eq : coapApplClientPrepareNetInfo format net flags = fun writer =>
      ((printNetwork net.network flags writer).bind (printConnection format net flags)).bind fun writer =>
        some (writer, writer.index) :=
    funext fun _ => (Option.bind_assoc _ _ _).symm
  rw [eq]
  by_cases minimal : flags.minimal = true
  · have skip : printConnection format net flags = some := funext fun _ => if_pos minimal
    have text : netText format net flags = networkText net.network flags := by
      simp [netText, netFront, minimal]
    rw [skip, text]
    have fits : (networkText net.network flags).length ≤ room ↔ NetFits format net flags room := by
      simp [NetFits, text, minimal]
    exact ((network.bind Grows.skip).moves.toLeads.congr rfl fits).builds
  · obtain ⟨start, pdn⟩ := @printPdn_grows α room 0 _ net some'
    have front : netFront net flags = networkText net.network flags ++ pdnLine net := by simp [netFront, minimal]
    obtain ⟨start', late⟩ := @printLate_leads α room start (netFront net flags) net format (by simp [front, some'])
    rw [← front] at pdn
    have text : netText format net flags = netFront net flags ++
        ((if savingText net = [] then [] else ['\n'] ++ savingText net) ++ edrxLine format net.edrx) := by
      rw [netText, if_neg minimal]
      rfl
    have connection : printConnection format net flags = fun writer => (printPdn net writer).bind fun writer =>
        (printSaving net writer).bind (printEdrx format net.edrx) :=
      funext fun _ => if_neg minimal
    have leads := (network.bind pdn).moves.toLeads.then late (printLate_strays net format some')
    have fits : (netFront net flags).length ≤ room ∧ (netFront net flags).length < room ∧
        (netText format net flags).length ≤ room ↔ NetFits format net flags room :=
      ⟨fun ⟨_, inside, all⟩ => ⟨all, fun _ => inside⟩, fun ⟨all, inside⟩ => ⟨(inside minimal).le, inside minimal, all⟩⟩
    rw [← text] at leads
    have assoc : (fun writer => (printNetwork net.network flags writer).bind (printConnection format net flags)) =
        fun writer => ((printNetwork net.network flags writer).bind (printPdn net)).bind fun writer =>
          (printSaving net writer).bind (printEdrx format net.edrx) := by
      rw [connection]
      exact funext fun _ => (Option.bind_assoc _ _ _).symm
    rw [← assoc] at leads
    exact (leads.congr rfl fits).builds

end Nets

/-- A value of the coverage behind a front, with a separator where there is something in front of it and room. -/
def signalText (size : ℕ) (shown : Prop) [Decidable shown] (sep text front : Text) : Text :=
  if shown then front ++ (if front ≠ [] ∧ front.length < size then sep else []) ++ text else front

def coverageText (info : LteCeInfo) (flags : Flags) (size : ℕ) : Text :=
  let ce := if info.ceSupported ≠ 0 ∧ ¬ flags.minimal then
    "CE: down: ".toList ++ unsigned info.downlinkRepetition ++ ", up: ".toList ++ unsigned info.uplinkRepetition else []
  let rsrp := signalText size (info.rsrp < invalidSignalValue) ", ".toList
    ("RSRP: ".toList ++ decimal info.rsrp ++ " dBm".toList) ce
  let rsrq := signalText size (info.rsrq < invalidSignalValue ∧ ¬ flags.minimal) [',']
    (" RSRQ: ".toList ++ decimal (info.rsrq.tdiv 2) ++ ['.'] ++ (if info.rsrq.tmod 2 = 0 then ['0'] else ['5']) ++
      " dB".toList) rsrp
  let cinr := signalText size (info.cinr < invalidSignalValue ∧ ¬ flags.minimal) ", ".toList
    ("CINR: ".toList ++ decimal info.cinr ++ " dB".toList) rsrq
  signalText size (info.snr < invalidSignalValue) ", ".toList ("SNR: ".toList ++ decimal info.snr ++ " dB".toList) cinr

def statisticText (stat : NetworkStatistic) : Text :=
  "Stat: tx ".toList ++ unsigned stat.transmitted ++ " kB, rx ".toList ++
    unsigned stat.received ++ " kB, max ".toList ++ unsigned stat.maxPacketSize ++ " B, avg ".toList ++
    unsigned stat.averagePacketSize ++ " B".toList ++
    ("\nCell updates ".toList ++ unsigned stat.cellUpdates ++ ", Network searchs ".toList ++
      unsigned stat.searchs ++ " (".toList ++ unsigned stat.searchTime ++ " s), PSM delays ".toList ++
      unsigned stat.psmDelays ++ " (".toList ++ unsigned stat.psmDelayTime ++ " s)".toList ++
    ("\nModem Restarts ".toList ++ unsigned stat.restarts ++ ", Sockets ".toList ++
      unsigned stat.sockets ++ ", DTLS handshakes ".toList ++ unsigned stat.dtlsHandshakes ++
    ("\nWakeups ".toList ++ unsigned stat.wakeups ++ ", ".toList ++ unsigned stat.wakeupTime ++
      " s, connected ".toList ++ unsigned stat.connectedTime ++ " s, asleep ".toList ++ unsigned stat.asleepTime ++
      " s".toList)))

/-- The section of the statistics. -/
def statsText (info : LteCeInfo) (stat : NetworkStatistic) (flags : Flags) (size : ℕ) : Text :=
  if flags.minimal then coverageText info flags size
  else separated (coverageText info flags size) ++ statisticText stat

section Statistics

variable {size start : ℕ} {front sep : Text}

private theorem printSignal_grows {shown : Prop} [Decidable shown] {step : Writer → Option Writer} (text : Text)
    (prints : Prints step sep) :
    Grows size (printSignal shown step text) (.of start front) (.of start (signalText size shown sep text front)) := by
  unfold printSignal signalText
  by_cases holds : shown
  · simp only [holds, ↓reduceIte]
    have separates : Grows size (separateSignal step) (.of start front)
        (.of start (front ++ if front ≠ [] ∧ front.length < size then sep else [])) := by
      refine Grows.test prints fun writer at' _ => ?_
      rw [at'.index, at'.size, Place.of, ← List.length_pos_iff]
      dsimp only
      omega
    exact separates.bind .print
  · simp only [holds, ↓reduceIte]
    exact .skip

private theorem printCoverage_grows (info : LteCeInfo) (flags : Flags) :
    Grows size (printCoverage info flags) (.of 0 []) (.of 0 (coverageText info flags size)) :=
  .bind ((printIf_prints _ _).grows size 0 []) (.bind (printSignal_grows _ .print) (.bind (printSignal_grows _ .append)
    (.bind (printSignal_grows _ .print) (printSignal_grows _ .print))))

private theorem printStatistic_grows (stat : NetworkStatistic) :
    Grows size (printStatistic stat) (.of start front)
      (.of (separated front).length (separated front ++ statisticText stat)) :=
  separate_grows.bind ((Prints.bind .print (.bind .print (.bind .print .print))).grows size _ _)

/-- The section of the statistics. -/
theorem netStats_builds (info : LteCeInfo) (stat : NetworkStatistic) (flags : Flags) (room : ℕ) :
    Builds room (coapApplClientPrepareNetStats info stat flags) (statsText info stat flags room).length
      ((statsText info stat flags room).length ≤ room) := by
  have coverage := @printCoverage_grows room info flags
  have eq : ∀ writer, coapApplClientPrepareNetStats info stat flags writer =
      ((printCoverage info flags writer).bind (printStatistics stat flags)).bind fun writer => some (writer, writer.index) :=
    fun _ => (Option.bind_assoc _ _ _).symm
  by_cases minimal : flags.minimal = true
  · have skip : printStatistics stat flags = some := funext fun _ => if_pos minimal
    rw [skip] at eq
    rw [statsText, if_pos minimal]
    exact (coverage.bind .skip).builds eq
  · have statistic : printStatistics stat flags = printStatistic stat := funext fun _ => if_neg minimal
    rw [statistic] at eq
    rw [statsText, if_neg minimal]
    exact (coverage.bind (printStatistic_grows stat)).builds eq

end Statistics

end CoapsClient.CoapAppl
