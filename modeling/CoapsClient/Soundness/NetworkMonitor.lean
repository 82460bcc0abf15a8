import CoapsClient.Soundness.MonitorNames
import CoapsClient.Soundness.MonitorTimers

/-! # Reading a network answer

The names are skipped up to the second comma, so that a comma in a name moves all parameters behind it. The answer is cut
to the buffer, and an empty parameter of eDRX or PSM ends the text. In all other cases what is read is what was printed,
and nothing is stored in the text that is read next.
-/

namespace CoapsClient.ModemMonitor

open ShCmd (Text)
open CoapAppl (RegStatus)

section Room

variable {network : Network} {status : RegStatus}

/-- An answer that has room up to the SNR is read. -/
private theorem read_fits {count : ℕ} {scan : Scan} (proper : status ≠ .other) (registered : isRegistered status = true)
    (fullName : ',' ∉ network.fullName) (shortName : ',' ∉ network.shortName)
    (read : readMonitor (headText status network ++ (timersText network.timers).take count) = scan) :
    scan.temp = (front status network []).temp ∧ scan.rsrp = network.rsrp.level ∧ scan.snr = network.snr.level ∧
      (scan.kept = true ↔ Closed count network.timers) := by
  rw [headText_eq, List.append_assoc, List.cons_append, frontText_append, readMonitor_registered proper registered] at read
  subst read
  obtain ⟨temp, rsrp, snr, kept⟩ := @Scan.network_eq ((begun status (',' :: namesText network (cellText network
    (',' :: (number network.snr.index ++ (timersText network.timers).take count))))).plmn (namesText network
      (cellText network (',' :: (number network.snr.index ++ (timersText network.timers).take count)))))
  rw [cell_front fullName shortName (comma_free _)] at temp rsrp snr kept
  rw [next_snr digitFree_timersText rfl] at snr kept
  refine ⟨temp, rsrp, snr, ?_⟩
  rw [kept, timers_eq]
  exact readTimers_kept timers_proper rfl rfl rfl

end Room

/-- An answer with the status only is read. -/
private theorem recovered_status {record : Record} (none : record.network = none) : record.Recovered := by
  have text : record.text = number (statusNumber record.status) := by
    rw [Record.text, Record.parameters, none]
    exact List.intercalate_singleton
  have short := @length_status record.status
  rw [recovered_iff, text, List.take_of_length_le (by unfold bufSize; omega), readMonitor_status record.status_proper, none]
  exact ⟨rfl, (regStatus_statusNumber record.status_proper).1, fun _ member => absurd member (Option.not_mem_none _)⟩

private theorem readable_of_recovered {record : Record} {network : Network} (some : record.network = some network)
    (recovered : record.Recovered) : record.Readable network := by
  have registered : isRegistered record.status = true := record.registered (by rw [some]; rfl)
  obtain ⟨kept, -, all⟩ := (recovered_iff record).mp recovered
  have read := all network some
  have fullName : ',' ∉ network.fullName := fun comma => read_comma some (by decide) (.inl comma) read
  have shortName : ',' ∉ network.shortName := fun comma => read_comma some (by decide) (.inr comma) read
  have fits : (headText record.status network).length ≤ bufSize - 1 := by
    by_contra long
    exact read_long some (by decide) fullName shortName (by omega) read.snr
  obtain ⟨temp, -, -, closed⟩ := read_fits record.status_proper registered fullName shortName
    (congrArg readMonitor (take_text some fits)).symm
  have cell := read.cell
  have earfcn := read.earfcn
  rw [temp] at cell earfcn
  change min network.cell 2147483647 = network.cell at cell
  change min network.earfcn 2147483647 = network.earfcn at earfcn
  exact ⟨fullName, shortName, Nat.lt_of_le_of_lt fits (by decide), by omega, by omega,
    (closed_iff some fits).mp (closed.mp kept)⟩

private theorem recovered_of_readable {record : Record} {network : Network} (some : record.network = some network)
    (readable : record.Readable network) : record.Recovered := by
  have registered : isRegistered record.status = true := record.registered (by rw [some]; rfl)
  obtain ⟨fullName, shortName, room, cell, earfcn, missing⟩ := readable
  have fits : (headText record.status network).length ≤ bufSize - 1 := Nat.le_sub_one_of_lt room
  obtain ⟨temp, rsrp, snr, closed⟩ := read_fits record.status_proper registered fullName shortName
    (congrArg readMonitor (take_text some fits)).symm
  rw [recovered_iff, temp, some]
  refine ⟨closed.mpr ((closed_iff some fits).mpr missing), (regStatus_statusNumber record.status_proper).1, ?_⟩
  rintro _ ⟨⟩
  refine ⟨?_, ?_, ?_, ?_, ?_, ?_, rsrp, snr⟩
  all_goals rw [temp]
  · rfl
  · rfl
  · rfl
  · rfl
  · exact Nat.min_eq_left (by omega)
  · exact Nat.min_eq_left (by omega)

/-- What an answer was printed from is read from it, and nothing is stored in what is read next, if and only if no name has
a comma, the answer has room up to the SNR, the numbers have room, and no parameter is empty in front of another one. -/
theorem monitor_iff (record : Record) : record.Recovered ↔ ∀ network ∈ record.network, record.Readable network := by
  cases network : record.network with
  | none => exact iff_of_true (recovered_status network) fun _ member => absurd member (Option.not_mem_none _)
  | some network' =>
    refine ⟨fun recovered => ?_, fun all => recovered_of_readable network (all network' rfl)⟩
    rintro _ ⟨⟩
    exact readable_of_recovered network recovered

instance (text : Text) : Decidable (Plain text) := List.decidableBAll _ text

/-- A network with a name and a parameter of eDRX. -/
def sampleNetwork (fullName : Text) (plain : Plain fullName) (edrx : Option Text) (edrx_plain : ∀ text ∈ edrx, Plain text) :
    Network where
  fullName
  shortName := "Tel".toList
  plmn := "26201".toList
  tac := 0x4e20
  mode := .ltem
  band := 20
  cell := 0x01a2b300
  physCellId := 100
  earfcn := 6400
  rsrp := { value := some (-91), proper := by rintro _ ⟨⟩; decide }
  snr := { value := some 5, proper := by rintro _ ⟨⟩; decide }
  edrx
  act := some "11100000".toList
  tauExt := some "11100000".toList
  tau := none
  fullName_plain := plain
  shortName_plain := by decide
  plmn_digits := List.all_eq_true.mp (by decide)
  plmn_length := .inl rfl
  tac_lt := by decide
  mode_proper := by decide
  band_lt := by decide
  cell_lt := by decide
  timers_plain := by
    have all : Plain "11100000".toList := by decide
    simp only [List.forall_mem_cons, Option.mem_def, Option.some_inj, List.not_mem_nil]
    refine ⟨edrx_plain, ?_, ?_, nofun, nofun⟩
    · rintro _ rfl
      exact all
    · rintro _ rfl
      exact all

def sampleRecord (network : Network) : Record where
  status := .registeredHome
  network := some network
  status_proper := by decide
  registered _ := by decide

/-- An answer with a comma in a name is not read, and with an empty parameter of eDRX the text that is read next is lost. -/
theorem monitor_lost :
    ¬ (sampleRecord (sampleNetwork "Telekom, DE".toList (by decide) (some "0101".toList)
      (by rintro _ ⟨⟩; decide))).Recovered ∧
    ¬ (sampleRecord (sampleNetwork "Telekom".toList (by decide) none nofun)).Recovered := by
  refine ⟨fun recovered => ?_, fun recovered => ?_⟩
  · exact absurd (readable_of_recovered rfl recovered).fullName (by decide)
  · exact absurd recovered.1 (by decide +kernel)

end CoapsClient.ModemMonitor
