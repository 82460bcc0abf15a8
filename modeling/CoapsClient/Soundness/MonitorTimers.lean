import CoapsClient.Soundness.MonitorRecord

/-! # Texts in place

The parameters of eDRX and PSM are read in place, as far as the text in the buffer goes. One that is empty stores a zero at
its place: at the end of the text that is where one is, and in front of another parameter it is the comma.
-/

namespace CoapsClient.ModemMonitor

open Machine (DigitFree textEnd ended ended_append ended_cons ended_eq)
open ShCmd (Text)
open CoapAppl (RegStatus)

section Timers

variable {scan : Scan} {timer : Text} {timers : List Text} {lens : List ℕ} {count : ℕ}

/-- The steps for some parameters of eDRX and PSM. -/
def readTimers (lens : List ℕ) (scan : Scan) : Scan := lens.foldl (fun scan len => scan.next (Scan.qtextInPlace len)) scan

theorem timers_eq : scan.timers = readTimers [5, 9, 9, 9] scan := rfl

/-- A parameter of eDRX or PSM: in quotes, or empty. -/
def Timer (timer : Text) : Prop := timer = [] ∨ ∃ text, Plain text ∧ timer = quoted text

/-- Each parameter that is empty is at the end of the text, or behind it. -/
def Closed (count : ℕ) (timers : List Text) : Prop :=
  ∀ front back, timers = front ++ [] :: back → back = [] ∨ count ≤ (timersText front).length + 1

private theorem timersText_cons : timersText (timer :: timers) = ',' :: (timer ++ timersText timers) := rfl

private theorem closed_nil : Closed count [] := fun front _ same => absurd same (by simp)

private theorem closed_zero : Closed 0 timers := fun _ _ _ => .inr (Nat.zero_le _)

private theorem next_lost {len : ℕ} (lost : scan.kept = false) : (scan.next (Scan.qtextInPlace len)).kept = false := by
  by_cases comma : scan.n.head? = some ','
  · obtain ⟨cur, place⟩ := List.head?_eq_some_iff.mp comma
    rw [Scan.next_comma place, Scan.qtextInPlace]
    dsimp only
    rw [lost, Bool.false_and]
  · rwa [Scan.next_stop comma]

/-- What is lost stays lost. -/
private theorem readTimers_lost (lost : scan.kept = false) : (readTimers lens scan).kept = false := by
  induction lens generalizing scan with
  | nil => exact lost
  | cons len lens ih => exact ih (next_lost lost)

private theorem closed_cons : Closed (count + 1) (timer :: timers) ↔
    (timer = [] → timers = [] ∨ count = 0) ∧ Closed (count - timer.length) timers := by
  constructor
  · intro closed
    refine ⟨fun empty => ?_, fun front back same => ?_⟩
    · refine (closed [] timers (by rw [empty]; rfl)).imp id fun early => ?_
      exact Nat.le_zero.mp (Nat.le_of_succ_le_succ early)
    · refine (closed (timer :: front) back (by rw [same]; rfl)).imp id fun early => ?_
      rw [timersText_cons, List.length_cons, List.length_append] at early
      omega
  · rintro ⟨here, later⟩ front back same
    cases front with
    | nil =>
      obtain ⟨rfl, rfl⟩ := List.cons.inj same
      exact (here rfl).imp id fun early => by rw [early]; exact Nat.le_add_left 1 _
    | cons first front =>
      obtain ⟨rfl, behind⟩ := List.cons.inj same
      refine (later front back behind).imp id fun early => ?_
      rw [timersText_cons, List.length_cons, List.length_append]
      omega

private theorem textEnd_timersText (proper : ∀ timer ∈ timers, Timer timer) : textEnd ∉ timersText timers := by
  intro found
  obtain ⟨timer, member, found⟩ := List.mem_flatMap.mp found
  rcases proper timer member with rfl | ⟨text, plain, rfl⟩
  · revert found
    decide
  · simp only [quoted, List.mem_cons, List.mem_append, List.not_mem_nil, or_false] at found
    rcases found with comma | quote | found | quote
    · exact absurd comma (by decide)
    · exact absurd quote (by decide)
    · exact (plain textEnd found).1 rfl
    · exact absurd quote (by decide)

/-- A parameter in quotes is read, also where the text in the buffer ends in it. -/
private theorem qtextInPlace_take {text rest : Text} {len : ℕ} (plain : Plain text) (free : textEnd ∉ rest) :
    scan.qtextInPlace len ((quoted text ++ rest).take count) =
      { scan with n := rest.take (count - (quoted text).length) } := by
  have shape : quoted text ++ rest = '"' :: (text ++ '"' :: rest) := by simp [quoted]
  have size : (quoted text).length = text.length + 2 := by simp [quoted]
  rw [shape, size]
  rcases Nat.lt_or_ge count (text.length + 2) with short | long
  · rw [Nat.sub_eq_zero_of_le short.le, List.take_zero]
    cases count with
    | zero => rw [List.take_zero, Scan.qtextInPlace_nil]
    | succ count =>
      rw [List.take_succ_cons, List.take_append_of_le_length (by omega),
        Scan.qtextInPlace_cut fun char found => plain char (List.mem_of_mem_take found)]
  · obtain ⟨more, rfl⟩ := Nat.exists_eq_add_of_le' long
    have taken : ('"' :: (text ++ '"' :: rest)).take (more + (text.length + 2)) =
        '"' :: (text ++ '"' :: rest.take more) := by
      rw [show more + (text.length + 2) = text.length + (more + 1) + 1 by omega, List.take_succ_cons,
        List.take_length_add_append, List.take_succ_cons]
    rw [Nat.add_sub_cancel, taken, Scan.qtextInPlace_quoted plain fun found => free (List.mem_of_mem_take found)]

/-- A parameter that is empty at the end of the text changes nothing. -/
private theorem qtextInPlace_end {len : ℕ} (ending : timers = [] ∨ count = 0) :
    scan.qtextInPlace len ((timersText timers).take count) = { scan with n := (timersText timers).take 0 } := by
  have nothing : (timersText timers).take count = [] := by
    rcases ending with rfl | rfl
    · exact List.take_nil
    · exact List.take_zero
  rw [nothing, Scan.qtextInPlace_nil, List.take_zero]

/-- In front of another parameter, the comma becomes a zero. -/
private theorem qtextInPlace_comma {len : ℕ} (more : timers ≠ []) (room : count ≠ 0) :
    (scan.qtextInPlace len ((timersText timers).take count)).kept = false := by
  obtain ⟨timer, timers, rfl⟩ := List.exists_cons_of_ne_nil more
  obtain ⟨count, rfl⟩ := Nat.exists_eq_succ_of_ne_zero room
  rw [timersText_cons, List.take_succ_cons, Scan.qtextInPlace_missing (by decide) (by decide)]

/-- Nothing is stored in what is read next, if and only if a parameter is empty at the end of the text only. -/
theorem readTimers_kept (proper : ∀ timer ∈ timers, Timer timer) (length : lens.length = timers.length)
    (kept : scan.kept = true) (place : scan.n = (timersText timers).take count) :
    (readTimers lens scan).kept = true ↔ Closed count timers := by
  induction timers generalizing lens scan count with
  | nil =>
    obtain rfl := List.length_eq_zero_iff.mp length
    exact iff_of_true kept closed_nil
  | cons timer timers ih =>
    obtain ⟨len, lens, rfl⟩ := List.exists_cons_of_length_eq_add_one length
    have others : ∀ timer ∈ timers, Timer timer := fun other member => proper other (List.mem_cons_of_mem timer member)
    have fewer : lens.length = timers.length := Nat.succ.inj length
    have step : readTimers (len :: lens) scan = readTimers lens (scan.next (Scan.qtextInPlace len)) := rfl
    -- behind the parameter is what is left of the text in the buffer
    have later : ∀ left, (readTimers lens { scan with n := (timersText timers).take left }).kept = true ↔ Closed left timers :=
      fun left => @ih { scan with n := (timersText timers).take left } lens left others fewer kept rfl
    rw [step]
    cases count with
    | zero =>
      have stop : scan.n.head? ≠ some ',' := by
        rw [place, List.take_zero]
        exact nofun
      rw [Scan.next_stop stop]
      exact iff_of_true ((ih others fewer kept place).mpr closed_zero) closed_zero
    | succ count =>
      rw [timersText_cons, List.take_succ_cons] at place
      rw [Scan.next_comma place, closed_cons]
      rcases proper timer List.mem_cons_self with rfl | ⟨text, plain, rfl⟩
      · rw [List.nil_append, List.length_nil, Nat.sub_zero]
        by_cases ending : timers = [] ∨ count = 0
        · rw [qtextInPlace_end ending, later]
          refine iff_of_true closed_zero ⟨fun _ => ending, ?_⟩
          rcases ending with rfl | rfl
          · exact closed_nil
          · exact closed_zero
        · obtain ⟨more, room⟩ := not_or.mp ending
          refine iff_of_false ?_ fun closed => ending (closed.1 rfl)
          rw [readTimers_lost (qtextInPlace_comma more room)]
          exact Bool.false_ne_true
      · rw [qtextInPlace_take plain (textEnd_timersText others), later]
        exact (and_iff_right fun empty => absurd empty (List.cons_ne_nil _ _)).symm

end Timers

section Ends

variable {record : Record} {network : Network} {status : RegStatus}

theorem timers_proper : ∀ timer ∈ network.timers, Timer timer := by
  intro timer found
  obtain ⟨value, member, rfl⟩ := List.mem_map.mp found
  cases value with
  | none => exact .inl rfl
  | some text => exact .inr ⟨text, network.timers_plain _ member text rfl, rfl⟩

theorem digitFree_timersText {timers : List Text} {count : ℕ} : DigitFree ((timersText timers).take count) := by
  cases count with
  | zero => exact nofun
  | succ count =>
    cases timers with
    | nil => exact nofun
    | cons timer timers => exact comma_free _

/-- The parameters up to the SNR are not empty. -/
private theorem nil_not_mem_head : [] ∉ number (statusNumber status) :: network.head := by
  have some : ∀ value, number value ≠ [] := number_ne_nil
  simp [Network.head, quoted, Ne.symm (some _)]

private theorem length_ended {items : List Text} : (ended ',' items).length = (timersText items).length := by
  induction items with
  | nil => rfl
  | cons item items ih =>
    rw [ended_cons, timersText_cons, List.length_append, List.length_cons, List.length_cons, List.length_append, ih]
    omega

private theorem length_ended_head {front : List Text} :
    (ended ',' ((number (statusNumber status) :: network.head) ++ front)).length =
      (headText status network).length + 1 + (timersText front).length := by
  rw [ended_append, List.length_append, ended_eq (List.cons_ne_nil _ _), List.length_append, List.length_singleton, length_ended]
  rfl

/-- A parameter is empty at the end of the text in the buffer only. -/
theorem closed_iff {size : ℕ} (some : record.network = some network) (fits : (headText record.status network).length ≤ size) :
    Closed (size - (headText record.status network).length) network.timers ↔
      ∀ front back, record.parameters = front ++ [] :: back → back = [] ∨ size ≤ (ended ',' front).length := by
  have parameters : record.parameters = (number (statusNumber record.status) :: network.head) ++ network.timers := by
    rw [Record.parameters, some]
    rfl
  constructor
  · intro closed front back same
    rw [parameters] at same
    -- it is one of the parameters of eDRX and PSM
    obtain ⟨behind, rfl, timers⟩ : ∃ behind, front = (number (statusNumber record.status) :: network.head) ++ behind ∧
        network.timers = behind ++ [] :: back := by
      rcases List.append_eq_append_iff.mp same with found | ⟨more, head, rest⟩
      · exact found
      · cases more with
        | nil => exact ⟨[], by rw [List.append_nil] at head ⊢; exact head.symm, rest.symm⟩
        | cons first more =>
          obtain ⟨rfl, -⟩ := List.cons.inj rest
          exact absurd (by rw [head]; exact List.mem_append_right front List.mem_cons_self) nil_not_mem_head
    refine (closed behind back timers).imp id fun early => ?_
    rw [length_ended_head]
    omega
  · intro missing front back same
    refine (missing ((number (statusNumber record.status) :: network.head) ++ front) back ?_).imp id fun early => ?_
    · rw [parameters, same, List.append_assoc]
    · rw [length_ended_head] at early
      omega

end Ends

end CoapsClient.ModemMonitor
