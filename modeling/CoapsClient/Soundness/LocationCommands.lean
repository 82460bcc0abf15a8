import CoapsClient.Model.Location.Gnss
import CoapsClient.Model.Shell.Lookup
import Mathlib.Data.List.Induction
import Mathlib.Data.List.Infix

/-! # Location commands

`stricmp` returns zero for texts that are equal, and `sh_cmd_loc` takes any other result for a match. A word other than
`start` therefore starts, and `start` stops.
-/

namespace CoapsClient.GnssClient

open ShCmd (Text SameText parseNextText stricmp stricmp_eq_zero parseNextText_word)

/-- The text of a parameter, without the zero behind it. -/
structure Parameter where
  text : Text
  terminated : Char.ofNat 0 ∉ text

/-- The commands that change something. -/
inductive Keyword where
  | start
  | stop
  | force
deriving DecidableEq, Repr

def Keyword.text : Keyword → Text
  | .start => "start".toList
  | .stop => "stop".toList
  | .force => "force".toList

def keyword (text : Text) : Option Keyword := [Keyword.start, .stop, .force].find? fun key => SameText text key.text

/-- Whether the location is enabled behind some texts: the last keyword decides. -/
def enabledBy (enabled : Bool) (texts : List Text) : Bool :=
  match (texts.filterMap keyword).getLast? with
  | none => enabled
  | some key => key ≠ .stop

/-- A text that is given to `sh_cmd_loc`, or what happens in between. -/
inductive Action where
  | command (parameter : Parameter)
  | event (label : Label)

/-- Calls of `location_start` and `location_stop` by others. -/
def Event.isCall : Event → Bool
  | .start _ | .stop => true
  | _ => false

def act (config : Config) (location : Location) : Action → Option Location
  | .command parameter => some (shCmdLoc location parameter.text)
  | .event label => if label.event.isCall then none else step config location label

def actAll (config : Config) (location : Location) (actions : List Action) : Option Location :=
  actions.foldlM (act config) location

/-- The texts of a run. -/
def texts (actions : List Action) : List Text := actions.filterMap fun
  | .command parameter => some parameter.text
  | .event _ => none

/-- Behind each text of a run the location is enabled if the last keyword so far says so, and a text that is no keyword changes
neither that nor what is scheduled. -/
def FollowsKeywords (config : Config) (location : Location) (actions : List Action) : Prop :=
  ∀ front parameter, front ++ [.command parameter] <+: actions → ∀ before ∈ actAll config location front,
    locationEnabled (shCmdLoc before parameter.text) =
      enabledBy (locationEnabled location) (texts (front ++ [.command parameter])) ∧
    (keyword parameter.text = none → locationEnabled (shCmdLoc before parameter.text) = locationEnabled before ∧
      (shCmdLoc before parameter.text).works.pending = before.works.pending)

/-- A text that does what it says: `force`, no word, another word while the location is enabled, or `start` in front of other
words while the location is off with nothing scheduled. -/
def DoesAsSaid (location : Location) (parameter : Text) : Prop :=
  match keyword parameter with
  | some .force => True
  | some _ => False
  | none => locValue parameter = [] ∨
      if SameText (locValue parameter) Keyword.start.text then
        locationEnabled location = false ∧ ∀ work, location.works.pending work = none
      else locationEnabled location = true

section Command

variable {config : Config} {location next : Location} {parameter : Text} {key : Keyword}

private theorem keyword_same (found : keyword parameter = some key) : SameText parameter key.text := by
  simpa using List.find?_some found

/-- A keyword is a single word. -/
private theorem locValue_keyword (found : keyword parameter = some key) : locValue parameter = parameter := by
  have same := keyword_same found
  have plain : ' ' ∉ parameter := by
    rw [same.mem_iff (by decide)]
    cases key <;> decide
  have short : parameter.length < 10 := by
    rw [same.length]
    cases key <;> decide
  exact parseNextText_word plain short

/-- The value has no zero in it. -/
private theorem locValue_plain (plain : Char.ofNat 0 ∉ parameter) : Char.ofNat 0 ∉ locValue parameter := by
  refine fun found => plain ?_
  have inside := (List.takeWhile_sublist _).subset ((List.take_sublist _ _).subset found)
  split at inside
  · exact (List.tail_sublist _).subset inside
  · exact inside

/-- The branch that the command takes. -/
private theorem shCmdLoc_eq (plain : Char.ofNat 0 ∉ parameter) : shCmdLoc location parameter =
    if locValue parameter = [] then location
    else if SameText (locValue parameter) Keyword.start.text then locationStop location
    else locationStart location false := by
  have compare (key : Keyword) : stricmp key.text (locValue parameter) = 0 ↔ SameText key.text (locValue parameter) :=
    stricmp_eq_zero (by cases key <;> decide) (locValue_plain plain)
  have start : stricmp "start".toList (locValue parameter) = 0 ↔ SameText "start".toList (locValue parameter) :=
    compare .start
  have stop : stricmp "stop".toList (locValue parameter) = 0 ↔ SameText "stop".toList (locValue parameter) :=
    compare .stop
  by_cases none : locValue parameter = []
  · simp [shCmdLoc, none]
  · rw [if_neg none]
    by_cases same : SameText (locValue parameter) Keyword.start.text
    · have other : ¬ stricmp "stop".toList (locValue parameter) = 0 := fun zero =>
        absurd ((stop.mp zero).trans same) (by decide)
      rw [if_pos same]
      simp only [shCmdLoc, ne_eq, none, not_false_iff, if_true]
      rw [if_neg (not_not.mpr (start.mpr same.symm)), if_pos other]
    · have other : ¬ stricmp "start".toList (locValue parameter) = 0 := fun zero => same (start.mp zero).symm
      rw [if_neg same]
      simp only [shCmdLoc, ne_eq, none, not_false_iff, if_true]
      rw [if_pos other]

private theorem locationEnabled_start : locationEnabled (locationStart location false) = true := by
  cases started : location.start with
  | true => simp [locationEnabled, locationStart, started]
  | false => simp [locationEnabled, locationStart, started]

private theorem locationEnabled_stop : locationEnabled (locationStop location) = false := rfl

private theorem pending_stop : (locationStop location).works.pending = fun _ => none := by
  funext work
  cases work <;> rfl

/-- A keyword does what it says only if it is `force`. -/
private theorem doesAsSaid_keyword (plain : Char.ofNat 0 ∉ parameter) (found : keyword parameter = some key) :
    locationEnabled (shCmdLoc location parameter) = enabledBy (locationEnabled location) [parameter] ↔ key = .force := by
  have same := keyword_same found
  have word := locValue_keyword found
  have some' : parameter ≠ [] := by
    rintro rfl
    exact absurd same.length (by cases key <;> decide)
  have expected : enabledBy (locationEnabled location) [parameter] = decide (key ≠ .stop) := by
    simp [enabledBy, found]
  rw [shCmdLoc_eq plain, word, if_neg some', expected]
  cases key with
  | start =>
    rw [if_pos same, locationEnabled_stop]
    decide
  | stop =>
    rw [if_neg fun start => absurd (same.symm.trans start) (by decide), locationEnabled_start]
    decide
  | force =>
    rw [if_neg fun start => absurd (same.symm.trans start) (by decide), locationEnabled_start]
    decide

/-- Any other text does nothing without a word, stops what has stopped, or starts what is started. -/
private theorem doesAsSaid_other (plain : Char.ofNat 0 ∉ parameter) :
    (locationEnabled (shCmdLoc location parameter) = locationEnabled location ∧
      (shCmdLoc location parameter).works.pending = location.works.pending) ↔
    locValue parameter = [] ∨ if SameText (locValue parameter) Keyword.start.text then
      locationEnabled location = false ∧ ∀ work, location.works.pending work = none else locationEnabled location = true := by
  rw [shCmdLoc_eq plain]
  by_cases none : locValue parameter = []
  · simp [none]
  · rw [if_neg none, or_iff_right none]
    by_cases start : SameText (locValue parameter) Keyword.start.text
    · rw [if_pos start, if_pos start, locationEnabled_stop, pending_stop, eq_comm, funext_iff]
      simp only [eq_comm]
    · rw [if_neg start, if_neg start, locationEnabled_start]
      refine ⟨fun same => same.1.symm, fun enabled => ⟨enabled.symm, ?_⟩⟩
      have unchanged : locationStart location false = location := by
        simp [locationStart, show location.start = true from enabled]
      rw [unchanged]

/-- What a text leaves is what it says in the cases of `DoesAsSaid`. -/
private theorem doesAsSaid_iff (plain : Char.ofNat 0 ∉ parameter) :
    (locationEnabled (shCmdLoc location parameter) = enabledBy (locationEnabled location) [parameter] ∧
      (keyword parameter = none → locationEnabled (shCmdLoc location parameter) = locationEnabled location ∧
        (shCmdLoc location parameter).works.pending = location.works.pending)) ↔ DoesAsSaid location parameter := by
  rw [DoesAsSaid]
  cases found : keyword parameter with
  | some key =>
    rw [doesAsSaid_keyword plain found, and_iff_left nofun]
    cases key <;> simp
  | none =>
    have expected : enabledBy (locationEnabled location) [parameter] = locationEnabled location := by simp [enabledBy, found]
    refine ⟨fun ⟨_, unchanged⟩ => (doesAsSaid_other plain).mp (unchanged rfl), fun said => ?_⟩
    have unchanged := (doesAsSaid_other plain).mpr said
    exact ⟨unchanged.1.trans expected.symm, fun _ => unchanged⟩

end Command

section Between

variable {config : Config} {env : Env} {location next : Location} {result : Result}

private theorem nextRequest_start : (nextRequest config env location result).1.start = location.start := by
  unfold nextRequest
  split
  · dsimp only
    split
    · rfl
    · split <;> rfl
  · split <;> rfl

private theorem eventHandler_start : (eventHandler config env location result).start = location.start := by
  unfold eventHandler
  dsimp only
  split
  · exact nextRequest_start
  · rfl

private theorem locationGnssStart_start : (locationGnssStart config env location).start = location.start := by
  unfold locationGnssStart
  dsimp only
  split
  · rfl
  · split
    · rfl
    · split
      · split <;> rfl
      · split
        · exact eventHandler_start
        · split
          · exact eventHandler_start
          · split
            · exact eventHandler_start
            · split <;> rfl

private theorem gnssPvtWorkFn_start : (gnssPvtWorkFn config env location).start = location.start := by
  unfold gnssPvtWorkFn
  dsimp only
  split
  · rfl
  · split
    · rfl
    · split
      · exact eventHandler_start
      · split
        · split
          · exact eventHandler_start
          · rfl
        · rfl

private theorem workFn_start (work : Work) : (workFn config env location work).start = location.start := by
  cases work with
  | lteStart =>
    change (lteStartWorkFn config env location).start = _
    unfold lteStartWorkFn
    split
    · exact locationGnssStart_start
    · rfl
  | gnssPvt => exact gnssPvtWorkFn_start
  | scanStart =>
    change (scanStartWorkFn location).start = _
    unfold scanStartWorkFn
    split
    · dsimp only
      split <;> rfl
    · rfl
  | gnssTimeout =>
    change (gnssTimeoutWorkFn config env location).start = _
    unfold gnssTimeoutWorkFn
    split
    · rfl
    · exact eventHandler_start
  | gnssStart =>
    change (gnssStartWorkFn config env location).start = _
    unfold gnssStartWorkFn
    split
    · rfl
    · dsimp only
      split
      · rfl
      · exact locationGnssStart_start

/-- Only the calls of others start and stop. -/
private theorem event_enabled {label : Label} (moved : act config location (.event label) = some next) :
    locationEnabled next = locationEnabled location := by
  obtain ⟨event, env⟩ := label
  cases event with
  | start => cases moved
  | stop => cases moved
  | sleepEnter flightMode =>
    obtain rfl : (if flightMode then location else modemSleeps location) = next := Option.some_inj.mp moved
    split <;> rfl
  | sleepExit =>
    obtain rfl := Option.some_inj.mp moved
    rfl
  | rrcUpdate connected =>
    simp only [act, Event.isCall, Bool.false_eq_true, if_false, step] at moved
    split at moved
    · obtain rfl := Option.some_inj.mp moved
      split <;> rfl
    · obtain rfl := Option.some_inj.mp moved
      rfl
  | gnssPvt =>
    obtain rfl := Option.some_inj.mp moved
    rfl
  | run work =>
    simp only [act, Event.isCall, Bool.false_eq_true, if_false, step] at moved
    split at moved
    · obtain rfl := Option.some_inj.mp moved
      exact workFn_start work
    · cases moved

end Between

section Runs

variable {config : Config} {location : Location} {actions : List Action}

private theorem enabledBy_append (enabled : Bool) (front back : List Text) :
    enabledBy enabled (front ++ back) = enabledBy (enabledBy enabled front) back := by
  unfold enabledBy
  rw [List.filterMap_append, List.getLast?_append]
  cases (back.filterMap keyword).getLast? <;> rfl

private theorem actAll_append (front : List Action) (action : Action) :
    actAll config location (front ++ [action]) = (actAll config location front).bind (act config · action) := by
  rw [actAll, List.foldlM_append]
  simp only [List.foldlM_cons, List.foldlM_nil, bind_pure]
  rfl

/-- The location is enabled as the keywords of a run say. -/
def Tracks (config : Config) (location : Location) (front : List Action) : Prop :=
  ∀ before ∈ actAll config location front, locationEnabled before = enabledBy (locationEnabled location) (texts front)

/-- It is so behind any part of a run, if each command keeps it so. -/
private theorem tracks_of_commands (kept : ∀ front parameter, front ++ [.command parameter] <+: actions →
    Tracks config location front → Tracks config location (front ++ [.command parameter])) :
    ∀ front, front <+: actions → Tracks config location front := by
  intro front
  induction front using List.reverseRecOn with
  | nil =>
    rintro - before ⟨⟩
    rfl
  | append_singleton front action ih =>
    intro part
    have tracks := ih ((List.prefix_append _ _).trans part)
    cases action with
    | command parameter => exact kept front parameter part tracks
    | event label =>
      intro next reached
      rw [actAll_append] at reached
      obtain ⟨before, run, moved⟩ := Option.bind_eq_some_iff.mp reached
      rw [event_enabled moved, tracks before run, texts, texts, List.filterMap_append]
      simp

/-- A run of the shell and of the location follows the keywords if and only if each of its texts does as it says. -/
theorem location_commands_iff (config : Config) (location : Location) (actions : List Action) :
    FollowsKeywords config location actions ↔
      ∀ front parameter, front ++ [.command parameter] <+: actions → ∀ before ∈ actAll config location front,
        DoesAsSaid before parameter.text := by
  have behind (front : List Action) (parameter : Parameter) :
      texts (front ++ [.command parameter]) = texts front ++ [parameter.text] := by
    rw [texts, List.filterMap_append]
    rfl
  constructor
  · intro follows front parameter part before run
    have tracks : Tracks config location front := by
      refine tracks_of_commands (fun front parameter part _ => ?_) front ((List.prefix_append _ _).trans part)
      intro after reached
      rw [actAll_append] at reached
      obtain ⟨before, run, ⟨⟩⟩ := Option.bind_eq_some_iff.mp reached
      exact (follows front parameter part before run).1
    have follows := follows front parameter part before run
    rw [behind, enabledBy_append, ← tracks before run] at follows
    exact (doesAsSaid_iff parameter.terminated).mp follows
  · intro said front parameter part before run
    have tracks : Tracks config location front := by
      refine tracks_of_commands (fun front parameter part tracks => ?_) front ((List.prefix_append _ _).trans part)
      intro after reached
      rw [actAll_append] at reached
      obtain ⟨before, run, ⟨⟩⟩ := Option.bind_eq_some_iff.mp reached
      rw [behind, enabledBy_append, ← tracks before run]
      exact ((doesAsSaid_iff parameter.terminated).mpr (said front parameter part before run)).1
    rw [behind, enabledBy_append, ← tracks before run]
    exact (doesAsSaid_iff parameter.terminated).mpr (said front parameter part before run)

end Runs

/-- `start` does not start, and `stop` starts. -/
theorem location_commands_inverted :
    ¬ FollowsKeywords {} initial [.command ⟨"start".toList, by decide⟩] ∧
      ¬ FollowsKeywords {} initial [.command ⟨"stop".toList, by decide⟩] := by
  refine ⟨fun follows => ?_, fun follows => ?_⟩
  · exact absurd (follows [] _ (List.prefix_refl _) initial rfl).1 (by decide)
  · exact absurd (follows [] _ (List.prefix_refl _) initial rfl).1 (by decide)

end CoapsClient.GnssClient
