import CoapsClient.Model.Shell.Dispatch
import Mathlib.Data.List.Chain

/-! # The unlock window over command histories

The window is one timestamp and a bit that mirrors it. `windowAfter` runs a history of commands;
`WindowInvariant` says what a window that is still open at some uptime tells about that history: the
last unlock gave the right password, nothing locked since, and no two commands of the table lie
further apart than the window is long.
-/

namespace CoapsClient.ShCmd

/-- A command that reaches `sh_cmd`: its text, who gave it, the clock at its dispatch and in its
handler, and the password of the settings at that time. -/
structure Event where
  text : Text
  insecure : Bool
  now : ℕ
  handled : ℕ
  password : Text
deriving DecidableEq, Repr

variable (table : List Entry)

/-- The handler a command runs, with its parameter. -/
def runs (window : Window) (event : Event) : Option (Entry × Text) :=
  match (dispatch table window event.now event.text event.insecure).1 with
  | .handled entry parameter _ => some (entry, parameter)
  | _ => none

/-- The window after the checks of `sh_cmd`, when the handler starts. -/
def atHandler (window : Window) (event : Event) : Window :=
  (dispatch table window event.now event.text event.insecure).2

/-- The window after a command. -/
def afterCommand (window : Window) (event : Event) : Window :=
  match runs table window event with
  | some (entry, parameter) =>
      match entry.handler with
      | some handler => handler.run (atHandler table window event) event.handled event.password parameter
      | none => atHandler table window event
  | none => atHandler table window event

/-- The window after a history. -/
def windowAfter (history : List Event) : Window := history.foldl (afterCommand table) {}

/-- A command of the table with a parameter that its entry supports. -/
def passes (event : Event) : Bool :=
  match shCmdGet table event.text with
  | some entry => (event.text.drop (entry.index event.text)).isEmpty || entry.helpHandler
  | none => false

/-- The command runs `unlock` with the right password. -/
def Unlocks (earlier : List Event) (event : Event) : Prop :=
  ∃ entry parameter, runs table (windowAfter table earlier) event = some (entry, parameter) ∧
    entry.handler = some .unlock ∧ parameter = event.password ∧ parameter ≠ []

/-- The command runs `lock`, or `unlock` with a wrong password. -/
def Locks (earlier : List Event) (event : Event) : Prop :=
  ∃ entry parameter, runs table (windowAfter table earlier) event = some (entry, parameter) ∧
    (entry.handler = some .lock ∨
      entry.handler = some .unlock ∧ ¬ (parameter = event.password ∧ parameter ≠ []))

/-- The uptimes that the gaps are measured between: that of the unlock, then those of the commands
that passed the parameter check. -/
def uptimes (unlock : Event) (since : List Event) : List ℕ :=
  unlock.handled :: (since.filter (passes table)).map Event.now

/-- An unlock with the right password, nothing that locked since, and gaps within the window. -/
structure UnlockedSince (history earlier : List Event) (unlock : Event) (since : List Event) : Prop where
  split : history = earlier ++ unlock :: since
  unlocks : Unlocks table earlier unlock
  unlocked : ∀ between event rest, since = between ++ event :: rest →
    ¬ Locks table (earlier ++ unlock :: between) event
  gaps : (uptimes table unlock since).IsChain fun first second => second ≤ first + unlockMillis

/-- The uptimes are positive and do not decrease. -/
structure Ordered (history : List Event) : Prop where
  positive : ∀ event ∈ history, 0 < event.now ∧ event.now ≤ event.handled
  sorted : history.Pairwise fun first second => first.handled ≤ second.now

variable {table} {window : Window} {history : List Event} {event : Event}

/-- A command that does not pass the parameter check touches nothing. -/
private theorem dispatch_of_not_passes (fails : passes table event = false) :
    atHandler table window event = window ∧ runs table window event = none := by
  simp only [passes] at fails
  simp only [atHandler, runs, dispatch]
  cases found : shCmdGet table event.text with
  | none => simp
  | some entry =>
    rw [found] at fails
    simp only [Bool.or_eq_false_iff, List.isEmpty_eq_false_iff] at fails
    simp [fails]

/-- A command that passes the parameter check expires or extends the window. A protected handler is
then run for an insecure caller only if the window did not expire. -/
private theorem dispatch_of_passes (ok : passes table event = true) :
    atHandler table window event = window.check event.now ∧
      ∀ entry parameter, runs table window event = some (entry, parameter) →
        entry.protect = true → event.insecure = true → event.now ≤ window.unlocked := by
  simp only [passes] at ok
  simp only [atHandler, runs, dispatch]
  cases found : shCmdGet table event.text with
  | none => simp [found] at ok
  | some entry =>
    rw [found] at ok
    simp only [Bool.or_eq_true, List.isEmpty_iff] at ok
    have supported : ¬ (event.text.drop (entry.index event.text) ≠ [] ∧ entry.helpHandler = false) := by
      rintro ⟨parameter, noHelp⟩
      rcases ok with empty | help
      · exact parameter empty
      · simp [noHelp] at help
    simp only [if_neg supported]
    by_cases refused : window.unlocked < event.now ∧ entry.protect = true ∧ event.insecure = true
    · simp only [if_pos refused]
      exact ⟨trivial, by simp⟩
    · simp only [if_neg refused]
      have open_of (other : Entry) (same : entry = other) (isProtected : other.protect = true)
          (isInsecure : event.insecure = true) : event.now ≤ window.unlocked := by
        subst same
        by_contra expired
        exact refused ⟨by omega, isProtected, isInsecure⟩
      split
      · exact ⟨rfl, by simp⟩
      · refine ⟨rfl, ?_⟩
        rintro other parameter ran
        simp only [Option.some.injEq, Prod.mk.injEq] at ran
        exact open_of other ran.1

/-- Handlers run only for commands that pass the parameter check. -/
private theorem passes_of_runs {entry : Entry} {parameter : Text}
    (ran : runs table window event = some (entry, parameter)) : passes table event = true := by
  by_contra fails
  rw [Bool.not_eq_true] at fails
  rw [(dispatch_of_not_passes fails).2] at ran
  contradiction

/-- The end of the window follows from the last unlock and the commands since. -/
def Trail (table : List Entry) (history : List Event) (windowEnd : ℕ) : Prop :=
  ∃ earlier unlock since last, UnlockedSince table history earlier unlock since ∧
    (uptimes table unlock since).getLast? = some last ∧ windowEnd = last + unlockMillis

/-- A window that is open at an uptime after the history has its bit clear and a trail. -/
def WindowInvariant (table : List Entry) (history : List Event) (window : Window) : Prop :=
  ∀ now, 0 < now → (∀ event ∈ history, event.handled ≤ now) → now ≤ window.unlocked →
    window.isProtected = false ∧ Trail table history window.unlocked

private theorem unlocked_snoc {earlier since : List Event} {unlock : Event}
    (unlocked : ∀ between event rest, since = between ++ event :: rest →
      ¬ Locks table (earlier ++ unlock :: between) event)
    (harmless : ¬ Locks table (earlier ++ unlock :: since) event) (between : List Event)
    (other : Event) (rest : List Event) (split : since ++ [event] = between ++ other :: rest) :
    ¬ Locks table (earlier ++ unlock :: between) other := by
  rcases List.eq_nil_or_concat rest with rfl | ⟨rest, last, rfl⟩
  · obtain ⟨rfl, same⟩ := List.append_inj' split rfl
    rw [← List.head_eq_of_cons_eq same]
    exact harmless
  · have front : since = between ++ other :: rest := by
      rw [List.concat_eq_append, ← List.cons_append, ← List.append_assoc] at split
      exact (List.append_inj' split rfl).1
    exact unlocked between other rest front

/-- A command that leaves the window alone leaves the trail. -/
theorem Trail.skip {windowEnd : ℕ} (trail : Trail table history windowEnd)
    (fails : passes table event = false) : Trail table (history ++ [event]) windowEnd := by
  obtain ⟨earlier, unlock, since, last, unlockedSince, ends, endEq⟩ := trail
  obtain ⟨rfl, unlocks, unlocked, gaps⟩ := unlockedSince
  have same : uptimes table unlock (since ++ [event]) = uptimes table unlock since := by
    simp [uptimes, List.filter_append, fails]
  refine ⟨earlier, unlock, since ++ [event], last, ⟨by simp, unlocks, ?_, same ▸ gaps⟩, same ▸ ends, endEq⟩
  apply unlocked_snoc unlocked
  rintro ⟨entry, parameter, ran, _⟩
  simp [passes_of_runs ran] at fails

/-- A command inside the window extends the trail. -/
theorem Trail.extend {windowEnd : ℕ} (trail : Trail table history windowEnd)
    (ok : passes table event = true) (inside : event.now ≤ windowEnd)
    (harmless : ¬ Locks table history event) :
    Trail table (history ++ [event]) (event.now + unlockMillis) := by
  obtain ⟨earlier, unlock, since, last, unlockedSince, ends, endEq⟩ := trail
  obtain ⟨rfl, unlocks, unlocked, gaps⟩ := unlockedSince
  have more : uptimes table unlock (since ++ [event]) = uptimes table unlock since ++ [event.now] := by
    simp [uptimes, List.filter_append, ok]
  refine ⟨earlier, unlock, since ++ [event], event.now, ⟨by simp, unlocks,
    unlocked_snoc unlocked harmless, ?_⟩, by rw [more, List.getLast?_concat], rfl⟩
  rw [more, List.isChain_append]
  refine ⟨gaps, List.isChain_singleton _, ?_⟩
  intro first isLast second isHead
  rw [ends] at isLast
  obtain rfl := Option.some.inj isLast
  obtain rfl := Option.some.inj isHead
  omega

/-- The trail of a fresh unlock. -/
theorem Trail.start (unlocks : Unlocks table history event) :
    Trail table (history ++ [event]) (event.handled + unlockMillis) :=
  ⟨history, event, [], event.handled, ⟨rfl, unlocks, by simp, List.isChain_singleton _⟩, rfl, rfl⟩

/-- Each command keeps the invariant. -/
theorem WindowInvariant.step (invariant : WindowInvariant table history (windowAfter table history))
    (positive : 0 < event.now) (later : ∀ other ∈ history, other.handled ≤ event.now)
    (handler : event.now ≤ event.handled) :
    WindowInvariant table (history ++ [event])
      (afterCommand table (windowAfter table history) event) := by
  intro now nowPositive allBefore inside
  have ended : event.handled ≤ now := allBefore event (by simp)
  have before : ∀ other ∈ history, other.handled ≤ now := fun other member =>
    allBefore other (by simp [member])
  set window := windowAfter table history with windowEq
  cases ok : passes table event with
  | false =>
    obtain ⟨same, none⟩ : atHandler table window event = window ∧ runs table window event = none :=
      dispatch_of_not_passes ok
    simp only [afterCommand, none, same] at inside ⊢
    obtain ⟨isOpen, trail⟩ := invariant now nowPositive before inside
    exact ⟨isOpen, trail.skip ok⟩
  | true =>
    have checked : atHandler table window event = window.check event.now := (dispatch_of_passes ok).1
    -- A window that the check found open is extended, one that had expired stays closed.
    have extended (harmless : ¬ Locks table history event) (open' : now ≤ (window.check event.now).unlocked) :
        (window.check event.now).isProtected = false ∧
          Trail table (history ++ [event]) (window.check event.now).unlocked := by
      simp only [Window.check] at open' ⊢
      by_cases expired : window.unlocked < event.now
      · rw [if_pos expired] at open'
        simp only at open'
        omega
      · rw [if_neg expired]
        obtain ⟨isOpen, trail⟩ := invariant event.now positive later (by omega)
        exact ⟨isOpen, trail.extend ok (by omega) harmless⟩
    cases ran : runs table window event with
    | none =>
      simp only [afterCommand, ran, checked] at inside ⊢
      exact extended (by rintro ⟨_, _, other, _⟩; rw [← windowEq, ran] at other; contradiction) inside
    | some command =>
      obtain ⟨entry, parameter⟩ := command
      have unique : ∀ other parameter', runs table (windowAfter table history) event =
          some (other, parameter') → entry = other ∧ parameter = parameter' := by
        intro other parameter' same
        rw [← windowEq, ran] at same
        simpa using same
      have plain (silent : entry.handler ≠ some .lock ∧ entry.handler ≠ some .unlock) :
          ¬ Locks table history event := by
        rintro ⟨other, parameter', ran', locks | ⟨unlocks, _⟩⟩
        · exact silent.1 ((unique _ _ ran').1 ▸ locks)
        · exact silent.2 ((unique _ _ ran').1 ▸ unlocks)
      simp only [afterCommand, ran, checked] at inside ⊢
      cases handlerEq : entry.handler with
      | none =>
        simp only [handlerEq] at inside ⊢
        exact extended (plain (by simp [handlerEq])) inside
      | some which =>
        simp only [handlerEq] at inside ⊢
        cases which with
        | other number => exact extended (plain (by simp [handlerEq])) inside
        | lock =>
          simp only [Handler.run, shCmdLock] at inside
          omega
        | unlock =>
          simp only [Handler.run, shCmdUnlock] at inside ⊢
          by_cases right : settingsUnlock event.password parameter = true
          · simp only [if_pos right] at inside ⊢
            exact ⟨trivial, Trail.start ⟨entry, parameter, windowEq ▸ ran, handlerEq,
              settingsUnlock_eq_true_iff.mp right⟩⟩
          · simp only [if_neg right] at inside
            omega

private theorem windowAfter_snoc (history : List Event) (event : Event) :
    windowAfter table (history ++ [event]) =
      afterCommand table (windowAfter table history) event := by
  simp [windowAfter]

/-- The invariant holds after every history with ordered uptimes. -/
private theorem windowInvariant (ordered : Ordered history) :
    WindowInvariant table history (windowAfter table history) := by
  induction history using List.reverseRecOn with
  | nil =>
    intro now positive _ inside
    simp only [windowAfter, List.foldl_nil] at inside
    omega
  | append_singleton history event ih =>
    obtain ⟨positive, sorted⟩ := ordered
    rw [List.pairwise_append] at sorted
    obtain ⟨front, _, across⟩ := sorted
    have times := positive event (by simp)
    rw [windowAfter_snoc]
    apply (ih ⟨fun other member => positive other (by simp [member]), front⟩).step times.1 _ times.2
    intro other member
    exact across other member event (by simp)

/-- While a handler that the window lets pass is running, the bit mirrors the window. -/
private theorem bit_mirrors_window (invariant : WindowInvariant table history window) (positive : 0 < event.now)
    (later : ∀ other ∈ history, other.handled ≤ event.now) (ok : passes table event = true) :
    (shProtected (atHandler table window event) = true ↔ window.unlocked < event.now) ∧
      (shProtected (atHandler table window event) = true ↔
        (atHandler table window event).unlocked < event.now) := by
  rw [(dispatch_of_passes ok).1]
  simp only [shProtected, Window.check]
  by_cases expired : window.unlocked < event.now
  · simp [expired]
  · obtain ⟨isOpen, _⟩ := invariant event.now positive later (by omega)
    simp [expired, isOpen]

/-- For every history of commands with ordered uptimes and every handler run after it: a protected
handler runs for an insecure caller only inside an unlock window that the history accounts for, and
`sh_protected` tells, when the handler starts and after what it did to the window, whether the
dispatch lies behind the window's end. -/
theorem unlock_window (table : List Entry) {history : List Event} {event : Event}
    (ordered : Ordered (history ++ [event])) {entry : Entry} {parameter : Text}
    (ran : runs table (windowAfter table history) event = some (entry, parameter)) :
    (entry.protect = true → event.insecure = true →
      ∃ earlier unlock since, UnlockedSince table history earlier unlock since ∧
        (uptimes table unlock (since ++ [event])).IsChain fun first second =>
          second ≤ first + unlockMillis) ∧
      (shProtected (atHandler table (windowAfter table history) event) = true ↔
        (windowAfter table history).unlocked < event.now) ∧
      (shProtected (afterCommand table (windowAfter table history) event) = true ↔
        (afterCommand table (windowAfter table history) event).unlocked < event.now) := by
  obtain ⟨positive, sorted⟩ := ordered
  rw [List.pairwise_append] at sorted
  obtain ⟨front, _, across⟩ := sorted
  have later : ∀ other ∈ history, other.handled ≤ event.now := fun other member =>
    across other member event (by simp)
  obtain ⟨nowPositive, handler⟩ := positive event (by simp)
  have invariant : WindowInvariant table history (windowAfter table history) :=
    windowInvariant ⟨fun other member => positive other (by simp [member]), front⟩
  have ok := passes_of_runs ran
  obtain ⟨mirrors, still⟩ := bit_mirrors_window invariant nowPositive later ok
  refine ⟨?_, mirrors, ?_⟩
  · intro isProtected isInsecure
    have inside := (dispatch_of_passes ok).2 entry parameter ran isProtected isInsecure
    obtain ⟨_, earlier, unlock, since, last, unlockedSince, ends, endEq⟩ :=
      invariant event.now nowPositive later inside
    refine ⟨earlier, unlock, since, unlockedSince, ?_⟩
    have more : uptimes table unlock (since ++ [event]) = uptimes table unlock since ++ [event.now] := by
      simp [uptimes, List.filter_append, ok]
    rw [more, List.isChain_append]
    refine ⟨unlockedSince.gaps, List.isChain_singleton _, ?_⟩
    intro first isLast second isHead
    rw [ends] at isLast
    obtain rfl := Option.some.inj isLast
    obtain rfl := Option.some.inj isHead
    omega
  · simp only [afterCommand, ran]
    cases entry.handler with
    | none => exact still
    | some which =>
      cases which with
      | other number => exact still
      | lock => simp [Handler.run, shCmdLock, shProtected, nowPositive]
      | unlock =>
        simp only [Handler.run, shCmdUnlock, shProtected]
        split
        · simp only [Bool.false_eq_true, false_iff]
          omega
        · simp [nowPositive]

theorem unlock_window_del :
    let unlock : Event := ⟨"unlock secret".toList, true, 1000, 1001, "secret".toList⟩
    let del : Event := ⟨"del scope".toList, true, 50000, 50000, "secret".toList⟩
    runs smallTable (windowAfter smallTable [unlock]) del = some (delEntry, "scope".toList) ∧
      ∃ earlier last since, UnlockedSince smallTable [unlock] earlier last since ∧
        (uptimes smallTable last (since ++ [del])).IsChain fun first second =>
          second ≤ first + unlockMillis := by
  intro unlock del
  have ran : runs smallTable (windowAfter smallTable [unlock]) del = some (delEntry, "scope".toList) := by
    decide
  have ordered : Ordered ([unlock] ++ [del]) := ⟨by decide, by decide⟩
  exact ⟨ran, (unlock_window smallTable ordered ran).1 rfl rfl⟩

end CoapsClient.ShCmd
