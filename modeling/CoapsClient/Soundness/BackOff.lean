import CoapsClient.Model.Dtls.RetryAndFailures
import Mathlib.Order.MinMax
import Mathlib.Tactic.Ring

/-! # The timeouts of a request

A request waits for the scaled `coap_timeout`, and after each retransmission twice as long. Both are kept in 16 bits.
As long as these lose nothing, the first timeout is at least the configured one and the timeouts of a request are the
powers of two of the first, up to the third retransmission.
-/

namespace CoapsClient.DtlsClient

open Machine (Path guarded)

/-- What 16 bits drop of a scaled timeout is at most what the scale adds. -/
def ScaleFits (timeScale timeout : ℕ) : Prop :=
  65536 * (timeout * timeScale / 100 / 65536) ≤ timeout * timeScale / 100 - timeout

instance (timeScale timeout : ℕ) : Decidable (ScaleFits timeScale timeout) := inferInstanceAs (Decidable (_ ≤ _))

section Initial

variable {env : Env} {client : Client} {timeout : ℕ}

private theorem le_networkTimeoutScale_iff (range : timeout < 65536) :
    timeout ≤ networkTimeoutScale env timeout ↔ ScaleFits env.timeScale timeout := by
  unfold networkTimeoutScale ScaleFits
  split
  · next large =>
    have more : timeout ≤ timeout * env.timeScale / 100 := by
      rw [Nat.le_div_iff_mul_le (by decide)]
      exact Nat.mul_le_mul_left timeout large.le
    omega
  · next small =>
    have less : timeout * env.timeScale / 100 ≤ timeout := by
      refine Nat.div_le_of_le_mul ?_
      rw [Nat.mul_comm 100]
      exact Nat.mul_le_mul_left timeout (by omega)
    omega

/-- `network_adjust_initial_timeout` sets at least the configured timeout, or leaves one that is long enough. -/
private theorem networkAdjustInitialTimeout_ge_iff (set : Bool) (range : client.coapTimeout < 65536) :
    client.coapTimeout ≤ (networkAdjustInitialTimeout env client set).timeout ↔
      set = false ∧ client.coapTimeout ≤ client.timeout ∨ ScaleFits env.timeScale client.coapTimeout := by
  rw [← le_networkTimeoutScale_iff range]
  unfold networkAdjustInitialTimeout
  cases set with
  | true => simp
  | false =>
    simp only [Bool.false_eq_true, false_or, true_and]
    split
    · next more =>
      change client.coapTimeout ≤ networkTimeoutScale env client.coapTimeout ↔ _
      omega
    · omega

end Initial

/-- A client, and what was in effect at the retransmissions of its request. -/
structure Watched where
  client : Client
  /-- The configured timeout at the first retransmission. -/
  configured : ℕ := 0
  /-- The timeout in effect at the first retransmission. -/
  first : ℕ := 0
  /-- The timeout in effect at the last retransmission. -/
  previous : ℕ := 0
deriving DecidableEq

/-- The timeout in effect when a request is sent again. -/
def currentTimeout (env : Env) (client : Client) : ℕ := (adjustFirst env client false).timeout

def Watched.watch (watched : Watched) (label : Label) (next : Client) : Watched :=
  if label.event = .loop ∧ Resends label.env watched.client then
    let current := currentTimeout label.env watched.client
    if watched.client.retransmission = 0 then ⟨next, watched.client.coapTimeout, current, current⟩
    else { watched with client := next, previous := current }
  else { watched with client := next }

/-- A step of the client, watched. -/
def watchedStep (config : Config) (watched : Watched) (label : Label) : Option Watched :=
  (step config watched.client label).map (watched.watch label)

/-- `sh_cmd_coap_timeout` sets a timeout of 16 bits that is not 0. -/
def Accepted (label : Label) : Prop :=
  match label.event with
  | .coapTimeout seconds => 0 < seconds ∧ seconds < 65536
  | _ => True

instance (label : Label) : Decidable (Accepted label) := by
  unfold Accepted
  cases label.event <;> infer_instance

/-- A request that is sent again loses nothing in 16 bits. -/
def Unwrapped (watched : Watched) (label : Label) : Prop :=
  label.event = .loop → Resends label.env watched.client →
    2 * watched.client.timeout < 65536 ∧
      (watched.client.retransmission = 0 →
        2 * networkTimeoutScale label.env watched.client.coapTimeout < 65536 ∧
          (watched.client.coapTimeout ≤ watched.client.timeout ∨
            ScaleFits label.env.timeScale watched.client.coapTimeout))

instance (watched : Watched) (label : Label) : Decidable (Unwrapped watched label) :=
  inferInstanceAs (Decidable (_ → _ → _))

/-- After some retransmissions the timeout is a power of two of the first, and longer than the one before. -/
structure Watched.BackedOff (watched : Watched) : Prop where
  retransmissions : watched.client.retransmission ≤ maxRetransmission
  doubled : 0 < watched.client.retransmission →
    watched.client.timeout = 2 ^ watched.client.retransmission * watched.first
  configured : 0 < watched.client.retransmission → watched.configured ≤ watched.first
  longer : 0 < watched.client.retransmission → watched.previous < watched.client.timeout

section Run

variable {config : Config} {env : Env} {client : Client} {watched next : Watched} {label : Label}

private theorem currentTimeout_first (none : client.retransmission = 0) :
    currentTimeout env client = max client.timeout (networkTimeoutScale env client.coapTimeout) := by
  unfold currentTimeout adjustFirst networkAdjustInitialTimeout
  rw [if_pos none]
  simp only [Bool.false_eq_true, false_or]
  split
  · next more => exact (max_eq_right more.le).symm
  · next less => exact (max_eq_left (not_lt.mp less)).symm

private theorem currentTimeout_again (again : client.retransmission ≠ 0) : currentTimeout env client = client.timeout := by
  unfold currentTimeout adjustFirst
  rw [if_neg again]

/-- What holds of a watched client in a run. -/
structure Watched.Sound (watched : Watched) : Prop extends watched.BackedOff where
  positive : 0 < watched.client.coapTimeout
  range : watched.client.coapTimeout < 65536
  some_first : 0 < watched.client.retransmission → 0 < watched.first

/-- A step that starts with no retransmission again. -/
theorem Watched.Sound.of_zero (none : next.client.retransmission = 0) (positive : 0 < next.client.coapTimeout)
    (range : next.client.coapTimeout < 65536) : next.Sound where
  retransmissions := none ▸ Nat.zero_le _
  doubled some := absurd none some.ne'
  configured some := absurd none some.ne'
  longer some := absurd none some.ne'
  positive
  range
  some_first some := absurd none some.ne'

/-- The first retransmission doubles the timeout in effect. -/
theorem Watched.Sound.first_resend {current coapTimeout : ℕ} {sent : Client} (positive : 0 < coapTimeout)
    (range : coapTimeout < 65536) (least : coapTimeout ≤ current) (counted : sent.retransmission = 1)
    (timeout : sent.timeout = 2 * current) (same : sent.coapTimeout = coapTimeout) :
    Watched.Sound ⟨sent, coapTimeout, current, current⟩ where
  retransmissions := by
    change sent.retransmission ≤ 3
    omega
  doubled _ := by
    change sent.timeout = 2 ^ sent.retransmission * current
    rw [counted, timeout, pow_one]
  configured _ := least
  longer _ := by
    change current < sent.timeout
    omega
  positive := same ▸ positive
  range := same ▸ range
  some_first _ := positive.trans_le least

/-- A further retransmission doubles the timeout again. -/
theorem Watched.Sound.next_resend {sent : Client} (sound : watched.Sound) (some : 0 < watched.client.retransmission)
    (more : watched.client.retransmission < maxRetransmission)
    (counted : sent.retransmission = watched.client.retransmission + 1) (timeout : sent.timeout = 2 * watched.client.timeout)
    (same : sent.coapTimeout = watched.client.coapTimeout) :
    Watched.Sound { watched with client := sent, previous := watched.client.timeout } where
  retransmissions := by
    change sent.retransmission ≤ maxRetransmission
    omega
  doubled _ := by
    change sent.timeout = 2 ^ sent.retransmission * watched.first
    rw [counted, timeout, sound.doubled some, Nat.pow_succ, Nat.mul_comm (2 ^ _) 2, Nat.mul_assoc]
  configured _ := sound.configured some
  longer _ := by
    change watched.client.timeout < sent.timeout
    have doubled := sound.doubled some
    have positive := Nat.mul_pos (Nat.two_pow_pos watched.client.retransmission) (sound.some_first some)
    omega
  positive := same ▸ sound.positive
  range := same ▸ sound.range
  some_first _ := sound.some_first some

/-- A retransmission doubles the timeout in effect. -/
theorem Watched.Sound.resend (sound : watched.Sound) (unwrapped : Unwrapped watched label) (loops : label.event = .loop)
    (resends : Resends label.env watched.client) {sent : Client}
    (same : sent.retry = watched.client.doubled label.env) : (watched.watch label sent).Sound := by
  obtain ⟨small, first⟩ := unwrapped loops resends
  have counted : sent.retransmission = watched.client.retransmission + 1 := congrArg Retry.retransmission same
  have timeout : sent.timeout = currentTimeout label.env watched.client * 2 % 65536 := congrArg Retry.timeout same
  have coapTimeout : sent.coapTimeout = watched.client.coapTimeout := congrArg Retry.coapTimeout same
  unfold Watched.watch
  rw [if_pos ⟨loops, resends⟩]
  dsimp only
  split
  · next none =>
    obtain ⟨scaled, enough⟩ := first none
    have current := @currentTimeout_first label.env watched.client none
    refine .first_resend sound.positive sound.range ?_ (by omega) (by omega) coapTimeout
    rcases enough with long | fits
    · omega
    · have scale := (@le_networkTimeoutScale_iff label.env _ sound.range).mpr fits
      omega
  · next again =>
    rw [currentTimeout_again again] at timeout ⊢
    exact sound.next_resend (Nat.pos_of_ne_zero again) resends.2.2.2.2 counted (by omega) coapTimeout

/-- A step that is no retransmission leaves what was in effect. -/
theorem Watched.Sound.keep {sent : Client} (sound : watched.Sound)
    (counted : sent.retransmission = watched.client.retransmission) (timeout : sent.timeout = watched.client.timeout)
    (positive : 0 < sent.coapTimeout) (range : sent.coapTimeout < 65536) :
    Watched.Sound { watched with client := sent } where
  retransmissions := by
    change sent.retransmission ≤ maxRetransmission
    exact counted ▸ sound.retransmissions
  doubled := by
    change 0 < sent.retransmission → sent.timeout = 2 ^ sent.retransmission * watched.first
    rw [counted, timeout]
    exact sound.doubled
  configured some := sound.configured (counted ▸ some)
  longer some := by
    change watched.previous < sent.timeout
    exact timeout ▸ sound.longer (counted ▸ some)
  positive := positive
  range := range
  some_first some := sound.some_first (counted ▸ some)

/-- Only an accepted timeout is configured. -/
theorem Watched.Sound.retriedBy_coapTimeout (sound : watched.Sound) (accepted : Accepted label) :
    0 < (watched.client.retriedBy label).coapTimeout ∧ (watched.client.retriedBy label).coapTimeout < 65536 := by
  have before := And.intro sound.positive sound.range
  unfold Accepted at accepted
  unfold Client.retriedBy
  cases event : label.event with
  | coapTimeout seconds =>
    rw [event] at accepted
    exact accepted
  | loop =>
    dsimp only
    unfold Client.retried
    split <;> exact before
  | _ => exact before

private theorem retriedBy_resends (loops : label.event = .loop) (resends : Resends label.env client) :
    client.retriedBy label = client.doubled label.env := by
  unfold Client.retriedBy
  rw [loops]
  exact if_pos resends

private theorem retriedBy_keeps (other : ¬ (label.event = .loop ∧ Resends label.env client)) :
    (client.retriedBy label).retransmission = client.retransmission ∧
      (client.retriedBy label).timeout = client.timeout := by
  unfold Client.retriedBy
  cases event : label.event with
  | loop =>
    dsimp only
    rw [Client.retried, if_neg fun resends => other ⟨event, resends⟩]
    exact ⟨rfl, rfl⟩
  | _ => exact ⟨rfl, rfl⟩

/-- Every step of a run keeps what holds of the watched client. -/
theorem Watched.Sound.step (sound : watched.Sound) (accepted : Accepted label) (unwrapped : Unwrapped watched label)
    (moved : watchedStep config watched label = some next) : next.Sound := by
  obtain ⟨sent, stepped, rfl⟩ := Option.map_eq_some_iff.mp moved
  have watching : (watched.watch label sent).client = sent := by
    unfold Watched.watch
    dsimp only
    repeat' split
    all_goals rfl
  obtain ⟨positive, range⟩ := sound.retriedBy_coapTimeout accepted
  have kept := step_kept stepped
  have configured : sent.coapTimeout = (watched.client.retriedBy label).coapTimeout := kept.1
  rcases kept.2 with zero | same
  · have none : (watched.watch label sent).client.retransmission = 0 := watching.symm ▸ zero
    have coapTimeout := watching.symm ▸ configured
    exact .of_zero none (coapTimeout ▸ positive) (coapTimeout ▸ range)
  · by_cases resends : label.event = .loop ∧ Resends label.env watched.client
    · exact sound.resend unwrapped resends.1 resends.2 (same.trans (retriedBy_resends resends.1 resends.2))
    · obtain ⟨counted, timeout⟩ := retriedBy_keeps resends
      rw [Watched.watch, if_neg resends]
      refine sound.keep ?_ ?_ (configured ▸ positive) (configured ▸ range)
      · exact (congrArg Retry.retransmission same).trans counted
      · exact (congrArg Retry.timeout same).trans timeout

end Run

/-- The client at the begin of `dtls_loop`. -/
def watchedInitial (config : Config) (token interval : ℕ) : Watched := { client := initial config token interval }

private theorem watchedInitial_sound (config : Config) (token interval : ℕ) :
    (watchedInitial config token interval).Sound :=
  .of_zero rfl (show 0 < 3 by decide) (show 3 < 65536 by decide)

/-- The watched runs of a client whose steps meet a condition. -/
def WatchedRun (config : Config) (condition : Watched → Label → Prop) (token interval : ℕ) (labels : List Label)
    (watched : Watched) : Prop :=
  Path (guarded (fun watched label next => watchedStep config watched label = some next)
    fun watched label => Accepted label ∧ condition watched label) (watchedInitial config token interval) labels watched

/-- The initial timeout is at least the configured one exactly if 16 bits do not drop more than the scale adds, or the
timeout of the request is long enough already; and in a run whose retransmissions lose nothing in 16 bits, the timeout
is that power of two of the first that the retransmissions count. -/
theorem timeouts_backedOff (config : Config) :
    (∀ (env : Env) (client : Client) (set : Bool), client.coapTimeout < 65536 →
      (client.coapTimeout ≤ (networkAdjustInitialTimeout env client set).timeout ↔
        set = false ∧ client.coapTimeout ≤ client.timeout ∨ ScaleFits env.timeScale client.coapTimeout)) ∧
    ∀ (token interval : ℕ) (labels : List Label) (watched : Watched),
      WatchedRun config Unwrapped token interval labels watched → watched.BackedOff := by
  constructor
  · intro env client set range
    exact networkAdjustInitialTimeout_ge_iff set range
  · intro token interval labels watched run
    have sound := Path.invariant Watched.Sound
      (fun before label after holds moved => holds.step moved.1.1 moved.1.2 moved.2) run
      (watchedInitial_sound config token interval)
    exact sound.toBackedOff

/-- A run as far as its steps meet the condition. -/
def watchedFold (config : Config) (condition : Watched → Label → Prop) [∀ watched label, Decidable (condition watched label)]
    (labels : List Label) : Option Watched :=
  labels.foldlM (fun watched label => if Accepted label ∧ condition watched label then watchedStep config watched label
    else none) (watchedInitial config 7 3600)

private theorem watchedFold_run {config : Config} {condition : Watched → Label → Prop}
    [∀ watched label, Decidable (condition watched label)] {labels : List Label} {watched : Watched}
    (ran : watchedFold config condition labels = some watched) : WatchedRun config condition 7 3600 labels watched :=
  Path.guarded_of_foldlM ran

/-- A request is sent again after four seconds without a response. -/
theorem timeouts_backedOff_once :
    (3 ≤ (networkAdjustInitialTimeout { timeScale := 150 } {} true).timeout ↔ true = false ∧ 3 ≤ 3 ∨ ScaleFits 150 3) ∧
      ∃ watched, watchedFold {} Unwrapped (initialRequest ++ turns 40) = some watched ∧
        watched.client.retransmission = 1 ∧ watched.BackedOff := by
  have ran : ((watchedFold {} Unwrapped (initialRequest ++ turns 40)).map (·.client.retransmission)) = some 1 := by
    decide +kernel
  obtain ⟨watched, found, once⟩ := Option.map_eq_some_iff.mp ran
  exact ⟨(timeouts_backedOff {}).1 { timeScale := 150 } {} true (by decide), watched, found, once,
    (timeouts_backedOff {}).2 7 3600 _ watched (watchedFold_run found)⟩

/-- With bad coverage 13108 seconds become 4, and 40000 seconds that are configured while a request waits become 14464
at its first retransmission. -/
theorem timeouts_not_backedOff :
    (¬ ∀ (env : Env) (client : Client) (set : Bool), env.timeScale ∈ [100, 150, 200, 350, 500] → 0 < client.coapTimeout →
      client.coapTimeout < 65536 → client.coapTimeout ≤ (networkAdjustInitialTimeout env client set).timeout) ∧
    ¬ ∀ (token interval : ℕ) (labels : List Label) (watched : Watched),
      WatchedRun {} (fun _ _ => True) token interval labels watched → watched.BackedOff := by
  constructor
  · intro all
    exact absurd (all { timeScale := 500 } { coapTimeout := 13108 } true (by decide) (by decide) (by decide)) (by decide)
  · intro all
    have ran : ((watchedFold {} (fun _ _ => True) (initialRequest ++ { event := .coapTimeout 40000 } :: turns 40)).map
        fun watched => (watched.client.retransmission, watched.client.timeout, watched.first)) =
          some (1, 14464, 40000) := by decide +kernel
    obtain ⟨watched, found, values⟩ := Option.map_eq_some_iff.mp ran
    obtain ⟨once, timeout, first⟩ : watched.client.retransmission = 1 ∧ watched.client.timeout = 14464 ∧
        watched.first = 40000 := by simpa using values
    have doubled := (all 7 3600 _ watched (watchedFold_run found)).doubled (by omega)
    rw [once, timeout, first] at doubled
    omega

end CoapsClient.DtlsClient
