import Mathlib.Data.List.Count
import ScryProxy.ForStd.Trace
import ScryProxy.Native.CircuitBreaker

/-!
# Requests through the circuit breaker

The breaker together with the requests it admitted: an outcome is recorded once for each of
them, at any later time and in any order.  Requests are numbered as they are admitted, so that
those admitted since the breaker became half-open are the numbers from `firstProbe` on.

## Key results

- `breaker_changes_iff`: the runs with documented state changes only
- `half_open_probes`: how many requests a half-open breaker lets through
-/

namespace ScryProxy

/-- A request asks for admission, or an admitted request reports its outcome. -/
inductive TrafficEvent where
  | request
  | success (id : Nat)
  | failure (id : Nat) (unhealthy : Bool)
  deriving DecidableEq, Repr

/-- A breaker and its requests. -/
structure Traffic where
  breaker : CircuitBreaker
  /-- Requests admitted so far; the next one gets this number. -/
  issued : Nat
  /-- Admitted requests without an outcome. -/
  inFlight : List Nat
  /-- The request that last made the breaker half-open. -/
  firstProbe : Nat
  /-- Successes recorded since then. -/
  successes : Nat
  deriving DecidableEq, Repr

namespace Traffic

def start (config : CircuitBreakerConfig) (now : UInt64) : Traffic :=
  ⟨CircuitBreaker.new config now, 0, [], 0, 0⟩

/-- A request is admitted and leaves the breaker `cb`. -/
def accept (x : Traffic) (cb : CircuitBreaker) : Traffic :=
  let entered := cb.state = .halfOpen ∧ x.breaker.state ≠ .halfOpen
  { breaker := cb
    issued := x.issued + 1
    inFlight := x.issued :: x.inFlight
    firstProbe := if entered then x.issued else x.firstProbe
    successes := if entered then 0 else x.successes }

/-- One call of the breaker, at the given time. -/
def step (x : Traffic) (e : UInt64 × TrafficEvent) : Option Traffic :=
  match e.2 with
  | .request =>
    match x.breaker.allowRequest .wrapping e.1 with
    | .ok (.ok (), cb) => some (x.accept cb)
    | .ok (.error _, cb) => some { x with breaker := cb }
    | .error _ => none
  | .success id =>
    if id ∈ x.inFlight then
      match x.breaker.recordSuccess .wrapping e.1 with
      | .ok cb => some { x with
          breaker := cb
          inFlight := x.inFlight.erase id
          successes := x.successes + 1 }
      | .error _ => none
    else none
  | .failure id unhealthy =>
    if id ∈ x.inFlight then
      match x.breaker.recordFailure .wrapping e.1 unhealthy with
      | .ok cb => some { x with breaker := cb, inFlight := x.inFlight.erase id }
      | .error _ => none
    else none

/-- Requests admitted since the breaker became half-open, the first one included. -/
def probes (x : Traffic) : Nat := x.issued - x.firstProbe

/-- Those of them that have no outcome yet. -/
def unfinished (x : Traffic) : Nat := x.inFlight.countP fun id => x.firstProbe ≤ id

/-! ## One step -/

variable {x x' : Traffic} {now : UInt64}

/-- A request passes and the state stays, it is the first probe, it finds enough successes and
    closes the breaker, or it is rejected. -/
theorem step_request (h : x.step (now, .request) = some x') :
    (∃ cb, cb.config = x.breaker.config ∧ cb.state = x.breaker.state ∧
        cb.consecutiveSuccesses = x.breaker.consecutiveSuccesses ∧ x' = x.accept cb) ∨
      (x.breaker.config.enabled = true ∧ x.breaker.state = .opened ∧
        x' = x.accept (x.breaker.probing now).countAllowed) ∨
      (x.breaker.state = .halfOpen ∧
        x.breaker.config.successThreshold ≤ x.breaker.consecutiveSuccesses ∧
        x' = x.accept (x.breaker.transitionToClosed now).countAllowed) ∨
      (x.breaker.state = .opened ∧ x' = { x with breaker := x.breaker.countRejected }) := by
  obtain ⟨answer, cb, hallow⟩ := x.breaker.allowRequest_returns now
  simp only [step, hallow] at h
  rcases CircuitBreaker.allowRequest_cases hallow with
    ⟨-, rfl, rfl⟩ | ⟨-, -, rfl, rfl⟩ | ⟨-, hopen, rfl, rfl⟩ | ⟨hon, hopen, rfl, rfl⟩ |
    ⟨-, -, -, rfl, rfl⟩ | ⟨-, hhalf, hgate, rfl, rfl⟩
  · cases h; exact .inl ⟨x.breaker, rfl, rfl, rfl, rfl⟩
  · cases h; exact .inl ⟨x.breaker.countAllowed, rfl, rfl, rfl, rfl⟩
  · cases h; exact .inr (.inr (.inr ⟨hopen, rfl⟩))
  · cases h; exact .inr (.inl ⟨hon, hopen, rfl⟩)
  · cases h; exact .inl ⟨x.breaker.countAllowed, rfl, rfl, rfl, rfl⟩
  · cases h; exact .inr (.inr (.inl ⟨hhalf, hgate, rfl⟩))

theorem step_success {id : Nat} (h : x.step (now, .success id) = some x') :
    id ∈ x.inFlight ∧ ∃ cb, x.breaker.recordSuccess .wrapping now = .ok cb ∧
      x' = { x with
        breaker := cb
        inFlight := x.inFlight.erase id
        successes := x.successes + 1 } := by
  obtain ⟨cb, hrecord⟩ := x.breaker.recordSuccess_returns now
  simp only [step, hrecord] at h
  split at h
  · next hmem => cases h; exact ⟨hmem, cb, hrecord, rfl⟩
  · cases h

theorem step_failure {id : Nat} {unhealthy : Bool}
    (h : x.step (now, .failure id unhealthy) = some x') :
    id ∈ x.inFlight ∧ ∃ cb, x.breaker.recordFailure .wrapping now unhealthy = .ok cb ∧
      x' = { x with breaker := cb, inFlight := x.inFlight.erase id } := by
  obtain ⟨cb, hrecord⟩ := x.breaker.recordFailure_returns now unhealthy
  simp only [step, hrecord] at h
  split at h
  · next hmem => cases h; exact ⟨hmem, cb, hrecord, rfl⟩
  · cases h

/-- In a half-open breaker the counter holds the successes since it became half-open, and every
    probe is unfinished or one of them. -/
structure Tallied (config : CircuitBreakerConfig) (x : Traffic) : Prop where
  config_eq : x.breaker.config = config
  first_le : x.firstProbe ≤ x.issued
  enabled : x.breaker.state = .halfOpen → config.enabled = true
  counted : x.breaker.state = .halfOpen → x.successes = x.breaker.consecutiveSuccesses.toNat
  below : x.breaker.state = .halfOpen → x.breaker.consecutiveSuccesses = 0 ∨
    x.breaker.consecutiveSuccesses < config.successThreshold
  probes_le : x.breaker.state = .halfOpen → x.probes ≤ x.unfinished + x.successes

variable {config : CircuitBreakerConfig}

theorem Tallied.start (now : UInt64) : Tallied config (start config now) where
  config_eq := rfl
  first_le := Nat.le_refl 0
  enabled h := by cases h
  counted h := by cases h
  below h := by cases h
  probes_le h := by cases h

/-- An event that does not leave the breaker half-open. -/
theorem Tallied.leaves (h : Tallied config x) (hconfig : x'.breaker.config = x.breaker.config)
    (hfirst : x'.firstProbe ≤ x'.issued) (hstate : x'.breaker.state ≠ .halfOpen) :
    Tallied config x' where
  config_eq := hconfig.trans h.config_eq
  first_le := hfirst
  enabled hhalf := absurd hhalf hstate
  counted hhalf := absurd hhalf hstate
  below hhalf := absurd hhalf hstate
  probes_le hhalf := absurd hhalf hstate

theorem unfinished_accept (hfirst : x.firstProbe ≤ x.issued) {cb : CircuitBreaker}
    (hstate : cb.state = x.breaker.state) : (x.accept cb).unfinished = x.unfinished + 1 := by
  have hstays : ¬ (cb.state = .halfOpen ∧ x.breaker.state ≠ .halfOpen) := by
    rw [hstate]
    exact fun h => h.2 h.1
  simp [unfinished, accept, hstays, hfirst]

/-- A request that the breaker lets pass without a change of its state. -/
theorem Tallied.passes (h : Tallied config x) {cb : CircuitBreaker}
    (hconfig : cb.config = x.breaker.config) (hstate : cb.state = x.breaker.state)
    (hsuccesses : cb.consecutiveSuccesses = x.breaker.consecutiveSuccesses) :
    Tallied config (x.accept cb) := by
  have hstays : ¬ (cb.state = .halfOpen ∧ x.breaker.state ≠ .halfOpen) := by
    rw [hstate]
    exact fun h => h.2 h.1
  have hhalf : (x.accept cb).breaker.state = .halfOpen → x.breaker.state = .halfOpen :=
    fun hh => hstate ▸ hh
  refine ⟨hconfig.trans h.config_eq, ?_, fun hh => h.enabled (hhalf hh), fun hh => ?_,
    fun hh => ?_, fun hh => ?_⟩
  · have := h.first_le
    simp only [accept, hstays, if_false]
    omega
  · simp only [accept, hstays, if_false, hsuccesses]
    exact h.counted (hhalf hh)
  · simp only [accept, hsuccesses]
    exact h.below (hhalf hh)
  · have hle := h.probes_le (hhalf hh)
    have hfirst := h.first_le
    rw [unfinished_accept hfirst hstate]
    simp only [probes, accept, hstays, if_false] at hle ⊢
    omega

/-- The request that makes the breaker half-open is the first probe. -/
theorem Tallied.enters (h : Tallied config x) (henabled : config.enabled = true)
    (hopen : x.breaker.state = .opened) :
    Tallied config (x.accept (x.breaker.probing now).countAllowed) := by
  have hentered : (x.breaker.probing now).countAllowed.state = .halfOpen ∧
      x.breaker.state ≠ .halfOpen := ⟨rfl, by simp [hopen]⟩
  refine ⟨h.config_eq, ?_, fun _ => henabled, fun _ => ?_, fun _ => .inl rfl, fun _ => ?_⟩
  · simp [accept, hentered]
  · simp [accept, hentered, CircuitBreaker.probing, CircuitBreaker.countAllowed]
  · simp [probes, unfinished, accept, hentered]

theorem Tallied.request (h : Tallied config x) (hstep : x.step (now, .request) = some x') :
    Tallied config x' := by
  rcases step_request hstep with ⟨cb, hconfig, hstate, hsuccesses, rfl⟩ | ⟨hon, hopen, rfl⟩ |
    ⟨hhalf, -, rfl⟩ | ⟨hopen, rfl⟩
  · exact h.passes hconfig hstate hsuccesses
  · exact h.enters (h.config_eq ▸ hon) hopen
  · have hfirst := h.first_le
    refine h.leaves rfl ?_ (by simp [accept, CircuitBreaker.transitionToClosed,
      CircuitBreaker.countAllowed])
    simp only [accept, hhalf, ne_eq, not_true_eq_false, and_false, if_false]
    omega
  · exact h.leaves rfl h.first_le (by simp [CircuitBreaker.countRejected, hopen])

/-- The counter of a half-open breaker does not wrap. -/
theorem Tallied.toNat_succ (h : Tallied config x) (hhalf : x.breaker.state = .halfOpen) :
    (x.breaker.consecutiveSuccesses + 1).toNat = x.breaker.consecutiveSuccesses.toNat + 1 := by
  rcases h.below hhalf with hzero | hlt
  · simp [hzero]
  · exact Rust.toNat_succ_of_lt hlt

/-- An outcome takes one request out of those in flight. -/
theorem unfinished_erase (x : Traffic) (id : Nat) :
    x.unfinished ≤ (x.inFlight.erase id).countP (fun n => x.firstProbe ≤ n) + 1 := by
  rw [unfinished, List.countP_erase]
  split
  · omega
  · omega

theorem Tallied.success (h : Tallied config x) {id : Nat}
    (hstep : x.step (now, .success id) = some x') : Tallied config x' := by
  obtain ⟨-, cb, hrecord, rfl⟩ := step_success hstep
  rcases CircuitBreaker.recordSuccess_cases hrecord with
    ⟨hoff, rfl⟩ | ⟨-, hclosed, rfl⟩ | ⟨-, -, rfl⟩ | ⟨-, -, -, rfl⟩ | ⟨hon, hhalf, hgate, rfl⟩
  · -- a disabled breaker is never half-open
    refine h.leaves rfl h.first_le fun hhalf => ?_
    rw [h.config_eq, h.enabled hhalf] at hoff
    cases hoff
  · exact h.leaves rfl h.first_le (by simp [hclosed])
  · exact h.leaves rfl h.first_le (by simp [CircuitBreaker.transitionToClosed])
  · exact h.leaves rfl h.first_le (by simp [CircuitBreaker.transitionToClosed])
  · rw [h.config_eq] at hgate
    have hsucc := h.toNat_succ hhalf
    have hcounted := h.counted hhalf
    have hle := h.probes_le hhalf
    have herase := x.unfinished_erase id
    refine ⟨h.config_eq, h.first_le, fun _ => h.enabled hhalf, fun _ => ?_, fun _ => .inr hgate,
      fun _ => ?_⟩
    · dsimp only
      omega
    · simp only [probes, unfinished] at hle herase ⊢
      omega

theorem Tallied.failure (h : Tallied config x) {id : Nat} {unhealthy : Bool}
    (hstep : x.step (now, .failure id unhealthy) = some x') : Tallied config x' := by
  obtain ⟨-, cb, hrecord, rfl⟩ := step_failure hstep
  rcases CircuitBreaker.recordFailureAt_cases hrecord with ⟨hoff, rfl⟩ | ⟨cb₁, hreset, -, hcases⟩
  · refine h.leaves rfl h.first_le fun hhalf => ?_
    rw [h.config_eq, h.enabled hhalf] at hoff
    cases hoff
  · have hconfig := hreset.config_eq
    have hstate := hreset.state_eq
    rcases hcases with ⟨-, -, rfl⟩ | ⟨hclosed, -, rfl⟩ | ⟨-, rfl⟩ | ⟨hopen, rfl⟩
    · exact h.leaves hconfig h.first_le (by simp [CircuitBreaker.transitionToOpen])
    · exact h.leaves hconfig h.first_le (by simp [hstate, hclosed])
    · exact h.leaves hconfig h.first_le (by simp [CircuitBreaker.transitionToOpen])
    · exact h.leaves hconfig h.first_le (by simp [hstate, hopen])

theorem Tallied.keep {e : UInt64 × TrafficEvent} (h : Tallied config x)
    (hstep : x.step e = some x') : Tallied config x' := by
  obtain ⟨now, event⟩ := e
  cases event with
  | request => exact h.request hstep
  | success id => exact h.success hstep
  | failure id unhealthy => exact h.failure hstep

/-! ## State changes -/

/-- The state transitions of the module's header. -/
def documented : CircuitState → CircuitState → Bool
  | .closed, .opened | .opened, .halfOpen | .halfOpen, .closed | .halfOpen, .opened => true
  | _, _ => false

/-- A step without a state change, or with a documented one; it closes a half-open breaker only
    after `success_threshold` successes since the breaker became half-open. -/
def Lawful (x x' : Traffic) : Prop :=
  x'.breaker.state = x.breaker.state ∨
    (documented x.breaker.state x'.breaker.state = true ∧
      (x.breaker.state = .halfOpen → x'.breaker.state = .closed →
        x.breaker.config.successThreshold.toNat ≤ x'.successes))

instance (x x' : Traffic) : Decidable (Lawful x x') := inferInstanceAs (Decidable (_ ∨ _))

/-- The success of an admitted request reaches an open breaker. -/
def LateSuccess (x : Traffic) (e : UInt64 × TrafficEvent) : Prop :=
  match e.2 with
  | .success id => id ∈ x.inFlight ∧ x.breaker.config.enabled = true ∧ x.breaker.state = .opened
  | _ => False

theorem Tallied.lawful_request (h : Tallied config x)
    (hstep : x.step (now, .request) = some x') : Lawful x x' := by
  rcases step_request hstep with ⟨cb, -, hstate, -, rfl⟩ | ⟨-, hopen, rfl⟩ | ⟨hhalf, hgate, rfl⟩ |
    ⟨-, rfl⟩
  · exact .inl hstate
  · refine .inr ⟨by rw [hopen]; rfl, fun hhalf => ?_⟩
    rw [hopen] at hhalf
    cases hhalf
  · refine .inr ⟨by rw [hhalf]; rfl, fun _ _ => ?_⟩
    simp only [accept, hhalf, ne_eq, not_true_eq_false, and_false, if_false]
    rw [h.counted hhalf]
    exact UInt32.le_iff_toNat_le.1 hgate
  · exact .inl rfl

/-- A success is unlawful just when it finds the breaker open. -/
theorem Tallied.lawful_success (h : Tallied config x) {id : Nat}
    (hstep : x.step (now, .success id) = some x') :
    Lawful x x' ↔ ¬ x.LateSuccess (now, .success id) := by
  obtain ⟨hmem, cb, hrecord, rfl⟩ := step_success hstep
  rcases CircuitBreaker.recordSuccess_cases hrecord with
    ⟨hoff, rfl⟩ | ⟨-, hclosed, rfl⟩ | ⟨hon, hopen, rfl⟩ | ⟨-, hhalf, hgate, rfl⟩ |
    ⟨-, hhalf, -, rfl⟩
  · simp [Lawful, LateSuccess, hoff]
  · simp [Lawful, LateSuccess, hclosed]
  · simp [Lawful, LateSuccess, hmem, hon, hopen, CircuitBreaker.transitionToClosed, documented]
  · have hsucc := h.toNat_succ hhalf
    have hcounted := h.counted hhalf
    have hgate := UInt32.le_iff_toNat_le.1 hgate
    have hreached : x.breaker.config.successThreshold.toNat ≤ x.successes + 1 := by omega
    simp [Lawful, LateSuccess, hhalf, CircuitBreaker.transitionToClosed, documented, hreached]
  · simp [Lawful, LateSuccess, hhalf]

theorem lawful_failure {id : Nat} {unhealthy : Bool}
    (hstep : x.step (now, .failure id unhealthy) = some x') : Lawful x x' := by
  obtain ⟨-, cb, hrecord, rfl⟩ := step_failure hstep
  rcases CircuitBreaker.recordFailureAt_cases hrecord with ⟨-, rfl⟩ | ⟨cb₁, hreset, -, hcases⟩
  · exact .inl rfl
  · have hstate := hreset.state_eq
    rcases hcases with ⟨hclosed, -, rfl⟩ | ⟨-, -, rfl⟩ | ⟨hhalf, rfl⟩ | ⟨-, rfl⟩
    · simp [Lawful, hclosed, CircuitBreaker.transitionToOpen, documented]
    · exact .inl hstate
    · simp [Lawful, hhalf, CircuitBreaker.transitionToOpen, documented]
    · exact .inl hstate

theorem Tallied.lawful_iff (h : Tallied config x) (e : UInt64 × TrafficEvent) :
    (∀ x' ∈ x.step e, Lawful x x') ↔ ¬ x.LateSuccess e := by
  obtain ⟨now, event⟩ := e
  cases event with
  | request => exact ⟨fun _ h => h, fun _ x' hstep => h.lawful_request hstep⟩
  | failure id unhealthy => exact ⟨fun _ h => h, fun _ x' hstep => lawful_failure hstep⟩
  | success id =>
    cases hstep : x.step (now, .success id) with
    | some x' => simpa using h.lawful_success hstep
    | none =>
      -- no admitted request has this number
      obtain ⟨cb, hrecord⟩ := x.breaker.recordSuccess_returns now
      have hmem : id ∉ x.inFlight := by
        intro hmem
        simp [step, hmem, hrecord] at hstep
      simp [LateSuccess, hmem]

end Traffic

/-- In a run every state change is documented, and HalfOpen is left for Closed only after
    `success_threshold` successes, just when no admitted request's success is recorded by an enabled
    breaker while it is open. -/
theorem breaker_changes_iff (config : CircuitBreakerConfig) (start : UInt64)
    (events : List (UInt64 × TrafficEvent)) :
    Trace.Admits Traffic.step (fun x e => ∀ x' ∈ x.step e, x.Lawful x')
        (Traffic.start config start) events ↔
      Trace.Admits Traffic.step (fun x e => ¬ x.LateSuccess e)
        (Traffic.start config start) events := by
  have hstart : (Traffic.start config start).Tallied config := Traffic.Tallied.start start
  exact Trace.admits_congr (fun _ _ _ hx hstep => hx.keep hstep) (fun _ e hx => hx.lawful_iff e)
    hstart

/-- Two requests are admitted; the first fails and opens the breaker, the success of the second
    then closes it at once. -/
theorem late_success_closes :
    ¬ Trace.Admits Traffic.step (fun x e => ∀ x' ∈ x.step e, x.Lawful x')
      (Traffic.start ⟨true, 1, 1, 60, 30, false⟩ 0)
      [(0, .request), (0, .request), (1, .failure 0 false), (2, .success 1)] := by
  decide +kernel

/-! ## Probes -/

namespace Traffic

/-- A half-open breaker has admitted at most `success_threshold` requests since it became
    half-open, the first one included. -/
def Bounded (x : Traffic) : Prop :=
  x.breaker.state = .halfOpen → x.probes ≤ x.breaker.config.successThreshold.toNat

instance (x : Traffic) : Decidable (Bounded x) := inferInstanceAs (Decidable (_ → _))

/-- A request finds the breaker half-open only while the unfinished probes and the successes
    recorded so far are together fewer than `success_threshold`. -/
def Spaced (x : Traffic) (e : UInt64 × TrafficEvent) : Prop :=
  e.2 = .request → x.breaker.state = .halfOpen →
    x.unfinished + x.successes < x.breaker.config.successThreshold.toNat

instance (x : Traffic) (e : UInt64 × TrafficEvent) : Decidable (Spaced x e) :=
  inferInstanceAs (Decidable (_ → _))

variable {x x' : Traffic} {now : UInt64} {config : CircuitBreakerConfig}

/-- Only a request can add a probe. -/
theorem Bounded.outcome {e : UInt64 × TrafficEvent} (h : Bounded x) (hevent : e.2 ≠ .request)
    (hstep : x.step e = some x') : Bounded x' := by
  obtain ⟨now, event⟩ := e
  cases event with
  | request => exact absurd rfl hevent
  | success id =>
    obtain ⟨-, cb, hrecord, rfl⟩ := step_success hstep
    rcases CircuitBreaker.recordSuccess_cases hrecord with
      ⟨-, rfl⟩ | ⟨-, -, rfl⟩ | ⟨-, -, rfl⟩ | ⟨-, -, -, rfl⟩ | ⟨-, -, -, rfl⟩
    · exact h
    · exact h
    · exact fun hhalf => by cases hhalf
    · exact fun hhalf => by cases hhalf
    · exact h
  | failure id unhealthy =>
    obtain ⟨-, cb, hrecord, rfl⟩ := step_failure hstep
    rcases CircuitBreaker.recordFailureAt_cases hrecord with ⟨-, rfl⟩ | ⟨cb₁, hreset, -, hcases⟩
    · exact h
    · have hconfig := hreset.config_eq
      have hstate := hreset.state_eq
      rcases hcases with ⟨-, -, rfl⟩ | ⟨-, -, rfl⟩ | ⟨-, rfl⟩ | ⟨-, rfl⟩
      · exact fun hhalf => by cases hhalf
      · simpa only [Bounded, probes, hconfig, hstate] using h
      · exact fun hhalf => by cases hhalf
      · simpa only [Bounded, probes, hconfig, hstate] using h

theorem Tallied.bounded_request (h : Tallied config x) (hs : 1 ≤ config.successThreshold)
    (hspaced : Spaced x (now, .request)) (hstep : x.step (now, .request) = some x') :
    Bounded x' := by
  have hone : 1 ≤ config.successThreshold.toNat := UInt32.le_iff_toNat_le.1 hs
  -- a request that passes a half-open breaker finds room for itself
  have hroom : x.breaker.state = .halfOpen →
      x.issued + 1 - x.firstProbe ≤ config.successThreshold.toNat := by
    intro hhalf
    have hlt := hspaced rfl hhalf
    have hle := h.probes_le hhalf
    have hfirst := h.first_le
    rw [h.config_eq] at hlt
    rw [probes] at hle
    omega
  rcases step_request hstep with ⟨cb, hconfig, hstate, -, rfl⟩ | ⟨-, hopen, rfl⟩ | ⟨-, -, rfl⟩ |
    ⟨hopen, rfl⟩
  · intro hhalf
    have hbefore : x.breaker.state = .halfOpen := hstate ▸ hhalf
    simp only [probes, accept, hbefore, ne_eq, not_true_eq_false, and_false, if_false]
    rw [hconfig, h.config_eq]
    exact hroom hbefore
  · -- the first probe
    have hentered : (x.breaker.probing now).countAllowed.state = .halfOpen ∧
        x.breaker.state ≠ .halfOpen := ⟨rfl, by simp [hopen]⟩
    have hconfig : (x.breaker.probing now).countAllowed.config = config := h.config_eq
    intro _
    simp only [probes, accept, if_pos hentered, hconfig]
    omega
  · exact fun hhalf => by cases hhalf
  · intro hhalf
    rw [show x.breaker.countRejected.state = x.breaker.state from rfl, hopen] at hhalf
    cases hhalf

/-- Spaced requests keep the bound. -/
theorem bounded_of_spaced (hs : 1 ≤ config.successThreshold) {start : UInt64}
    {events : List (UInt64 × TrafficEvent)}
    (hspaced : Trace.Admits step Spaced (.start config start) events) :
    Trace.Always step Bounded (.start config start) events := by
  have hkeep : ∀ x e x', Tallied config x ∧ Bounded x → Spaced x e → x.step e = some x' →
      Tallied config x' ∧ Bounded x' := by
    intro x e x' hx hok hstep
    refine ⟨hx.1.keep hstep, ?_⟩
    obtain ⟨now, event⟩ := e
    by_cases hrequest : event = .request
    · subst hrequest
      exact hx.1.bounded_request hs hok hstep
    · exact hx.2.outcome hrequest hstep
  have hstart : Tallied config (.start config start) ∧ Bounded (.start config start) :=
    ⟨Tallied.start start, fun hhalf => by cases hhalf⟩
  exact Trace.always_of_admits hkeep (fun _ hx => hx.2) hstart hspaced

/-! A disabled breaker stays closed; an enabled one can be flooded. -/

theorem closed_of_disabled (hoff : config.enabled = false) {start : UInt64}
    {events : List (UInt64 × TrafficEvent)} :
    Trace.Always step Bounded (.start config start) events := by
  have hkeep : ∀ x e x', Tallied config x → True → x.step e = some x' → Tallied config x' :=
    fun x e x' hx _ hstep => hx.keep hstep
  refine Trace.always_of_admits hkeep (fun x hx hhalf => ?_) (Tallied.start start)
    (Trace.admits_of_forall (fun _ _ => trivial) _)
  rw [hx.enabled hhalf] at hoff
  cases hoff

/-- A request that fails counts against the threshold of a closed breaker. -/
theorem failing_request (hon : x.breaker.config.enabled = true)
    (hclosed : x.breaker.state = .closed) :
    ∃ x', Trace.exec step x [(0, .request), (0, .failure x.issued false)] = some x' ∧
      x'.breaker.config = x.breaker.config ∧
      (x'.breaker.state = .opened ∨ x'.breaker.state = .closed ∧
        x'.breaker.consecutiveFailures = x.breaker.consecutiveFailures + 1 ∧
        x.breaker.consecutiveFailures + 1 < x.breaker.config.failureThreshold) := by
  have hallow : x.breaker.allowRequest .wrapping 0 = .ok (.ok (), x.breaker.countAllowed) := by
    simp [CircuitBreaker.allowRequest, hon, hclosed]
  obtain ⟨cb, hrecord⟩ := x.breaker.countAllowed.recordFailure_returns 0 false
  have hrun : Trace.exec step x [(0, .request), (0, .failure x.issued false)] =
      some { x.accept x.breaker.countAllowed with
        breaker := cb
        inFlight := (x.accept x.breaker.countAllowed).inFlight.erase x.issued } := by
    simp [Trace.exec, step, hallow, accept, hrecord]
  refine ⟨_, hrun, ?_⟩
  rcases CircuitBreaker.recordFailureAt_cases hrecord with ⟨hoff, -⟩ | ⟨cb₁, hreset, -, hcases⟩
  · rw [show x.breaker.countAllowed.config = x.breaker.config from rfl, hon] at hoff
    cases hoff
  · have hconfig := hreset.config_eq
    have hstate := hreset.state_eq
    rcases hcases with ⟨-, -, rfl⟩ | ⟨-, hbelow, rfl⟩ | ⟨hother, -⟩ | ⟨hother, -⟩
    · exact ⟨hconfig, .inl rfl⟩
    · exact ⟨hconfig, .inr ⟨hstate.trans hclosed, rfl, hbelow⟩⟩
    · rw [show x.breaker.countAllowed.state = x.breaker.state from rfl, hclosed] at hother
      cases hother
    · rw [show x.breaker.countAllowed.state = x.breaker.state from rfl, hclosed] at hother
      cases hother

/-- Failures open a closed breaker. -/
theorem reaches_opened (hon : x.breaker.config.enabled = true)
    (hclosed : x.breaker.state = .closed)
    (hcount : x.breaker.consecutiveFailures.toNat + 1 < 2 ^ 32) :
    ∃ events x', Trace.exec step x events = some x' ∧ x'.breaker.config = x.breaker.config ∧
      x'.breaker.state = .opened := by
  -- on the failures that are left until the threshold
  induction hleft : x.breaker.config.failureThreshold.toNat -
      x.breaker.consecutiveFailures.toNat using Nat.strong_induction_on generalizing x with
  | _ n ih =>
    obtain ⟨x₁, hrun, hconfig, hopen | ⟨hstill, hcount₁, hbelow⟩⟩ := failing_request hon hclosed
    · exact ⟨_, x₁, hrun, hconfig, hopen⟩
    · have hlt := UInt32.lt_iff_toNat_lt.1 hbelow
      have hmax := x.breaker.config.failureThreshold.toNat_lt
      rw [UInt32.toNat_add, UInt32.toNat_one, Nat.mod_eq_of_lt hcount] at hlt
      have hcarry : x₁.breaker.consecutiveFailures.toNat =
          x.breaker.consecutiveFailures.toNat + 1 := by
        rw [hcount₁, UInt32.toNat_add, UInt32.toNat_one, Nat.mod_eq_of_lt hcount]
      obtain ⟨events, x', hrest, hconfig', hopen⟩ :=
        ih _ (by rw [hconfig, hcarry]; omega) (hconfig ▸ hon) hstill (by omega) rfl
      refine ⟨[(0, .request), (0, .failure x.issued false)] ++ events, x', ?_,
        hconfig'.trans hconfig, hopen⟩
      rw [Trace.exec_append, hrun]
      exact hrest

/-- Once the timeout is over, a request makes an open breaker half-open. -/
theorem reaches_halfOpen (hon : x.breaker.config.enabled = true)
    (hopen : x.breaker.state = .opened) :
    ∃ e x', x.step e = some x' ∧ x'.breaker.config = x.breaker.config ∧
      x'.breaker.state = .halfOpen ∧ x'.breaker.consecutiveSuccesses = 0 ∧
      x'.issued = x'.firstProbe + 1 := by
  have hage : x.breaker.openTimestamp + x.breaker.config.openTimeoutSecs - x.breaker.openTimestamp =
      x.breaker.config.openTimeoutSecs := by
    rw [UInt64.add_comm, UInt64.add_sub_cancel]
  have hallow : x.breaker.allowRequest .wrapping
      (x.breaker.openTimestamp + x.breaker.config.openTimeoutSecs) =
      .ok (.ok (), (x.breaker.probing
        (x.breaker.openTimestamp + x.breaker.config.openTimeoutSecs)).countAllowed) := by
    simp [CircuitBreaker.allowRequest, hon, hopen, hage, CircuitBreaker.tryTransitionToHalfOpen,
      CircuitBreaker.probing]
  have hstep : x.step (x.breaker.openTimestamp + x.breaker.config.openTimeoutSecs, .request) =
      some (x.accept (x.breaker.probing
        (x.breaker.openTimestamp + x.breaker.config.openTimeoutSecs)).countAllowed) := by
    simp only [step, hallow]
  refine ⟨_, _, hstep, rfl, rfl, rfl, ?_⟩
  simp [accept, CircuitBreaker.probing, CircuitBreaker.countAllowed, hopen]

/-- A half-open breaker admits any number of requests that have no outcome. -/
theorem floods (hon : x.breaker.config.enabled = true) (hhalf : x.breaker.state = .halfOpen)
    (hgate : x.breaker.consecutiveSuccesses < x.breaker.config.successThreshold) (n : Nat) :
    ∃ x', Trace.exec step x (List.replicate n (0, .request)) = some x' ∧
      x'.breaker.config = x.breaker.config ∧ x'.breaker.state = .halfOpen ∧
      x'.firstProbe = x.firstProbe ∧ x'.issued = x.issued + n := by
  induction n generalizing x with
  | zero => exact ⟨x, rfl, rfl, hhalf, rfl, rfl⟩
  | succ n ih =>
    have hallow : x.breaker.allowRequest .wrapping 0 = .ok (.ok (), x.breaker.countAllowed) := by
      simp [CircuitBreaker.allowRequest, hon, hhalf, hgate]
    obtain ⟨x', hrun, hconfig, hhalf', hfirst, hissued⟩ :=
      ih (x := x.accept x.breaker.countAllowed) hon hhalf hgate
    refine ⟨x', ?_, hconfig, hhalf', ?_, ?_⟩
    · rw [List.replicate_succ, Trace.exec_cons_eq_some]
      exact ⟨_, by simp only [step, hallow], hrun⟩
    · rw [hfirst]
      simp [accept, hhalf]
    · rw [hissued]
      simp only [accept]
      omega

/-- Every enabled breaker exceeds the bound in some run. -/
theorem unbounded_of_enabled (hon : config.enabled = true) (start : UInt64) :
    ∃ events x, Trace.exec step (.start config start) events = some x ∧ ¬ Bounded x := by
  obtain ⟨events, x₁, hrun, hconfig₁, hopen⟩ :=
    reaches_opened (x := .start config start) hon rfl (show (0 : UInt32).toNat + 1 < 2 ^ 32 by decide)
  obtain ⟨e, x₂, hstep, hconfig₂, hhalf, hzero, hissued⟩ :=
    reaches_halfOpen (hconfig₁ ▸ hon) hopen
  have hrun₂ : Trace.exec step (.start config start) (events ++ [e]) = some x₂ := by
    rw [Trace.exec_append, hrun]
    simp [Trace.exec, hstep]
  have hconfig : x₂.breaker.config = config := hconfig₂.trans hconfig₁
  by_cases hgate : (0 : UInt32) < config.successThreshold
  · rw [← hzero, ← hconfig] at hgate
    obtain ⟨x₃, hflood, hconfig₃, hhalf₃, hfirst, hissued₃⟩ :=
      floods (hconfig ▸ hon) hhalf hgate config.successThreshold.toNat
    refine ⟨events ++ [e] ++ List.replicate config.successThreshold.toNat (0, .request), x₃, ?_,
      fun hbound => ?_⟩
    · rw [Trace.exec_append, hrun₂]
      exact hflood
    · have hle := hbound hhalf₃
      rw [hconfig₃, hconfig, probes] at hle
      omega
  · -- a threshold of zero is exceeded by the first probe
    refine ⟨events ++ [e], x₂, hrun₂, fun hbound => ?_⟩
    have hle := hbound hhalf
    have hnone := UInt32.le_iff_toNat_le.1 (UInt32.not_lt.1 hgate)
    rw [hconfig, probes] at hle
    simp at hnone
    omega

end Traffic

/-- A half-open breaker keeps within `success_threshold` admitted requests in all runs just when it
    is disabled; it does so in every run whose requests find it half-open only while the unfinished
    probes and the successes recorded so far are together fewer than `success_threshold`. -/
theorem half_open_probes (config : CircuitBreakerConfig) (start : UInt64) :
    ((∀ events, Trace.Always Traffic.step Traffic.Bounded (.start config start) events) ↔
      config.enabled = false) ∧
    (1 ≤ config.successThreshold → ∀ events,
      Trace.Admits Traffic.step Traffic.Spaced (.start config start) events →
        Trace.Always Traffic.step Traffic.Bounded (.start config start) events) := by
  refine ⟨⟨fun hall => ?_, fun hoff events => Traffic.closed_of_disabled hoff⟩,
    fun hs events hspaced => Traffic.bounded_of_spaced hs hspaced⟩
  by_contra hon
  obtain ⟨events, x, hrun, hexceeds⟩ :=
    Traffic.unbounded_of_enabled (Bool.eq_true_of_not_eq_false hon) start
  exact hexceeds ((hall events).last hrun)

/-- One probe at a time: the second is asked for after the success of the first. -/
theorem half_open_one_by_one :
    Trace.Always Traffic.step Traffic.Bounded (.start ⟨true, 1, 2, 60, 30, false⟩ 0)
      [(0, .request), (1, .failure 0 false), (31, .request), (32, .success 1), (33, .request)] :=
  (half_open_probes ⟨true, 1, 2, 60, 30, false⟩ 0).2 (by decide) _ (by decide +kernel)

/-- With `success_threshold` one, a second request passes while the first probe is unfinished. -/
theorem half_open_flooded :
    ¬ Trace.Always Traffic.step Traffic.Bounded (.start ⟨true, 1, 1, 60, 30, false⟩ 0)
      [(0, .request), (1, .failure 0 false), (31, .request), (31, .request)] := by
  intro hbounded
  exact absurd (hbounded.last rfl) (by decide +kernel)

end ScryProxy
