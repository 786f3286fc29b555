import ScryProxy.ForStd.Rust

/-!
# Circuit breaker

Model of `resilience/circuit_breaker.rs`.  Each method is one step, with one reading `now`
of the wall clock in seconds; a compare-and-swap that loses against another thread inside a
method is not modelled.  The counters are `u32` and `u64` as in the source.
-/

namespace ScryProxy

open Rust (Overflow)

structure CircuitBreakerConfig where
  enabled : Bool
  failureThreshold : UInt32
  successThreshold : UInt32
  windowSecs : UInt64
  openTimeoutSecs : UInt64
  useHealthMonitor : Bool
  deriving DecidableEq, Repr

/-- `CircuitState`. -/
inductive CircuitState where
  | closed
  | opened
  | halfOpen
  deriving DecidableEq, Repr

inductive CircuitBreakerError where
  | circuitOpen
  deriving DecidableEq, Repr

structure CircuitBreaker where
  config : CircuitBreakerConfig
  state : CircuitState
  consecutiveFailures : UInt32
  consecutiveSuccesses : UInt32
  failureCountInWindow : UInt32
  requestsAllowed : UInt64
  requestsRejected : UInt64
  windowStart : UInt64
  openTimestamp : UInt64
  lastStateChange : UInt64
  deriving DecidableEq, Repr

namespace CircuitBreaker

def new (config : CircuitBreakerConfig) (now : UInt64) : CircuitBreaker where
  config := config
  state := .closed
  consecutiveFailures := 0
  consecutiveSuccesses := 0
  failureCountInWindow := 0
  requestsAllowed := 0
  requestsRejected := 0
  windowStart := now
  openTimestamp := 0
  lastStateChange := now

/-- `transition_to_open`. -/
def transitionToOpen (cb : CircuitBreaker) (now : UInt64) : CircuitBreaker :=
  { cb with
    state := .opened
    openTimestamp := now
    lastStateChange := now
    consecutiveSuccesses := 0 }

/-- `transition_to_closed`. -/
def transitionToClosed (cb : CircuitBreaker) (now : UInt64) : CircuitBreaker :=
  { cb with
    state := .closed
    lastStateChange := now
    consecutiveFailures := 0
    consecutiveSuccesses := 0 }

/-- `try_transition_to_half_open`. -/
def tryTransitionToHalfOpen (cb : CircuitBreaker) (now : UInt64) : Bool × CircuitBreaker :=
  if cb.state = .opened then
    (true, { cb with state := .halfOpen, lastStateChange := now, consecutiveSuccesses := 0 })
  else (false, cb)

/-- `reset_window_if_needed`. -/
def resetWindowIfNeeded (ov : Overflow) (cb : CircuitBreaker) (now : UInt64) :
    Rust CircuitBreaker := do
  let age ← Rust.u64Sub ov now cb.windowStart
  if cb.config.windowSecs ≤ age then
    return { cb with windowStart := now, failureCountInWindow := 0 }
  else return cb

def countAllowed (cb : CircuitBreaker) : CircuitBreaker :=
  { cb with requestsAllowed := cb.requestsAllowed + 1 }

def countRejected (cb : CircuitBreaker) : CircuitBreaker :=
  { cb with requestsRejected := cb.requestsRejected + 1 }

/-- `allow_request`. -/
def allowRequest (ov : Overflow) (cb : CircuitBreaker) (now : UInt64) :
    Rust (Except CircuitBreakerError Unit × CircuitBreaker) :=
  if !cb.config.enabled then .ok (.ok (), cb)
  else match cb.state with
    | .closed => .ok (.ok (), cb.countAllowed)
    | .opened => do
      let age ← Rust.u64Sub ov now cb.openTimestamp
      if cb.config.openTimeoutSecs ≤ age then
        match cb.tryTransitionToHalfOpen now with
        | (true, cb) => return (.ok (), cb.countAllowed)
        | (false, cb) => return (.error .circuitOpen, cb.countRejected)
      else return (.error .circuitOpen, cb.countRejected)
    | .halfOpen =>
      if cb.consecutiveSuccesses < cb.config.successThreshold then .ok (.ok (), cb.countAllowed)
      -- enough successes already: this request closes the circuit
      else .ok (.ok (), (cb.transitionToClosed now).countAllowed)

/-- `record_success`. -/
def recordSuccess (ov : Overflow) (cb : CircuitBreaker) (now : UInt64) : Rust CircuitBreaker :=
  if !cb.config.enabled then .ok cb
  else match cb.state with
    | .closed => .ok { cb with consecutiveFailures := 0 }
    | .halfOpen => do
      let successes ← Rust.u32Succ ov cb.consecutiveSuccesses
      let cb := { cb with consecutiveSuccesses := successes }
      return if cb.config.successThreshold ≤ successes then cb.transitionToClosed now else cb
    | .opened => .ok (cb.transitionToClosed now)

/-- `record_failure`; `unhealthy` is what the health monitor says, if there is one. -/
def recordFailure (ov : Overflow) (cb : CircuitBreaker) (now : UInt64) (unhealthy : Bool) :
    Rust CircuitBreaker :=
  if !cb.config.enabled then .ok cb
  else do
    let cb ← cb.resetWindowIfNeeded ov now
    match cb.state with
    | .closed =>
      let failures ← Rust.u32Succ ov cb.consecutiveFailures
      let cb := { cb with
        consecutiveFailures := failures
        failureCountInWindow := cb.failureCountInWindow + 1 }
      return if cb.config.failureThreshold ≤ failures ||
        (cb.config.useHealthMonitor && unhealthy) then cb.transitionToOpen now else cb
    | .halfOpen => return cb.transitionToOpen now
    | .opened => return { cb with failureCountInWindow := cb.failureCountInWindow + 1 }

/-- `record_failure` with both readings of the clock: that of `reset_window_if_needed` and that of
    `transition_to_open`. -/
def recordFailureAt (ov : Overflow) (cb : CircuitBreaker) (now opening : UInt64)
    (unhealthy : Bool) : Rust CircuitBreaker :=
  if !cb.config.enabled then .ok cb
  else do
    let cb ← cb.resetWindowIfNeeded ov now
    match cb.state with
    | .closed =>
      let failures ← Rust.u32Succ ov cb.consecutiveFailures
      let cb := { cb with
        consecutiveFailures := failures
        failureCountInWindow := cb.failureCountInWindow + 1 }
      return if cb.config.failureThreshold ≤ failures ||
        (cb.config.useHealthMonitor && unhealthy) then cb.transitionToOpen opening else cb
    | .halfOpen => return cb.transitionToOpen opening
    | .opened => return { cb with failureCountInWindow := cb.failureCountInWindow + 1 }

theorem recordFailure_eq (ov : Overflow) (cb : CircuitBreaker) (now : UInt64) (unhealthy : Bool) :
    cb.recordFailure ov now unhealthy = cb.recordFailureAt ov now now unhealthy := rfl

/-- `report_health`: what an active health check does to the breaker, enabled or not. -/
def reportHealth (cb : CircuitBreaker) (now : UInt64) (healthy : Bool) : CircuitBreaker :=
  match healthy, cb.state with
  | false, .closed | false, .halfOpen => cb.transitionToOpen now
  | true, .opened => (cb.tryTransitionToHalfOpen now).2
  | _, _ => cb

/-! ## Admission -/

/-- Open, and the open timeout has not elapsed. -/
def rejects (cb : CircuitBreaker) (now : UInt64) : Bool :=
  cb.config.enabled && decide (cb.state = .opened) &&
    decide (now - cb.openTimestamp < cb.config.openTimeoutSecs)

variable {cb : CircuitBreaker} {now : UInt64}

theorem allowRequest_rejects (h : cb.rejects now = true) :
    cb.allowRequest .wrapping now = .ok (.error .circuitOpen, cb.countRejected) := by
  simp only [rejects, Bool.and_eq_true, decide_eq_true_eq] at h
  obtain ⟨⟨henabled, hopen⟩, hearly⟩ := h
  have hlate : ¬ cb.config.openTimeoutSecs ≤ now - cb.openTimestamp := UInt64.not_le.2 hearly
  simp [allowRequest, henabled, hopen, hlate]

theorem allowRequest_admits (h : cb.rejects now = false) :
    ∃ cb', cb.allowRequest .wrapping now = .ok (.ok (), cb') := by
  by_cases henabled : cb.config.enabled = true
  · cases hstate : cb.state with
    | closed => simp [allowRequest, henabled, hstate]
    | halfOpen =>
      by_cases hlimit : cb.consecutiveSuccesses < cb.config.successThreshold
      · simp [allowRequest, henabled, hstate, hlimit]
      · simp [allowRequest, henabled, hstate, hlimit]
    | opened =>
      -- an open breaker that does not reject has been open for its timeout
      simp only [rejects, henabled, hstate, decide_true, Bool.and_self, Bool.true_and,
        decide_eq_false_iff_not, UInt64.not_lt] at h
      simp [allowRequest, henabled, hstate, h, tryTransitionToHalfOpen]
  · simp [allowRequest, henabled]

/-! The calls return where their subtraction and their counter do. -/

variable {ov : Overflow}

theorem allowRequest_returns_of
    (h : cb.state = .opened → ∃ age, Rust.u64Sub ov now cb.openTimestamp = .ok age) :
    ∃ answer cb', cb.allowRequest ov now = .ok (answer, cb') := by
  rw [allowRequest]
  split
  · exact ⟨_, _, rfl⟩
  · cases hstate : cb.state with
    | closed => exact ⟨_, _, rfl⟩
    | halfOpen =>
      dsimp only
      split
      · exact ⟨_, _, rfl⟩
      · exact ⟨_, _, rfl⟩
    | opened =>
      obtain ⟨age, hage⟩ := h hstate
      simp only [hage, Rust.ok_bind]
      split
      · split
        · exact ⟨_, _, rfl⟩
        · exact ⟨_, _, rfl⟩
      · exact ⟨_, _, rfl⟩

theorem recordSuccess_returns_of
    (h : cb.state = .halfOpen → ∃ n, Rust.u32Succ ov cb.consecutiveSuccesses = .ok n) :
    ∃ cb', cb.recordSuccess ov now = .ok cb' := by
  rw [recordSuccess]
  split
  · exact ⟨_, rfl⟩
  · cases hstate : cb.state with
    | closed | opened => exact ⟨_, rfl⟩
    | halfOpen =>
      obtain ⟨n, hn⟩ := h hstate
      simp only [hn]
      exact ⟨_, rfl⟩

theorem recordFailureAt_returns_of
    (hwindow : cb.config.enabled = true → ∃ age, Rust.u64Sub ov now cb.windowStart = .ok age)
    (hcount : cb.state = .closed → ∃ n, Rust.u32Succ ov cb.consecutiveFailures = .ok n)
    (opening : UInt64) (unhealthy : Bool) :
    ∃ cb', cb.recordFailureAt ov now opening unhealthy = .ok cb' := by
  rw [recordFailureAt]
  split
  · exact ⟨_, rfl⟩
  · next henabled =>
    obtain ⟨age, hage⟩ := hwindow (by simpa using henabled)
    -- the window reset keeps the state and the counter
    obtain ⟨cb₁, hreset, hstate₁, hfailures₁⟩ : ∃ cb₁, cb.resetWindowIfNeeded ov now = .ok cb₁ ∧
        cb₁.state = cb.state ∧ cb₁.consecutiveFailures = cb.consecutiveFailures := by
      rw [resetWindowIfNeeded, hage, Rust.ok_bind]
      split
      · exact ⟨_, rfl, rfl, rfl⟩
      · exact ⟨_, rfl, rfl, rfl⟩
    rw [hreset, Rust.ok_bind]
    cases hstate : cb₁.state with
    | halfOpen | opened => exact ⟨_, rfl⟩
    | closed =>
      obtain ⟨n, hn⟩ := hcount (hstate₁ ▸ hstate)
      rw [← hfailures₁] at hn
      simp only [hn]
      exact ⟨_, rfl⟩

theorem allowRequest_returns (cb : CircuitBreaker) (now : UInt64) :
    ∃ answer cb', cb.allowRequest .wrapping now = .ok (answer, cb') :=
  allowRequest_returns_of fun _ => ⟨_, Rust.u64Sub_wrapping _ _⟩

theorem recordSuccess_returns (cb : CircuitBreaker) (now : UInt64) :
    ∃ cb', cb.recordSuccess .wrapping now = .ok cb' :=
  recordSuccess_returns_of fun _ => ⟨_, Rust.u32Succ_wrapping _⟩

theorem recordFailure_returns (cb : CircuitBreaker) (now : UInt64) (unhealthy : Bool) :
    ∃ cb', cb.recordFailure .wrapping now unhealthy = .ok cb' := by
  rw [recordFailure_eq]
  exact recordFailureAt_returns_of (fun _ => ⟨_, Rust.u64Sub_wrapping _ _⟩)
    (fun _ => ⟨_, Rust.u32Succ_wrapping _⟩) now unhealthy

theorem opened_of_reportHealth_true (h : (cb.reportHealth now true).state = .opened) :
    cb.state = .opened := by
  cases hstate : cb.state with
  | opened => rfl
  | closed | halfOpen => simp [reportHealth, hstate] at h

/-- An unhealthy report leaves the breaker open. -/
theorem reportHealth_false (cb : CircuitBreaker) (now : UInt64) :
    (cb.reportHealth now false).state = .opened := by
  cases hstate : cb.state with
  | opened => simp [reportHealth, hstate]
  | closed | halfOpen => simp [reportHealth, hstate, transitionToOpen]

/-- A rejection changes nothing that decides about the next request. -/
@[simp] theorem countRejected_rejects (cb : CircuitBreaker) (now : UInt64) :
    cb.countRejected.rejects now = cb.rejects now := rfl

/-! ## What one call does

Every call keeps the configuration; the case analyses below name the state each branch starts
from, so that later proofs never open the methods. -/

/-- The breaker that lets the first request through after the open timeout. -/
def probing (cb : CircuitBreaker) (now : UInt64) : CircuitBreaker :=
  { cb with state := .halfOpen, lastStateChange := now, consecutiveSuccesses := 0 }

variable {cb' : CircuitBreaker}

theorem allowRequest_cases {answer : Except CircuitBreakerError Unit}
    (h : cb.allowRequest ov now = .ok (answer, cb')) :
    (cb.config.enabled = false ∧ answer = .ok () ∧ cb' = cb) ∨
    (cb.config.enabled = true ∧ cb.state = .closed ∧ answer = .ok () ∧ cb' = cb.countAllowed) ∨
    (cb.config.enabled = true ∧ cb.state = .opened ∧ answer = .error .circuitOpen ∧
      cb' = cb.countRejected) ∨
    (cb.config.enabled = true ∧ cb.state = .opened ∧ answer = .ok () ∧
      cb' = (cb.probing now).countAllowed) ∨
    (cb.config.enabled = true ∧ cb.state = .halfOpen ∧
      cb.consecutiveSuccesses < cb.config.successThreshold ∧ answer = .ok () ∧
      cb' = cb.countAllowed) ∨
    (cb.config.enabled = true ∧ cb.state = .halfOpen ∧
      cb.config.successThreshold ≤ cb.consecutiveSuccesses ∧ answer = .ok () ∧
      cb' = (cb.transitionToClosed now).countAllowed) := by
  cases henabled : cb.config.enabled with
  | false =>
    simp only [allowRequest, henabled, Bool.not_false, if_true] at h
    cases h
    simp
  | true =>
    simp only [allowRequest, henabled, Bool.not_true, Bool.false_eq_true, if_false] at h
    cases hstate : cb.state with
    | closed =>
      rw [hstate] at h
      cases h
      simp
    | halfOpen =>
      rw [hstate] at h
      dsimp only at h
      split at h
      · next hgate => cases h; simp [hgate]
      · next hgate => cases h; simp [UInt32.not_lt.1 hgate]
    | opened =>
      rw [hstate] at h
      obtain ⟨age, -, h⟩ := Rust.bind_returns.1 h
      simp only [tryTransitionToHalfOpen, hstate, if_true] at h
      split at h
      · cases h; simp [probing]
      · cases h; simp

/-- A request that an open breaker lets through comes after the timeout. -/
theorem elapsed_of_allowRequest (henabled : cb.config.enabled = true) (hopen : cb.state = .opened)
    (hlater : cb.openTimestamp ≤ now) (h : cb.allowRequest ov now = .ok (.ok (), cb')) :
    cb.openTimestamp.toNat + cb.config.openTimeoutSecs.toNat ≤ now.toNat := by
  simp only [allowRequest, henabled, Bool.not_true, Bool.false_eq_true, if_false, hopen,
    Rust.u64Sub_of_le ov hlater, Rust.ok_bind] at h
  split at h
  · next helapsed =>
    have hage := UInt64.le_iff_toNat_le.1 helapsed
    have hle := UInt64.le_iff_toNat_le.1 hlater
    rw [UInt64.toNat_sub_of_le _ _ hlater] at hage
    omega
  · cases h

theorem recordSuccess_cases (h : cb.recordSuccess ov now = .ok cb') :
    (cb.config.enabled = false ∧ cb' = cb) ∨
    (cb.config.enabled = true ∧ cb.state = .closed ∧ cb' = { cb with consecutiveFailures := 0 }) ∨
    (cb.config.enabled = true ∧ cb.state = .opened ∧ cb' = cb.transitionToClosed now) ∨
    (cb.config.enabled = true ∧ cb.state = .halfOpen ∧
      cb.config.successThreshold ≤ cb.consecutiveSuccesses + 1 ∧
      cb' = cb.transitionToClosed now) ∨
    (cb.config.enabled = true ∧ cb.state = .halfOpen ∧
      cb.consecutiveSuccesses + 1 < cb.config.successThreshold ∧
      cb' = { cb with consecutiveSuccesses := cb.consecutiveSuccesses + 1 }) := by
  cases henabled : cb.config.enabled with
  | false =>
    simp only [recordSuccess, henabled, Bool.not_false, if_true] at h
    cases h
    simp
  | true =>
    simp only [recordSuccess, henabled, Bool.not_true, Bool.false_eq_true, if_false] at h
    cases hstate : cb.state with
    | closed =>
      rw [hstate] at h
      cases h
      simp
    | opened =>
      rw [hstate] at h
      cases h
      simp
    | halfOpen =>
      rw [hstate] at h
      obtain ⟨successes, hsucc, h⟩ := Rust.bind_returns.1 h
      have hvalue : successes = cb.consecutiveSuccesses + 1 := Rust.eq_succ_of_u32Succ hsucc
      subst hvalue
      simp only [Rust.pure_eq_ok, Except.ok.injEq] at h
      split at h
      · next hreached => subst h; simp [hreached, transitionToClosed]
      · next hreached => subst h; simp [UInt32.not_le.1 hreached]

/-- `cb'` is `cb`, possibly with a new window. -/
def WindowReset (now : UInt64) (cb cb' : CircuitBreaker) : Prop :=
  cb' = cb ∨ cb' = { cb with windowStart := now, failureCountInWindow := 0 }

namespace WindowReset

variable {now : UInt64} {cb cb' : CircuitBreaker}

theorem config_eq (h : WindowReset now cb cb') : cb'.config = cb.config := by
  rcases h with rfl | rfl <;> rfl

theorem state_eq (h : WindowReset now cb cb') : cb'.state = cb.state := by
  rcases h with rfl | rfl <;> rfl

theorem failures_eq (h : WindowReset now cb cb') :
    cb'.consecutiveFailures = cb.consecutiveFailures := by
  rcases h with rfl | rfl <;> rfl

theorem successes_eq (h : WindowReset now cb cb') :
    cb'.consecutiveSuccesses = cb.consecutiveSuccesses := by
  rcases h with rfl | rfl <;> rfl

theorem openTimestamp_eq (h : WindowReset now cb cb') : cb'.openTimestamp = cb.openTimestamp := by
  rcases h with rfl | rfl <;> rfl

theorem windowStart_eq (h : WindowReset now cb cb') :
    cb'.windowStart = cb.windowStart ∨ cb'.windowStart = now := by
  rcases h with rfl | rfl
  · exact .inl rfl
  · exact .inr rfl

end WindowReset

theorem resetWindowIfNeeded_cases (h : cb.resetWindowIfNeeded ov now = .ok cb') :
    WindowReset now cb cb' := by
  obtain ⟨age, -, h⟩ := Rust.bind_returns.1 h
  split at h
  · cases h; exact .inr rfl
  · cases h; exact .inl rfl

/-- What a failure can change; `cb₁` is the breaker after the window reset. -/
theorem recordFailureAt_cases {opening : UInt64} {unhealthy : Bool}
    (h : cb.recordFailureAt ov now opening unhealthy = .ok cb') :
    (cb.config.enabled = false ∧ cb' = cb) ∨
    ∃ cb₁, WindowReset now cb cb₁ ∧ cb.config.enabled = true ∧
      ((cb.state = .closed ∧ (cb.config.failureThreshold ≤ cb.consecutiveFailures + 1 ∨
          (cb.config.useHealthMonitor && unhealthy) = true) ∧
        cb' = { cb₁ with
          consecutiveFailures := cb.consecutiveFailures + 1
          failureCountInWindow := cb₁.failureCountInWindow + 1 }.transitionToOpen opening) ∨
      (cb.state = .closed ∧ cb.consecutiveFailures + 1 < cb.config.failureThreshold ∧
        cb' = { cb₁ with
          consecutiveFailures := cb.consecutiveFailures + 1
          failureCountInWindow := cb₁.failureCountInWindow + 1 }) ∨
      (cb.state = .halfOpen ∧ cb' = cb₁.transitionToOpen opening) ∨
      (cb.state = .opened ∧
        cb' = { cb₁ with failureCountInWindow := cb₁.failureCountInWindow + 1 })) := by
  cases henabled : cb.config.enabled with
  | false =>
    simp only [recordFailureAt, henabled, Bool.not_false, if_true] at h
    cases h
    simp
  | true =>
    simp only [recordFailureAt, henabled, Bool.not_true, Bool.false_eq_true, if_false] at h
    obtain ⟨cb₁, hwindow, h⟩ := Rust.bind_returns.1 h
    have hreset := resetWindowIfNeeded_cases hwindow
    refine .inr ⟨cb₁, hreset, rfl, ?_⟩
    rw [← hreset.config_eq, ← hreset.state_eq, ← hreset.failures_eq]
    cases hstate : cb₁.state with
    | opened => simp only [hstate] at h; cases h; simp
    | halfOpen => simp only [hstate] at h; cases h; simp
    | closed =>
      simp only [hstate] at h
      obtain ⟨failures, hsucc, h⟩ := Rust.bind_returns.1 h
      have hvalue : failures = cb₁.consecutiveFailures + 1 := Rust.eq_succ_of_u32Succ hsucc
      subst hvalue
      simp only [Rust.pure_eq_ok, Except.ok.injEq] at h
      split at h
      · next hreached =>
        rw [Bool.or_eq_true, decide_eq_true_eq] at hreached
        exact .inl ⟨rfl, hreached, h.symm⟩
      · next hreached =>
        rw [Bool.or_eq_true, decide_eq_true_eq, not_or] at hreached
        exact .inr (.inl ⟨rfl, UInt32.not_le.1 hreached.1, h.symm⟩)

theorem reportHealth_cases (cb : CircuitBreaker) (now : UInt64) (healthy : Bool) :
    (healthy = false ∧ cb.state ≠ .opened ∧ cb.reportHealth now healthy = cb.transitionToOpen now) ∨
    (healthy = true ∧ cb.state = .opened ∧ cb.reportHealth now healthy = cb.probing now) ∨
    (healthy = false ∧ cb.state = .opened ∧ cb.reportHealth now healthy = cb) ∨
    (healthy = true ∧ cb.state ≠ .opened ∧ cb.reportHealth now healthy = cb) := by
  cases healthy with
  | false => cases hstate : cb.state with
    | closed | halfOpen | opened => simp [reportHealth, hstate]
  | true => cases hstate : cb.state with
    | closed | halfOpen | opened => simp [reportHealth, hstate, tryTransitionToHalfOpen, probing]

end CircuitBreaker

end ScryProxy
