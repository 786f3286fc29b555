import ScryProxy.ForStd.Trace
import ScryProxy.Native.CircuitBreaker

/-!
# Histories of the circuit breaker

Sequential histories of calls of one circuit breaker without a health monitor, under a clock
that never goes back.  A history remembers the state each call found and left, and
`failuresInClosed` reads off it how many failures count against the threshold; the counter of
the breaker is that number.

## Key results

- `BreakerRun.Counts.keep`: one call ties the counter to the history
- `breaker_trips_exactly`: when a closed breaker opens
-/

namespace ScryProxy

open Rust (Overflow)

/-- The calls that change a breaker. -/
inductive BreakerCall where
  | allowRequest
  | recordSuccess
  | recordFailure
  | reportHealth (healthy : Bool)
  deriving DecidableEq, Repr

/-- A call on a breaker that has no health monitor. -/
def CircuitBreaker.call (ov : Overflow) (cb : CircuitBreaker) (now : UInt64) :
    BreakerCall → Rust CircuitBreaker
  | .allowRequest => (cb.allowRequest ov now).map Prod.snd
  | .recordSuccess => cb.recordSuccess ov now
  | .recordFailure => cb.recordFailure ov now false
  | .reportHealth healthy => .ok (cb.reportHealth now healthy)

/-- A past call, with the states it found and left. -/
structure PastCall where
  before : CircuitState
  call : BreakerCall
  after : CircuitState
  deriving DecidableEq, Repr

/-- The failures recorded in Closed since the later of the last success recorded in Closed and
    the last entry into Closed; the history is listed newest first.  A disabled breaker records
    no outcome. -/
def failuresInClosed (enabled : Bool) : List PastCall → Nat
  | [] => 0
  | p :: past =>
    if p.before = .closed then
      if enabled && p.call = .recordSuccess then 0
      else if enabled && p.call = .recordFailure then failuresInClosed enabled past + 1
      else failuresInClosed enabled past
    else if p.after = .closed then 0
    else failuresInClosed enabled past

/-- A breaker, the last reading of its clock and the calls so far. -/
structure BreakerRun where
  breaker : CircuitBreaker
  clock : UInt64
  past : List PastCall
  deriving DecidableEq, Repr

namespace BreakerRun

def new (config : CircuitBreakerConfig) (now : UInt64) : BreakerRun :=
  ⟨CircuitBreaker.new config now, now, []⟩

/-- One call, not before the previous one. -/
def step (ov : Overflow) (run : BreakerRun) (e : UInt64 × BreakerCall) : Option BreakerRun :=
  if e.1 < run.clock then none
  else match run.breaker.call ov e.1 e.2 with
    | .ok cb => some ⟨cb, e.1, ⟨run.breaker.state, e.2, cb.state⟩ :: run.past⟩
    | .error _ => none

theorem step_cases {ov : Overflow} {run run' : BreakerRun} {e : UInt64 × BreakerCall}
    (h : run.step ov e = some run') :
    run.clock ≤ e.1 ∧ ∃ cb, run.breaker.call ov e.1 e.2 = .ok cb ∧
      run' = ⟨cb, e.1, ⟨run.breaker.state, e.2, cb.state⟩ :: run.past⟩ := by
  rw [step] at h
  split at h
  · cases h
  · next hlater =>
    split at h
    · next cb hcall => exact ⟨UInt64.not_lt.1 hlater, cb, hcall, (Option.some.inj h).symm⟩
    · cases h

/-- The clock has passed every time the breaker remembers, and in Closed the breaker counts the
    failures of the history, fewer than the threshold. -/
structure Counts (config : CircuitBreakerConfig) (run : BreakerRun) : Prop where
  config_eq : run.breaker.config = config
  window : run.breaker.windowStart ≤ run.clock
  opened : run.breaker.openTimestamp ≤ run.clock
  successes : run.breaker.consecutiveSuccesses < config.successThreshold
  failures : run.breaker.state = .closed →
    run.breaker.consecutiveFailures.toNat = failuresInClosed config.enabled run.past ∧
      run.breaker.consecutiveFailures < config.failureThreshold

variable {config : CircuitBreakerConfig}

theorem Counts.start (hf : 1 ≤ config.failureThreshold) (hs : 1 ≤ config.successThreshold)
    (now : UInt64) : Counts config (new config now) where
  config_eq := rfl
  window := UInt64.le_refl now
  opened := UInt64.zero_le
  successes := UInt32.lt_of_lt_of_le (show (0 : UInt32) < 1 by decide) hs
  failures _ := ⟨rfl, UInt32.lt_of_lt_of_le (show (0 : UInt32) < 1 by decide) hf⟩

/-! ## One call -/

variable {ov : Overflow} {run : BreakerRun} {cb : CircuitBreaker} {now : UInt64}

/-- No call panics, with either overflow setting. -/
theorem Counts.returns (h : Counts config run) (hnow : run.clock ≤ now) (call : BreakerCall) :
    ∃ cb, run.breaker.call ov now call = .ok cb := by
  cases call with
  | reportHealth healthy => exact ⟨_, rfl⟩
  | allowRequest =>
    have hage := Rust.u64Sub_of_le ov (UInt64.le_trans h.opened hnow)
    obtain ⟨answer, cb, hallow⟩ := CircuitBreaker.allowRequest_returns_of fun _ => ⟨_, hage⟩
    exact ⟨cb, Rust.map_returns.2 ⟨(answer, cb), hallow, rfl⟩⟩
  | recordSuccess =>
    exact CircuitBreaker.recordSuccess_returns_of fun _ => ⟨_, Rust.u32Succ_of_lt ov h.successes⟩
  | recordFailure =>
    have hwindow := Rust.u64Sub_of_le ov (UInt64.le_trans h.window hnow)
    refine CircuitBreaker.recordFailureAt_returns_of (fun _ => ⟨_, hwindow⟩) (fun hclosed => ?_) now false
    exact ⟨_, Rust.u32Succ_of_lt ov (h.failures hclosed).2⟩

/-- The run after a call that left the breaker `cb`. -/
def extend (run : BreakerRun) (now : UInt64) (call : BreakerCall) (cb : CircuitBreaker) :
    BreakerRun :=
  ⟨cb, now, ⟨run.breaker.state, call, cb.state⟩ :: run.past⟩

/-- Outcomes count only in a closed, enabled breaker. -/
theorem failuresInClosed_extend {call : BreakerCall} {state : CircuitState}
    (hcall : config.enabled = false ∨ call ≠ .recordSuccess ∧ call ≠ .recordFailure) :
    failuresInClosed config.enabled (⟨.closed, call, state⟩ :: run.past) =
      failuresInClosed config.enabled run.past := by
  rcases hcall with hoff | ⟨hsuccess, hfailure⟩
  · simp [failuresInClosed, hoff]
  · simp [failuresInClosed, hsuccess, hfailure]

/-- A call that leaves the state and the counters alone. -/
theorem Counts.unchanged (h : Counts config run) (hnow : run.clock ≤ now) {call : BreakerCall}
    (hcall : run.breaker.state = .closed →
      config.enabled = false ∨ call ≠ .recordSuccess ∧ call ≠ .recordFailure)
    (hconfig : cb.config = run.breaker.config) (hstate : cb.state = run.breaker.state)
    (hwindow : cb.windowStart = run.breaker.windowStart ∨ cb.windowStart = now)
    (hopened : cb.openTimestamp = run.breaker.openTimestamp)
    (hsuccesses : cb.consecutiveSuccesses = run.breaker.consecutiveSuccesses)
    (hfailures : cb.consecutiveFailures = run.breaker.consecutiveFailures) :
    Counts config (run.extend now call cb) where
  config_eq := hconfig.trans h.config_eq
  window := by
    rcases hwindow with hw | hw
    · exact hw ▸ UInt64.le_trans h.window hnow
    · exact hw ▸ UInt64.le_refl now
  opened := hopened ▸ UInt64.le_trans h.opened hnow
  successes := hsuccesses ▸ h.successes
  failures hclosed := by
    have hbefore : run.breaker.state = .closed := hstate ▸ hclosed
    have hcount := h.failures hbefore
    simp only [extend, hfailures, hbefore]
    rwa [failuresInClosed_extend (hcall hbefore)]

/-- A call that leaves the breaker open or half-open. -/
theorem Counts.leaves (h : Counts config run) (hnow : run.clock ≤ now) {call : BreakerCall}
    (hconfig : cb.config = run.breaker.config) (hstate : cb.state ≠ .closed)
    (hwindow : cb.windowStart = run.breaker.windowStart ∨ cb.windowStart = now)
    (hopened : cb.openTimestamp = run.breaker.openTimestamp ∨ cb.openTimestamp = now)
    (hsuccesses : cb.consecutiveSuccesses < config.successThreshold) :
    Counts config (run.extend now call cb) where
  config_eq := hconfig.trans h.config_eq
  window := by
    rcases hwindow with hw | hw
    · exact hw ▸ UInt64.le_trans h.window hnow
    · exact hw ▸ UInt64.le_refl now
  opened := by
    rcases hopened with ho | ho
    · exact ho ▸ UInt64.le_trans h.opened hnow
    · exact ho ▸ UInt64.le_refl now
  successes := hsuccesses
  failures hclosed := absurd hclosed hstate

/-- The entry into Closed starts the count anew. -/
theorem Counts.closes (h : Counts config run) (hf : 1 ≤ config.failureThreshold)
    (hnow : run.clock ≤ now) {call : BreakerCall} (hstate : run.breaker.state ≠ .closed) :
    Counts config (run.extend now call (run.breaker.transitionToClosed now)) where
  config_eq := h.config_eq
  window := UInt64.le_trans h.window hnow
  opened := UInt64.le_trans h.opened hnow
  successes := UInt32.lt_of_le_of_lt UInt32.zero_le h.successes
  failures _ := by
    simp only [extend, CircuitBreaker.transitionToClosed, failuresInClosed, hstate, if_false,
      if_true]
    exact ⟨rfl, UInt32.lt_of_lt_of_le (show (0 : UInt32) < 1 by decide) hf⟩

theorem Counts.allowRequest (h : Counts config run) (hnow : run.clock ≤ now)
    {answer : Except CircuitBreakerError Unit}
    (hcall : run.breaker.allowRequest ov now = .ok (answer, cb)) :
    Counts config (run.extend now .allowRequest cb) := by
  have hquiet : run.breaker.state = .closed → config.enabled = false ∨
      BreakerCall.allowRequest ≠ .recordSuccess ∧ BreakerCall.allowRequest ≠ .recordFailure :=
    fun _ => .inr ⟨by decide, by decide⟩
  rcases CircuitBreaker.allowRequest_cases hcall with
    ⟨-, -, rfl⟩ | ⟨-, -, -, rfl⟩ | ⟨-, -, -, rfl⟩ | ⟨-, -, -, rfl⟩ | ⟨-, -, -, -, rfl⟩ |
    ⟨-, -, hgate, -, -⟩
  · exact h.unchanged hnow hquiet rfl rfl (.inl rfl) rfl rfl rfl
  · exact h.unchanged hnow hquiet rfl rfl (.inl rfl) rfl rfl rfl
  · exact h.unchanged hnow hquiet rfl rfl (.inl rfl) rfl rfl rfl
  · have hzero : (0 : UInt32) < config.successThreshold :=
      UInt32.lt_of_le_of_lt UInt32.zero_le h.successes
    exact h.leaves hnow rfl (by simp [CircuitBreaker.probing, CircuitBreaker.countAllowed])
      (.inl rfl) (.inl rfl) hzero
  · exact h.unchanged hnow hquiet rfl rfl (.inl rfl) rfl rfl rfl
  · -- the counter never reaches the threshold between two calls
    rw [h.config_eq] at hgate
    exact absurd h.successes (UInt32.not_lt.2 hgate)

theorem Counts.recordSuccess (h : Counts config run) (hf : 1 ≤ config.failureThreshold)
    (hnow : run.clock ≤ now) (hcall : run.breaker.recordSuccess ov now = .ok cb) :
    Counts config (run.extend now .recordSuccess cb) := by
  rcases CircuitBreaker.recordSuccess_cases hcall with
    ⟨hoff, rfl⟩ | ⟨hon, hclosed, rfl⟩ | ⟨-, hopen, rfl⟩ | ⟨-, hhalf, -, rfl⟩ |
    ⟨-, hhalf, hgate, rfl⟩
  · rw [h.config_eq] at hoff
    exact h.unchanged hnow (fun _ => .inl hoff) rfl rfl (.inl rfl) rfl rfl rfl
  · -- a success in Closed clears the counter and ends the count
    rw [h.config_eq] at hon
    refine ⟨h.config_eq, UInt64.le_trans h.window hnow, UInt64.le_trans h.opened hnow,
      h.successes, fun _ => ?_⟩
    simp only [extend, hclosed, failuresInClosed, hon, Bool.true_and, decide_true, if_true]
    exact ⟨rfl, UInt32.lt_of_lt_of_le (show (0 : UInt32) < 1 by decide) hf⟩
  · exact h.closes hf hnow (by simp [hopen])
  · exact h.closes hf hnow (by simp [hhalf])
  · rw [h.config_eq] at hgate
    exact h.leaves hnow rfl (by simp [hhalf]) (.inl rfl) (.inl rfl) hgate

theorem Counts.recordFailure (h : Counts config run) (hnow : run.clock ≤ now)
    (hcall : run.breaker.recordFailure ov now false = .ok cb) :
    Counts config (run.extend now .recordFailure cb) := by
  have hzero : (0 : UInt32) < config.successThreshold :=
    UInt32.lt_of_le_of_lt UInt32.zero_le h.successes
  rcases CircuitBreaker.recordFailureAt_cases hcall with ⟨hoff, rfl⟩ | ⟨cb₁, hreset, hon, hcases⟩
  · rw [h.config_eq] at hoff
    exact h.unchanged hnow (fun _ => .inl hoff) rfl rfl (.inl rfl) rfl rfl rfl
  · rcases hcases with ⟨-, -, rfl⟩ | ⟨hclosed, hbelow, rfl⟩ | ⟨-, rfl⟩ | ⟨hopen, rfl⟩
    · exact h.leaves hnow hreset.config_eq (by simp [CircuitBreaker.transitionToOpen])
        hreset.windowStart_eq (.inr rfl) hzero
    · -- one more failure, in the breaker and in the history
      have hcount := h.failures hclosed
      rw [h.config_eq] at hon hbelow
      have hnext := Rust.toNat_succ_of_lt hcount.2
      refine ⟨hreset.config_eq.trans h.config_eq, ?_, ?_, ?_, fun _ => ⟨?_, hbelow⟩⟩
      · rcases hreset.windowStart_eq with hw | hw
        · exact hw ▸ UInt64.le_trans h.window hnow
        · exact hw ▸ UInt64.le_refl now
      · exact hreset.openTimestamp_eq ▸ UInt64.le_trans h.opened hnow
      · exact hreset.successes_eq ▸ h.successes
      · simp only [extend, hclosed, failuresInClosed, hon, hnext, hcount.1]
        simp
    · exact h.leaves hnow hreset.config_eq (by simp [CircuitBreaker.transitionToOpen])
        hreset.windowStart_eq (.inr rfl) hzero
    · exact h.leaves hnow hreset.config_eq (by simp [hreset.state_eq, hopen])
        hreset.windowStart_eq (.inl hreset.openTimestamp_eq) (hreset.successes_eq ▸ h.successes)

theorem Counts.reportHealth (h : Counts config run) (hnow : run.clock ≤ now) (healthy : Bool) :
    Counts config (run.extend now (.reportHealth healthy) (run.breaker.reportHealth now healthy)) := by
  have hzero : (0 : UInt32) < config.successThreshold :=
    UInt32.lt_of_le_of_lt UInt32.zero_le h.successes
  have hquiet : run.breaker.state = .closed → config.enabled = false ∨
      BreakerCall.reportHealth healthy ≠ .recordSuccess ∧
        BreakerCall.reportHealth healthy ≠ .recordFailure :=
    fun _ => .inr ⟨by simp, by simp⟩
  rcases CircuitBreaker.reportHealth_cases run.breaker now healthy with
    ⟨-, -, heq⟩ | ⟨-, -, heq⟩ | ⟨-, -, heq⟩ | ⟨-, -, heq⟩
  · rw [heq]
    exact h.leaves hnow rfl (by simp [CircuitBreaker.transitionToOpen]) (.inl rfl) (.inr rfl) hzero
  · rw [heq]
    exact h.leaves hnow rfl (by simp [CircuitBreaker.probing]) (.inl rfl) (.inl rfl) hzero
  · rw [heq]
    exact h.unchanged hnow hquiet rfl rfl (.inl rfl) rfl rfl rfl
  · rw [heq]
    exact h.unchanged hnow hquiet rfl rfl (.inl rfl) rfl rfl rfl

/-- Every call keeps the counter tied to the history. -/
theorem Counts.keep (hf : 1 ≤ config.failureThreshold) {run' : BreakerRun}
    {e : UInt64 × BreakerCall} (h : Counts config run) (hstep : run.step ov e = some run') :
    Counts config run' := by
  obtain ⟨hnow, cb, hcall, rfl⟩ := step_cases hstep
  obtain ⟨now, call⟩ := e
  cases call with
  | allowRequest =>
    obtain ⟨⟨answer, cb'⟩, hallow, rfl⟩ := Rust.map_returns.1 hcall
    exact h.allowRequest hnow hallow
  | recordSuccess => exact h.recordSuccess hf hnow hcall
  | recordFailure => exact h.recordFailure hnow hcall
  | reportHealth healthy =>
    cases hcall
    exact h.reportHealth hnow healthy

/-! ## Opening -/

/-- A closed breaker opens on an unhealthy report and on the failure that fills the threshold. -/
theorem Counts.opens_iff (h : Counts config run) (hclosed : run.breaker.state = .closed)
    {call : BreakerCall} (hcall : run.breaker.call ov now call = .ok cb) :
    cb.state = .opened ↔ call = .reportHealth false ∨
      (call = .recordFailure ∧ config.enabled = true ∧
        failuresInClosed config.enabled run.past + 1 = config.failureThreshold.toNat) := by
  have hcount := h.failures hclosed
  cases call with
  | allowRequest =>
    obtain ⟨⟨answer, cb'⟩, hallow, rfl⟩ := Rust.map_returns.1 hcall
    have hstill : cb'.state = .closed := by
      rcases CircuitBreaker.allowRequest_cases hallow with
        ⟨-, -, rfl⟩ | ⟨-, -, -, rfl⟩ | ⟨-, hother, -⟩ | ⟨-, hother, -⟩ | ⟨-, hother, -⟩ |
        ⟨-, hother, -⟩
      · exact hclosed
      · exact hclosed
      all_goals rw [hclosed] at hother; cases hother
    simp [hstill]
  | recordSuccess =>
    have hstill : cb.state = .closed := by
      rcases CircuitBreaker.recordSuccess_cases hcall with
        ⟨-, rfl⟩ | ⟨-, -, rfl⟩ | ⟨-, hother, -⟩ | ⟨-, hother, -⟩ | ⟨-, hother, -⟩
      · exact hclosed
      · exact hclosed
      all_goals rw [hclosed] at hother; cases hother
    simp [hstill]
  | reportHealth healthy =>
    cases hcall
    cases healthy with
    | false => simp [CircuitBreaker.reportHealth_false]
    | true => simp [CircuitBreaker.reportHealth, hclosed]
  | recordFailure =>
    have hnext := Rust.toNat_succ_of_lt hcount.2
    have hlt := UInt32.lt_iff_toNat_lt.1 hcount.2
    rcases CircuitBreaker.recordFailureAt_cases hcall with ⟨hoff, rfl⟩ | ⟨cb₁, hreset, hon, hcases⟩
    · rw [h.config_eq] at hoff
      simp [hclosed, hoff]
    · rw [h.config_eq] at hon hcases
      have hstate : cb₁.state = .closed := hreset.state_eq.trans hclosed
      rcases hcases with ⟨-, hreached, rfl⟩ | ⟨-, hbelow, rfl⟩ | ⟨hother, -⟩ | ⟨hother, -⟩
      · -- the threshold is reached: the count was one short of it
        have hreached := UInt32.le_iff_toNat_le.1 (hreached.resolve_right (by simp))
        have hfull : failuresInClosed config.enabled run.past + 1 =
            config.failureThreshold.toNat := by omega
        simp [CircuitBreaker.transitionToOpen, hon] at hfull ⊢
        exact hfull
      · have hbelow := UInt32.lt_iff_toNat_lt.1 hbelow
        have hshort : failuresInClosed config.enabled run.past + 1 ≠
            config.failureThreshold.toNat := by omega
        simp [hstate, hon] at hshort ⊢
        exact hshort
      · rw [hclosed] at hother; cases hother
      · rw [hclosed] at hother; cases hother

end BreakerRun

/-- In every history of a breaker with positive thresholds and without a health monitor, a closed
    breaker has counted fewer failures than the threshold, every further call returns, and it opens
    a closed breaker just when it is an unhealthy report or the failure that makes
    `failure_threshold` failures recorded in Closed since the later of the last success recorded in
    Closed and the last entry into Closed. -/
theorem breaker_trips_exactly {ov : Overflow} {config : CircuitBreakerConfig} {start : UInt64}
    {calls : List (UInt64 × BreakerCall)} {run : BreakerRun}
    (hfailure : 1 ≤ config.failureThreshold) (hsuccess : 1 ≤ config.successThreshold)
    (hrun : Trace.exec (BreakerRun.step ov) (BreakerRun.new config start) calls = some run) :
    (run.breaker.state = .closed →
      run.breaker.consecutiveFailures < config.failureThreshold) ∧
    ∀ now call, run.clock ≤ now → ∃ run', run.step ov (now, call) = some run' ∧
      (run.breaker.state = .closed →
        (run'.breaker.state = .opened ↔ call = .reportHealth false ∨
          (call = .recordFailure ∧ config.enabled = true ∧
            failuresInClosed config.enabled run.past + 1 = config.failureThreshold.toNat))) := by
  have hcounts : run.Counts config :=
    Trace.exec_keeps (fun s e s' hs hstep => hs.keep hfailure hstep)
      (BreakerRun.Counts.start hfailure hsuccess start) hrun
  refine ⟨fun hclosed => (hcounts.failures hclosed).2, fun now call hnow => ?_⟩
  obtain ⟨cb, hcall⟩ : ∃ cb, run.breaker.call ov now call = .ok cb := hcounts.returns hnow call
  refine ⟨run.extend now call cb, ?_, fun hclosed => hcounts.opens_iff hclosed hcall⟩
  simp only [BreakerRun.step, UInt64.not_lt.2 hnow, if_false, hcall]
  rfl

/-- With a threshold of two, the second failure opens the breaker. -/
theorem breaker_trips_on_second_failure :
    ∃ run, Trace.exec (BreakerRun.step .checked)
        (BreakerRun.new ⟨true, 2, 1, 60, 30, false⟩ 0) [(0, .recordFailure)] = some run ∧
      ∃ run', run.step .checked (1, .recordFailure) = some run' ∧
        run'.breaker.state = .opened := by
  refine ⟨_, rfl, ?_⟩
  have hhistory := @breaker_trips_exactly .checked ⟨true, 2, 1, 60, 30, false⟩ 0
    [(0, .recordFailure)] _ (by decide) (by decide) rfl
  obtain ⟨run', hstep, hopens⟩ := hhistory.2 1 .recordFailure (by decide)
  exact ⟨run', hstep, (hopens rfl).2 (.inr ⟨rfl, rfl, rfl⟩)⟩

end ScryProxy
