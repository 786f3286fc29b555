import ScryProxy.ForStd.Trace
import ScryProxy.Native.CircuitBreaker

/-!
# The circuit breaker on any clock

The breaker reads the wall clock, which can be set back, and subtracts what it remembers from
what it reads.  A run carries the time until which the breaker has to stay open: set when it
opens, and dropped once a reading has reached it.

## Key results

- `open_lasts_of_steady`: no panic and no request too early, as long as no reading is behind
  the time it is compared with and no success is recorded while the breaker has to stay open
- `clock_back_breaks`: what happens otherwise
-/

namespace ScryProxy

open Rust (Overflow)

/-- A call with the times that it reads, in seconds since the epoch.  A reading that only goes to
    `last_state_change` is not told apart from the one before it. -/
inductive ClockCall where
  | allowRequest (now : UInt64)
  | recordSuccess (now : UInt64)
  | recordFailure (now opening : UInt64) (unhealthy : Bool)
  deriving DecidableEq, Repr

/-- A breaker with what its history says about it. -/
structure ClockRun where
  breaker : CircuitBreaker
  /-- the time that no reading has reached since the breaker opened -/
  heldUntil : Option Nat
  /-- a call has panicked -/
  panicked : Bool
  /-- a request was let through at a reading before `heldUntil` -/
  early : Bool
  deriving DecidableEq, Repr

namespace ClockRun

def new (config : CircuitBreakerConfig) (start : UInt64) : ClockRun :=
  ⟨.new config start, none, false, false⟩

/-- What is left to wait for after a reading. -/
def pending (heldUntil : Option Nat) (now : UInt64) : Option Nat :=
  heldUntil.filter (now.toNat < ·)

/-- The breaker opens at a reading, while an earlier opening may still have to be waited for. -/
def holdFrom (heldUntil : Option Nat) (config : CircuitBreakerConfig) (opening : UInt64) :
    Option Nat :=
  some (max ((pending heldUntil opening).getD 0) (opening.toNat + config.openTimeoutSecs.toNat))

/-- One call; after a panic nothing changes any more but the mark. -/
def step (ov : Overflow) (run : ClockRun) : ClockCall → Option ClockRun
  | .allowRequest now =>
    match run.breaker.allowRequest ov now with
    | .error _ => some { run with panicked := true }
    | .ok (answer, cb) => some { run with
        breaker := cb
        heldUntil := pending run.heldUntil now
        early := run.early ||
          (decide (answer = .ok ()) && (pending run.heldUntil now).isSome) }
  | .recordSuccess now =>
    match run.breaker.recordSuccess ov now with
    | .error _ => some { run with panicked := true }
    | .ok cb => some { run with breaker := cb, heldUntil := pending run.heldUntil now }
  | .recordFailure now opening unhealthy =>
    match run.breaker.recordFailureAt ov now opening unhealthy with
    | .error _ => some { run with panicked := true }
    | .ok cb => some { run with
        breaker := cb
        heldUntil :=
          if run.breaker.state ≠ .opened ∧ cb.state = .opened then
            holdFrom (pending run.heldUntil now) cb.config opening
          else pending run.heldUntil now }

/-- No call has panicked, and no request was let through while the breaker had to stay open. -/
def Lasts (run : ClockRun) : Prop := run.panicked = false ∧ run.early = false

/-- No reading is behind the time it is compared with, and an open breaker is not told of a success
    before its timeout. -/
def Steady (ov : Overflow) (run : ClockRun) : ClockCall → Prop
  | .allowRequest now => run.breaker.state = .opened → run.breaker.openTimestamp ≤ now
  | .recordSuccess now => run.breaker.state = .opened →
      run.breaker.openTimestamp.toNat + run.breaker.config.openTimeoutSecs.toNat ≤ now.toNat
  | .recordFailure now _ _ => ov = .checked → run.breaker.config.enabled = true →
      run.breaker.windowStart ≤ now

instance (ov : Overflow) (run : ClockRun) (call : ClockCall) : Decidable (run.Steady ov call) := by
  unfold Steady
  split <;> infer_instance

/-- What a steady run keeps: the breaker is open until the time that is waited for, and its counters
    have not reached their thresholds. -/
structure Held (run : ClockRun) : Prop where
  lasts : run.Lasts
  open_until : ∀ time, run.heldUntil = some time → run.breaker.config.enabled = true ∧
    run.breaker.state = .opened ∧
    run.breaker.openTimestamp.toNat + run.breaker.config.openTimeoutSecs.toNat = time
  failures : run.breaker.state = .closed → run.breaker.consecutiveFailures = 0 ∨
    run.breaker.consecutiveFailures < run.breaker.config.failureThreshold
  successes : run.breaker.state = .halfOpen → run.breaker.consecutiveSuccesses = 0 ∨
    run.breaker.consecutiveSuccesses < run.breaker.config.successThreshold

theorem pending_eq_some {heldUntil : Option Nat} {now : UInt64} {time : Nat} :
    pending heldUntil now = some time ↔ heldUntil = some time ∧ now.toNat < time := by
  rw [pending, Option.filter_eq_some_iff, decide_eq_true_eq]

/-- A counter that is `0` or below its threshold can be counted up. -/
theorem u32Succ_of_zero_or_lt (ov : Overflow) {a b : UInt32} (h : a = 0 ∨ a < b) :
    ∃ n, Rust.u32Succ ov a = .ok n := by
  rcases h with rfl | hlt
  · exact ⟨_, Rust.u32Succ_of_lt ov (show (0 : UInt32) < 1 by decide)⟩
  · exact ⟨_, Rust.u32Succ_of_lt ov hlt⟩

namespace Held

variable {ov : Overflow} {run run' : ClockRun}

theorem new (config : CircuitBreakerConfig) (start : UInt64) : Held (.new config start) :=
  ⟨⟨rfl, rfl⟩, nofun, fun _ => .inl rfl, nofun⟩

/-- Nothing is waited for unless the breaker is open. -/
theorem pending_eq_none (h : Held run) (hstate : run.breaker.config.enabled = false ∨
    run.breaker.state ≠ .opened) (now : UInt64) : pending run.heldUntil now = none := by
  refine Option.eq_none_iff_forall_ne_some.2 fun time htime => ?_
  obtain ⟨henabled, hopen, -⟩ := h.open_until time (pending_eq_some.1 htime).1
  rcases hstate with hoff | hother
  · rw [henabled] at hoff
    cases hoff
  · exact hother hopen

theorem pending_of_state (h : Held run) {state : CircuitState} (hstate : run.breaker.state = state)
    (hother : state ≠ .opened) (now : UInt64) : pending run.heldUntil now = none := by
  apply h.pending_eq_none
  right
  rwa [hstate]

/-- Once the timeout is over nothing is waited for. -/
theorem pending_of_elapsed (h : Held run) {now : UInt64}
    (helapsed : run.breaker.openTimestamp.toNat + run.breaker.config.openTimeoutSecs.toNat ≤
      now.toNat) : pending run.heldUntil now = none := by
  refine Option.eq_none_iff_forall_ne_some.2 fun time htime => ?_
  obtain ⟨hheld, hbefore⟩ := pending_eq_some.1 htime
  have htimeout := (h.open_until time hheld).2.2
  omega

/-- A call that leaves the state, the time of the opening and the counters alone. -/
theorem unchanged (h : Held run) {cb : CircuitBreaker} {now : UInt64} {early : Bool}
    (hearly : early = false) (hconfig : cb.config = run.breaker.config)
    (hstate : cb.state = run.breaker.state) (hopened : cb.openTimestamp = run.breaker.openTimestamp)
    (hfailures : cb.consecutiveFailures = run.breaker.consecutiveFailures)
    (hsuccesses : cb.consecutiveSuccesses = run.breaker.consecutiveSuccesses) :
    Held ⟨cb, pending run.heldUntil now, run.panicked, early⟩ := by
  refine ⟨⟨h.lasts.1, hearly⟩, fun time htime => ?_, ?_, ?_⟩
  · rw [hconfig, hstate, hopened]
    exact h.open_until time (pending_eq_some.1 htime).1
  · rw [hconfig, hstate, hfailures]
    exact h.failures
  · rw [hconfig, hstate, hsuccesses]
    exact h.successes

/-- A call that leaves the breaker with nothing to wait for and fresh counters. -/
theorem released (h : Held run) {cb : CircuitBreaker} {heldUntil : Option Nat} {early : Bool}
    (hearly : early = false) (hnone : heldUntil = none)
    (hfailures : cb.state = .closed → cb.consecutiveFailures = 0)
    (hsuccesses : cb.state = .halfOpen → cb.consecutiveSuccesses = 0) :
    Held ⟨cb, heldUntil, run.panicked, early⟩ := by
  refine ⟨⟨h.lasts.1, hearly⟩, fun time htime => ?_, fun hclosed => .inl (hfailures hclosed),
    fun hhalf => .inl (hsuccesses hhalf)⟩
  rw [hnone] at htime
  cases htime

theorem allowRequest (h : Held run) {now : UInt64} (hsteady : run.Steady ov (.allowRequest now))
    (hstep : run.step ov (.allowRequest now) = some run') : Held run' := by
  obtain ⟨answer, cb, hcall⟩ := CircuitBreaker.allowRequest_returns_of
    fun hopen => ⟨_, Rust.u64Sub_of_le ov (hsteady hopen)⟩
  rw [ClockRun.step, hcall] at hstep
  cases hstep
  -- unless something is waited for, no request is early
  have hfree : pending run.heldUntil now = none →
      (run.early || (decide (answer = .ok ()) && (pending run.heldUntil now).isSome)) = false := by
    intro hnone
    rw [h.lasts.2, hnone, Option.isSome_none, Bool.and_false, Bool.false_or]
  rcases CircuitBreaker.allowRequest_cases hcall with
    ⟨hoff, -, rfl⟩ | ⟨-, hclosed, -, rfl⟩ | ⟨-, -, rfl, rfl⟩ | ⟨hon, hopen, rfl, rfl⟩ |
    ⟨-, hhalf, -, -, rfl⟩ | ⟨-, hhalf, -, -, rfl⟩
  · exact h.unchanged (hfree (h.pending_eq_none (.inl hoff) now)) rfl rfl rfl rfl rfl
  · have hnone := h.pending_of_state hclosed (by decide) now
    exact h.unchanged (hfree hnone) rfl rfl rfl rfl rfl
  · refine h.unchanged ?_ rfl rfl rfl rfl rfl
    rw [h.lasts.2]
    rfl
  · -- the timeout is over
    have hnone := h.pending_of_elapsed
      (CircuitBreaker.elapsed_of_allowRequest hon hopen (hsteady hopen) hcall)
    exact h.released (hfree hnone) hnone nofun (fun _ => rfl)
  · have hnone := h.pending_of_state hhalf (by decide) now
    exact h.unchanged (hfree hnone) rfl rfl rfl rfl rfl
  · have hnone := h.pending_of_state hhalf (by decide) now
    exact h.released (hfree hnone) hnone (fun _ => rfl) nofun

theorem recordSuccess (h : Held run) {now : UInt64} (hsteady : run.Steady ov (.recordSuccess now))
    (hstep : run.step ov (.recordSuccess now) = some run') : Held run' := by
  obtain ⟨cb, hcall⟩ := CircuitBreaker.recordSuccess_returns_of
    fun hhalf => u32Succ_of_zero_or_lt ov (h.successes hhalf)
  rw [ClockRun.step, hcall] at hstep
  cases hstep
  rcases CircuitBreaker.recordSuccess_cases hcall with
    ⟨-, rfl⟩ | ⟨-, hclosed, rfl⟩ | ⟨-, hopen, rfl⟩ | ⟨-, hhalf, -, rfl⟩ | ⟨-, hhalf, hbelow, rfl⟩
  · exact h.unchanged h.lasts.2 rfl rfl rfl rfl rfl
  · have hnone := h.pending_of_state hclosed (by decide) now
    refine h.released h.lasts.2 hnone (fun _ => rfl) fun hhalf => ?_
    rw [show run.breaker.state = .halfOpen from hhalf] at hclosed
    cases hclosed
  · exact h.released h.lasts.2 (h.pending_of_elapsed (hsteady hopen)) (fun _ => rfl) nofun
  · have hnone := h.pending_of_state hhalf (by decide) now
    exact h.released h.lasts.2 hnone (fun _ => rfl) nofun
  · refine ⟨h.lasts, fun time htime => ?_, fun hclosed => ?_, fun _ => .inr hbelow⟩
    · rw [h.pending_of_state hhalf (by decide) now] at htime
      cases htime
    · rw [show run.breaker.state = .closed from hclosed] at hhalf
      cases hhalf

/-- A call that opens the breaker. -/
theorem opens (h : Held run) {cb : CircuitBreaker} {now opening : UInt64}
    (hnone : pending run.heldUntil now = none) (henabled : cb.config.enabled = true)
    (hstate : cb.state = .opened) (hopening : cb.openTimestamp = opening) :
    Held ⟨cb, holdFrom (pending run.heldUntil now) cb.config opening, run.panicked, run.early⟩ := by
  refine ⟨h.lasts, fun time htime => ⟨henabled, hstate, ?_⟩, fun hclosed => ?_, fun hhalf => ?_⟩
  · rw [hnone] at htime
    have htimeout : max 0 (opening.toNat + cb.config.openTimeoutSecs.toNat) = time :=
      Option.some.inj htime
    rw [Nat.zero_max] at htimeout
    rw [hopening]
    exact htimeout
  · rw [show cb.state = .closed from hclosed] at hstate
    cases hstate
  · rw [show cb.state = .halfOpen from hhalf] at hstate
    cases hstate

theorem recordFailure (h : Held run) {now opening : UInt64} {unhealthy : Bool}
    (hsteady : run.Steady ov (.recordFailure now opening unhealthy))
    (hstep : run.step ov (.recordFailure now opening unhealthy) = some run') : Held run' := by
  -- where subtraction wraps, the age of the window may be anything
  have hwindow : run.breaker.config.enabled = true →
      ∃ age, Rust.u64Sub ov now run.breaker.windowStart = .ok age := by
    intro henabled
    cases ov with
    | checked => exact ⟨_, Rust.u64Sub_of_le .checked (hsteady rfl henabled)⟩
    | wrapping => exact ⟨_, Rust.u64Sub_wrapping _ _⟩
  obtain ⟨cb, hcall⟩ := CircuitBreaker.recordFailureAt_returns_of hwindow
    (fun hclosed => u32Succ_of_zero_or_lt ov (h.failures hclosed)) opening unhealthy
  rw [ClockRun.step, hcall] at hstep
  cases hstep
  have hopens : run.breaker.state ≠ .opened → cb.config.enabled = true → cb.state = .opened →
      cb.openTimestamp = opening → Held ⟨cb, if run.breaker.state ≠ .opened ∧ cb.state = .opened then
          holdFrom (pending run.heldUntil now) cb.config opening
        else pending run.heldUntil now, run.panicked, run.early⟩ := by
    intro hbefore henabled hafter hopening
    rw [if_pos ⟨hbefore, hafter⟩]
    exact h.opens (h.pending_eq_none (.inr hbefore) now) henabled hafter hopening
  rcases CircuitBreaker.recordFailureAt_cases hcall with ⟨-, rfl⟩ | ⟨cb₁, hreset, hon, hcases⟩
  · rw [if_neg fun hboth => hboth.1 hboth.2]
    exact h.unchanged h.lasts.2 rfl rfl rfl rfl rfl
  · have hon₁ : cb₁.config.enabled = true := by rwa [hreset.config_eq]
    rcases hcases with ⟨hclosed, -, rfl⟩ | ⟨hclosed, hbelow, rfl⟩ | ⟨hhalf, rfl⟩ | ⟨hopen, rfl⟩
    · exact hopens (by rw [hclosed]; decide) hon₁ rfl rfl
    · -- still closed: one more failure, below the threshold
      have hstate₁ : cb₁.state = .closed := hreset.state_eq.trans hclosed
      rw [if_neg (by simp [hstate₁])]
      refine ⟨h.lasts, fun time htime => ?_, fun _ => .inr ?_, fun hhalf => ?_⟩
      · rw [h.pending_of_state hclosed (by decide) now] at htime
        cases htime
      · show run.breaker.consecutiveFailures + 1 < cb₁.config.failureThreshold
        rwa [hreset.config_eq]
      · rw [show cb₁.state = .halfOpen from hhalf] at hstate₁
        cases hstate₁
    · exact hopens (by rw [hhalf]; decide) hon₁ rfl rfl
    · rw [if_neg fun hboth => hboth.1 hopen]
      exact h.unchanged h.lasts.2 hreset.config_eq hreset.state_eq hreset.openTimestamp_eq
        hreset.failures_eq hreset.successes_eq

theorem step (h : Held run) {call : ClockCall} (hsteady : run.Steady ov call)
    (hstep : run.step ov call = some run') : Held run' := by
  cases call with
  | allowRequest now => exact h.allowRequest hsteady hstep
  | recordSuccess now => exact h.recordSuccess hsteady hstep
  | recordFailure now opening unhealthy => exact h.recordFailure hsteady hstep

end Held

end ClockRun

/-- In a steady run no call panics, and after the breaker opened at reading `t` no request is let
    through at a reading before `t + open_timeout_secs` until some reading has reached that time. -/
theorem open_lasts_of_steady (ov : Overflow) (config : CircuitBreakerConfig) (start : UInt64)
    (calls : List ClockCall)
    (hsteady : Trace.Admits (ClockRun.step ov) (ClockRun.Steady ov) (.new config start) calls) :
    Trace.Always (ClockRun.step ov) ClockRun.Lasts (.new config start) calls :=
  Trace.always_of_admits (fun _ _ _ hheld hok hstep => hheld.step hok hstep)
    (fun _ hheld => hheld.lasts) (ClockRun.Held.new config start) hsteady

/-- A breaker that opened, a request too early, a failure while open, and one that comes through after
    the timeout and closes the breaker, on a clock that is set back twice. -/
theorem open_lasts_set_back :
    Trace.Always (ClockRun.step .checked) ClockRun.Lasts (.new ⟨true, 1, 1, 60, 30, false⟩ 100)
      [.recordFailure 200 150 false, .allowRequest 170, .recordFailure 200 0 false,
        .allowRequest 160, .allowRequest 190, .recordSuccess 10, .allowRequest 5] :=
  open_lasts_of_steady .checked _ 100 _ (by decide)

/-- A breaker that opens at reading 100 for 30 seconds.  At reading 90 the next request panics, or
    comes through where subtraction wraps; a success that is recorded at reading 101 lets the next
    request through at 102; and a failure at a reading before the start panics. -/
theorem clock_back_breaks :
    (¬ Trace.Always (ClockRun.step .checked) ClockRun.Lasts (.new ⟨true, 1, 1, 60, 30, false⟩ 100)
      [.recordFailure 100 100 false, .allowRequest 90]) ∧
    (¬ Trace.Always (ClockRun.step .wrapping) ClockRun.Lasts (.new ⟨true, 1, 1, 60, 30, false⟩ 100)
      [.recordFailure 100 100 false, .allowRequest 90]) ∧
    (¬ Trace.Always (ClockRun.step .checked) ClockRun.Lasts (.new ⟨true, 1, 1, 60, 30, false⟩ 100)
      [.recordFailure 100 100 false, .recordSuccess 101, .allowRequest 102]) ∧
    ¬ Trace.Always (ClockRun.step .checked) ClockRun.Lasts (.new ⟨true, 1, 1, 60, 30, false⟩ 100)
      [.recordFailure 90 90 false] := by
  refine ⟨fun h => ?_, fun h => ?_, fun h => ?_, fun h => ?_⟩
  all_goals
    have hend := h.last rfl
    revert hend
    simp only [ClockRun.Lasts]
    decide

end ScryProxy
