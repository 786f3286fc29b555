import ScryProxy.Native.Retry

/-!
# How often and how long a retry tries

The loop of `execute_with_classifier` goes on after an error that is retryable, unless the
attempts are used up.  After `attempt` rounds the calls made are the first outcomes, each
delay slept is the backoff of its round, and the next backoff is the one for this round
(`executeLoop_spec`); the backoffs after the first are capped, which bounds the sum of the
delays (`sum_backoffAt_le`).
-/

namespace ScryProxy

namespace RetryStrategy

variable {T E : Type} (strategy : RetryStrategy) (outcomes : Nat → Except E T)
  (isRetryable : E → Bool) (draws : Nat → Nat)

/-- An error that is worth another attempt. -/
def Retries (outcome : Except E T) : Prop := ∃ e, outcome = .error e ∧ isRetryable e = true

theorem not_retries_ok (value : T) : ¬ Retries isRetryable (.ok value) := by
  rintro ⟨e, he, -⟩
  cases he

theorem retries_error_iff {e : E} :
    Retries isRetryable (.error e : Except E T) ↔ isRetryable e = true := by
  constructor
  · rintro ⟨e', he, hretry⟩
    cases he
    exact hretry
  · intro hretry
    exact ⟨e, rfl, hretry⟩

/-- The backoff that is slept after attempt `k + 1`, without jitter. -/
def backoffAt : Nat → Nat
  | 0 => strategy.initialBackoffMs
  | k + 1 => min (scale (backoffAt k) strategy.backoffMultiplier) strategy.maxBackoffMs

/-- The attempts that are made if every one of them fails. -/
def allowedAttempts : Nat := max 1 strategy.maxAttempts

/-- Only the first backoff can exceed the cap. -/
theorem sum_backoffAt_le (n : Nat) :
    ((List.range (n + 1)).map strategy.backoffAt).sum ≤
      strategy.initialBackoffMs + n * strategy.maxBackoffMs := by
  induction n with
  | zero => simp [backoffAt]
  | succ n ih =>
    have hcap : strategy.backoffAt (n + 1) ≤ strategy.maxBackoffMs := Nat.min_le_right _ _
    rw [List.range_succ, List.map_append, List.sum_append, List.map_singleton, List.sum_singleton,
      Nat.succ_mul]
    omega

/-- A run of `n + 1` calls: all but the last outcome are retried, and the last one is returned. -/
structure Stops (run : RetryRun T E) (n : Nat) : Prop where
  allowed : n < strategy.allowedAttempts
  calls : run.calls = (List.range (n + 1)).map outcomes
  slept : run.slept.map Delay.backoffMs = (List.range n).map strategy.backoffAt
  retried : ∀ k < n, Retries isRetryable (outcomes k)
  stopped : n + 1 = strategy.allowedAttempts ∨ ¬ Retries isRetryable (outcomes n)
  result : run.result = outcomes n

variable {strategy outcomes isRetryable} in
/-- From a state that `attempt` rounds lead to, the loop stops as it should. -/
theorem executeLoop_spec {attempt : Nat} {calls : List (Except E T)} {slept : List Delay}
    (hattempt : attempt < strategy.allowedAttempts) (hcalls : calls = (List.range attempt).map outcomes)
    (hslept : slept.map Delay.backoffMs = (List.range attempt).map strategy.backoffAt)
    (hretried : ∀ k < attempt, Retries isRetryable (outcomes k)) :
    ∃ n, Stops strategy outcomes isRetryable (strategy.executeLoop outcomes isRetryable draws attempt
      (strategy.backoffAt attempt) calls slept) n := by
  -- by the recursion of the loop; what is known of the calls and delays so far is its invariant
  have hlength : calls.length = attempt := by rw [hcalls, List.length_map, List.length_range]
  have hmade : calls ++ [outcomes attempt] = (List.range (attempt + 1)).map outcomes := by
    rw [List.range_succ, List.map_append, hcalls, List.map_singleton]
  unfold executeLoop
  simp only [hlength]
  cases houtcome : outcomes attempt with
  | ok value =>
    have hdone : ¬ Retries isRetryable (outcomes attempt) := houtcome ▸ not_retries_ok isRetryable value
    rw [houtcome] at hmade
    exact ⟨attempt, hattempt, hmade, hslept, hretried, .inr hdone, houtcome.symm⟩
  | error e =>
    have hagain : Retries isRetryable (outcomes attempt) ↔ isRetryable e = true := by
      rw [houtcome, retries_error_iff]
    rw [houtcome] at hmade
    by_cases hretry : isRetryable e = true
    · by_cases hlast : strategy.maxAttempts ≤ attempt + 1
      · -- the last attempt that is allowed
        have hused : attempt + 1 = strategy.allowedAttempts := by
          unfold allowedAttempts at hattempt ⊢
          omega
        simp only [hretry, Bool.not_true, Bool.false_eq_true, if_false, if_pos hlast]
        exact ⟨attempt, hattempt, hmade, hslept, hretried, .inl hused, houtcome.symm⟩
      · simp only [hretry, Bool.not_true, Bool.false_eq_true, if_false, if_neg hlast]
        have hnext : attempt + 1 < strategy.allowedAttempts := by
          unfold allowedAttempts
          omega
        refine executeLoop_spec hnext hmade ?_ ?_
        · rw [List.map_append, hslept, List.range_succ, List.map_append]
          rfl
        · intro k hk
          rcases Nat.lt_succ_iff_lt_or_eq.1 hk with hk | rfl
          · exact hretried k hk
          · exact hagain.2 hretry
    · simp only [Bool.eq_false_iff.2 hretry, Bool.not_false, if_true]
      exact ⟨attempt, hattempt, hmade, hslept, hretried, .inr (mt hagain.1 hretry), houtcome.symm⟩
termination_by strategy.maxAttempts - attempt

variable {strategy} in
/-- An execution with retries stops. -/
theorem executeWithClassifier_stops (henabled : strategy.enabled = true) :
    ∃ n, Stops strategy outcomes isRetryable
      (strategy.executeWithClassifier outcomes isRetryable draws) n := by
  have hfirst : 0 < strategy.allowedAttempts := Nat.lt_of_lt_of_le Nat.zero_lt_one (Nat.le_max_left _ _)
  have hloop : strategy.executeWithClassifier outcomes isRetryable draws =
      strategy.executeLoop outcomes isRetryable draws 0 (strategy.backoffAt 0) [] [] := by
    rw [executeWithClassifier, henabled]
    rfl
  have hnone : ([] : List Delay).map Delay.backoffMs = (List.range 0).map strategy.backoffAt := rfl
  rw [hloop]
  exact executeLoop_spec draws hfirst rfl hnone (by simp)

/-- What is slept without the jitter, if `n` delays are. -/
theorem Stops.sum_slept_le {run : RetryRun T E} {n : Nat}
    (h : Stops strategy outcomes isRetryable run n) (hattempts : 2 ≤ strategy.maxAttempts) :
    (run.slept.map Delay.backoffMs).sum ≤
      strategy.initialBackoffMs + (strategy.maxAttempts - 2) * strategy.maxBackoffMs := by
  have hn : n < strategy.maxAttempts := by
    have hallowed := h.allowed
    unfold allowedAttempts at hallowed
    omega
  rw [h.slept]
  -- a run of n + 1 calls has n delays, the first of them not capped
  cases n with
  | zero => exact Nat.zero_le _
  | succ n =>
    have hmore : n * strategy.maxBackoffMs ≤ (strategy.maxAttempts - 2) * strategy.maxBackoffMs :=
      Nat.mul_le_mul_right _ (by omega)
    have hsum := strategy.sum_backoffAt_le n
    omega

/-- With retries enabled, the operation is called until it succeeds, fails for good or has been
    called as often as allowed; the last outcome is returned, and the sum of the backoffs is
    bounded. -/
theorem executeWithClassifier_bounded (henabled : strategy.enabled = true) :
    ∃ n < max 1 strategy.maxAttempts,
      let run := strategy.executeWithClassifier outcomes isRetryable draws
      run.calls = (List.range (n + 1)).map outcomes ∧
      (∀ k < n, ∃ e, outcomes k = .error e ∧ isRetryable e = true) ∧
      (n + 1 = max 1 strategy.maxAttempts ∨
        ¬ ∃ e, outcomes n = .error e ∧ isRetryable e = true) ∧
      run.result = outcomes n ∧
      (2 ≤ strategy.maxAttempts → (run.slept.map Delay.backoffMs).sum ≤
        strategy.initialBackoffMs + (strategy.maxAttempts - 2) * strategy.maxBackoffMs) := by
  obtain ⟨n, hstops⟩ := executeWithClassifier_stops outcomes isRetryable draws henabled
  exact ⟨n, hstops.allowed, hstops.calls, hstops.retried, hstops.stopped, hstops.result,
    hstops.sum_slept_le⟩

/-- The strategy of the default configuration. -/
def standard : RetryStrategy := ⟨⟨true, 3⟩, 50, 5000, 2, 1 / 10⟩

/-- An operation that always times out is called three times. -/
theorem executeWithClassifier_timeouts :
    ∃ n < max 1 standard.maxAttempts,
      let run := standard.executeWithClassifier (T := Unit) (fun _ => .error "timeout") (fun _ => true)
        (fun _ => 0)
      run.calls = (List.range (n + 1)).map (fun _ => .error "timeout") ∧
      (∀ k < n, ∃ e, (.error "timeout" : Except String Unit) = .error e ∧ true = true) ∧
      (n + 1 = max 1 standard.maxAttempts ∨
        ¬ ∃ e, (.error "timeout" : Except String Unit) = .error e ∧ true = true) ∧
      run.result = .error "timeout" ∧
      (2 ≤ standard.maxAttempts → (run.slept.map Delay.backoffMs).sum ≤
        standard.initialBackoffMs + (standard.maxAttempts - 2) * standard.maxBackoffMs) :=
  executeWithClassifier_bounded standard _ _ _ rfl

/-! ## The attempts of a `get` -/

/-- `get_with_retry` makes the steps of a call of the shared pool: an attempt is followed by another
    one where the call backs off, and its last error is the error of the call. -/
theorem getWithRetry_follows {cfg : PoolConfig} {strategy : RetryStrategy}
    (hcfg : cfg.retryConfig = some strategy.toConnectionRetryConfig) (henabled : strategy.enabled = true)
    (outcomes : Nat → Except DeadpoolError T) (draws : Nat → Nat) :
    ∃ n, (∀ k < n, ∃ e, outcomes k = .error e ∧ SharedPool.retries cfg (k + 1) e = true) ∧
      (∀ v, outcomes n = .ok v → strategy.getWithRetry outcomes draws = .ok v) ∧
      ∀ e, outcomes n = .error e → SharedPool.retries cfg (n + 1) e = false ∧
        strategy.getWithRetry outcomes draws = .error (SharedPool.getError cfg e) := by
  obtain ⟨n, hstops⟩ := executeWithClassifier_stops outcomes DeadpoolError.retryable draws henabled
  have hallowed : n < max 1 strategy.maxAttempts := hstops.allowed
  have hretries : ∀ k e, SharedPool.retries cfg (k + 1) e = true ↔
      e.retryable = true ∧ k + 1 < strategy.maxAttempts := by
    intro k e
    simp [SharedPool.retries, hcfg, henabled]
  have hresult : strategy.getWithRetry outcomes draws = (outcomes n).mapError .retried :=
    congrArg (Except.mapError GetError.retried) hstops.result
  refine ⟨n, ?_, ?_, ?_⟩
  · intro k hk
    obtain ⟨e, he, hretry⟩ := hstops.retried k hk
    exact ⟨e, he, (hretries k e).2 ⟨hretry, by omega⟩⟩
  · intro v hv
    rw [hresult, hv]
    rfl
  · intro e he
    constructor
    · rw [Bool.eq_false_iff, Ne, hretries]
      rintro ⟨hretry, hmore⟩
      rcases hstops.stopped with hlast | hdone
      · have hlast : n + 1 = max 1 strategy.maxAttempts := hlast
        omega
      · exact hdone ⟨e, he, hretry⟩
    · rw [hresult, he, SharedPool.getError, hcfg]
      simp only [henabled, if_true]
      rfl

end RetryStrategy

end ScryProxy
