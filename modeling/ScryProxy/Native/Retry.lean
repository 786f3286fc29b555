import Mathlib.Data.NNRat.Floor
import ScryProxy.Native.Acquire

/-!
# Retries with backoff

Model of `resilience/retry.rs` and of `get_with_retry` in `proxy/tcp_pool.rs`.  The outcomes of
the operation are a sequence, one for each call, and so are the draws of the random number
generator.  The factors are rational numbers: a product of milliseconds and a factor is exact
before it is truncated, and neither it nor a delay reaches 2^64.
-/

namespace ScryProxy

/-- `RetryStrategy` with its `ConnectionRetryConfig`. -/
structure RetryStrategy extends ConnectionRetryConfig where
  initialBackoffMs : Nat
  maxBackoffMs : Nat
  backoffMultiplier : ℚ≥0
  jitterFactor : ℚ≥0

/-- A delay before the next attempt. -/
structure Delay where
  backoffMs : Nat
  jitterMs : Nat
  deriving DecidableEq, Repr

/-- What an execution does: the outcomes of its calls, the delays it sleeps, and what it returns. -/
structure RetryRun (T E : Type) where
  calls : List (Except E T)
  slept : List Delay
  result : Except E T

namespace RetryStrategy

/-- `(ms as f64 * factor) as u64`. -/
def scale (ms : Nat) (factor : ℚ≥0) : Nat := ⌊(ms : ℚ≥0) * factor⌋₊

/-- `calculate_jitter`; `draw` is what the generator is at. -/
def calculateJitter (strategy : RetryStrategy) (draw baseMs : Nat) : Nat :=
  let jitterRange := scale baseMs strategy.jitterFactor
  if 0 < jitterRange then draw % (jitterRange + 1) else 0

section

variable {T E : Type} (strategy : RetryStrategy) (outcomes : Nat → Except E T)
  (isRetryable : E → Bool) (draws : Nat → Nat)

/-- The loop of `execute_with_classifier`. -/
def executeLoop (attempt backoffMs : Nat) (calls : List (Except E T)) (slept : List Delay) :
    RetryRun T E :=
  let attempt := attempt + 1
  let outcome := outcomes calls.length
  let calls := calls ++ [outcome]
  match outcome with
  | .ok result => ⟨calls, slept, .ok result⟩
  | .error e =>
    -- an error that another attempt cannot resolve is returned at once
    if !isRetryable e then ⟨calls, slept, .error e⟩
    else if strategy.maxAttempts ≤ attempt then ⟨calls, slept, .error e⟩
    else
      -- the jitter is slept too, but the next backoff is computed without it
      let jitter := strategy.calculateJitter (draws slept.length) backoffMs
      executeLoop attempt (min (scale backoffMs strategy.backoffMultiplier) strategy.maxBackoffMs)
        calls (slept ++ [⟨backoffMs, jitter⟩])
termination_by strategy.maxAttempts - attempt

/-- `execute_with_classifier`. -/
def executeWithClassifier : RetryRun T E :=
  if !strategy.enabled then ⟨[outcomes 0], [], outcomes 0⟩
  else strategy.executeLoop outcomes isRetryable draws 0 strategy.initialBackoffMs [] []

/-- `execute`: every error is retried. -/
def execute : RetryRun T E := strategy.executeWithClassifier outcomes (fun _ => true) draws

end

/-- `get_with_retry`; the outcomes are those of `pool.get()`. -/
def getWithRetry {T : Type} (strategy : RetryStrategy) (outcomes : Nat → Except DeadpoolError T)
    (draws : Nat → Nat) : Except GetError T :=
  (strategy.executeWithClassifier outcomes DeadpoolError.retryable draws).result.mapError .retried

end RetryStrategy

end ScryProxy
