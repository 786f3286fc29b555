import ScryProxy.Native.CircuitBreaker
import ScryProxy.Native.Recycle

/-!
# Active health check

Model of `resilience/healthcheck.rs` and of the task in `proxy/server.rs` that runs a check
at every tick and reports it to the breaker of the default backend.  The other events are
what else happens to that breaker: its registration, and the requests that ask it.
-/

namespace ScryProxy

open Rust (Overflow)

structure HealthcheckConfig where
  activeEnabled : Bool
  failureThreshold : UInt32
  deriving DecidableEq, Repr

/-- What the probe of one check meets: no connection, no answer within `timeout_ms`, or a new
    connection on which `health_check` runs. -/
inductive Probe where
  | connectFailed
  | timedOut
  | connected (e : Exchange)
  deriving DecidableEq, Repr

def Probe.passes (ov : Overflow) : Probe → Rust Bool
  | .connected e => do
    let answer ← healthCheck ov e
    return answer.ok
  | .connectFailed | .timedOut => .ok false

structure ActiveHealthcheck where
  config : HealthcheckConfig
  consecutiveFailures : UInt32
  isHealthy : Bool
  deriving DecidableEq, Repr

namespace ActiveHealthcheck

def new (config : HealthcheckConfig) : ActiveHealthcheck := ⟨config, 0, true⟩

/-- `check`; its `Result` is always `Ok`. -/
def check (ov : Overflow) (hc : ActiveHealthcheck) (probe : Probe) :
    Rust (Bool × ActiveHealthcheck) :=
  if !hc.config.activeEnabled then .ok (true, hc)
  else do
    if ← probe.passes ov then
      return (true, { hc with consecutiveFailures := 0, isHealthy := true })
    else
      let failures ← Rust.u32Succ ov hc.consecutiveFailures
      -- still healthy until the threshold
      let isHealthy := if hc.config.failureThreshold ≤ failures then false else hc.isHealthy
      -- `fetch_add` itself wraps
      return (isHealthy, { hc with
        consecutiveFailures := hc.consecutiveFailures + 1
        isHealthy := isHealthy })

end ActiveHealthcheck

/-- The health check task, and the breaker registered for the default backend. -/
structure HealthLoop where
  healthcheck : ActiveHealthcheck
  breaker : Option CircuitBreaker
  deriving DecidableEq, Repr

inductive HealthEvent where
  | tick (probe : Probe) (now : UInt64)
  | register (config : CircuitBreakerConfig) (now : UInt64)
  | allowRequest (now : UInt64)
  | recordSuccess (now : UInt64)
  | recordFailure (now : UInt64) (unhealthy : Bool)
  deriving DecidableEq, Repr

def HealthEvent.isTick : HealthEvent → Bool
  | .tick _ _ => true
  | _ => false

namespace HealthLoop

/-- One round of the task: what the check returned, and the state after the report. -/
def tick (ov : Overflow) (l : HealthLoop) (probe : Probe) (now : UInt64) :
    Rust (Bool × HealthLoop) := do
  let (isHealthy, healthcheck) ← l.healthcheck.check ov probe
  return (isHealthy, ⟨healthcheck, l.breaker.map fun cb => cb.reportHealth now isHealthy⟩)

/-- A use of the breaker by a request; without a breaker nothing is asked. -/
def useBreaker (l : HealthLoop) (use : CircuitBreaker → Rust CircuitBreaker) :
    Option HealthLoop :=
  match l.breaker with
  | some cb => (use cb).toOption.map fun cb => { l with breaker := some cb }
  | none => some l

/-- One event; `none` if it does not return. -/
def step (ov : Overflow) (l : HealthLoop) : HealthEvent → Option HealthLoop
  | .tick probe now => (l.tick ov probe now).toOption.map Prod.snd
  | .register config now => some { l with breaker := some (.new config now) }
  | .allowRequest now => l.useBreaker fun cb => (cb.allowRequest ov now).map Prod.snd
  | .recordSuccess now => l.useBreaker fun cb => cb.recordSuccess ov now
  | .recordFailure now unhealthy => l.useBreaker fun cb => cb.recordFailure ov now unhealthy

end HealthLoop

end ScryProxy
