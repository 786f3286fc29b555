import Mathlib.Data.Nat.Cast.Defs
import ScryProxy.ForStd.Trace
import ScryProxy.Native.CircuitBreaker

/-!
# Health monitor

Model of `observability/health.rs`, of the counters of `ProxyMetrics` that a health check reads
(`observability/metrics.rs`), and of the breaker that asks the monitor.  The model is over any
type `F` with the operations of `f64`; of the latency histogram only the 99th percentile is
kept.

The gauges of the pool are set by `update_pool_metrics` alone.  No event of a run calls it: in the
program nothing does.
-/

namespace ScryProxy

open Rust (Overflow)

/-- The operations of `f64`. -/
class FloatOps (F : Type) extends Add F, Sub F, Mul F, Div F, NatCast F, LT F, LE F where
  decLT : DecidableLT F
  decLE : DecidableLE F

instance FloatOps.decidableLT {F : Type} [FloatOps F] : DecidableLT F := FloatOps.decLT

instance FloatOps.decidableLE {F : Type} [FloatOps F] : DecidableLE F := FloatOps.decLE

structure HealthConfig (F : Type) where
  errorRateSpikeFactor : F
  latencySpikeFactor : F
  poolSaturationThreshold : F
  emaAlpha : F
  /-- the literals of `get_status` -/
  criticalUtilization : F
  criticalFactor : F

structure HealthSnapshot (F : Type) where
  errorRate : F
  latencyP99Ms : F
  poolUtilization : F
  poolSize : Nat
  poolAvailable : Nat
  activeConnections : Nat

inductive HealthWarning (F : Type) where
  | errorRateSpike (current baseline factor : F)
  | latencySpike (currentP99Ms baselineP99Ms factor : F)
  | poolSaturation (utilization threshold : F)
  | poolStarvation (available waitQueue : Nat)

inductive HealthStatus where
  | healthy
  | degraded
  | unhealthy
  deriving DecidableEq, Repr

structure Baseline (F : Type) where
  avgErrorRate : F
  avgLatencyP99 : F
  avgPoolUtilization : F
  alpha : F
  sampleCount : Nat

structure HealthMonitor (F : Type) where
  config : HealthConfig F
  warnings : List (HealthWarning F)
  baseline : Baseline F

section

variable {F : Type} [FloatOps F]

/-- `0.0`. -/
def zeroF : F := ((0 : Nat) : F)

namespace Baseline

/-- `new`. -/
def new (alpha : F) : Baseline F := ⟨zeroF, zeroF, zeroF, alpha, 0⟩

/-- One step of the moving average. -/
def ema (alpha sample average : F) : F := alpha * sample + (((1 : Nat) : F) - alpha) * average

/-- `update`. -/
def update (b : Baseline F) (sample : HealthSnapshot F) : Baseline F :=
  if b.sampleCount = 0 then
    ⟨sample.errorRate, sample.latencyP99Ms, sample.poolUtilization, b.alpha, b.sampleCount + 1⟩
  else
    ⟨ema b.alpha sample.errorRate b.avgErrorRate, ema b.alpha sample.latencyP99Ms b.avgLatencyP99,
      ema b.alpha sample.poolUtilization b.avgPoolUtilization, b.alpha, b.sampleCount + 1⟩

end Baseline

namespace HealthMonitor

/-- `new`. -/
def new (config : HealthConfig F) : HealthMonitor F := ⟨config, [], .new config.emaAlpha⟩

def errorRateSpike (m : HealthMonitor F) (current : HealthSnapshot F) : List (HealthWarning F) :=
  if zeroF < current.errorRate ∧ zeroF < m.baseline.avgErrorRate then
    let spikeFactor := current.errorRate / m.baseline.avgErrorRate
    if m.config.errorRateSpikeFactor ≤ spikeFactor then
      [.errorRateSpike current.errorRate m.baseline.avgErrorRate spikeFactor]
    else []
  else []

def latencySpike (m : HealthMonitor F) (current : HealthSnapshot F) : List (HealthWarning F) :=
  if zeroF < current.latencyP99Ms ∧ zeroF < m.baseline.avgLatencyP99 then
    let spikeFactor := current.latencyP99Ms / m.baseline.avgLatencyP99
    if m.config.latencySpikeFactor ≤ spikeFactor then
      [.latencySpike current.latencyP99Ms m.baseline.avgLatencyP99 spikeFactor]
    else []
  else []

def poolSaturation (m : HealthMonitor F) (current : HealthSnapshot F) : List (HealthWarning F) :=
  if m.config.poolSaturationThreshold ≤ current.poolUtilization then
    [.poolSaturation current.poolUtilization m.config.poolSaturationThreshold]
  else []

def poolStarvation (current : HealthSnapshot F) : List (HealthWarning F) :=
  if current.poolAvailable = 0 ∧ current.poolSize < current.activeConnections then
    [.poolStarvation current.poolAvailable (current.activeConnections - current.poolSize)]
  else []

/-- `check_and_update`: the sample is compared with the old baseline. -/
def checkAndUpdate (m : HealthMonitor F) (current : HealthSnapshot F) : HealthMonitor F where
  config := m.config
  warnings := m.errorRateSpike current ++ m.latencySpike current ++ m.poolSaturation current ++
    poolStarvation current
  baseline := m.baseline.update current

/-- The warnings that `get_status` counts as critical. -/
def critical (config : HealthConfig F) : HealthWarning F → Bool
  | .poolStarvation _ _ => true
  | .poolSaturation utilization _ => decide (config.criticalUtilization ≤ utilization)
  | .errorRateSpike _ _ factor => decide (config.criticalFactor ≤ factor)
  | .latencySpike _ _ _ => false

/-- `get_status`. -/
def getStatus (m : HealthMonitor F) : HealthStatus :=
  if m.warnings.isEmpty then .healthy
  else if m.warnings.any (critical m.config) then .unhealthy
  else .degraded

end HealthMonitor

/-! ## The counters that a check reads -/

/-- The gauges of `PoolMetrics` that `update` sets. -/
structure PoolGauges where
  size : Nat
  available : Nat
  maxSize : Nat
  deriving DecidableEq, Repr

structure ProxyMetrics where
  totalQueries : Nat
  totalErrors : Nat
  latencyP99Micros : Nat
  pool : PoolGauges
  activeConnections : Nat
  deriving DecidableEq, Repr

namespace ProxyMetrics

/-- `new`. -/
def new : ProxyMetrics := ⟨0, 0, 0, ⟨0, 0, 0⟩, 0⟩

/-- `record_query`, with the percentile after it. -/
def recordQuery (m : ProxyMetrics) (success : Bool) (latencyP99Micros : Nat) : ProxyMetrics :=
  { m with
    totalQueries := m.totalQueries + 1
    totalErrors := if success then m.totalErrors else m.totalErrors + 1
    latencyP99Micros }

/-- `create_health_snapshot`. -/
def createHealthSnapshot (m : ProxyMetrics) : HealthSnapshot F where
  errorRate :=
    let total : F := (m.totalQueries : F)
    let errors : F := (m.totalErrors : F)
    if zeroF < total then errors / total else zeroF
  latencyP99Ms := (m.latencyP99Micros : F) / ((1000 : Nat) : F)
  poolUtilization :=
    if 0 < m.pool.maxSize then ((m.pool.size - m.pool.available : Nat) : F) / ((m.pool.maxSize : Nat) : F)
    else zeroF
  poolSize := m.pool.size
  poolAvailable := m.pool.available
  activeConnections := m.activeConnections

end ProxyMetrics

/-! ## The monitor and a breaker that asks it -/

structure MonitoredProxy (F : Type) where
  metrics : ProxyMetrics
  monitor : HealthMonitor F
  breaker : CircuitBreaker

inductive MonitorEvent where
  /-- a handler is spawned, and its guard dropped -/
  | connect
  | disconnect
  | query (success : Bool) (latencyP99Micros : Nat)
  /-- the background task of `main`, every ten seconds -/
  | healthCheck
  /-- what the pool reports to its breaker -/
  | allowRequest (now : UInt64)
  | recordSuccess (now : UInt64)
  | recordFailure (now : UInt64)
  /-- the active health check -/
  | reportHealth (now : UInt64) (healthy : Bool)
  deriving DecidableEq, Repr

namespace MonitoredProxy

def new (config : HealthConfig F) (breaker : CircuitBreaker) : MonitoredProxy F :=
  ⟨.new, .new config, breaker⟩

/-- One event; `none` if it cannot happen or panics. -/
def step (ov : Overflow) (s : MonitoredProxy F) : MonitorEvent → Option (MonitoredProxy F)
  | .connect => some { s with metrics.activeConnections := s.metrics.activeConnections + 1 }
  | .disconnect =>
    if 0 < s.metrics.activeConnections then
      some { s with metrics.activeConnections := s.metrics.activeConnections - 1 }
    else none
  | .query success p99 => some { s with metrics := s.metrics.recordQuery success p99 }
  | .healthCheck => some { s with monitor := s.monitor.checkAndUpdate s.metrics.createHealthSnapshot }
  | .allowRequest now =>
    (s.breaker.allowRequest ov now).toOption.map fun (_, breaker) => { s with breaker }
  | .recordSuccess now => (s.breaker.recordSuccess ov now).toOption.map fun breaker => { s with breaker }
  | .recordFailure now =>
    (s.breaker.recordFailure ov now (s.monitor.getStatus == .unhealthy)).toOption.map
      fun breaker => { s with breaker }
  | .reportHealth now healthy => some { s with breaker := s.breaker.reportHealth now healthy }

end MonitoredProxy

end

end ScryProxy
