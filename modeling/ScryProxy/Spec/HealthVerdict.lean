import Mathlib.Data.Rat.Cast.Defs
import ScryProxy.Native.Health

/-!
# What a health check finds

The gauges of the pool are set by `update_pool_metrics` alone, and nothing calls it.  A check
therefore sees a pool of size zero with nothing available, and takes every connected client for
one that waits: it reports starvation, which is critical, exactly when a client is connected
(`unhealthy_iff`).  A breaker that uses the monitor then opens at the first failure, whatever its
threshold (`first_failure_opens`).
-/

namespace ScryProxy

open Rust (Overflow)
open Trace (exec)

variable {F : Type} [FloatOps F]

namespace HealthMonitor

/-- The status is decided by the critical warnings alone. -/
theorem getStatus_eq_unhealthy (m : HealthMonitor F) :
    m.getStatus = .unhealthy ↔ m.warnings.any (critical m.config) = true := by
  unfold getStatus
  cases hwarnings : m.warnings with
  | nil => simp
  | cons w ws =>
    cases hany : (w :: ws).any (critical m.config) <;> simp

/-- A latency spike is never critical. -/
theorem any_latencySpike (m : HealthMonitor F) (current : HealthSnapshot F) :
    (m.latencySpike current).any (critical m.config) = false := by
  unfold latencySpike
  split
  · dsimp only
    split <;> rfl
  · rfl

end HealthMonitor

namespace MonitoredProxy

variable {ov : Overflow} {config : HealthConfig F} {breaker : CircuitBreaker}

/-- An event touches the counters, the monitor or the breaker. -/
inductive Moves (s : MonitoredProxy F) : MonitorEvent → MonitoredProxy F → Prop
  | counters {e : MonitorEvent} {metrics : ProxyMetrics} (hother : e ≠ .healthCheck)
      (hpool : metrics.pool = s.metrics.pool) : Moves s e { s with metrics }
  | check : Moves s .healthCheck
      { s with monitor := s.monitor.checkAndUpdate s.metrics.createHealthSnapshot }
  | breaker {e : MonitorEvent} {breaker : CircuitBreaker} (hother : e ≠ .healthCheck) :
      Moves s e { s with breaker }

theorem step_cases {s s' : MonitoredProxy F} {e : MonitorEvent} (hstep : s.step ov e = some s') :
    Moves s e s' := by
  cases e with
  | connect | query =>
    cases hstep
    exact .counters (by simp) rfl
  | disconnect =>
    simp only [step] at hstep
    split at hstep
    · cases hstep
      exact .counters (by simp) rfl
    · cases hstep
  | healthCheck =>
    cases hstep
    exact .check
  | allowRequest | recordSuccess | recordFailure =>
    obtain ⟨_, -, rfl⟩ := Option.map_eq_some_iff.1 hstep
    exact .breaker (by simp)
  | reportHealth =>
    cases hstep
    exact .breaker (by simp)

/-- What no event changes: nothing ever sets the gauges of the pool. -/
structure Fixed (config : HealthConfig F) (s : MonitoredProxy F) : Prop where
  pool : s.metrics.pool = ⟨0, 0, 0⟩
  config : s.monitor.config = config

theorem Fixed.step {s s' : MonitoredProxy F} {e : MonitorEvent} (h : Fixed config s)
    (hstep : s.step ov e = some s') : Fixed config s' := by
  cases step_cases hstep with
  | counters _ hpool => exact ⟨hpool.trans h.pool, h.config⟩
  | check => exact ⟨h.pool, h.config⟩
  | breaker => exact ⟨h.pool, h.config⟩

/-- Between two checks the monitor says the same. -/
theorem exec_monitor {s t : MonitoredProxy F} {events : List MonitorEvent} (hnone : .healthCheck ∉ events)
    (hrun : exec (step ov) s events = some t) : t.monitor = s.monitor := by
  induction events generalizing s with
  | nil => rw [← Option.some.inj hrun]
  | cons e events ih =>
    obtain ⟨s', hstep, hrun⟩ := Trace.exec_cons_eq_some.1 hrun
    obtain ⟨hfirst, hrest⟩ := not_or.1 (mt List.mem_cons.2 hnone)
    rw [ih hrest hrun]
    cases step_cases hstep with
    | counters => rfl
    | check => exact absurd rfl hfirst
    | breaker => rfl

/-- An error rate that a check finds critical. -/
def ErrorsCritical (s : MonitoredProxy F) : Prop :=
  ((s.monitor.errorRateSpike s.metrics.createHealthSnapshot).any
    (HealthMonitor.critical s.monitor.config)) = true

/-- A check with the gauges at zero. -/
theorem unhealthy_check {s : MonitoredProxy F} (h : Fixed config s)
    (hthreshold : ¬ config.poolSaturationThreshold ≤ (zeroF : F)) :
    (s.monitor.checkAndUpdate s.metrics.createHealthSnapshot).getStatus = .unhealthy ↔
      0 < s.metrics.activeConnections ∨ s.ErrorsCritical := by
  have hstarved : (HealthMonitor.poolStarvation (F := F) s.metrics.createHealthSnapshot).any
      (HealthMonitor.critical s.monitor.config) = decide (0 < s.metrics.activeConnections) := by
    simp only [HealthMonitor.poolStarvation, ProxyMetrics.createHealthSnapshot, h.pool, true_and]
    by_cases hactive : 0 < s.metrics.activeConnections
    · simp [hactive, HealthMonitor.critical]
    · simp [hactive]
  have hunsaturated : s.monitor.poolSaturation s.metrics.createHealthSnapshot = [] := by
    simp only [HealthMonitor.poolSaturation, ProxyMetrics.createHealthSnapshot, h.pool, h.config,
      Nat.lt_irrefl, if_false, hthreshold]
  rw [HealthMonitor.getStatus_eq_unhealthy]
  simp only [HealthMonitor.checkAndUpdate, List.any_append, HealthMonitor.any_latencySpike, hunsaturated,
    hstarved, List.any_nil, Bool.or_false, Bool.or_eq_true, decide_eq_true_eq]
  exact Or.comm

/-- A failure at a closed breaker that is told of an unhealthy proxy. -/
theorem recordFailure_unhealthy {cb cb' : CircuitBreaker} {now : UInt64} (henabled : cb.config.enabled = true)
    (huses : cb.config.useHealthMonitor = true) (hclosed : cb.state = .closed)
    (h : cb.recordFailure ov now true = .ok cb') : cb'.state = .opened := by
  simp only [CircuitBreaker.recordFailure, henabled, Bool.not_true, Bool.false_eq_true, if_false] at h
  obtain ⟨reset, hreset, h⟩ := Rust.bind_returns.1 h
  have hsame : reset.config = cb.config ∧ reset.state = cb.state := by
    obtain ⟨age, -, hreset⟩ := Rust.bind_returns.1 hreset
    split at hreset <;> cases hreset <;> exact ⟨rfl, rfl⟩
  simp only [hsame.2, hclosed] at h
  obtain ⟨failures, -, h⟩ := Rust.bind_returns.1 h
  cases h
  simp [hsame.1, huses, CircuitBreaker.transitionToOpen]

section

variable {before after : List MonitorEvent} {t : MonitoredProxy F}

theorem fixed_of_exec {s : MonitoredProxy F} (hrun : exec (step ov) (new config breaker) before = some s) :
    Fixed config s :=
  Trace.exec_keeps (fun _ _ _ h hstep => h.step hstep) ⟨rfl, rfl⟩ hrun

/-- Until the next check the monitor is that of the last one. -/
theorem verdict_of_check {s : MonitoredProxy F} (h : Fixed config s)
    (hthreshold : ¬ config.poolSaturationThreshold ≤ (zeroF : F)) (hlast : .healthCheck ∉ after)
    (hrun : exec (step ov) s (.healthCheck :: after) = some t) :
    t.monitor = s.monitor.checkAndUpdate s.metrics.createHealthSnapshot ∧
      (t.monitor.getStatus = .unhealthy ↔ 0 < s.metrics.activeConnections ∨ s.ErrorsCritical) := by
  obtain ⟨s', hstep, hafter⟩ := Trace.exec_cons_eq_some.1 hrun
  cases hstep
  have hmonitor := exec_monitor hlast hafter
  refine ⟨hmonitor, ?_⟩
  rw [hmonitor]
  exact unhealthy_check h hthreshold

/-- The verdict at any time is that of the last check, and a check finds a proxy unhealthy as soon as
    one client is connected. -/
theorem unhealthy_iff (hthreshold : ¬ config.poolSaturationThreshold ≤ (zeroF : F))
    (hlast : .healthCheck ∉ after)
    (hrun : exec (step ov) (new config breaker) (before ++ .healthCheck :: after) = some t) :
    ∃ s, exec (step ov) (new config breaker) before = some s ∧
      t.monitor = s.monitor.checkAndUpdate s.metrics.createHealthSnapshot ∧
      (t.monitor.getStatus = .unhealthy ↔ 0 < s.metrics.activeConnections ∨ s.ErrorsCritical) := by
  rw [Trace.exec_append] at hrun
  obtain ⟨s, hbefore, hrun⟩ := Option.bind_eq_some_iff.1 hrun
  obtain ⟨hmonitor, hverdict⟩ := verdict_of_check (fixed_of_exec hbefore) hthreshold hlast hrun
  exact ⟨s, hbefore, hmonitor, hverdict⟩

/-- A closed breaker that uses the monitor opens at the first failure behind a check that saw a
    client, whatever its threshold. -/
theorem first_failure_opens (hthreshold : ¬ config.poolSaturationThreshold ≤ (zeroF : F))
    (hlast : .healthCheck ∉ after) {s u : MonitoredProxy F} {now : UInt64}
    (hbefore : exec (step ov) (new config breaker) before = some s)
    (hclient : 0 < s.metrics.activeConnections)
    (hrun : exec (step ov) s (.healthCheck :: after) = some t)
    (henabled : t.breaker.config.enabled = true) (huses : t.breaker.config.useHealthMonitor = true)
    (hclosed : t.breaker.state = .closed) (hfail : t.step ov (.recordFailure now) = some u) :
    u.breaker.state = .opened := by
  have hunhealthy : t.monitor.getStatus = .unhealthy :=
    (verdict_of_check (fixed_of_exec hbefore) hthreshold hlast hrun).2.2 (.inl hclient)
  rw [step, hunhealthy] at hfail
  cases hrecord : t.breaker.recordFailure ov now true with
  | error failure => simp [hrecord, Except.toOption] at hfail
  | ok cb =>
    simp only [beq_self_eq_true, hrecord] at hfail
    cases hfail
    exact recordFailure_unhealthy henabled huses hclosed hrecord

end

/-! ## Ten failures in a row were configured -/

instance ratOps : FloatOps ℚ where
  decLT := inferInstance
  decLE := inferInstance

/-- The default settings of the monitor. -/
def defaultHealth : HealthConfig ℚ := ⟨3, 2, 95 / 100, 1 / 10, 99 / 100, 5⟩

/-- A breaker that opens after ten failures. -/
def tenFailures : CircuitBreaker := .new ⟨true, 10, 2, 60, 30, true⟩ 1000

def idle : MonitoredProxy ℚ := new defaultHealth tenFailures

def oneConnected : MonitoredProxy ℚ := { idle with metrics.activeConnections := 1 }

/-- One client, one check, no query and no error. -/
theorem unhealthy_iff_oneConnected :
    ∃ t, exec (step .checked) idle [.connect, .healthCheck] = some t ∧
      t.monitor.getStatus = .unhealthy := by
  have hthreshold : ¬ defaultHealth.poolSaturationThreshold ≤ (zeroF : ℚ) := by decide +kernel
  obtain ⟨t, hrun⟩ : ∃ t, exec (step .checked) idle ([.connect] ++ .healthCheck :: []) = some t := ⟨_, rfl⟩
  obtain ⟨s, hs, -, hverdict⟩ := unhealthy_iff hthreshold List.not_mem_nil hrun
  cases hs
  exact ⟨t, hrun, hverdict.2 (.inl Nat.zero_lt_one)⟩

/-- One client, one check, one failure. -/
theorem first_failure_opens_ten :
    exec (step .checked) idle [.connect] = some oneConnected ∧
    ∃ t u, exec (step .checked) oneConnected [.healthCheck] = some t ∧
      t.step .checked (.recordFailure 1001) = some u ∧ u.breaker.state = .opened := by
  have hthreshold : ¬ defaultHealth.poolSaturationThreshold ≤ (zeroF : ℚ) := by decide +kernel
  have hbefore : exec (step .checked) idle [.connect] = some oneConnected := rfl
  obtain ⟨u, hfail⟩ : ∃ u, step .checked
      { oneConnected with
        monitor := oneConnected.monitor.checkAndUpdate oneConnected.metrics.createHealthSnapshot }
      (.recordFailure 1001) = some u := ⟨_, rfl⟩
  exact ⟨hbefore, _, u, rfl, hfail, first_failure_opens hthreshold List.not_mem_nil hbefore
    Nat.zero_lt_one rfl rfl rfl rfl hfail⟩

end MonitoredProxy

end ScryProxy
