import ScryProxy.Native.Shutdown
import ScryProxy.Spec.ConnectionLimit

/-!
# Shutdown and who waits for it

A client that sends `SHUTDOWN WAIT` waits on a connection of its own, so the drain cannot end
before its task does.  It is never told that the shutdown is complete (`wait_never_confirmed`).
-/

namespace ScryProxy

open Trace (exec)

namespace ShutdownRun

/-- Every task has its job, a drained server has no task, and nobody saw the drain complete. -/
structure WaitInv (s : ShutdownRun) : Prop where
  jobs : s.jobs.length = s.server.connectionTasks.length
  drained : s.server.phase = .drained → s.server.connectionTasks = []
  incomplete : s.drainComplete = false
  answers : (true, .commandComplete) ∉ s.answers

theorem WaitInv.begin (maxConnections shutdownTimeoutSecs : UInt64) :
    WaitInv (begin maxConnections shutdownTimeoutSecs) :=
  ⟨rfl, fun _ => rfl, rfl, List.not_mem_nil⟩

/-- Nobody waits in a drained server. -/
theorem WaitInv.jobs_of_drained {s : ShutdownRun} (h : WaitInv s) (hdrained : s.server.phase = .drained) :
    s.jobs = [] := by
  apply List.eq_nil_of_length_eq_zero
  rw [h.jobs, h.drained hdrained, List.length_nil]

/-- Jobs and tasks change together. -/
theorem length_jobsAfter {server server' : ServerRun} {e : ServerEvent} {jobs : List TaskJob}
    (hlen : jobs.length = server.connectionTasks.length) (hstep : server.step e = some server') :
    (jobsAfter jobs e).length = server'.connectionTasks.length := by
  cases ServerRun.step_cases hstep with
  | spawn => simp [jobsAfter, hlen]
  | start => simpa [jobsAfter] using hlen
  | finish => simpa [jobsAfter] using hlen
  | join hphase htask =>
    obtain ⟨hlt, -⟩ := List.getElem?_eq_some_iff.1 htask
    simp [jobsAfter, List.length_eraseIdx, hlen]
  | cancel => simpa [jobsAfter] using hlen
  | reject | letIn | acceptError | reload | closeRejected | count | shutdown | drained | timeout =>
    exact hlen

/-- A drained server has no task, and none comes back. -/
theorem drained_empty {server server' : ServerRun} {e : ServerEvent}
    (hempty : server.phase = .drained → server.connectionTasks = []) (hstep : server.step e = some server') :
    server'.phase = .drained → server'.connectionTasks = [] := by
  intro hdrained
  cases ServerRun.step_cases hstep with
  | reject | letIn | count => cases hdrained
  | acceptError | reload => exact hempty hdrained
  | closeRejected | spawn | timeout => cases hdrained
  | start htask => simp [hempty hdrained] at htask
  | finish _ htask => simp [hempty hdrained] at htask
  | join _ htask => simp [hempty hdrained] at htask
  | cancel _ htask => simp [hempty hdrained] at htask
  | shutdown =>
    by_cases htasks : server.connectionTasks = []
    · exact htasks
    · simp [htasks] at hdrained
  | drained =>
    -- `join_next` has nothing left to return
    simp only [ServerRun.step] at hstep
    split at hstep
    · rename_i h
      exact h.2
    · cases hstep

theorem WaitInv.step {s s' : ShutdownRun} {e : ShutdownEvent} (h : WaitInv s) (hstep : s.step e = some s') :
    WaitInv s' := by
  cases e with
  | tick ms =>
    cases hstep
    exact ⟨h.jobs, h.drained, h.incomplete, h.answers⟩
  | signal =>
    cases hstep
    exact ⟨h.jobs, h.drained, h.incomplete, h.answers⟩
  | server e =>
    simp only [ShutdownRun.step] at hstep
    split at hstep
    · obtain ⟨server, hserver, rfl⟩ := Option.map_eq_some_iff.1 hstep
      exact ⟨length_jobsAfter h.jobs hserver, drained_empty h.drained hserver, h.incomplete, h.answers⟩
    · cases hstep
  | command slot wait =>
    simp only [ShutdownRun.step] at hstep
    split at hstep
    · split at hstep
      · split at hstep
        · cases hstep
          exact ⟨by simpa using h.jobs, h.drained, h.incomplete, h.answers⟩
        · cases hstep
          exact ⟨h.jobs, h.drained, h.incomplete, by simpa using h.answers⟩
      · cases hstep
        exact ⟨h.jobs, h.drained, h.incomplete, by simpa [alreadyInProgress] using h.answers⟩
    · cases hstep
  | confirm slot =>
    -- the drain is not complete for anybody
    simp only [ShutdownRun.step, h.incomplete] at hstep
    split at hstep <;> cases hstep
  | expire slot =>
    simp only [ShutdownRun.step] at hstep
    split at hstep
    · split at hstep
      · cases hstep
        exact ⟨by simpa using h.jobs, h.drained, h.incomplete, by simpa [notWithin] using h.answers⟩
      · cases hstep
    · cases hstep
  | signalDrainComplete =>
    simp only [ShutdownRun.step] at hstep
    split at hstep
    · rename_i hphase
      cases hstep
      exact ⟨h.jobs, h.drained, by simp [h.incomplete, h.jobs_of_drained hphase], h.answers⟩
    · cases hstep

/-- No run of the server answers `SHUTDOWN WAIT` with a completed shutdown. -/
theorem wait_never_confirmed {maxConnections shutdownTimeoutSecs : UInt64}
    {events : List ShutdownEvent} {s : ShutdownRun}
    (hrun : exec step (.begin maxConnections shutdownTimeoutSecs) events = some s) :
    (true, .commandComplete) ∉ s.answers :=
  (Trace.exec_keeps (fun _ _ _ h hstep => h.step hstep) (WaitInv.begin _ _) hrun).answers

/-- The loop is late by two seconds: the client is told that the drain takes longer. -/
def lateLoop : List ShutdownEvent :=
  [.server (.accept .tcp 0), .server .count, .server .spawn, .server (.start 0), .command 0 true,
    .tick 32000, .expire 0]

theorem wait_never_confirmed_late :
    (exec step (.begin 10 30) lateLoop).map (·.answers) =
      some [(true, .error
        "shutdown initiated but drain did not complete within 32s (drain proceeding in background)".toList)] ∧
    ∀ s, exec step (.begin 10 30) lateLoop = some s → (true, .commandComplete) ∉ s.answers :=
  ⟨by decide +kernel, fun _ hrun => wait_never_confirmed hrun⟩

end ShutdownRun

end ScryProxy
