import ScryProxy.ForStd.Str
import ScryProxy.Native.AcceptLoop

/-!
# Shutdown

Model of `SHUTDOWN [WAIT]` in `admin/commands.rs`, of `trigger_shutdown`,
`signal_drain_complete` and `subscribe_drain_complete` in `proxy/admin_handles.rs`, and of
`run` and `drain_connections` in `proxy/server.rs` with their timer, over the accept loop of
`ServerRun`.  An admin client sends its command on a connection like any other, so the task
that waits for the drain to end is one of the tasks that the drain waits for.  Time is in
milliseconds.  Release builds are modelled, so integer overflow wraps.

`watch::Sender::send` fails where the channel has no receiver, and then leaves the value as it
is.
-/

namespace ScryProxy

/-- What a connection task does, as far as shutdown sees it. -/
inductive TaskJob where
  | serving
  /-- in `SHUTDOWN WAIT`, with the deadline of its timeout -/
  | waiting (deadline : Nat)
  deriving DecidableEq, Repr

/-- The answers to `SHUTDOWN` and `SHUTDOWN WAIT`. -/
inductive ShutdownAnswer where
  | commandComplete
  | error (message : Str)
  deriving DecidableEq, Repr

structure ShutdownRun where
  server : ServerRun
  /-- one job for each entry of `connectionTasks` -/
  jobs : List TaskJob
  shutdownTimeoutSecs : UInt64
  now : Nat
  /-- since when a signal or the trigger stands for the loop to see -/
  pendingSince : Option Nat
  /-- when `drain_connections` was called -/
  drainStart : Option Nat
  /-- the value of the `drain_complete` channel -/
  drainComplete : Bool
  /-- the answers that were given, with whether the command was `SHUTDOWN WAIT` -/
  answers : List (Bool × ShutdownAnswer)
  deriving DecidableEq, Repr

inductive ShutdownEvent where
  | tick (ms : Nat)
  /-- SIGINT or SIGTERM -/
  | signal
  /-- the loop or a task moves -/
  | server (e : ServerEvent)
  /-- the admin client on the connection in that slot sends `SHUTDOWN` or `SHUTDOWN WAIT` -/
  | command (slot : Nat) (wait : Bool)
  /-- `wait_for` sees the drain completed -/
  | confirm (slot : Nat)
  /-- the timeout around `wait_for` elapses -/
  | expire (slot : Nat)
  /-- `run` calls `signal_drain_complete` -/
  | signalDrainComplete
  deriving DecidableEq, Repr

namespace ShutdownRun

def begin (maxConnections shutdownTimeoutSecs : UInt64) : ShutdownRun :=
  ⟨.begin maxConnections, [], shutdownTimeoutSecs, 0, none, none, false, []⟩

/-- Duration of the drain. -/
def drainTimeout (s : ShutdownRun) : Nat := s.shutdownTimeoutSecs.toNat * 1000

/-- `bound` of `SHUTDOWN WAIT`, in seconds: the sum is a `u64`. -/
def waitBound (s : ShutdownRun) : Nat := (s.shutdownTimeoutSecs + 2).toNat

def alreadyInProgress : ShutdownAnswer :=
  .error ("shutdown already in progress (or the server is no longer accepting the " ++
    "shutdown signal)").toList

def notWithin (s : ShutdownRun) : ShutdownAnswer :=
  .error ("shutdown initiated but drain did not complete within ".toList ++
    Nat.toDigits 10 s.waitBound ++ "s (drain proceeding in background)".toList)

/-- When an event of the loop or of a task can happen. -/
def allowed (s : ShutdownRun) : ServerEvent → Bool
  | .shutdown => s.pendingSince.isSome
  -- `tokio::time::timeout` is not early
  | .timeout => s.drainStart.any (· + s.drainTimeout ≤ s.now)
  -- a task that waits does not look at its client; only `connection_tasks.shutdown()` ends it
  | .finish slot how =>
    match s.jobs[slot]? with
    | some (.waiting _) => how == .aborted && s.server.phase == .aborting
    | _ => true
  | _ => true

/-- The jobs after an event of the loop or of a task. -/
def jobsAfter (jobs : List TaskJob) : ServerEvent → List TaskJob
  | .spawn => jobs ++ [.serving]
  | .finish slot _ | .cancel slot => jobs.set slot .serving
  | .join slot => jobs.eraseIdx slot
  | _ => jobs

/-- One event; `none` if it cannot happen. -/
def step (s : ShutdownRun) : ShutdownEvent → Option ShutdownRun
  | .tick ms => some { s with now := s.now + ms }
  | .signal => some { s with pendingSince := s.pendingSince.or (some s.now) }
  | .server e =>
    if s.allowed e then
      (s.server.step e).map fun server =>
        { s with
          server
          jobs := jobsAfter s.jobs e
          drainStart := if e = .shutdown then some s.now else s.drainStart }
    else none
  | .command slot wait =>
    if s.server.connectionTasks[slot]? = some .running ∧ s.jobs[slot]? = some .serving then
      -- the receiver of the trigger lives as long as the loop
      if s.server.serving then
        let s := { s with pendingSince := s.pendingSince.or (some s.now) }
        if wait then some { s with jobs := s.jobs.set slot (.waiting (s.now + s.waitBound * 1000)) }
        else some { s with answers := s.answers ++ [(false, .commandComplete)] }
      else some { s with answers := s.answers ++ [(wait, alreadyInProgress)] }
    else none
  | .confirm slot =>
    match s.jobs[slot]? with
    | some (.waiting _) =>
      if s.drainComplete then
        some { s with jobs := s.jobs.set slot .serving, answers := s.answers ++ [(true, .commandComplete)] }
      else none
    | _ => none
  | .expire slot =>
    match s.jobs[slot]? with
    | some (.waiting deadline) =>
      if deadline ≤ s.now then
        some { s with jobs := s.jobs.set slot .serving, answers := s.answers ++ [(true, s.notWithin)] }
      else none
    | _ => none
  | .signalDrainComplete =>
    if s.server.phase = .drained then
      -- the receivers are those of the tasks that wait
      some { s with drainComplete := s.drainComplete || s.jobs.any (· != .serving) }
    else none

end ShutdownRun

end ScryProxy
