import ScryProxy.ForStd.Trace

/-!
# The accept loop

Model of `accept_loop_with_unix`, the two `spawn_*_connection_handler` functions,
`ConnectionCountGuard` and `drain_connections` in `proxy/server.rs`, as a state machine: the
loop and the connection tasks run side by side, and each event is one access to the connection
counter or to the set of tasks.

The counter is read with `Ordering::Relaxed`, so a read may return a value that the counter
had earlier, but not earlier than the loop's own last access to it.
-/

namespace ScryProxy

/-- The sockets the loop listens on. -/
inductive Listener where
  | tcp
  | unix
  deriving DecidableEq, Repr

/-- Where a connection task is. -/
inductive ConnPhase where
  /-- not polled yet: there is no `ConnectionCountGuard` -/
  | spawned
  | running
  | ended
  deriving DecidableEq, Repr

/-- How a running task ends; its guard is dropped in each case. -/
inductive ConnEnd where
  | returned
  | failed
  | panicked
  | aborted
  deriving DecidableEq, Repr

/-- What the loop does next. -/
inductive LoopPhase where
  /-- `select!` -/
  | selecting
  /-- the limit is reached: a TCP client is sent an error, a UNIX client is dropped -/
  | rejecting (listener : Listener)
  /-- the limit is not reached: `fetch_add` is next -/
  | admitting (listener : Listener)
  /-- the connection is counted: its task is spawned next -/
  | spawning (listener : Listener)
  /-- `drain_connections`, waiting for tasks -/
  | draining
  /-- `drain_connections` after its timeout: `connection_tasks.shutdown()` -/
  | aborting
  | drained
  deriving DecidableEq, Repr

/-- The server's loop, its counter and its tasks. -/
structure ServerRun where
  maxConnections : UInt64
  activeConnections : UInt64
  /-- the values a read of the counter can return, newest first -/
  readable : List UInt64
  phase : LoopPhase
  /-- the `JoinSet`: a task that has ended stays until it is joined -/
  connectionTasks : List ConnPhase
  deriving DecidableEq, Repr

inductive ServerEvent where
  /-- a client connects, and the counter is read: the value it had so many changes ago -/
  | accept (listener : Listener) (age : Nat)
  | acceptError (listener : Listener)
  | reload
  | closeRejected
  | count
  | spawn
  /-- the task in that slot is polled for the first time -/
  | start (slot : Nat)
  | finish (slot : Nat) (how : ConnEnd)
  | shutdown
  /-- `join_next` returns the task in that slot -/
  | join (slot : Nat)
  | drained
  | timeout
  /-- an aborted task that was never polled is dropped -/
  | cancel (slot : Nat)
  deriving DecidableEq, Repr

namespace ServerRun

/-- The server when its loop begins. -/
def begin (maxConnections : UInt64) : ServerRun := ⟨maxConnections, 0, [0], .selecting, []⟩

/-- One event; `none` if it cannot happen. -/
def step (s : ServerRun) : ServerEvent → Option ServerRun
  | .accept listener age =>
    match s.phase, s.readable[age]? with
    | .selecting, some current =>
      -- a later read does not return an older value
      let readable := s.readable.take (age + 1)
      if s.maxConnections ≤ current then some { s with readable, phase := .rejecting listener }
      else some { s with readable, phase := .admitting listener }
    | _, _ => none
  | .acceptError _ | .reload => if s.phase = .selecting then some s else none
  | .closeRejected =>
    match s.phase with
    | .rejecting _ => some { s with phase := .selecting }
    | _ => none
  | .count =>
    match s.phase with
    | .admitting listener =>
      let active := s.activeConnections + 1
      some { s with activeConnections := active, readable := [active], phase := .spawning listener }
    | _ => none
  | .spawn =>
    match s.phase with
    | .spawning _ =>
      some { s with connectionTasks := s.connectionTasks ++ [.spawned], phase := .selecting }
    | _ => none
  | .start slot =>
    if s.connectionTasks[slot]? = some .spawned then
      some { s with connectionTasks := s.connectionTasks.set slot .running }
    else none
  | .finish slot _ =>
    if s.connectionTasks[slot]? = some .running then
      -- the guard's `fetch_sub`
      let active := s.activeConnections - 1
      some { s with
        activeConnections := active
        readable := active :: s.readable
        connectionTasks := s.connectionTasks.set slot .ended }
    else none
  | .shutdown =>
    if s.phase = .selecting then
      some { s with phase := if s.connectionTasks.isEmpty then .drained else .draining }
    else none
  | .join slot =>
    if (s.phase = .draining ∨ s.phase = .aborting) ∧ s.connectionTasks[slot]? = some .ended then
      some { s with connectionTasks := s.connectionTasks.eraseIdx slot }
    else none
  | .drained =>
    if (s.phase = .draining ∨ s.phase = .aborting) ∧ s.connectionTasks = [] then
      some { s with phase := .drained }
    else none
  | .timeout => if s.phase = .draining then some { s with phase := .aborting } else none
  | .cancel slot =>
    if s.phase = .aborting ∧ s.connectionTasks[slot]? = some .spawned then
      some { s with connectionTasks := s.connectionTasks.set slot .ended }
    else none

/-- The loop is still accepting. -/
def serving (s : ServerRun) : Bool :=
  match s.phase with
  | .selecting | .rejecting _ | .admitting _ | .spawning _ => true
  | .draining | .aborting | .drained => false

/-- Connections that are counted and whose task has not ended. -/
def openConnections (s : ServerRun) : Nat :=
  s.connectionTasks.countP (· != .ended) + match s.phase with
    | .spawning _ => 1
    | _ => 0

end ServerRun

end ScryProxy
