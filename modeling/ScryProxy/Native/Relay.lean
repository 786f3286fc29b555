import ScryProxy.Native.ModeEnforcer
import ScryProxy.Native.PoolManager
import ScryProxy.Native.StatementCache

/-!
# The managed relay loop

Model of `ConnectionHandler::handle_with_managed_connection` in
`proxy/connection.rs`, from the point where the startup handshake is done.  One
iteration of the loop is one `Input`: the arm of the `select!` that completes, with
what its awaits return.  `Relay.step` gives the next loop state, or how the loop is
left, and the externally visible effects in order.

Release builds are modelled, so integer overflow wraps.
-/

namespace ScryProxy

open Rust (Overflow)

structure RelayConfig where
  strategy : PoolingStrategy
  /-- `0` disables the query timeout -/
  queryTimeoutSecs : Nat
  maxPreparedStatements : Nat
  deriving DecidableEq, Repr

namespace RelayConfig

def queryTimeoutEnabled (cfg : RelayConfig) : Bool := decide (0 < cfg.queryTimeoutSecs)

end RelayConfig

/-- Loop-carried state of the handler.  Times are in milliseconds. -/
structure Relay where
  frontendBuffer : List UInt8
  stmtCache : PreparedStatementCache
  txnTracker : TransactionState
  connState : ConnectionState
  queryDeadline : Option Nat
  managedConn : ManagedConnection

/-- Visible effects of an iteration. -/
inductive Effect where
  | toClient (bytes : List UInt8)
  | toBackend (bytes : List UInt8)
  /-- the text was passed to `ConnectionState::apply_query` -/
  | applied (sql : Str)
  /-- a pending execution failed; the event is built from the read and its error text -/
  | queryFailed (pending : PendingExecution) (data : List UInt8) (error : Str)
  | queryCompleted (pending : PendingExecution)
  | released (conn : ManagedConnection)
  | reacquired (conn : ManagedConnection)
  deriving DecidableEq, Repr

/-- How the handler leaves the loop. -/
inductive Exit where
  /-- `break`, then `pool_manager.release(managed_conn)` -/
  | release (conn : ManagedConnection)
  /-- an error returned with `?` while the connection is held: it is dropped -/
  | dropped (conn : ManagedConnection)
  /-- an error after the connection was given back -/
  | withoutConnection
  deriving DecidableEq, Repr

/-- Result of an iteration. -/
inductive Outcome where
  | next (relay : Relay)
  | exit (how : Exit)

/-- Whether writes to either side succeed during an iteration. -/
structure Writes where
  client : Bool := true
  backend : Bool := true
  deriving DecidableEq, Repr

/-- The completed arm of the `select!`, with the results of the awaits inside it. -/
inductive Input where
  | clientRead (data : List UInt8) (now : Nat) (writes : Writes)
  | clientClosed
  /-- `reacquired` is used when the connection is released: the connection that `acquire` and, on a
      fresh backend, the startup exchange return, or `none` if one of them fails -/
  | backendRead (data : List UInt8) (writes : Writes) (reacquired : Option ManagedConnection)
  | backendClosed
  /-- the sleep until the deadline ends -/
  | deadline (now : Nat)

/-- What a frontend message does to the handling of its read. -/
inductive Verdict where
  | forward
  | reject (error : String)
  | terminate
  deriving DecidableEq, Repr

namespace Relay

/-- State at the start of the loop. -/
def start (cfg : RelayConfig) (conn : ManagedConnection) : Relay where
  frontendBuffer := []
  stmtCache := .new cfg.maxPreparedStatements
  txnTracker := .idle
  connState := .new cfg.maxPreparedStatements
  queryDeadline := none
  managedConn := conn

/-- `should_release_connection`. -/
def shouldReleaseConnection (strategy : PoolingStrategy) (connState : ConnectionState) : Bool :=
  match strategy with
  | .disabled | .session => false
  | .transaction | .hybrid => !connState.isPinned

/-- `should_intercept_terminate`. -/
def shouldInterceptTerminate (messageIndex : Nat) : Bool := messageIndex == 0

/-! ## Client to backend -/

/-- The `match` on one frontend message. -/
def handleMessage (cfg : RelayConfig) (r : Relay) (index : Nat) :
    Message → Rust (Relay × List Effect × Verdict)
  | .parse name query paramOids => do
    match ← cfg.strategy.poolingMode.validate query r.txnTracker.isInTransaction with
    | some error => return (r, [], .reject error)
    | none =>
      -- cache and tracker are written before the read is known to be forwarded
      let cache := r.stmtCache.insertStatement name ⟨query, paramOids⟩
      let cache := cache.setPending [] ⟨query, .absent, true⟩
      let connState ← r.connState.applyParseState name query paramOids
      return ({ r with stmtCache := cache, connState }, [.applied query], .forward)
  | .bind portal statement formatCodes paramsRaw =>
    (r.stmtCache.bindPortal portal statement formatCodes paramsRaw).map fun cache =>
      ({ r with stmtCache := cache }, [], .forward)
  | .query query => do
    match ← cfg.strategy.poolingMode.validate query r.txnTracker.isInTransaction with
    | some error => return (r, [], .reject error)
    | none =>
      let cache := r.stmtCache.setPending [] ⟨query, .absent, false⟩
      let connState ← r.connState.applyQuery query
      return ({ r with stmtCache := cache, connState }, [.applied query], .forward)
  | .close kind name =>
    if kind = 'S' then
      .ok ({ r with
        stmtCache := r.stmtCache.removeStatement name
        connState := r.connState.removePreparedStatement name }, [], .forward)
    else if kind = 'P' then
      .ok ({ r with stmtCache := r.stmtCache.clearPending name }, [], .forward)
    else .ok (r, [], .forward)
  | .terminate => .ok (r, [], if shouldInterceptTerminate index then .terminate else .forward)
  -- the loop looks at neither
  | .execute _ | .sync => .ok (r, [], .forward)

/-- The loop over the messages of one read; anything but `forward` ends it. -/
def handleMessages (cfg : RelayConfig) :
    Relay → Nat → List Message → Rust (Relay × List Effect × Verdict)
  | r, _, [] => .ok (r, [], .forward)
  | r, index, msg :: msgs => do
    let (r, effects, verdict) ← handleMessage cfg r index msg
    match verdict with
    | .forward =>
      let (r, more, verdict) ← handleMessages cfg r (index + 1) msgs
      return (r, effects ++ more, verdict)
    | _ => return (r, effects, verdict)

/-- Arms the query deadline once a query is in flight. -/
def armDeadline (cfg : RelayConfig) (r : Relay) (now : Nat) : Relay :=
  if cfg.queryTimeoutEnabled && r.queryDeadline.isNone && r.stmtCache.hasPending [] then
    { r with queryDeadline := some (now + cfg.queryTimeoutSecs * 1000) }
  else r

/-- The client arm of the loop, for a read of `data`. -/
def clientRead (cfg : RelayConfig) (r : Relay) (data : List UInt8) (now : Nat) (writes : Writes) :
    Rust (List Effect × Outcome) := do
  let (messages, frontendBuffer) ← extractMessages r.frontendBuffer data
  let (r, effects, verdict) ← handleMessages cfg { r with frontendBuffer } 0 messages
  match verdict with
  | .reject error =>
    -- the whole read is kept back, and the client gets an error cycle
    if writes.client then
      return (effects ++ [.toClient (buildErrorResponse "ERROR" "0A000" error),
        .toClient (buildReadyForQuery r.txnTracker)], .next (armDeadline cfg r now))
    else return (effects, .exit (.dropped r.managedConn))
  | .terminate => return (effects, .exit (.release r.managedConn))
  | .forward =>
    -- the bytes go out as they came, whether or not their frames parsed
    if writes.backend then
      return (effects ++ [.toBackend data], .next (armDeadline cfg r now))
    else return (effects, .exit (.dropped r.managedConn))

/-! ## Backend to client -/

/-- Event bookkeeping for a backend read: a pending execution fails or completes. -/
def settlePending (r : Relay) (data : List UInt8) : Rust (Relay × List Effect) := do
  match ← extractError .wrapping data with
  | some error =>
    -- only the unnamed portal is ever settled
    match r.stmtCache.takePending [] with
    | (some pending, cache) =>
      return ({ r with stmtCache := cache }, [.queryFailed pending data error])
    | (none, _) => return (r, [])
  | none =>
    if ← isQueryComplete .wrapping data then
      match r.stmtCache.takePending [] with
      | (some pending, cache) =>
        return ({ r with stmtCache := cache }, [.queryCompleted pending])
      | (none, _) => return (r, [])
    else return (r, [])

/-- Disarms the query deadline once no query is in flight. -/
def disarmDeadline (cfg : RelayConfig) (r : Relay) : Relay :=
  if cfg.queryTimeoutEnabled && !r.stmtCache.hasPending [] then { r with queryDeadline := none }
  else r

/-- The backend arm of the loop, for a read of `data`. -/
def backendRead (cfg : RelayConfig) (r : Relay) (data : List UInt8) (writes : Writes)
    (reacquired : Option ManagedConnection) : Rust (List Effect × Outcome) := do
  let (r, effects) ← settlePending r data
  let r := disarmDeadline cfg r
  -- the state before this read: only the last ReadyForQuery of the read is compared with it
  let wasInTransaction := r.txnTracker.isInTransaction
  let status ← extractReadyForQuery .wrapping data
  let r :=
    match status with
    | some status => { r with txnTracker := r.txnTracker.updateFromReadyForQuery status }
    | none => r
  if !writes.client then
    return (effects, .exit (.dropped r.managedConn))
  else if status.isSome && wasInTransaction && r.txnTracker.isIdle &&
      shouldReleaseConnection cfg.strategy r.connState then
    -- the answer reaches the client before the connection goes back to the pool
    let effects := effects ++ [.toClient data, .released r.managedConn]
    match reacquired with
    | some conn =>
      return (effects ++ [.reacquired conn], .next { r with managedConn := conn })
    | none => return (effects, .exit .withoutConnection)
  else return (effects ++ [.toClient data], .next r)

/-! ## The loop -/

/-- The timeout arm: the client is told, the connection state is marked, and the loop is left. -/
def queryTimeout (r : Relay) : List Effect × Outcome :=
  -- the mark is on the client's state, which goes away with the handler
  let r := { r with connState := r.connState.markUnknownCommand }
  ([.toClient (buildErrorResponse "ERROR" "57014" "canceling statement due to query timeout"),
    .toClient (buildReadyForQuery r.txnTracker)], .exit (.release r.managedConn))

/-- One iteration.  The deadline arm can complete only once a deadline is set and has passed; a
    deadline input at any other time is not a behaviour of the loop and changes nothing. -/
def step (cfg : RelayConfig) (r : Relay) : Input → Rust (List Effect × Outcome)
  | .clientRead data now writes => clientRead cfg r data now writes
  | .clientClosed => .ok ([], .exit (.release r.managedConn))
  | .backendRead data writes reacquired => backendRead cfg r data writes reacquired
  | .backendClosed => .ok ([], .exit (.release r.managedConn))
  | .deadline now =>
    if cfg.queryTimeoutEnabled && r.queryDeadline.any (· ≤ now) then .ok (queryTimeout r)
    else .ok ([], .next r)

/-- Runs the loop over a list of iterations, collecting the effects.  It ends early when the loop is
    left. -/
def run (cfg : RelayConfig) : Relay → List Input → Rust (List Effect × Outcome)
  | r, [] => .ok ([], .next r)
  | r, input :: inputs => do
    let (effects, outcome) ← step cfg r input
    match outcome with
    | .exit how => return (effects, .exit how)
    | .next r =>
      let (more, outcome) ← run cfg r inputs
      return (effects ++ more, outcome)

end Relay

end ScryProxy
