import ScryProxy.Native.CircuitBreaker
import ScryProxy.Native.ModeEnforcer
import ScryProxy.Native.PoolManager
import ScryProxy.Native.WaitQueue

/-!
# Waiting for a pooled connection

`PoolManager::acquire` with everything that it waits for.  A call asks the pool
(`TcpConnectionPool::get`): the circuit breaker first, then `deadpool`, which makes the caller
wait for one of its `max_size` slots and, with a slot, recycles an idle object or creates one.
A `get` that fails for whatever reason sends the call to the wait queue; a call that is
notified there asks the pool once more.

`SharedPool.step` is one step of one of the concurrent calls or of their environment.  Release
builds are modelled, so integer overflow wraps.  Assumed of `deadpool`: without a wait timeout
a `get` waits until a slot is free, and a slot is held from then until the object is dropped or
the `get` fails.
-/

namespace ScryProxy

structure ConnectionRetryConfig where
  enabled : Bool
  maxAttempts : Nat
  deriving DecidableEq, Repr

/-- `PoolManagerConfig`, with the settings of the pool underneath.  Times are in milliseconds. -/
structure PoolConfig where
  maxSize : Nat
  queueDepth : Nat
  /-- `0` waits without a timeout -/
  waitTimeoutMs : Nat
  retryConfig : Option ConnectionRetryConfig
  deriving DecidableEq, Repr

/-! ## Errors -/

/-- A `PoolError` of `deadpool` with its text. -/
structure DeadpoolError where
  /-- `pool_error_is_retryable`: a backend error or a timeout -/
  retryable : Bool
  text : Str
  deriving DecidableEq, Repr

def CircuitBreakerError.text : CircuitBreakerError → Str
  | .circuitOpen => "Circuit breaker is open, failing fast".toList

/-- Errors of `TcpConnectionPool::get`: the breaker's, and those of `deadpool` without and with
    retries. -/
inductive GetError where
  | circuitBreaker (e : CircuitBreakerError)
  | pool (e : DeadpoolError)
  | retried (e : DeadpoolError)
  deriving DecidableEq, Repr

def GetError.text : GetError → Str
  | .circuitBreaker e => "Circuit breaker: ".toList ++ e.text
  | .pool e => "Failed to get connection from pool: ".toList ++ e.text
  | .retried e => "Failed to get connection: ".toList ++ e.text

/-- `AcquireError` with its causes. -/
inductive AcquireFailure where
  | queueFull
  | waitTimeout
  | paused
  | poolError (e : GetError)
  deriving DecidableEq, Repr

/-! ## What becomes of an error -/

structure PoolMetrics where
  queueRejected : Nat
  poolWaitTimeouts : Nat
  requestsShed : Nat
  backendConnectTimeouts : Nat
  deriving DecidableEq, Repr

/-- `classify_pool_error_for_metrics`. -/
def PoolMetrics.classifyPoolError (m : PoolMetrics) (msg : Str) : PoolMetrics :=
  if Str.contains msg "Circuit breaker".toList then { m with requestsShed := m.requestsShed + 1 }
  else if Str.contains msg "Timed out after".toList then
    { m with backendConnectTimeouts := m.backendConnectTimeouts + 1 }
  else m

/-- The counters that `handle_acquire_error` moves. -/
def PoolMetrics.handleAcquireError (m : PoolMetrics) (e : AcquireFailure) : PoolMetrics :=
  let m := { m with queueRejected := m.queueRejected + 1 }
  match e with
  | .waitTimeout => { m with poolWaitTimeouts := m.poolWaitTimeouts + 1 }
  | .poolError e => m.classifyPoolError e.text
  | .queueFull | .paused => m

/-! ## Calls -/

/-- Where an `acquire` call is.  `again` marks the `get` that follows a notification, `attempt`
    counts the attempts of a retry. -/
inductive Stage where
  /-- inside `deadpool`, waiting for a slot -/
  | getting (again : Bool) (attempt : Nat)
  /-- with a slot: an idle object is recycled or a new one created -/
  | opening (again : Bool) (attempt : Nat)
  /-- sleeping before the next attempt -/
  | backoff (again : Bool) (attempt : Nat)
  /-- in the wait queue, until `expires` -/
  | waiting (expires : Option Nat)
  | notified
  | done (result : Except AcquireFailure ManagedConnection) (time : Nat)
  deriving DecidableEq, Repr

def Stage.isOpening : Stage → Bool
  | .opening _ _ => true
  | _ => false

def Stage.isWaiting : Stage → Bool
  | .waiting _ => true
  | _ => false

/-- One `acquire` call.  Its number among the calls also names its channel in the wait queue: a call
    enqueues at most once. -/
structure AcquireCall where
  clientId : Nat
  stage : Stage
  deriving DecidableEq, Repr

/-- The pool manager with what its callers share. -/
structure SharedPool where
  manager : PoolManager
  breaker : Option CircuitBreaker
  queue : WaitQueue
  /-- connections in the handlers' hands -/
  held : List ManagedConnection
  calls : List AcquireCall
  /-- number for the next connection created -/
  created : Nat
  now : Nat

/-- `now` readings of the wall clock in seconds are given with the events that use them. -/
inductive SharedEvent where
  | call (clientId : Nat) (needsSticky : Bool) (wall : UInt64)
  /-- `deadpool` gives a slot to a call -/
  | slot (call : Nat)
  /-- `deadpool` has tried these idle objects; it returns one of them, or the one it `creates` -/
  | opened (call : Nat) (attempts : List Attempt) (creates : Bool) (wall : UInt64)
  /-- `deadpool` has tried these idle objects and failed to create one -/
  | openFailed (call : Nat) (attempts : List Attempt) (e : DeadpoolError) (wall : UInt64)
      (unhealthy : Bool)
  /-- the sleep before the next attempt ends -/
  | retry (call : Nat)
  /-- a notified call goes on -/
  | proceed (call : Nat) (wall : UInt64)
  /-- the wait timeout of a call fires -/
  | expire (call : Nat)
  | release (conn : ManagedConnection)
  /-- a handler that leaves with an error drops its connection -/
  | drop (conn : ManagedConnection)
  | pause
  | resume
  /-- the active health check reports to the breaker -/
  | health (healthy : Bool) (wall : UInt64)
  | tick (ms : Nat)

namespace SharedPool

def new (cfg : PoolConfig) (breaker : Option CircuitBreaker) : SharedPool :=
  ⟨.new, breaker, .new cfg.queueDepth, [], [], 0, 0⟩

/-- Slots of `deadpool` in use: connections in handlers' hands or in the sticky map, and calls that
    are opening one. -/
def checkedOut (s : SharedPool) : Nat :=
  s.held.length + s.manager.stickyMap.keys.length + s.calls.countP fun call => call.stage.isOpening

def stage (s : SharedPool) (c : Nat) : Option Stage := (s.calls[c]?).map AcquireCall.stage

def setStage (s : SharedPool) (c : Nat) (stage : Stage) : SharedPool :=
  { s with calls := s.calls.modify c fun call => { call with stage } }

/-- The call returns. -/
def finish (s : SharedPool) (c : Nat) (result : Except AcquireFailure ManagedConnection) :
    SharedPool := s.setStage c (.done result s.now)

/-- The call returns from `wait_for_connection`, if it is there: its `Waiter` is dropped. -/
def leaveQueue (s : SharedPool) (again : Bool) : SharedPool :=
  if again then { s with queue := s.queue.dropWaiter } else s

/-- `pool.get` has failed.  In `acquire` the call goes on to the wait queue, whatever the error; in
    `wait_for_connection` the error is returned. -/
def getFailed (cfg : PoolConfig) (s : SharedPool) (c : Nat) (again : Bool) (e : GetError) :
    SharedPool :=
  if again then (s.leaveQueue true).finish c (.error (.poolError e))
  else match s.queue.enqueue c with
    | none => s.finish c (.error .queueFull)
    | some queue => { s with queue }.setStage c
        (.waiting (if 0 < cfg.waitTimeoutMs then some (s.now + cfg.waitTimeoutMs) else none))

/-- `TcpConnectionPool::get` up to the point where it waits: the breaker comes first. -/
def enterGet (cfg : PoolConfig) (s : SharedPool) (c : Nat) (again : Bool) (wall : UInt64) :
    Option SharedPool :=
  match s.breaker with
  | none => some (s.setStage c (.getting again 1))
  | some cb =>
    match cb.allowRequest .wrapping wall with
    | .error _ => none
    | .ok (.ok (), cb) => some ({ s with breaker := some cb }.setStage c (.getting again 1))
    | .ok (.error e, cb) => some (getFailed cfg { s with breaker := some cb } c again
        (.circuitBreaker e))

/-- `acquire` up to the point where it waits. -/
def call (cfg : PoolConfig) (s : SharedPool) (clientId : Nat) (needsSticky : Bool)
    (wall : UInt64) : Option SharedPool :=
  let c := s.calls.length
  let s := { s with calls := s.calls ++ [AcquireCall.mk clientId (.getting false 1)] }
  if !s.manager.accepting then some (s.finish c (.error .paused))
  else match if needsSticky then s.manager.stickyMap.lookup clientId else none with
    | some (b, _) =>
      let conn : ManagedConnection := ⟨b, clientId, true⟩
      some ({ s with
        manager := { s.manager with stickyMap := s.manager.stickyMap.erase clientId }
        held := conn :: s.held }.finish c (.ok conn))
    | none => s.enterGet cfg c false wall

/-- The breaker after `get` has a result. -/
def recordResult (breaker : Option CircuitBreaker) (ok : Bool) (wall : UInt64) (unhealthy : Bool) :
    Rust (Option CircuitBreaker) :=
  match breaker with
  | none => .ok none
  | some cb =>
    if ok then (cb.recordSuccess .wrapping wall).map some
    else (cb.recordFailure .wrapping wall unhealthy).map some

/-- Whether a failed attempt is followed by another one. -/
def retries (cfg : PoolConfig) (attempt : Nat) (e : DeadpoolError) : Bool :=
  match cfg.retryConfig with
  | some retry => retry.enabled && e.retryable && decide (attempt < retry.maxAttempts)
  | none => false

def getError (cfg : PoolConfig) (e : DeadpoolError) : GetError :=
  match cfg.retryConfig with
  | some retry => if retry.enabled then .retried e else .pool e
  | none => .pool e

/-- A send on the channel of a call, which has no effect unless the call still waits. -/
def send (s : SharedPool) (c : Nat) : SharedPool :=
  match s.stage c with
  | some (.waiting _) => s.setStage c .notified
  | _ => s

/-- `notify_one`: the oldest sender is used up, whether or not its call still waits. -/
def notifyOne (s : SharedPool) : SharedPool :=
  match s.queue.notifyOne with
  | (none, queue) => { s with queue }
  | (some c, queue) => { s with queue }.send c

/-- `get` returns a connection, recycled or newly created. -/
def opened (s : SharedPool) (c : Nat) (again : Bool) (clientId : Nat) (attempts : List Attempt)
    (creates : Bool) (wall : UInt64) : Option SharedPool :=
  match s.manager.pool.get .wrapping (if creates then some ⟨s.created, none⟩ else none) attempts,
    recordResult s.breaker true wall false with
  | .ok (some b, pool), .ok breaker =>
    let conn : ManagedConnection := ⟨b, clientId, false⟩
    some (({ s with
      manager := { s.manager with pool }
      breaker
      held := conn :: s.held
      created := s.created + 1 }.leaveQueue again).finish c (.ok conn))
  | _, _ => none

/-- No idle object recycles and none can be created. -/
def openFailed (cfg : PoolConfig) (s : SharedPool) (c : Nat) (again : Bool) (attempt : Nat)
    (attempts : List Attempt) (e : DeadpoolError) (wall : UInt64) (unhealthy : Bool) :
    Option SharedPool :=
  match s.manager.pool.get .wrapping none attempts, recordResult s.breaker false wall unhealthy with
  | .ok (none, pool), .ok breaker =>
    let s := { s with manager := { s.manager with pool } }
    if retries cfg attempt e then some (s.setStage c (.backoff again attempt))
    else some (getFailed cfg { s with breaker } c again (getError cfg e))
  | _, _ => none

/-- One step of a call or of the environment; `none` if it cannot happen. -/
def step (cfg : PoolConfig) (s : SharedPool) : SharedEvent → Option SharedPool
  | .call clientId needsSticky wall => s.call cfg clientId needsSticky wall
  | .slot c =>
    match s.stage c with
    | some (.getting again attempt) =>
      if s.checkedOut < cfg.maxSize then some (s.setStage c (.opening again attempt)) else none
    | _ => none
  | .opened c attempts creates wall =>
    match s.calls[c]? with
    | some ⟨clientId, .opening again _⟩ => s.opened c again clientId attempts creates wall
    | _ => none
  | .openFailed c attempts e wall unhealthy =>
    match s.stage c with
    | some (.opening again attempt) =>
      s.openFailed cfg c again attempt attempts e wall unhealthy
    | _ => none
  | .retry c =>
    match s.stage c with
    | some (.backoff again attempt) => some (s.setStage c (.getting again (attempt + 1)))
    | _ => none
  | .proceed c wall => if s.stage c = some .notified then s.enterGet cfg c true wall else none
  | .expire c =>
    match s.stage c with
    | some (.waiting (some expires)) =>
      if expires ≤ s.now then some ((s.leaveQueue true).finish c (.error .waitTimeout)) else none
    | _ => none
  | .release conn =>
    if conn ∈ s.held then
      some ({ s with
        manager := s.manager.release conn s.now
        held := s.held.erase conn }.notifyOne)
    else none
  | .drop conn =>
    if conn ∈ s.held then
      some { s with
        manager := { s.manager with pool := s.manager.pool.put conn.connection }
        held := s.held.erase conn }
    else none
  | .pause => some { s with manager := s.manager.pause }
  | .resume => some ({ s with manager := s.manager.resume }.notifyOne)
  | .health healthy wall =>
    some { s with breaker := s.breaker.map fun cb => cb.reportHealth wall healthy }
  | .tick ms => some { s with now := s.now + ms }

end SharedPool

end ScryProxy
