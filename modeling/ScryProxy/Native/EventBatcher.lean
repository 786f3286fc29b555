import ScryProxy.ForStd.Rust

/-!
# Event batcher

Model of `proxy/event_batcher.rs`: `send_event` puts an event into a bounded channel, and
`run_batcher` takes them out, collects them and hands them to the publisher.  The callers and
the batcher run side by side; an event of the model is one access to the channel or to the
counters, one turn of the batcher's `select!`, or the return of a call to the publisher.

A batch too large to be allocated for and an interval of zero end the task with a panic; an
allocation that the system refuses, which would end the process, is not modelled.

`calls` is the history of the calls of `send_event`, in the order in which they reached the
channel.
-/

namespace ScryProxy

/-- What `try_send` answers. -/
inductive SendOutcome where
  | queued
  | full
  | closed
  deriving DecidableEq, Repr

/-- A call of `send_event`; before it returns it counts its outcome. -/
structure SendCall (α : Type) where
  event : α
  outcome : SendOutcome
  returned : Bool
  deriving DecidableEq, Repr

/-- Where `run_batcher` is. -/
inductive BatcherPhase where
  /-- the task is spawned and has not run yet -/
  | starting
  | selecting
  /-- `publish_batch`, inside the loop -/
  | publishing
  /-- `publish_batch`, after the channel was closed -/
  | lastPublishing
  /-- `publisher.shutdown()` -/
  | shuttingDown
  | finished
  /-- the task has panicked, and the receiver is gone with it -/
  | panicked
  deriving DecidableEq, Repr

/-- The arguments of `EventBatcher::new`, and `size_of::<QueryEvent>()`. -/
structure BatcherConfig where
  batchSize : Nat
  flushIntervalMs : Nat
  maxQueueSize : Nat
  eventSize : Nat
  deriving DecidableEq, Repr

structure EventBatcher (α : Type) where
  cfg : BatcherConfig
  /-- all senders are gone -/
  closed : Bool
  channel : List α
  batch : List α
  /-- the batches given to `publish_batch` -/
  published : List (List α)
  phase : BatcherPhase
  eventsSent : UInt64
  eventsDropped : UInt64
  calls : List (SendCall α)
  deriving DecidableEq, Repr

inductive BatcherEvent (α : Type) where
  /-- the task runs up to its loop -/
  | start
  /-- `try_send` of a call of `send_event` -/
  | trySend (event : α)
  /-- the call at that place of the history counts its outcome and returns -/
  | sendReturns (call : Nat)
  /-- the last sender is dropped -/
  | close
  | recv
  /-- `recv` finds the channel empty and closed -/
  | recvNone
  | tick
  /-- `publish_batch` returns; an error is only logged -/
  | published (success : Bool)
  /-- `publisher.shutdown()` returns; an error ends the task as well -/
  | shutDown (success : Bool)
  deriving DecidableEq, Repr

namespace EventBatcher

variable {α : Type}

/-- `isize::MAX`, the largest allocation in bytes. -/
def maxAllocation : Nat := 2 ^ 63 - 1

/-- `Semaphore::MAX_PERMITS`. -/
def maxPermits : Nat := 2 ^ 61 - 1

/-- `EventBatcher::new`: a channel has a place for an event, and no more places than its semaphore
    can have permits. -/
def new (cfg : BatcherConfig) : Rust (EventBatcher α) :=
  if cfg.maxQueueSize = 0 ∨ maxPermits < cfg.maxQueueSize then .error .panic
  else .ok ⟨cfg, false, [], [], [], .starting, 0, 0, []⟩

/-- The start of `run_batcher`: `Vec::with_capacity` and `interval` both can panic.  What is in the
    channel goes with the receiver. -/
def enterLoop (s : EventBatcher α) : EventBatcher α :=
  if maxAllocation < s.cfg.batchSize * s.cfg.eventSize ∨ s.cfg.flushIntervalMs = 0 then
    { s with phase := .panicked, channel := [] }
  else { s with phase := .selecting }

/-- `try_send`. -/
def trySend (s : EventBatcher α) (event : α) : EventBatcher α :=
  if s.phase = .finished ∨ s.phase = .panicked then
    { s with calls := s.calls ++ [⟨event, .closed, false⟩] }
  else if s.channel.length < s.cfg.maxQueueSize then
    { s with channel := s.channel ++ [event], calls := s.calls ++ [⟨event, .queued, false⟩] }
  else { s with calls := s.calls ++ [⟨event, .full, false⟩] }

/-- The rest of `send_event`. -/
def countOutcome (s : EventBatcher α) : SendOutcome → EventBatcher α
  | .queued => { s with eventsSent := s.eventsSent + 1 }
  | .full => { s with eventsDropped := s.eventsDropped + 1 }
  | .closed => s

/-- `flush_batch` up to the publisher's answer, and where to wait for it.  Without events there is
    nothing to wait for. -/
def flushBatch (s : EventBatcher α) (waiting next : BatcherPhase) : EventBatcher α :=
  if s.batch.isEmpty then { s with phase := next }
  else { s with published := s.published ++ [s.batch], batch := [], phase := waiting }

/-- One event; `none` if it cannot happen. -/
def step (s : EventBatcher α) : BatcherEvent α → Option (EventBatcher α)
  | .start => if s.phase = .starting then some s.enterLoop else none
  | .trySend event => if s.closed then none else some (s.trySend event)
  | .sendReturns i =>
    match s.calls[i]? with
    | some ⟨event, outcome, false⟩ =>
      some { s.countOutcome outcome with calls := s.calls.set i ⟨event, outcome, true⟩ }
    | _ => none
  | .close =>
    -- a call borrows the sender
    if s.calls.all (·.returned) then some { s with closed := true } else none
  | .recv =>
    match s.phase, s.channel with
    | .selecting, event :: channel =>
      let s := { s with channel, batch := s.batch ++ [event] }
      -- the batch is full
      if s.cfg.batchSize ≤ s.batch.length then some (s.flushBatch .publishing .selecting) else some s
    | _, _ => none
  | .recvNone =>
    if s.phase = .selecting ∧ s.channel = [] ∧ s.closed then
      some (s.flushBatch .lastPublishing .shuttingDown)
    else none
  | .tick => if s.phase = .selecting then some (s.flushBatch .publishing .selecting) else none
  | .published _ =>
    match s.phase with
    | .publishing => some { s with phase := .selecting }
    | .lastPublishing => some { s with phase := .shuttingDown }
    | _ => none
  | .shutDown _ => if s.phase = .shuttingDown then some { s with phase := .finished } else none

/-! ## What the callers have been told -/

/-- The events that the channel took, in its order. -/
def accepted (s : EventBatcher α) : List α :=
  (s.calls.filter fun c => c.outcome = .queued).map SendCall.event

/-- The events for which `send_event` returned `Ok(true)`. -/
def returnedTrue (s : EventBatcher α) : List α :=
  (s.calls.filter fun c => c.returned && c.outcome = .queued).map SendCall.event

/-- The number of calls that returned `Ok`. -/
def returnedOk (s : EventBatcher α) : Nat :=
  s.calls.countP fun c => c.returned && c.outcome != .closed

end EventBatcher

end ScryProxy
