import ScryProxy.Native.Relay

/-!
# The unpooled relay

Model of `ConnectionHandler::handle_with_owned_backend` in `proxy/connection.rs`, from the
point where the startup handshake is done.  Two copy loops run side by side, one for each
direction; each reads, looks at what it has read, and writes all of it before it reads again.
The `select!` that runs them returns with the first of them, and the other is dropped where it
is.  A look that panics, or never ends, stops both: they are parts of one task.

Release builds are modelled, so integer overflow wraps.
-/

namespace ScryProxy

/-- Where the bytes go. -/
inductive Direction where
  | toBackend
  | toClient
  deriving DecidableEq, Repr

/-- One direction: its source, its copy loop and its sink. -/
structure CopyLoop where
  /-- what the source has sent -/
  sent : List UInt8
  /-- the part of it that was not read yet -/
  unread : List UInt8
  /-- the source has closed its sending side -/
  closed : Bool
  /-- read, and not written yet: the loop is in `write_all` -/
  pending : List UInt8
  written : List UInt8
  deriving DecidableEq, Repr

structure DirectRelay where
  bufferSize : Nat
  frontendBuffer : List UInt8
  stmtCache : PreparedStatementCache
  /-- what was seen of the queries, for the events -/
  observed : List Effect
  toBackend : CopyLoop
  toClient : CopyLoop
  /-- the `select!` has returned, or a look at a read has not -/
  stopped : Bool

/-- What the two ends and the two loops do. -/
inductive DirectEvent where
  /-- the source of a direction sends -/
  | send (d : Direction) (bytes : List UInt8)
  /-- the source of a direction closes its sending side -/
  | close (d : Direction)
  /-- a read returns this many bytes, at most the size of the buffer -/
  | read (d : Direction) (n : Nat)
  /-- a read returns nothing: the source has closed, or the buffer has no room -/
  | readEnd (d : Direction)
  | readError (d : Direction)
  /-- a write takes this many bytes of those that `write_all` has left -/
  | write (d : Direction) (n : Nat)
  | writeError (d : Direction)
  deriving DecidableEq, Repr

/-! ## Looking at what passes -/

namespace PreparedStatementCache

/-- The `match` on one frontend message. -/
def observe (cache : PreparedStatementCache) : Message → Rust PreparedStatementCache
  | .parse name query paramOids =>
    .ok ((cache.insertStatement name ⟨query, paramOids⟩).setPending [] ⟨query, .absent, true⟩)
  | .bind portal statement formatCodes paramsRaw =>
    cache.bindPortal portal statement formatCodes paramsRaw
  | .query query => .ok (cache.setPending [] ⟨query, .absent, false⟩)
  | .close kind name =>
    if kind = 'S' then .ok (cache.removeStatement name)
    else if kind = 'P' then .ok (cache.clearPending name)
    else .ok cache
  | .execute _ | .sync | .terminate => .ok cache

/-- The pending execution that a backend read ends, if any. -/
def settle (cache : PreparedStatementCache) (data : List UInt8) :
    Rust (PreparedStatementCache × List Effect) := do
  match ← extractError .wrapping data with
  | some error =>
    match cache.takePending [] with
    | (some pending, cache) => return (cache, [.queryFailed pending data error])
    | (none, _) => return (cache, [])
  | none =>
    if ← isQueryComplete .wrapping data then
      match cache.takePending [] with
      | (some pending, cache) => return (cache, [.queryCompleted pending])
      | (none, _) => return (cache, [])
    else return (cache, [])

end PreparedStatementCache

namespace DirectRelay

def start (bufferSize maxPreparedStatements : Nat) : DirectRelay where
  bufferSize
  frontendBuffer := []
  stmtCache := .new maxPreparedStatements
  observed := []
  toBackend := ⟨[], [], false, [], []⟩
  toClient := ⟨[], [], false, [], []⟩
  stopped := false

def loop (s : DirectRelay) : Direction → CopyLoop
  | .toBackend => s.toBackend
  | .toClient => s.toClient

def setLoop (s : DirectRelay) (d : Direction) (l : CopyLoop) : DirectRelay :=
  match d with
  | .toBackend => { s with toBackend := l }
  | .toClient => { s with toClient := l }

/-- What a loop does with a read before it forwards it. -/
def look (s : DirectRelay) (d : Direction) (data : List UInt8) : Rust DirectRelay :=
  match d with
  | .toBackend => do
    let (messages, frontendBuffer) ← extractMessages s.frontendBuffer data
    let stmtCache ← messages.foldlM PreparedStatementCache.observe s.stmtCache
    return { s with frontendBuffer, stmtCache }
  | .toClient => do
    let (stmtCache, effects) ← s.stmtCache.settle data
    return { s with stmtCache, observed := s.observed ++ effects }

/-- The bytes of a read are in hand. -/
def taken (s : DirectRelay) (d : Direction) (n : Nat) : DirectRelay :=
  let l := s.loop d
  s.setLoop d { l with unread := l.unread.drop n, pending := l.unread.take n }

/-- The loop of the direction ends, and with it the `select!`. -/
def stop (s : DirectRelay) : DirectRelay := { s with stopped := true }

/-- One step of an end or of a loop; `none` if it cannot happen. -/
def step (s : DirectRelay) : DirectEvent → Option DirectRelay
  | .send d bytes =>
    let l := s.loop d
    if l.closed then none
    else some (s.setLoop d { l with sent := l.sent ++ bytes, unread := l.unread ++ bytes })
  | .close d => some (s.setLoop d { s.loop d with closed := true })
  | .read d n =>
    let l := s.loop d
    if !s.stopped && l.pending.isEmpty && decide (0 < n ∧ n ≤ min s.bufferSize l.unread.length) then
      match (s.taken d n).look d (l.unread.take n) with
      | .ok s => some s
      | .error _ => some (s.taken d n).stop
    else none
  | .readEnd d =>
    let l := s.loop d
    if !s.stopped && l.pending.isEmpty && (s.bufferSize == 0 || l.unread.isEmpty && l.closed) then
      some s.stop
    else none
  | .readError d =>
    if !s.stopped && (s.loop d).pending.isEmpty then some s.stop else none
  | .write d n =>
    let l := s.loop d
    if !s.stopped && decide (0 < n ∧ n ≤ l.pending.length) then
      some (s.setLoop d { l with
        pending := l.pending.drop n
        written := l.written ++ l.pending.take n })
    else none
  | .writeError d =>
    if !s.stopped && !(s.loop d).pending.isEmpty then some s.stop else none

end DirectRelay

end ScryProxy
