import ScryProxy.ForStd.Trace
import ScryProxy.Native.ConnectionState
import ScryProxy.Native.Recycle

/-!
# Pool manager

Model of `proxy/pool_manager.rs` over the objects of the underlying `deadpool`
pool.  Which idle object `deadpool` tries next, and whether it creates a new one,
is left to the caller (`Attempt`, `fresh`); what it does with the answer of
`recycle` is its documented contract: an object that recycles is handed out, one
that does not is dropped, which closes it, and a dropped `Object` is idle again.
-/

namespace ScryProxy

open Rust (Overflow)

/-- A pooled backend connection. -/
structure PooledBackend where
  id : Nat
  startupResponse : Option (List UInt8)
  deriving DecidableEq, Repr

/-- Objects known to the `deadpool` pool. -/
structure Pool where
  idle : List PooledBackend
  /-- connections closed because `recycle` refused them -/
  closed : List PooledBackend
  deriving DecidableEq, Repr

/-- One idle object that a `get` tries, and how the backend behaves while it is recycled. -/
structure Attempt where
  object : PooledBackend
  env : RecycleEnv
  deriving DecidableEq, Repr

/-- `Pool::get`: tries idle objects until one recycles, then falls back to a fresh one. -/
def Pool.get (ov : Overflow) (fresh : Option PooledBackend) :
    List Attempt → Pool → Rust (Option PooledBackend × Pool)
  | [], p => .ok (fresh, p)
  | a :: attempts, p =>
    if a.object ∈ p.idle then do
      let p := { p with idle := p.idle.erase a.object }
      if ← recycle ov a.env then return (some a.object, p)
      -- refused: the object is dropped, and the next one is tried
      else Pool.get ov fresh attempts { p with closed := a.object :: p.closed }
    else Pool.get ov fresh attempts p

/-- Dropping an `Object` returns it to the pool. -/
def Pool.put (p : Pool) (b : PooledBackend) : Pool := { p with idle := b :: p.idle }

/-- A managed connection in a caller's hands. -/
structure ManagedConnection where
  connection : PooledBackend
  clientId : Nat
  isPinned : Bool
  deriving DecidableEq, Repr

/-- Bookkeeping of a sticky connection. -/
structure StickyConnectionInfo where
  pinReasons : List PinReason
  lastUsed : Nat
  bindingId : Nat
  deriving DecidableEq, Repr

/-- Has the connection not been used for longer than `idle_unpin_secs`?  Times are in nanoseconds. -/
def StickyConnectionInfo.isIdle (info : StickyConnectionInfo) (idleUnpinSecs now : Nat) : Bool :=
  decide (idleUnpinSecs * 1000000000 < now - info.lastUsed)

structure PoolManager where
  pool : Pool
  stickyMap : AList fun _ : Nat => PooledBackend × StickyConnectionInfo
  nextBindingId : Nat
  accepting : Bool

/-- `AcquireError`. -/
inductive AcquireError where
  | paused
  | poolError
  deriving DecidableEq, Repr

namespace PoolManager

def new : PoolManager := ⟨⟨[], []⟩, ∅, 1, true⟩

def pause (pm : PoolManager) : PoolManager := { pm with accepting := false }

def resume (pm : PoolManager) : PoolManager := { pm with accepting := true }

/-- `has_sticky`. -/
def hasSticky (pm : PoolManager) (clientId : Nat) : Bool := decide (clientId ∈ pm.stickyMap)

/-- `acquire`.  A failing `pool.get` goes through the wait queue and ends in another `pool.get` or
    in an error; both attempts are part of `attempts`. -/
def acquire (ov : Overflow) (pm : PoolManager) (clientId : Nat) (needsSticky : Bool)
    (attempts : List Attempt) (fresh : Option PooledBackend) :
    Rust (Except AcquireError ManagedConnection × PoolManager) :=
  if !pm.accepting then .ok (.error .paused, pm)
  else match if needsSticky then pm.stickyMap.lookup clientId else none with
    | some (b, _) =>
      .ok (.ok ⟨b, clientId, true⟩, { pm with stickyMap := pm.stickyMap.erase clientId })
    | none => do
      let (got, pool) ← pm.pool.get ov fresh attempts
      match got with
      | some b => return (.ok ⟨b, clientId, false⟩, { pm with pool })
      | none => return (.error .poolError, { pm with pool })

/-- `release`.  A pinned connection goes to the sticky map; when the client already has an entry
    there, the entry stays and the connection is dropped. -/
def release (pm : PoolManager) (conn : ManagedConnection) (now : Nat) : PoolManager :=
  -- only `acquire` from the sticky map and `pin` make a connection pinned
  if conn.isPinned then
    match pm.stickyMap.lookup conn.clientId with
    | some (b, info) =>
      { pm with
        stickyMap := pm.stickyMap.insert conn.clientId (b, { info with lastUsed := now })
        pool := pm.pool.put conn.connection }
    | none =>
      { pm with
        stickyMap := pm.stickyMap.insert conn.clientId
          (conn.connection, ⟨[], now, pm.nextBindingId⟩)
        nextBindingId := pm.nextBindingId + 1 }
  else { pm with pool := pm.pool.put conn.connection }

/-- `pin`. -/
def pin (pm : PoolManager) (clientId : Nat) (reason : PinReason) (conn : ManagedConnection)
    (now : Nat) : PoolManager :=
  match pm.stickyMap.lookup clientId with
  | some (b, info) =>
    let reasons := if reason ∈ info.pinReasons then info.pinReasons else info.pinReasons ++ [reason]
    { pm with
      stickyMap := pm.stickyMap.insert clientId
        (b, { info with pinReasons := reasons, lastUsed := now })
      pool := pm.pool.put conn.connection }
  | none =>
    { pm with
      stickyMap := pm.stickyMap.insert clientId (conn.connection, ⟨[reason], now, pm.nextBindingId⟩)
      nextBindingId := pm.nextBindingId + 1 }

/-- `unpin`. -/
def unpin (pm : PoolManager) (clientId : Nat) : PoolManager :=
  match pm.stickyMap.lookup clientId with
  | some (b, _) =>
    { pm with stickyMap := pm.stickyMap.erase clientId, pool := pm.pool.put b }
  | none => pm

/-- A round of the second loop of `cleanup_idle`, which looks at the entry again; with the number of
    entries removed so far. -/
def removeIdle (idleUnpinSecs now : Nat) (cleaned : Nat × PoolManager) (clientId : Nat) :
    Nat × PoolManager :=
  match cleaned.2.stickyMap.lookup clientId with
  | some (b, info) =>
    if info.isIdle idleUnpinSecs now then
      (cleaned.1 + 1,
        { cleaned.2 with
          stickyMap := cleaned.2.stickyMap.erase clientId
          pool := cleaned.2.pool.put b })
    else cleaned
  | none => cleaned

/-- `cleanup_idle`: how many sticky connections went back to the pool. -/
def cleanupIdle (pm : PoolManager) (idleUnpinSecs now : Nat) : Nat × PoolManager :=
  if idleUnpinSecs = 0 then (0, pm)
  else
    let toRemove := (pm.stickyMap.entries.filter fun e => e.2.2.isIdle idleUnpinSecs now).map Sigma.fst
    toRemove.foldl (removeIdle idleUnpinSecs now) (0, pm)

end PoolManager

/-! ## Warm-up -/

/-- The pool with the objects that direct calls of `get` hold. -/
structure Checkout where
  pool : Pool
  out : List PooledBackend
  /-- number for the next connection created -/
  created : Nat
  /-- number of calls of `get` that returned an object -/
  served : Nat
  deriving DecidableEq, Repr

inductive PoolUse where
  /-- a `get` returns; `connects` says whether `create` succeeds -/
  | get (attempts : List Attempt) (connects : Bool)
  | drop (b : PooledBackend)
  deriving DecidableEq, Repr

/-- Is it a call of `get`? -/
def PoolUse.isGet : PoolUse → Bool
  | .get _ _ => true
  | .drop _ => false

namespace Checkout

def new : Checkout := ⟨⟨[], []⟩, [], 0, 0⟩

/-- `create`: the connection has not had its startup handshake. -/
def create (c : Checkout) : PooledBackend := ⟨c.created, none⟩

/-- One use of a pool of `maxSize` objects; `none` if it cannot happen, or does not return. -/
def step (ov : Overflow) (maxSize : Nat) (c : Checkout) : PoolUse → Option Checkout
  | .get attempts connects =>
    if c.out.length < maxSize then
      match c.pool.get ov (if connects then some c.create else none) attempts with
      | .ok (some b, pool) => some ⟨pool, b :: c.out, c.created + 1, c.served + 1⟩
      | .ok (none, pool) => some ⟨pool, c.out, c.created + 1, c.served⟩
      | .error _ => none
    else none
  | .drop b =>
    if b ∈ c.out then some { c with pool := c.pool.put b, out := c.out.erase b } else none

end Checkout

/-- The uses that `warmup(count)` makes of the pool, in the order they happen: `count` calls of
    `get`, interleaved with the drops of what they return. -/
structure Warmup (count : Nat) where
  uses : List PoolUse
  gets : uses.countP PoolUse.isGet = count

/-- `warmup`: the number of calls that returned an object, and the pool once all are dropped. -/
def Warmup.run {count : Nat} (w : Warmup count) (ov : Overflow) (maxSize : Nat) :
    Option (Nat × Checkout) :=
  match Trace.exec (Checkout.step ov maxSize) .new w.uses with
  | some c => if c.out = [] then some (c.served, c) else none
  | none => none

end ScryProxy
