import ScryProxy.ForStd.Lru
import ScryProxy.Native.BindParams

/-!
# Statement cache

Model of `proxy/cache.rs`: the prepared statements of a session, for naming the
text behind a Bind, and the executions waiting for an answer, by portal.  Start
times and tracing spans are left out: they only feed durations and logs.
-/

namespace ScryProxy

/-- Cached prepared statement from a Parse message. -/
structure PreparedStatement where
  query : Str
  paramOids : List Nat
  deriving DecidableEq, Repr

/-- Parameters of a pending execution. -/
inductive BoundParams where
  /-- a simple query, or a Parse not bound yet -/
  | absent
  /-- the arguments of `decode_params` -/
  | typed (paramsRaw : List (Option (List UInt8))) (formatCodes : List Int) (paramOids : List Nat)
  /-- a Bind of a statement that is not cached -/
  | untyped (paramsRaw : List (Option (List UInt8)))
  deriving DecidableEq, Repr

/-- Execution waiting for its answer. -/
structure PendingExecution where
  query : Str
  params : BoundParams
  paramsIncomplete : Bool
  deriving DecidableEq, Repr

structure PreparedStatementCache where
  statements : AList fun _ : Str => PreparedStatement
  /-- oldest first -/
  lruOrder : List Str
  maxSize : Nat
  pending : AList fun _ : Str => PendingExecution

namespace PreparedStatementCache

def new (maxSize : Nat) : PreparedStatementCache := ⟨∅, [], maxSize, ∅⟩

/-- `insert_statement`: a known name keeps its entry while room is made. -/
def insertStatement (c : PreparedStatementCache) (name : Str) (stmt : PreparedStatement) :
    PreparedStatementCache :=
  let order := if name ∈ c.statements then c.lruOrder.filter (· != name) else c.lruOrder
  -- a known name still counts here, so at the bound it can evict another
  let (order, statements) := Lru.evict c.maxSize order c.statements
  { c with statements := statements.insert name stmt, lruOrder := order ++ [name] }

/-- `get_statement`: a hit becomes the most recently used. -/
def getStatement (c : PreparedStatementCache) (name : Str) :
    Option PreparedStatement × PreparedStatementCache :=
  match c.statements.lookup name with
  | some stmt => (some stmt, { c with lruOrder := c.lruOrder.filter (· != name) ++ [name] })
  | none => (none, c)

def removeStatement (c : PreparedStatementCache) (name : Str) : PreparedStatementCache :=
  { c with
    statements := c.statements.erase name
    lruOrder := c.lruOrder.filter (· != name) }

def setPending (c : PreparedStatementCache) (portal : Str) (p : PendingExecution) :
    PreparedStatementCache :=
  { c with pending := c.pending.insert portal p }

/-- `take_pending`. -/
def takePending (c : PreparedStatementCache) (portal : Str) :
    Option PendingExecution × PreparedStatementCache :=
  (c.pending.lookup portal, { c with pending := c.pending.erase portal })

def hasPending (c : PreparedStatementCache) (portal : Str) : Bool := decide (portal ∈ c.pending)

def clearPending (c : PreparedStatementCache) (portal : Str) : PreparedStatementCache :=
  { c with pending := c.pending.erase portal }

/-- What both relays do with a Bind: the parameters of a cached statement are decoded before the
    execution is stored.  Whether that returns does not depend on how texts of floats are read. -/
def bindPortal (c : PreparedStatementCache) (portal statement : Str) (formatCodes : List Int)
    (paramsRaw : List (Option (List UInt8))) : Rust PreparedStatementCache :=
  match c.getStatement statement with
  | (some stmt, c) => do
    let _ ← decodeParams (fun _ => none) (fun _ => none) paramsRaw formatCodes stmt.paramOids
    return c.setPending portal ⟨stmt.query, .typed paramsRaw formatCodes stmt.paramOids, false⟩
  | (none, c) =>
    .ok (c.setPending portal ⟨"[unknown: ".toList ++ statement ++ [']'], .untyped paramsRaw, true⟩)

end PreparedStatementCache

end ScryProxy
