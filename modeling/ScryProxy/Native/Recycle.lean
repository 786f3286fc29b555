import ScryProxy.Native.Extractor

/-!
# Health check and reset of a pooled backend

Model of `protocol/postgres.rs` (`read_until_ready_for_query`, `health_check`,
`reset_connection`) and of `BackendTransportManager::recycle` in
`proxy/tcp_pool.rs`.  The reads of a stream are given as the list of what each
`read` call returns; a list that ends leaves the reader waiting until its timeout.
-/

namespace ScryProxy

open Rust (Overflow)

/-- Result of one `read` on the backend stream. -/
inductive ReadEvent where
  | data (bytes : List UInt8)
  | eof
  | ioError
  deriving DecidableEq, Repr

/-- Size of the buffer a `read` call fills. -/
def readBufferSize : Nat := 1024

/-- Bound on the response collected without a ReadyForQuery. -/
def maxResponseBuffer : Nat := 64 * 1024

/-- `read_until_ready_for_query`, with the bytes it has taken off the stream.  The callers turn an
    I/O error and a timeout into `false` as well. -/
def readUntilReadyForQuery (ov : Overflow) (buffer : List UInt8) :
    List ReadEvent → Rust (Bool × List UInt8)
  | .data bytes :: events => do
    let buffer := buffer ++ bytes
    match ← extractReadyForQuery ov buffer with
    -- the last status in all that was read; whatever comes later stays on the stream
    | some status => return (status == 'I'.toUInt8, buffer)
    | none =>
      -- the error text is only logged
      let _ ← extractError ov buffer
      if maxResponseBuffer < buffer.length then return (false, buffer)
      else readUntilReadyForQuery ov buffer events
  | _ => .ok (false, buffer)

/-- Query message with the given text. -/
def queryMessage (text : String) : List UInt8 :=
  Frame.encode { tag := msgQuery, payload := text.toList.map Char.toUInt8 ++ [0] }

/-- What `health_check` sends. -/
def healthCheckMessage : List UInt8 := queryMessage ";"

/-- What `reset_connection` sends. -/
def resetMessage : List UInt8 := queryMessage "DISCARD ALL"

/-- The environment of one request: whether its write succeeds, and the reads after it. -/
structure Exchange where
  writeOk : Bool
  reads : List ReadEvent
  deriving DecidableEq, Repr

/-- What one request did: the bytes written to the backend, whether it was answered by an idle
    ReadyForQuery, and the bytes taken off the stream. -/
structure Answer where
  sent : List UInt8
  ok : Bool
  taken : List UInt8
  deriving DecidableEq, Repr

/-- Writes a message and waits for ReadyForQuery: the shape shared by `health_check` and
    `reset_connection`. -/
def exchange (ov : Overflow) (message : List UInt8) (e : Exchange) : Rust Answer :=
  if e.writeOk then do
    let (ok, taken) ← readUntilReadyForQuery ov [] e.reads
    return ⟨message, ok, taken⟩
  else .ok ⟨[], false, []⟩

/-- `health_check`. -/
def healthCheck (ov : Overflow) (e : Exchange) : Rust Answer := exchange ov healthCheckMessage e

/-- `reset_connection`. -/
def resetConnection (ov : Overflow) (e : Exchange) : Rust Answer := exchange ov resetMessage e

/-- What the backend does during one `recycle`. -/
structure RecycleEnv where
  health : Exchange
  reset : Exchange
  deriving DecidableEq, Repr

/-- `recycle`: whether the connection is accepted for reuse. -/
def recycle (ov : Overflow) (env : RecycleEnv) : Rust Bool := do
  let health ← healthCheck ov env.health
  if health.ok then
    let reset ← resetConnection ov env.reset
    return reset.ok
  else return false

end ScryProxy
