import ScryProxy.Native.Relay

/-!
# The life of a managed session

`ConnectionHandler::handle_with_managed_connection` in `proxy/connection.rs` as a whole: the
startup exchange, the loop, and the acquire in mid-session with the startup of a fresh backend.
A `ManagedSession` says at which await the handler is and which connection it owns there; a
`SessionTurn` is how that await ends.  What becomes of the connection is the `Handover`:
`pool_manager.release` gets it, or it is dropped with the handler's frame.

The task can also be dropped at any of these awaits: an admin `KILL` aborts it.  A panic unwinds
the handler and drops what it owns.
-/

namespace ScryProxy

/-- What becomes of a connection that the handler gives away. -/
inductive Handover where
  | release (conn : ManagedConnection)
  /-- the connection goes back to `deadpool` by itself -/
  | drop (conn : ManagedConnection)
  deriving DecidableEq, Repr

inductive ManagedSession where
  /-- the startup exchange with the client, and with a fresh backend -/
  | starting (conn : ManagedConnection)
  | relaying (r : Relay)
  /-- in the acquire that follows the end of a transaction, in the arm for `input` -/
  | reacquiring (r : Relay) (input : Input)
  /-- the startup exchange with a fresh backend in mid-session -/
  | initializing (r : Relay) (input : Input) (conn : ManagedConnection)
  | ended

inductive SessionTurn where
  /-- a startup exchange ends, with the response of a fresh backend; `none` if it fails -/
  | startup (response : Option (List UInt8))
  /-- an iteration of the loop, up to its acquire if it has one -/
  | iterate (input : Input)
  /-- the task is dropped -/
  | abort

/-- The iteration with this answer of its acquire. -/
def Input.answered (reacquired : Option ManagedConnection) : Input → Input
  | .backendRead data writes _ => .backendRead data writes reacquired
  | input => input

/-- `set_startup_response`, on a connection that has none. -/
def ManagedConnection.captured (conn : ManagedConnection) (response : List UInt8) :
    ManagedConnection :=
  if conn.connection.startupResponse.isSome then conn
  else { conn with connection := { conn.connection with startupResponse := some response } }

namespace ManagedSession

/-- The connection that the handler owns. -/
def conn? : ManagedSession → Option ManagedConnection
  | .starting conn | .initializing _ _ conn => some conn
  | .relaying r => some r.managedConn
  | .reacquiring _ _ | .ended => none

/-- What the exit does with the connection. -/
def handover : Exit → Option Handover
  | .release conn => some (.release conn)
  | .dropped conn => some (.drop conn)
  | .withoutConnection => none

/-- The session after an iteration of its loop in which it owns the connection `conn`. -/
def settle (conn : ManagedConnection) :
    Rust (List Effect × Outcome) → Option (ManagedSession × Option Handover)
  | .ok (_, .next r) => some (.relaying r, none)
  | .ok (_, .exit how) => some (.ended, handover how)
  | .error .panic => some (.ended, some (.drop conn))
  | .error .diverge => none

/-- An iteration of the loop; the arm that releases the connection goes on in its acquire. -/
def iterate (cfg : RelayConfig) (r : Relay) (input : Input) :
    Option (ManagedSession × Option Handover) :=
  match Relay.step cfg r (input.answered none) with
  | .ok (_, .exit .withoutConnection) =>
    some (.reacquiring r input, some (.release r.managedConn))
  | result => settle r.managedConn result

/-- The rest of the arm that has got a connection again. -/
def resume (cfg : RelayConfig) (r : Relay) (input : Input) (conn : ManagedConnection) :
    Option (ManagedSession × Option Handover) :=
  settle conn (Relay.step cfg r (input.answered (some conn)))

/-- How the handler goes on when an await ends; `none` if it is not at such an await, or never gets
    to the next one. -/
def step (cfg : RelayConfig) : ManagedSession → SessionTurn →
    Option (ManagedSession × Option Handover)
  | .starting conn, .startup none => some (.ended, some (.drop conn))
  | .starting conn, .startup (some response) =>
    some (.relaying (.start cfg (conn.captured response)), none)
  | .relaying r, .iterate input => iterate cfg r input
  | .initializing _ _ conn, .startup none => some (.ended, some (.drop conn))
  | .initializing r input conn, .startup (some response) =>
    resume cfg r input (conn.captured response)
  | .ended, .abort => none
  | s, .abort => some (.ended, s.conn?.map .drop)
  | _, _ => none

/-- The acquire in mid-session returns. -/
def acquired (cfg : RelayConfig) (r : Relay) (input : Input) :
    Except AcquireError ManagedConnection → Option (ManagedSession × Option Handover)
  | .error _ => some (.ended, none)
  | .ok conn =>
    if conn.connection.startupResponse.isSome then resume cfg r input conn
    else some (.initializing r input conn, none)

end ManagedSession

end ScryProxy
