import ScryProxy.Native.BackendAuth

/-!
# Startup without a pool, and on a backend that is in use already

Model of `perform_startup_handshake` and `replay_startup_to_client` in `proxy/connection.rs`,
after the client is authenticated.  The first passes on what the backend sends as it comes; the
second sends a client what an earlier startup of its backend has captured.  As with the capturing
startup, what the client gets is what is written to it.
-/

namespace ScryProxy

open Rust (Overflow)

/-- The loop of `perform_startup_handshake` over the reads; `out` is what the client has got. -/
def forwardLoop (ov : Overflow) (out : List UInt8) :
    List ReadEvent → Rust (List UInt8 × Awaited Unit)
  | .data bytes :: events => do
    -- each read is passed on, then searched on its own
    if (← extractReadyForQuery ov bytes).isSome then return (out ++ bytes, .returned () events)
    else forwardLoop ov (out ++ bytes) events
  | .eof :: _ => .ok (out, .failed .closedDuringStartup)
  | .ioError :: _ => .ok (out, .failed .readFailed)
  | [] => .ok (out, .waiting)

/-- `perform_startup_handshake`: what the client gets, and how it ends. -/
def BackendAuthenticator.performStartupHandshake (ov : Overflow) (auth : BackendAuthenticator) (writeOk : Bool)
    (startupBytes : List UInt8) (events : List ReadEvent) : Rust (List UInt8 × Awaited Unit) :=
  if !writeOk then .ok ([], .failed .writeFailed)
  else do
    match ← auth.authenticate ov writeOk events [] ⟨none, [startupBytes]⟩ with
    | .failed e => return ([], .failed e)
    | .waiting => return ([], .waiting)
    | .returned remaining events =>
      -- AuthenticationOk is not sent before the backend's
      forwardLoop ov buildAuthOk (if remaining = [] then events else .data remaining :: events)

/-- `replay_startup_to_client`: what the client gets. -/
def replayStartupToClient (captured : List UInt8) : List UInt8 := buildAuthOk ++ captured

end ScryProxy
