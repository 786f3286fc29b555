import ScryProxy.Native.AdminConsole

/-!
# Admin connections

Model of the loop of `handle_admin_connection` in `proxy/server.rs`, after the client has been
authenticated.  Each read goes to the start of one buffer and is looked at on its own; the
bytes that the previous read left behind it are never looked at.

`SHUTDOWN WAIT` waits for the drain, and the drain waits for the task of the admin connection:
unless the shutdown is in progress already, or the timers are late, `execute` does not return
and the task is aborted.
-/

namespace ScryProxy

namespace AdminConnection

open Rust (Overflow)

/-- Size of the read buffer. -/
def bufferSize : Nat := 8192

/-- The query of a read that starts with a Query message: `none` if the message does not end within
    the read. -/
def queryText (ov : Overflow) (data : List UInt8) : Rust (Option Str) :=
  match data with
  | _ :: b₀ :: b₁ :: b₂ :: b₃ :: _ => do
    -- `5 + length - 4`, with the length as a `usize`
    let sum ← Rust.offsetAdd ov 5 (BigEndian.i32 b₀ b₁ b₂ b₃)
    let messageEnd ← Rust.usizeSub ov sum 4
    if data.length < messageEnd then return none
    else
      let queryEnd ← Rust.usizeSub ov messageEnd 1
      -- the slice `5..query_end` of the buffer
      if queryEnd < 5 ∨ bufferSize < queryEnd then .error .panic
      else return some (Utf8.decodeLossy ((data.take queryEnd).drop 5))
  | _ => .ok none

/-- `execute` does not return: a `SHUTDOWN WAIT`, where it is not answered. -/
def blocks (waitAnswered : Bool) (query : Str) : Bool :=
  !waitAnswered && AdminCommand.parse query = some (.shutdown true)

/-- The loop: the queries that get a response, in order. -/
def run (ov : Overflow) (waitAnswered : Bool) : List (List UInt8) → Rust (List Str)
  | [] => .ok []
  -- the client has closed the connection
  | [] :: _ => .ok []
  | (tag :: data) :: reads =>
    if tag = msgQuery then do
      match ← queryText ov (tag :: data) with
      | none => run ov waitAnswered reads
      | some query =>
        if blocks waitAnswered query then return []
        else return query :: (← run ov waitAnswered reads)
    else if tag = msgTerminate then .ok []
    else run ov waitAnswered reads

end AdminConnection

end ScryProxy
