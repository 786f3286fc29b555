import ScryProxy.Native.Recycle

/-!
# Startup of a fresh backend

Model of `auth/backend.rs`, of `AuthRequest` in `protocol/auth_messages.rs`, and of
`initialize_backend_startup` and `perform_startup_handshake_capturing` in
`proxy/connection.rs`.  What SCRAM and MD5 compute from the credentials is a parameter.
The reads of the backend are given as the list of what each `read` call returns; a list that
ends leaves the handler waiting.
-/

namespace ScryProxy

open Rust (Overflow)

def msgAuthentication : UInt8 := 'R'.toUInt8

def msgPassword : UInt8 := 'p'.toUInt8

/-! ## Authentication requests -/

/-- `AuthRequest`.  The mechanisms are kept as bytes; the source drops those that are not UTF-8. -/
inductive AuthRequest where
  | ok
  | cleartextPassword
  | md5 (salt : List UInt8)
  | sasl (mechanisms : List (List UInt8))
  | saslContinue (data : List UInt8)
  | saslFinal (data : List UInt8)
  deriving DecidableEq, Repr

namespace AuthRequest

/-- The loop over the mechanism names; a NUL after the NUL of a name ends it.  Each round takes at
    least one byte, so `fuel` as large as the body is enough. -/
def parseMechanisms : Nat → List UInt8 → List (List UInt8)
  | 0, _ => []
  | fuel + 1, body =>
    if body = [] then []
    else
      let name := body.takeWhile (· != 0)
      let rest := body.drop (name.length + 1)
      (if name = [] then [] else [name]) ++
        if rest.head? = some 0 then [] else parseMechanisms fuel rest

/-- The `match` of `parse` on the authentication code; `total` is the end of the message. -/
def ofCode (code : Int) (data : List UInt8) (total : Nat) : Rust (Option AuthRequest) :=
  if code = 0 then .ok (some .ok)
  else if code = 3 then .ok (some .cleartextPassword)
  else if code = 5 then
    .ok (if data.length < 13 then none else some (.md5 ((data.drop 9).take 4)))
  else if code = 10 then
    let body := (data.take total).drop 9
    .ok (some (.sasl (parseMechanisms body.length body)))
  else if code = 11 ∨ code = 12 then
    -- a slice that ends before it starts
    if total < 9 then .error .panic
    else
      let payload := (data.take total).drop 9
      .ok (some (if code = 11 then .saslContinue payload else .saslFinal payload))
  else .ok none

/-- `parse`. -/
def parse (ov : Overflow) (data : List UInt8) : Rust (Option AuthRequest) :=
  match data with
  | t :: b₀ :: b₁ :: b₂ :: b₃ :: c₀ :: c₁ :: c₂ :: c₃ :: _ =>
    if t ≠ msgAuthentication then .ok none
    else do
      let total ← Rust.offsetAdd ov 1 (BigEndian.i32 b₀ b₁ b₂ b₃)
      if data.length < total then return none
      else ofCode (BigEndian.i32 c₀ c₁ c₂ c₃) data total
  | _ => .ok none

end AuthRequest

/-- A request whose length is not negative. -/
theorem AuthRequest.parse_header (ov : Overflow) {data rest : List UInt8}
    {b₀ b₁ b₂ b₃ c₀ c₁ c₂ c₃ : UInt8} {n : Nat}
    (hdata : data = msgAuthentication :: b₀ :: b₁ :: b₂ :: b₃ :: c₀ :: c₁ :: c₂ :: c₃ :: rest)
    (hlen : BigEndian.i32 b₀ b₁ b₂ b₃ = n) :
    AuthRequest.parse ov data = if data.length < 1 + n then .ok none
      else AuthRequest.ofCode (BigEndian.i32 c₀ c₁ c₂ c₃) data (1 + n) := by
  subst hdata
  rw [AuthRequest.parse, hlen, Rust.offsetAdd_ofNat, if_neg (not_not.2 rfl)]
  rfl

/-- `parse_password_message`: the password of a PasswordMessage, without its NUL. -/
def parsePasswordMessage (ov : Overflow) (data : List UInt8) : Rust (Option Str) :=
  match data with
  | t :: b₀ :: b₁ :: b₂ :: b₃ :: _ =>
    if t ≠ msgPassword then .ok none
    else do
      let total ← Rust.offsetAdd ov 1 (BigEndian.i32 b₀ b₁ b₂ b₃)
      if data.length < total then return none
      else
        -- the slice `5..1 + length - 1`
        let stop ← Rust.usizeSub ov total 1
        if stop < 5 ∨ data.length < stop then .error .panic
        else return Utf8.decode ((data.take stop).drop 5)
  | _ => .ok none

/-- `try_parse_auth`: the request at the front, and how many bytes it takes. -/
def tryParseAuth (ov : Overflow) (data : List UInt8) : Rust (Option (AuthRequest × Nat)) :=
  match data with
  | t :: b₀ :: b₁ :: b₂ :: b₃ :: _ :: _ :: _ :: _ :: _ =>
    if t ≠ msgAuthentication then .ok none
    else do
      let total ← Rust.offsetAdd ov 1 (BigEndian.i32 b₀ b₁ b₂ b₃)
      if data.length < total then return none
      else
        let req ← AuthRequest.parse ov (data.take total)
        return req.map (·, total)
  | _ => .ok none

/-- Nine bytes are enough to know where an authentication message ends. -/
theorem tryParseAuth_header (ov : Overflow) {data rest : List UInt8} {b₀ b₁ b₂ b₃ c₀ c₁ c₂ c₃ : UInt8} {n : Nat}
    (hdata : data = msgAuthentication :: b₀ :: b₁ :: b₂ :: b₃ :: c₀ :: c₁ :: c₂ :: c₃ :: rest)
    (hlen : BigEndian.i32 b₀ b₁ b₂ b₃ = n) :
    tryParseAuth ov data = if data.length < 1 + n then .ok none
      else (AuthRequest.parse ov (data.take (1 + n))).map (Option.map (·, 1 + n)) := by
  subst hdata
  rw [tryParseAuth, hlen, Rust.offsetAdd_ofNat]
  by_cases hshort : (msgAuthentication :: b₀ :: b₁ :: b₂ :: b₃ :: c₀ :: c₁ :: c₂ :: c₃ :: rest).length
      < 1 + n
  · simp only [ne_eq, not_true_eq_false, if_false, Rust.ok_bind, hshort, if_true, Rust.pure_eq_ok]
  · simp only [ne_eq, not_true_eq_false, if_false, Rust.ok_bind, hshort]
    rfl

/-- Nothing but an authentication message is taken. -/
theorem tryParseAuth_other (ov : Overflow) {t : UInt8} (ht : t ≠ msgAuthentication) (rest : List UInt8) :
    tryParseAuth ov (t :: rest) = .ok none := by
  rcases rest with _ | ⟨b₀, _ | ⟨b₁, _ | ⟨b₂, _ | ⟨b₃, _ | ⟨c₀, _ | ⟨c₁, _ | ⟨c₂, _ | ⟨c₃, rest⟩⟩⟩⟩⟩⟩⟩⟩
  case cons.cons.cons.cons.cons.cons.cons.cons => simp [tryParseAuth, ht]
  all_goals rfl

/-! ## Answers -/

/-- `build_password_message`. -/
def buildPasswordMessage (password : List UInt8) : List UInt8 :=
  Frame.encode ⟨msgPassword, password ++ [0]⟩

/-- `build_sasl_initial_response`. -/
def buildSaslInitialResponse (mechanism clientFirst : List UInt8) : List UInt8 :=
  Frame.encode ⟨msgPassword,
    mechanism ++ [0] ++ BigEndian.bytes32 clientFirst.length ++ clientFirst⟩

/-- `build_sasl_response`. -/
def buildSaslResponse (data : List UInt8) : List UInt8 := Frame.encode ⟨msgPassword, data⟩

def scramSha256 : List UInt8 := "SCRAM-SHA-256".toList.map Char.toUInt8

/-- What a `ScramClient` computes; its state is the list of server-first messages it has taken. -/
structure ScramClient where
  clientFirst : List UInt8
  clientFinal : List (List UInt8) → List UInt8 → Option (List UInt8)
  verifyServerFinal : List (List UInt8) → List UInt8 → Bool

structure BackendAuthenticator where
  password : List UInt8
  /-- `compute_md5_response` for the credentials -/
  md5Response : List UInt8 → List UInt8
  scram : ScramClient

/-- Why a startup fails. -/
inductive StartupError where
  | writeFailed
  | readFailed
  /-- `Backend closed connection during authentication` -/
  | closedDuringAuthentication
  /-- `Backend closed connection during startup` -/
  | closedDuringStartup
  | unsupportedMechanism (mechanisms : List (List UInt8))
  | saslContinueWithoutInit
  | scramFailed
  | saslFinalWithoutInit
  | signatureMismatch
  deriving DecidableEq, Repr

/-- State of the loop of `authenticate`, apart from the bytes it has yet to look at. -/
structure AuthState where
  /-- the server-first messages taken, once SCRAM has begun -/
  scramClient : Option (List (List UInt8))
  /-- what was written to the backend -/
  sent : List (List UInt8)
  deriving DecidableEq, Repr

namespace BackendAuthenticator

def send (writeOk : Bool) (s : AuthState) (message : List UInt8) : Except StartupError AuthState :=
  if writeOk then .ok { s with sent := s.sent ++ [message] } else .error .writeFailed

/-- The `match` of `authenticate` on a request; `AuthenticationOk` ends the loop before it. -/
def respond (auth : BackendAuthenticator) (writeOk : Bool) (s : AuthState) :
    AuthRequest → Except StartupError AuthState
  | .ok => .ok s
  | .cleartextPassword => send writeOk s (buildPasswordMessage auth.password)
  | .md5 salt => send writeOk s (buildPasswordMessage (auth.md5Response salt))
  | .sasl mechanisms =>
    if mechanisms.contains scramSha256 then
      send writeOk { s with scramClient := some [] }
        (buildSaslInitialResponse scramSha256 auth.scram.clientFirst)
    else .error (.unsupportedMechanism mechanisms)
  | .saslContinue data =>
    match s.scramClient with
    | none => .error .saslContinueWithoutInit
    | some firsts =>
      match auth.scram.clientFinal firsts data with
      | none => .error .scramFailed
      | some final =>
        send writeOk { s with scramClient := some (firsts ++ [data]) } (buildSaslResponse final)
  | .saslFinal data =>
    match s.scramClient with
    | none => .error .saslFinalWithoutInit
    | some firsts =>
      if auth.scram.verifyServerFinal firsts data then .ok s else .error .signatureMismatch

/-- Where the loop stands when it needs no more or has to read. -/
inductive Progress where
  | done (remaining : List UInt8)
  | more (pending : List UInt8) (s : AuthState)
  | failed (e : StartupError)
  deriving DecidableEq, Repr

/-- The rounds of the loop that need no read.  Each takes at least nine bytes, so `fuel` as large as
    `pending` is enough. -/
def handleRequests (ov : Overflow) (auth : BackendAuthenticator) (writeOk : Bool) :
    Nat → List UInt8 → AuthState → Rust Progress
  | 0, pending, s => .ok (.more pending s)
  | fuel + 1, pending, s => do
    match ← tryParseAuth ov pending with
    | none => return .more pending s
    | some (req, consumed) =>
      let pending := pending.drop consumed
      if req = .ok then return .done pending
      else match auth.respond writeOk s req with
        | .error e => return .failed e
        | .ok s => handleRequests ov auth writeOk fuel pending s

end BackendAuthenticator

/-! ## Startup -/

/-- Result of a routine that reads: with what is left to read, failed, or still waiting. -/
inductive Awaited (α : Type) where
  | returned (value : α) (rest : List ReadEvent)
  | failed (e : StartupError)
  | waiting
  deriving DecidableEq, Repr

namespace BackendAuthenticator

/-- The loop after a round: it ends, or goes on with a read. -/
def Progress.next (events : List ReadEvent)
    (read : List UInt8 → AuthState → Rust (Awaited (List UInt8))) :
    Progress → Rust (Awaited (List UInt8))
  | .done remaining => .ok (.returned remaining events)
  | .failed e => .ok (.failed e)
  | .more pending s => read pending s

/-- `authenticate`: what it has read beyond AuthenticationOk. -/
def authenticate (ov : Overflow) (auth : BackendAuthenticator) (writeOk : Bool) :
    List ReadEvent → List UInt8 → AuthState → Rust (Awaited (List UInt8))
  | [], pending, s => do
    let progress ← handleRequests ov auth writeOk pending.length pending s
    progress.next [] fun _ _ => .ok .waiting
  | event :: events, pending, s => do
    let progress ← handleRequests ov auth writeOk pending.length pending s
    progress.next (event :: events) fun pending s =>
      match event with
      | .data bytes => authenticate ov auth writeOk events (pending ++ bytes) s
      | .eof => .ok (.failed .closedDuringAuthentication)
      | .ioError => .ok (.failed .readFailed)

/-- `handleRequests` with what was written when the rounds end. -/
def handleRequestsSent (ov : Overflow) (auth : BackendAuthenticator) (writeOk : Bool) :
    Nat → List UInt8 → AuthState → Rust (Progress × List (List UInt8))
  | 0, pending, s => .ok (.more pending s, s.sent)
  | fuel + 1, pending, s => do
    match ← tryParseAuth ov pending with
    | none => return (.more pending s, s.sent)
    | some (req, consumed) =>
      let pending := pending.drop consumed
      if req = .ok then return (.done pending, s.sent)
      else match auth.respond writeOk s req with
        | .error e => return (.failed e, s.sent)
        | .ok s => handleRequestsSent ov auth writeOk fuel pending s

/-- `authenticate` with what was written when it ends. -/
def authenticateSent (ov : Overflow) (auth : BackendAuthenticator) (writeOk : Bool) :
    List ReadEvent → List UInt8 → AuthState → Rust (Awaited (List UInt8) × List (List UInt8))
  | [], pending, s => do
    let (progress, sent) ← handleRequestsSent ov auth writeOk pending.length pending s
    let outcome ← progress.next [] fun _ _ => .ok .waiting
    return (outcome, sent)
  | event :: events, pending, s => do
    let (progress, sent) ← handleRequestsSent ov auth writeOk pending.length pending s
    match progress, event with
    | .done remaining, event => return (.returned remaining (event :: events), sent)
    | .failed e, _ => return (.failed e, sent)
    | .more pending s, .data bytes => authenticateSent ov auth writeOk events (pending ++ bytes) s
    | .more _ _, .eof => return (.failed .closedDuringAuthentication, sent)
    | .more _ _, .ioError => return (.failed .readFailed, sent)

theorem handleRequests_eq (ov : Overflow) (auth : BackendAuthenticator) (writeOk : Bool) (fuel : Nat)
    (pending : List UInt8) (s : AuthState) :
    handleRequests ov auth writeOk fuel pending s =
      (handleRequestsSent ov auth writeOk fuel pending s).map Prod.fst := by
  induction fuel generalizing pending s with
  | zero => rfl
  | succ fuel ih =>
    rw [handleRequests, handleRequestsSent]
    cases tryParseAuth ov pending with
    | error e => rfl
    | ok parsed =>
      cases parsed with
      | none => rfl
      | some pair =>
        obtain ⟨req, n⟩ := pair
        simp only [Rust.ok_bind]
        split
        · rfl
        · split
          · rfl
          · exact ih _ _

/-- What is written does not change what `authenticate` returns. -/
theorem authenticate_eq (ov : Overflow) (auth : BackendAuthenticator) (writeOk : Bool)
    (events : List ReadEvent) (pending : List UInt8) (s : AuthState) :
    authenticate ov auth writeOk events pending s =
      (authenticateSent ov auth writeOk events pending s).map Prod.fst := by
  induction events generalizing pending s with
  | nil =>
    rw [authenticate, authenticateSent, handleRequests_eq]
    cases handleRequestsSent ov auth writeOk pending.length pending s with
    | error e => rfl
    | ok round =>
      obtain ⟨progress, sent⟩ := round
      cases progress <;> rfl
  | cons event events ih =>
    rw [authenticate, authenticateSent, handleRequests_eq]
    cases handleRequestsSent ov auth writeOk pending.length pending s with
    | error e => rfl
    | ok round =>
      obtain ⟨progress, sent⟩ := round
      cases progress with
      | done remaining => rfl
      | failed e => rfl
      | more left s₁ =>
        cases event with
        | data bytes => exact ih _ _
        | eof => rfl
        | ioError => rfl

end BackendAuthenticator

/-- The loop of `initialize_backend_startup` over the reads.  Each read is searched on its own. -/
def captureLoop (ov : Overflow) (captured : List UInt8) :
    List ReadEvent → Rust (Awaited (List UInt8))
  | .data bytes :: events => do
    -- `contains_ready_for_query`
    if (← extractReadyForQuery ov bytes).isSome then return .returned (captured ++ bytes) events
    else captureLoop ov (captured ++ bytes) events
  | .eof :: _ => .ok (.failed .closedDuringStartup)
  | .ioError :: _ => .ok (.failed .readFailed)
  | [] => .ok .waiting

/-- `initialize_backend_startup`. -/
def BackendAuthenticator.initializeBackendStartup (ov : Overflow) (auth : BackendAuthenticator) (writeOk : Bool)
    (startupBytes : List UInt8) (events : List ReadEvent) : Rust (Awaited (List UInt8)) :=
  if !writeOk then .ok (.failed .writeFailed)
  else do
    match ← auth.authenticate ov writeOk events [] ⟨none, [startupBytes]⟩ with
    | .failed e => return .failed e
    | .waiting => return .waiting
    | .returned remaining events =>
      -- what came with AuthenticationOk is searched first
      captureLoop ov [] (if remaining = [] then events else .data remaining :: events)

/-- `build_auth_ok`. -/
def buildAuthOk : List UInt8 := Frame.encode ⟨msgAuthentication, [0, 0, 0, 0]⟩

/-- `perform_startup_handshake_capturing` after the client is authenticated: what the client gets,
    and the captured response. -/
def performStartupHandshakeCapturing (ov : Overflow) (auth : BackendAuthenticator) (writeOk : Bool)
    (startupBytes : List UInt8) (events : List ReadEvent) :
    Rust (List UInt8 × Awaited (List UInt8)) := do
  match ← auth.initializeBackendStartup ov writeOk startupBytes events with
  | .returned captured rest => return (buildAuthOk ++ captured, .returned captured rest)
  | result => return (buildAuthOk, result)

end ScryProxy
