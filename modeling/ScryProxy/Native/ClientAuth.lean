import ScryProxy.Native.BackendAuth
import ScryProxy.Native.FileAuth
import ScryProxy.Native.Routing

/-!
# Login of a client with MD5

Model of `Authenticator::authenticate_md5` in `auth/authenticator.rs` and of
`compute_md5_response`, `verify_md5_response` and `build_error_response` in
`protocol/auth_messages.rs`.  The salt is an argument, and so is what the client's end of the
connection does.
-/

namespace ScryProxy

open Rust (Overflow)

/-- `compute_md5_response`. -/
def computeMd5Response (md5 : Md5) (password username : Str) (salt : Vector UInt8 4) : Str :=
  let innerHash := hexDigest (md5 (Utf8.encode (password ++ username)))
  let outerHash := hexDigest (md5 (Utf8.encode innerHash ++ salt.toList))
  "md5".toList ++ outerHash

/-- `verify_md5_response`. -/
def verifyMd5Response (md5 : Md5) (clientResponse password username : Str) (salt : Vector UInt8 4) :
    Bool :=
  clientResponse == computeMd5Response md5 password username salt

namespace AuthMessages

open StartupMessage (cstring)

/-- ErrorResponse with severity, SQLSTATE and message. -/
def errorResponse (severity code message : Str) : Frame :=
  ⟨'E'.toUInt8, 'S'.toUInt8 :: (cstring severity ++ 'C'.toUInt8 :: (cstring code ++
    'M'.toUInt8 :: (cstring message ++ [0])))⟩

/-- `build_error_response`.  From 2^31 bytes on the length wraps. -/
def buildErrorResponse (severity code message : Str) : List UInt8 :=
  (errorResponse severity code message).encode

end AuthMessages

/-- `build_auth_md5_password`. -/
def buildAuthMd5Password (salt : Vector UInt8 4) : List UInt8 :=
  Frame.encode ⟨msgAuthentication, [0, 0, 0, 5] ++ salt.toList⟩

/-- The client's end: whether writes to it succeed, and what it has sent when the password is read;
    `none` if the read fails. -/
structure ClientSocket where
  writeOk : Bool
  sent : Option (List UInt8)
  deriving DecidableEq, Repr

/-- `AuthHandshakeResult`. -/
structure AuthHandshakeResult where
  startup : StartupMessage
  username : Str
  database : Option Str
  startupBytes : List UInt8

/-- The result of a login and what was written to the client. -/
abbrev LoginOutcome := Except Str AuthHandshakeResult × List (List UInt8)

structure Authenticator where
  config : Config
  fileAuth : Option FileAuthenticator

namespace Authenticator

/-- Size of the buffer for the password. -/
def passwordBuffer : Nat := 8192

/-- `send_auth_error` and the error that follows it. -/
def refuse (socket : ClientSocket) (written : List (List UInt8)) (reason : Str) : LoginOutcome :=
  if socket.writeOk then
    (.error reason,
      written ++ [buildErrorResponse "FATAL" "28P01" "password authentication failed"])
  else (.error "Failed to send auth error".toList, written)

/-- `authenticate_md5`. -/
def authenticateMd5 (ov : Overflow) (md5 : Md5) (auth : Authenticator) (socket : ClientSocket)
    (salt : Vector UInt8 4) (startup : StartupMessage) (username : Str) (database : Option Str) :
    Rust LoginOutcome :=
  match auth.fileAuth with
  | none => .ok (.error "MD5 auth enabled but no auth_file configured".toList, [])
  | some file =>
    if !file.hasUser username then .ok (refuse socket [] ("User not found: ".toList ++ username))
    else if !socket.writeOk then .ok (.error "Failed to send auth request".toList, [])
    else
      let written := [buildAuthMd5Password salt]
      match socket.sent with
      | none => .ok (.error "Failed to read password".toList, written)
      | some bytes => do
        -- one read, and no more than the buffer holds
        match ← parsePasswordMessage ov (bytes.take passwordBuffer) with
        | none => return (.error "Invalid password message from client".toList, written)
        | some clientPassword =>
          match file.getPassword username with
          | none =>
            return (.error "Cannot verify MD5 auth without plain password in auth_file".toList,
              written)
          | some storedPassword =>
            if !verifyMd5Response md5 clientPassword storedPassword username salt then
              return refuse socket written ("Authentication failed for user: ".toList ++ username)
            else
              return (.ok ⟨startup, username, database,
                (buildBackendStartup auth.config startup).bytes⟩, written)

end Authenticator

end ScryProxy
