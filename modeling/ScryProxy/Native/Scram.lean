import ScryProxy.ForStd.Base64
import ScryProxy.Native.BackendAuth

/-!
# SCRAM-SHA-256 client

Model of `ScramClient` in `auth/scram.rs`.  The hash functions and the base64 engine are
parameters; the client keeps what the source keeps between its messages, also when a message
is refused halfway.
-/

namespace ScryProxy

namespace Scram

/-- `[u8; 32]`. -/
abbrev Digest := Vector UInt8 32

/-- The functions of the `hmac`, `sha2` and `pbkdf2` crates. -/
structure Crypto where
  hmacSha256 : List UInt8 → List UInt8 → Digest
  sha256 : List UInt8 → Digest
  /-- password, salt and rounds -/
  pbkdf2 : List UInt8 → List UInt8 → Nat → Digest

def xorBytes (a b : Digest) : Digest := a.zipWith (· ^^^ ·) b

inductive ScramError where
  | invalidServerMessage
  | missingNonce
  | missingSalt
  | missingIterations
  | invalidNonce
  | invalidSalt
  | notInitialized
  | invalidServerSignature
  | serverSignatureMismatch
  deriving DecidableEq, Repr

structure Client where
  username : Str
  password : Str
  clientNonce : Str
  clientFirstBare : Str
  serverFirst : Str
  saltedPassword : Option Digest
  deriving DecidableEq

/-- The attributes of a server-first message; a later one replaces an earlier one. -/
structure Attributes where
  serverNonce : Option Str
  saltB64 : Option Str
  iterations : Option Nat
  deriving DecidableEq, Repr

/-- One part of a server-first message. -/
def Attributes.take (attrs : Attributes) (part : Str) : Attributes :=
  match part.stripPrefix "r=".toList with
  | some value => { attrs with serverNonce := some value }
  | none =>
    match part.stripPrefix "s=".toList with
    | some value => { attrs with saltB64 := some value }
    | none =>
      match part.stripPrefix "i=".toList with
      | some value => { attrs with iterations := value.parseU32 }
      | none => attrs

/-- The loop over the parts. -/
def Attributes.ofServerFirst (serverFirst : Str) : Attributes :=
  (serverFirst.splitOn ',').foldl Attributes.take ⟨none, none, none⟩

/-- `c=biws,r=<nonce>`: `biws` stands for the header `n,,` of client-first. -/
def finalWithoutProof (nonce : Str) : Str := "c=biws,r=".toList ++ nonce

/-- AuthMessage. -/
def authMessage (clientFirstBare serverFirst clientFinalWithoutProof : Str) : Str :=
  clientFirstBare ++ [','] ++ serverFirst ++ [','] ++ clientFinalWithoutProof

namespace Client

/-- `new`; the nonce is random. -/
def new (username password nonce : Str) : Client := ⟨username, password, nonce, [], [], none⟩

/-- `client_first`. -/
def clientFirst (client : Client) : List UInt8 × Client :=
  let bare := "n=".toList ++ client.username ++ ",r=".toList ++ client.clientNonce
  (Utf8.encode ("n,,".toList ++ bare), { client with clientFirstBare := bare })

/-- The proof of a client-final message. -/
def proof (crypto : Crypto) (saltedPassword : Digest) (message : Str) : Digest :=
  let clientKey := crypto.hmacSha256 saltedPassword.toList (Utf8.encode "Client Key".toList)
  let storedKey := crypto.sha256 clientKey.toList
  xorBytes clientKey (crypto.hmacSha256 storedKey.toList (Utf8.encode message))

/-- `client_final`. -/
def clientFinal (crypto : Crypto) (base64 : TextCodec) (client : Client)
    (serverFirst : List UInt8) : Except ScramError (List UInt8) × Client :=
  match Utf8.decode serverFirst with
  | none => (.error .invalidServerMessage, client)
  | some serverFirst =>
    let client := { client with serverFirst }
    match Attributes.ofServerFirst serverFirst with
    | ⟨none, _, _⟩ => (.error .missingNonce, client)
    | ⟨some _, none, _⟩ => (.error .missingSalt, client)
    | ⟨some _, some _, none⟩ => (.error .missingIterations, client)
    | ⟨some serverNonce, some saltB64, some iterations⟩ =>
      if !serverNonce.startsWith client.clientNonce then (.error .invalidNonce, client)
      else match base64.decode saltB64 with
        | none => (.error .invalidSalt, client)
        | some salt =>
          let saltedPassword := crypto.pbkdf2 (Utf8.encode client.password) salt iterations
          let client := { client with saltedPassword := some saltedPassword }
          let withoutProof := finalWithoutProof serverNonce
          let message := authMessage client.clientFirstBare client.serverFirst withoutProof
          let proofB64 := base64.encode (proof crypto saltedPassword message).toList
          (.ok (Utf8.encode (withoutProof ++ ",p=".toList ++ proofB64)), client)

/-- `verify_server_final`. -/
def verifyServerFinal (crypto : Crypto) (base64 : TextCodec) (client : Client)
    (serverFinal : List UInt8) : Except ScramError Unit := do
  let some serverFinal := Utf8.decode serverFinal | .error .invalidServerMessage
  let some signatureB64 := Str.stripPrefix serverFinal "v=".toList | .error .invalidServerSignature
  let some signature := base64.decode signatureB64 | .error .invalidServerSignature
  let some saltedPassword := client.saltedPassword | .error .notInitialized
  let serverKey := crypto.hmacSha256 saltedPassword.toList (Utf8.encode "Server Key".toList)
  let some part := (client.serverFirst.splitOn ',').find? (Str.startsWith · "r=".toList)
    | .error .missingNonce
  let some serverNonce := Str.stripPrefix part "r=".toList | .error .missingNonce
  let message := authMessage client.clientFirstBare client.serverFirst
    (finalWithoutProof serverNonce)
  let expected := crypto.hmacSha256 serverKey.toList (Utf8.encode message)
  if signature ≠ expected.toList then .error .serverSignatureMismatch else .ok ()

end Client

end Scram

end ScryProxy
