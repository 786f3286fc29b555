import ScryProxy.Native.Scram

/-!
# A SCRAM exchange

The client of `auth/scram.rs` against a server that follows RFC 5802: the server reads the
attributes of the client's messages, checks the nonce and the channel binding, recovers the
client's key from the proof and compares its hash with the stored key.  Both sides build the
AuthMessage from the texts they have seen.  The keys of the server are made from the password
as it is given to the client; preparing the password (SASLprep) is not part of the client.
-/

namespace ScryProxy

namespace Scram

/-! ## The server -/

/-- What a server stores for a user. -/
structure Credential where
  salt : List UInt8
  iterations : Nat
  storedKey : Digest
  serverKey : Digest

/-- The keys for a password. -/
def Credential.ofPassword (crypto : Crypto) (password : Str) (salt : List UInt8)
    (iterations : Nat) : Credential :=
  let salted := crypto.pbkdf2 (Utf8.encode password) salt iterations
  let clientKey := crypto.hmacSha256 salted.toList (Utf8.encode "Client Key".toList)
  { salt
    iterations
    storedKey := crypto.sha256 clientKey.toList
    serverKey := crypto.hmacSha256 salted.toList (Utf8.encode "Server Key".toList) }

structure Server where
  user : Str
  credential : Credential
  /-- the server's part of the nonce -/
  nonceSuffix : Str

/-- What the server remembers of the first two messages. -/
structure Session where
  clientFirstBare : Str
  serverFirst : Str
  nonce : Str
  deriving DecidableEq

/-- A user name as it is sent: `=2C` is a comma and `=3D` an equals sign. -/
def saslName : Str → Option Str
  | [] => some []
  | '=' :: '2' :: 'C' :: rest => (saslName rest).map (',' :: ·)
  | '=' :: '3' :: 'D' :: rest => (saslName rest).map ('=' :: ·)
  | '=' :: _ => none
  | c :: rest => (saslName rest).map (c :: ·)

/-- The server-first message. -/
def Server.firstText (base64 : TextCodec) (server : Server) (nonce : Str) : Str :=
  [','].intercalate ["r=".toList ++ nonce, "s=".toList ++ base64.encode server.credential.salt,
    "i=".toList ++ Nat.toDigits 10 server.credential.iterations]

/-- The server's answer to a client-first message without channel binding. -/
def Server.first (base64 : TextCodec) (server : Server) (clientFirst : List UInt8) :
    Option (List UInt8 × Session) := do
  let text ← Utf8.decode clientFirst
  match text.splitOn ',' with
  | flag :: authzid :: name :: nonce :: extensions =>
    let user ← (Str.stripPrefix name "n=".toList).bind saslName
    let clientNonce ← Str.stripPrefix nonce "r=".toList
    if flag = "n".toList ∧ authzid = [] ∧ user = server.user then
      let nonce' := clientNonce ++ server.nonceSuffix
      let serverFirst := server.firstText base64 nonce'
      some (Utf8.encode serverFirst,
        ⟨[','].intercalate (name :: nonce :: extensions), serverFirst, nonce'⟩)
    else none
  | _ => none

def Digest.ofList (bytes : List UInt8) : Option Digest :=
  if h : bytes.length = 32 then some ⟨bytes.toArray, by simpa using h⟩ else none

/-- The server's answer to a client-final message: its signature, if it accepts the proof. -/
def Server.final (crypto : Crypto) (base64 : TextCodec) (server : Server) (session : Session)
    (clientFinal : List UInt8) : Option (List UInt8) := do
  let text ← Utf8.decode clientFinal
  match text.splitOn ',' with
  | binding :: nonce :: rest =>
    let last ← rest.getLast?
    let proofB64 ← Str.stripPrefix last "p=".toList
    let proof ← (base64.decode proofB64).bind Digest.ofList
    let withoutProof := [','].intercalate (binding :: nonce :: rest.dropLast)
    let message := Utf8.encode (authMessage session.clientFirstBare session.serverFirst withoutProof)
    let clientKey := xorBytes proof (crypto.hmacSha256 server.credential.storedKey.toList message)
    if binding = "c=biws".toList ∧ nonce = "r=".toList ++ session.nonce ∧
        crypto.sha256 clientKey.toList = server.credential.storedKey then
      some (Utf8.encode ("v=".toList ++
        base64.encode (crypto.hmacSha256 server.credential.serverKey.toList message).toList))
    else none
  | _ => none

/-- The server accepts the client's proof and the client accepts the server's signature. -/
def Completes (crypto : Crypto) (base64 : TextCodec) (client : Client) (server : Server) : Prop :=
  ∃ serverFirst session clientFinal serverFinal,
    server.first base64 client.clientFirst.1 = some (serverFirst, session) ∧
    (client.clientFirst.2.clientFinal crypto base64 serverFirst).1 = .ok clientFinal ∧
    server.final crypto base64 session clientFinal = some serverFinal ∧
    (client.clientFirst.2.clientFinal crypto base64 serverFirst).2.verifyServerFinal crypto base64
      serverFinal = .ok ()

/-! ## Texts -/

theorem saslName_self {name : Str} (h : '=' ∉ name) : saslName name = some name := by
  induction name with
  | nil => rfl
  | cons c name ih =>
    have hc : c ≠ '=' := fun heq => h (heq ▸ List.mem_cons_self)
    have hname := ih fun hmem => h (List.mem_cons_of_mem c hmem)
    rw [saslName.eq_def]
    split
    · next heq => cases heq
    · next heq => cases heq; exact absurd rfl hc
    · next heq => cases heq; exact absurd rfl hc
    · next heq => cases heq; exact absurd rfl hc
    · next heq =>
      cases heq
      rw [hname]
      rfl

theorem xorBytes_cancel (a b : Digest) : xorBytes (xorBytes a b) b = a := by
  apply Vector.ext
  intro i hi
  simp only [xorBytes, Vector.getElem_zipWith]
  rw [UInt8.xor_assoc, UInt8.xor_self, UInt8.xor_zero]

theorem Digest.ofList_toList (d : Digest) : Digest.ofList d.toList = some d := by
  rw [Digest.ofList, dif_pos (by simp)]
  simp [Vector.toArray_toList]

/-- Parts without commas come back from the text they are joined to. -/
theorem splitOn_parts {parts : List Str} (hne : parts ≠ []) (h : ∀ part ∈ parts, ',' ∉ part) :
    ([','].intercalate parts).splitOn ',' = parts := List.splitOn_intercalate ',' h hne

theorem intercalate_two (a b : Str) : [','].intercalate [a, b] = a ++ ',' :: b := by
  simp [List.intercalate]

theorem intercalate_three (a b c : Str) :
    [','].intercalate [a, b, c] = a ++ ',' :: b ++ ',' :: c := by
  simp [List.intercalate]

theorem finalWithoutProof_eq (n : Str) :
    finalWithoutProof n = "c=biws".toList ++ ',' :: ("r=".toList ++ n) := rfl

section Exchange

variable {crypto : Crypto} {base64 : TextCodec} {user password nonce suffix : Str}
  {server : Server}

/-- client-first, as the server takes it apart. -/
theorem clientFirst_eq (client : Client) :
    client.clientFirst.1 = Utf8.encode ([','].intercalate
      ["n".toList, [], "n=".toList ++ client.username, "r=".toList ++ client.clientNonce]) := by
  simp [Client.clientFirst, List.intercalate]

theorem first_eq (base64 : TextCodec) (password : Str) (hname : server.user = user)
    (hcomma : ',' ∉ user) (hequals : '=' ∉ user) (hnonce : ',' ∉ nonce) :
    server.first base64 (Client.new user password nonce).clientFirst.1 =
      some (Utf8.encode (server.firstText base64 (nonce ++ server.nonceSuffix)),
        ⟨(Client.new user password nonce).clientFirst.2.clientFirstBare,
          server.firstText base64 (nonce ++ server.nonceSuffix), nonce ++ server.nonceSuffix⟩) := by
  have hparts : ∀ part ∈ ["n".toList, [], "n=".toList ++ user, "r=".toList ++ nonce], ',' ∉ part := by
    simp [hcomma, hnonce]
  rw [Server.first, clientFirst_eq, Utf8.decode_encode]
  simp only [Option.bind_eq_bind, Option.bind_some, Client.new]
  rw [splitOn_parts (by simp) hparts]
  simp only [Str.stripPrefix_append, Option.bind_some, saslName_self hequals, hname, and_self,
    if_true]
  simp [Client.clientFirst, List.intercalate]

/-- The parts of server-first have no commas. -/
theorem firstText_parts {n : Str} (hn : ',' ∉ n) :
    ∀ part ∈ ["r=".toList ++ n, "s=".toList ++ base64.encode server.credential.salt,
      "i=".toList ++ Nat.toDigits 10 server.credential.iterations], ',' ∉ part := by
  have hdigits : ',' ∉ Nat.toDigits 10 server.credential.iterations := fun hmem =>
    absurd (Nat.isDigit_of_mem_toDigits (by decide) (by decide) hmem) (by decide)
  simp [hn, base64.comma_not_mem, hdigits]

/-- The client reads the three attributes of server-first. -/
theorem ofServerFirst_firstText {n : Str} (hn : ',' ∉ n) (hi : server.credential.iterations < 2 ^ 32) :
    Attributes.ofServerFirst (server.firstText base64 n) =
      ⟨some n, some (base64.encode server.credential.salt), some server.credential.iterations⟩ := by
  rw [Attributes.ofServerFirst, Server.firstText, splitOn_parts (by simp) (firstText_parts hn)]
  have hs : ∀ s : Str, Str.stripPrefix ("s=".toList ++ s) "r=".toList = none := fun _ => rfl
  have hi₁ : ∀ s : Str, Str.stripPrefix ("i=".toList ++ s) "r=".toList = none := fun _ => rfl
  have hi₂ : ∀ s : Str, Str.stripPrefix ("i=".toList ++ s) "s=".toList = none := fun _ => rfl
  simp only [List.foldl_cons, List.foldl_nil, Attributes.take, Str.stripPrefix_append, hs, hi₁, hi₂,
    Str.parseU32_toDigits hi]

/-- The AuthMessage of the exchange. -/
def message (base64 : TextCodec) (server : Server) (user nonce : Str) : Str :=
  authMessage ("n=".toList ++ user ++ ",r=".toList ++ nonce)
    (server.firstText base64 (nonce ++ server.nonceSuffix))
    (finalWithoutProof (nonce ++ server.nonceSuffix))

/-- The client after server-first. -/
def answered (crypto : Crypto) (base64 : TextCodec) (server : Server)
    (user password nonce : Str) : Client :=
  { (Client.new user password nonce).clientFirst.2 with
    serverFirst := server.firstText base64 (nonce ++ server.nonceSuffix)
    saltedPassword := some (crypto.pbkdf2 (Utf8.encode password) server.credential.salt
      server.credential.iterations) }

theorem clientFinal_eq (crypto : Crypto) (base64 : TextCodec) (user password : Str)
    (hnonce : ',' ∉ nonce) (hsuffix : ',' ∉ server.nonceSuffix)
    (hi : server.credential.iterations < 2 ^ 32) :
    (Client.new user password nonce).clientFirst.2.clientFinal crypto base64
        (Utf8.encode (server.firstText base64 (nonce ++ server.nonceSuffix))) =
      (.ok (Utf8.encode (finalWithoutProof (nonce ++ server.nonceSuffix) ++ ",p=".toList ++
          base64.encode (Client.proof crypto (crypto.pbkdf2 (Utf8.encode password)
            server.credential.salt server.credential.iterations)
            (message base64 server user nonce)).toList)),
        answered crypto base64 server user password nonce) := by
  have hcomma : ',' ∉ nonce ++ server.nonceSuffix := by simp [hnonce, hsuffix]
  rw [Client.clientFinal, Utf8.decode_encode]
  simp only [ofServerFirst_firstText hcomma hi, base64.decode_encode]
  have hstarts : Str.startsWith (nonce ++ server.nonceSuffix) nonce = true :=
    Str.startsWith_append nonce server.nonceSuffix
  simp only [Client.clientFirst, Client.new, hstarts, Bool.not_true, Bool.false_eq_true, if_false]
  rfl

/-- The server accepts a client-final message by its test of the proof. -/
theorem final_eq (hnonce : ',' ∉ nonce) (hsuffix : ',' ∉ server.nonceSuffix) (proof : Digest) :
    server.final crypto base64
        ⟨(Client.new user password nonce).clientFirst.2.clientFirstBare,
          server.firstText base64 (nonce ++ server.nonceSuffix), nonce ++ server.nonceSuffix⟩
        (Utf8.encode (finalWithoutProof (nonce ++ server.nonceSuffix) ++ ",p=".toList ++
          base64.encode proof.toList)) =
      if crypto.sha256 (xorBytes proof (crypto.hmacSha256 server.credential.storedKey.toList
          (Utf8.encode (message base64 server user nonce)))).toList = server.credential.storedKey then
        some (Utf8.encode ("v=".toList ++ base64.encode
          (crypto.hmacSha256 server.credential.serverKey.toList
            (Utf8.encode (message base64 server user nonce))).toList))
      else none := by
  have htext : finalWithoutProof (nonce ++ server.nonceSuffix) ++ ",p=".toList ++
      base64.encode proof.toList = [','].intercalate ["c=biws".toList,
        "r=".toList ++ (nonce ++ server.nonceSuffix), "p=".toList ++ base64.encode proof.toList] := by
    rw [intercalate_three, finalWithoutProof_eq, List.append_assoc _ ",p=".toList]
    rfl
  have hparts : ∀ part ∈ ["c=biws".toList, "r=".toList ++ (nonce ++ server.nonceSuffix),
      "p=".toList ++ base64.encode proof.toList], ',' ∉ part := by
    simp [hnonce, hsuffix, base64.comma_not_mem]
  have hwithout : [','].intercalate ["c=biws".toList, "r=".toList ++ (nonce ++ server.nonceSuffix)] =
      finalWithoutProof (nonce ++ server.nonceSuffix) := by
    rw [intercalate_two, finalWithoutProof_eq]
  rw [Server.final, Utf8.decode_encode, htext]
  simp only [Option.bind_eq_bind, Option.bind_some]
  rw [splitOn_parts (by simp) hparts]
  simp only [List.getLast?_singleton, Option.bind_some, Str.stripPrefix_append,
    base64.decode_encode, Digest.ofList_toList, List.dropLast_singleton, hwithout, true_and]
  rfl

/-- The client compares the signature with the one it computes itself. -/
theorem verifyServerFinal_eq (hnonce : ',' ∉ nonce) (hsuffix : ',' ∉ server.nonceSuffix)
    (signature : Digest) :
    (answered crypto base64 server user password nonce).verifyServerFinal crypto base64
        (Utf8.encode ("v=".toList ++ base64.encode signature.toList)) =
      if signature = crypto.hmacSha256 (crypto.hmacSha256 (crypto.pbkdf2 (Utf8.encode password)
          server.credential.salt server.credential.iterations).toList
          (Utf8.encode "Server Key".toList)).toList (Utf8.encode (message base64 server user nonce))
        then .ok () else .error .serverSignatureMismatch := by
  have hcomma : ',' ∉ nonce ++ server.nonceSuffix := by simp [hnonce, hsuffix]
  have hfind : ((server.firstText base64 (nonce ++ server.nonceSuffix)).splitOn ',').find?
      (Str.startsWith · "r=".toList) = some ("r=".toList ++ (nonce ++ server.nonceSuffix)) := by
    rw [Server.firstText, splitOn_parts (by simp) (firstText_parts hcomma)]
    rfl
  rw [Client.verifyServerFinal, Utf8.decode_encode]
  simp only [Str.stripPrefix_append, base64.decode_encode, answered, hfind]
  by_cases hsame : signature = crypto.hmacSha256 (crypto.hmacSha256 (crypto.pbkdf2
      (Utf8.encode password) server.credential.salt server.credential.iterations).toList
      (Utf8.encode "Server Key".toList)).toList (Utf8.encode (message base64 server user nonce))
  · rw [if_pos hsame, hsame]
    exact if_neg (not_not_intro rfl)
  · rw [if_neg hsame]
    exact if_pos fun heq => hsame (Vector.toList_inj.1 heq)

/-- The exchange is decided by the server's test of the proof and the client's test of the
    signature. -/
theorem completes_iff (hname : server.user = user) (hcomma : ',' ∉ user) (hequals : '=' ∉ user)
    (hnonce : ',' ∉ nonce) (hsuffix : ',' ∉ server.nonceSuffix)
    (hi : server.credential.iterations < 2 ^ 32) :
    Completes crypto base64 (Client.new user password nonce) server ↔
      crypto.sha256 (xorBytes (Client.proof crypto (crypto.pbkdf2 (Utf8.encode password)
        server.credential.salt server.credential.iterations) (message base64 server user nonce))
        (crypto.hmacSha256 server.credential.storedKey.toList
          (Utf8.encode (message base64 server user nonce)))).toList = server.credential.storedKey ∧
      crypto.hmacSha256 server.credential.serverKey.toList
          (Utf8.encode (message base64 server user nonce)) =
        crypto.hmacSha256 (crypto.hmacSha256 (crypto.pbkdf2 (Utf8.encode password)
          server.credential.salt server.credential.iterations).toList
          (Utf8.encode "Server Key".toList)).toList
          (Utf8.encode (message base64 server user nonce)) := by
  have hfirst := first_eq base64 password hname hcomma hequals hnonce
  have hanswer := clientFinal_eq crypto base64 user password hnonce hsuffix hi
  constructor
  · rintro ⟨serverFirst, session, clientFinal, serverFinal, h₁, h₂, h₃, h₄⟩
    rw [hfirst] at h₁
    cases h₁
    rw [hanswer] at h₂ h₄
    cases h₂
    rw [final_eq hnonce hsuffix] at h₃
    split at h₃
    · next haccept =>
      cases h₃
      rw [verifyServerFinal_eq hnonce hsuffix] at h₄
      split at h₄
      · next hverify => exact ⟨haccept, hverify⟩
      · cases h₄
    · cases h₃
  · rintro ⟨haccept, hverify⟩
    refine ⟨_, _, _, _, hfirst, by rw [hanswer],
      (final_eq hnonce hsuffix _).trans (if_pos haccept), ?_⟩
    rw [hanswer]
    exact (verifyServerFinal_eq hnonce hsuffix _).trans (if_pos hverify)

end Exchange

/-- The signature cancels against the one in the proof, and the client's key hashes to the stored
    one. -/
theorem proof_accepted (crypto : Crypto) (password : Str) (salt : List UInt8) (iterations : Nat)
    (message : Str) :
    crypto.sha256 (xorBytes (Client.proof crypto (crypto.pbkdf2 (Utf8.encode password) salt iterations)
      message) (crypto.hmacSha256
        (Credential.ofPassword crypto password salt iterations).storedKey.toList
        (Utf8.encode message))).toList =
      (Credential.ofPassword crypto password salt iterations).storedKey := by
  rw [Client.proof, Credential.ofPassword]
  dsimp only
  rw [xorBytes_cancel]

/-- A server that follows RFC 5802 with the keys of the client's password accepts the proof of
    `client_final`, and `verify_server_final` accepts its signature: for all hash functions, any
    base64 engine, and any user name, nonces, salt and iteration count that the messages can
    carry. -/
theorem exchange_completes (crypto : Crypto) (base64 : TextCodec) {user password nonce suffix : Str}
    {salt : List UInt8} {iterations : Nat} (hcomma : ',' ∉ user) (hequals : '=' ∉ user)
    (hnonce : ',' ∉ nonce) (hsuffix : ',' ∉ suffix) (hiterations : iterations < 2 ^ 32) :
    Completes crypto base64 (Client.new user password nonce)
      ⟨user, Credential.ofPassword crypto password salt iterations, suffix⟩ := by
  apply (completes_iff rfl hcomma hequals hnonce hsuffix hiterations).2
  exact ⟨proof_accepted .., rfl⟩

/-- Hash functions that only tell one key and one password from all others. -/
def toyCrypto (password : Str) : Crypto where
  hmacSha256 key _ :=
    if key = (Vector.replicate 32 0).toList then Vector.replicate 32 0 else Vector.replicate 32 1
  sha256 _ := Vector.replicate 32 0
  pbkdf2 p _ _ := if p = Utf8.encode password then Vector.replicate 32 0 else Vector.replicate 32 1

/-- An exchange between honest parties, with toy hash functions and the standard base64 engine. -/
theorem exchange_completes_pencil :
    Completes (toyCrypto "pencil".toList) Base64.standard
      (Client.new "user".toList "pencil".toList "rOprNGfwEbeRWgbNEkqO".toList)
      ⟨"user".toList, Credential.ofPassword (toyCrypto "pencil".toList) "pencil".toList
        [91, 109, 153] 4096, "%hvYDpWUa".toList⟩ :=
  exchange_completes _ _ (by decide) (by decide) (by decide) (by decide) (by decide)

end Scram

end ScryProxy
