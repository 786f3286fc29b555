import ScryProxy.Spec.ScramExchange

/-!
# The transcript of a SCRAM exchange

The client reads the nonce of a server-first message twice.  `client_final` loops over the
parts and keeps the last `r=` attribute; `verify_server_final` looks for the first one.  The
proof and the check of the server's signature are about the same AuthMessage exactly when the
two have the same value (`transcripts_agree_iff`).
-/

namespace ScryProxy

namespace Scram

/-- The value of an `r=` attribute. -/
def nonceOf (part : Str) : Option Str := part.stripPrefix "r=".toList

/-- The values of the `r=` attributes of a server-first message, in order. -/
def nonces (serverFirst : Str) : List Str := (serverFirst.splitOn ',').filterMap nonceOf

/-- The AuthMessage with the given nonce. -/
def transcript (client : Client) (serverFirst nonce : Str) : Str :=
  authMessage client.clientFirstBare serverFirst (finalWithoutProof nonce)

/-! ## The two readings of the nonce -/

theorem take_serverNonce (attrs : Attributes) (part : Str) :
    (attrs.take part).serverNonce = (nonceOf part).or attrs.serverNonce := by
  unfold Attributes.take nonceOf
  cases Str.stripPrefix part "r=".toList with
  | some value => rfl
  | none =>
    cases Str.stripPrefix part "s=".toList with
    | some value => rfl
    | none => cases Str.stripPrefix part "i=".toList <;> rfl

/-- The loop keeps the last nonce. -/
theorem foldl_take_serverNonce (parts : List Str) (attrs : Attributes) :
    (parts.foldl Attributes.take attrs).serverNonce =
      (parts.filterMap nonceOf).getLast?.or attrs.serverNonce := by
  induction parts generalizing attrs with
  | nil => rfl
  | cons part parts ih =>
    rw [List.foldl_cons, ih, take_serverNonce]
    cases hpart : nonceOf part with
    | none => rw [List.filterMap_cons_none hpart, Option.none_or]
    | some value =>
      rw [List.filterMap_cons_some hpart, List.getLast?_cons, Option.some_or]
      cases (parts.filterMap nonceOf).getLast? <;> rfl

theorem ofServerFirst_serverNonce (serverFirst : Str) :
    (Attributes.ofServerFirst serverFirst).serverNonce = (nonces serverFirst).getLast? := by
  rw [Attributes.ofServerFirst, foldl_take_serverNonce, Option.or_none]
  rfl

/-- The search finds the first nonce. -/
theorem find_serverNonce (parts : List Str) :
    (parts.find? (Str.startsWith · "r=".toList)).bind nonceOf = (parts.filterMap nonceOf).head? := by
  induction parts with
  | nil => rfl
  | cons part parts ih =>
    rw [List.find?_cons]
    cases hstarts : Str.startsWith part "r=".toList with
    | true =>
      have hpart : nonceOf part = some (part.drop 2) := if_pos hstarts
      rw [List.filterMap_cons_some hpart]
      exact hpart
    | false =>
      have hpart : nonceOf part = none := if_neg (by rw [hstarts]; exact Bool.false_ne_true)
      rw [List.filterMap_cons_none hpart]
      exact ih

/-! ## The two AuthMessages -/

/-- The signature in a server-final message. -/
def signatureOf (base64 : TextCodec) (serverFinal : List UInt8) : Except ScramError (List UInt8) := do
  let some serverFinal := Utf8.decode serverFinal | .error .invalidServerMessage
  let some signatureB64 := Str.stripPrefix serverFinal "v=".toList | .error .invalidServerSignature
  let some signature := base64.decode signatureB64 | .error .invalidServerSignature
  return signature

/-- The signature of a message under the server's key. -/
def serverSignature (crypto : Crypto) (saltedPassword : Digest) (message : Str) : Digest :=
  let serverKey := crypto.hmacSha256 saltedPassword.toList (Utf8.encode "Server Key".toList)
  crypto.hmacSha256 serverKey.toList (Utf8.encode message)

/-- An accepted server-first message: the proof is over the transcript with its last nonce. -/
theorem clientFinal_accepted {crypto : Crypto} {base64 : TextCodec} {client client' : Client}
    {data msg : List UInt8} (h : client.clientFinal crypto base64 data = (.ok msg, client')) :
    ∃ serverFirst nonce saltedPassword, Utf8.decode data = some serverFirst ∧
      (nonces serverFirst).getLast? = some nonce ∧
      client' = { client with serverFirst, saltedPassword := some saltedPassword } ∧
      msg = Utf8.encode (finalWithoutProof nonce ++ ",p=".toList ++ base64.encode
        (Client.proof crypto saltedPassword (transcript client serverFirst nonce)).toList) := by
  unfold Client.clientFinal at h
  cases hdata : Utf8.decode data with
  | none =>
    rw [hdata] at h
    cases h
  | some serverFirst =>
    rw [hdata] at h
    have hnonce := ofServerFirst_serverNonce serverFirst
    dsimp only at h
    -- first the three refusals for an attribute that is missing
    split at h
    · cases h
    · cases h
    · cases h
    · next nonce saltB64 iterations hattrs =>
      rw [hattrs] at hnonce
      split at h
      · cases h
      · split at h
        · cases h
        · next salt hsalt =>
          cases h
          exact ⟨serverFirst, nonce, _, rfl, hnonce.symm, rfl, rfl⟩

/-- The check of the server's signature is over the transcript with the first nonce. -/
theorem verifyServerFinal_transcript {crypto : Crypto} (base64 : TextCodec) {client : Client}
    {nonce : Str} {saltedPassword : Digest} (hsalted : client.saltedPassword = some saltedPassword)
    (hnonce : (nonces client.serverFirst).head? = some nonce) (serverFinal : List UInt8) :
    client.verifyServerFinal crypto base64 serverFinal =
      signatureOf base64 serverFinal >>= fun signature =>
        if signature ≠ (serverSignature crypto saltedPassword
            (transcript client client.serverFirst nonce)).toList
        then .error .serverSignatureMismatch else .ok () := by
  have hfind := find_serverNonce (client.serverFirst.splitOn ',')
  rw [show ((client.serverFirst.splitOn ',').filterMap nonceOf).head? = some nonce from hnonce,
    Option.bind_eq_some_iff] at hfind
  obtain ⟨part, hpart, hvalue⟩ := hfind
  have hvalue : Str.stripPrefix part "r=".toList = some nonce := hvalue
  unfold Client.verifyServerFinal signatureOf
  cases Utf8.decode serverFinal with
  | none => rfl
  | some text =>
    simp only
    cases Str.stripPrefix text "v=".toList with
    | none => rfl
    | some signatureB64 =>
      simp only
      cases base64.decode signatureB64 with
      | none => rfl
      | some signature =>
        simp only [hsalted, hpart, hvalue]
        rfl

theorem transcript_inj {client : Client} {serverFirst n m : Str} :
    transcript client serverFirst n = transcript client serverFirst m ↔ n = m := by
  unfold transcript authMessage finalWithoutProof
  rw [List.append_right_inj, List.append_right_inj]

/-- For every accepted server-first message, the proof is over the transcript with its last nonce and
    the server's signature is checked over the transcript with its first nonce; the two transcripts
    are the same string exactly when these nonces are. -/
theorem transcripts_agree_iff {crypto : Crypto} {base64 : TextCodec} {client client' : Client}
    {data msg : List UInt8} (h : client.clientFinal crypto base64 data = (.ok msg, client')) :
    ∃ serverFirst proven checked saltedPassword, Utf8.decode data = some serverFirst ∧
      (nonces serverFirst).getLast? = some proven ∧ (nonces serverFirst).head? = some checked ∧
      msg = Utf8.encode (finalWithoutProof proven ++ ",p=".toList ++ base64.encode
        (Client.proof crypto saltedPassword (transcript client serverFirst proven)).toList) ∧
      (∀ serverFinal, client'.verifyServerFinal crypto base64 serverFinal =
        signatureOf base64 serverFinal >>= fun signature =>
          if signature ≠ (serverSignature crypto saltedPassword
              (transcript client' client'.serverFirst checked)).toList
          then .error .serverSignatureMismatch else .ok ()) ∧
      (transcript client serverFirst proven = transcript client' client'.serverFirst checked ↔
        (nonces serverFirst).head? = (nonces serverFirst).getLast?) := by
  obtain ⟨serverFirst, proven, saltedPassword, hdata, hlast, rfl, rfl⟩ := clientFinal_accepted h
  -- a message with a last nonce has a first one
  obtain ⟨checked, hfirst⟩ : ∃ checked, (nonces serverFirst).head? = some checked := by
    rw [← Option.isSome_iff_exists, List.isSome_head?]
    exact List.ne_nil_of_mem (List.mem_of_getLast? hlast)
  refine ⟨serverFirst, proven, checked, saltedPassword, hdata, hlast, hfirst, rfl,
    verifyServerFinal_transcript base64 rfl hfirst, ?_⟩
  rw [hfirst, hlast, Option.some.injEq, eq_comm (b := proven)]
  exact transcript_inj

/-- A client that has sent its first message. -/
def pencilClient : Client := (Client.new "user".toList "pencil".toList "rOpr".toList).clientFirst.2

/-- What the client makes of a server-first message, with toy hash functions. -/
def pencilFinal (serverFirst : String) : Except ScramError (List UInt8) × Client :=
  pencilClient.clientFinal (toyCrypto "pencil".toList) Base64.standard
    (Utf8.encode serverFirst.toList)

theorem exists_accepted {serverFirst : String} (h : (pencilFinal serverFirst).1.isOk = true) :
    ∃ msg client', pencilFinal serverFirst = (.ok msg, client') := by
  generalize pencilFinal serverFirst = result at h
  obtain ⟨answer, client'⟩ := result
  cases answer with
  | error e => cases h
  | ok msg => exact ⟨msg, client', rfl⟩

/-- An honest server-first message has one nonce, and the transcripts agree. -/
theorem transcripts_agree_pencil :
    ∃ msg client', pencilFinal "r=rOprNG,s=W22Z,i=4096" = (.ok msg, client') ∧
      ∃ proven checked, transcript pencilClient "r=rOprNG,s=W22Z,i=4096".toList proven =
        transcript client' client'.serverFirst checked := by
  have haccepted : (pencilFinal "r=rOprNG,s=W22Z,i=4096").1.isOk = true := by decide +kernel
  obtain ⟨msg, client', hfinal⟩ := exists_accepted haccepted
  obtain ⟨serverFirst, proven, checked, salted, hdata, -, -, -, -, hagree⟩ :=
    transcripts_agree_iff hfinal
  rw [Utf8.decode_encode] at hdata
  cases hdata
  exact ⟨msg, client', hfinal, proven, checked, hagree.2 (by decide +kernel)⟩

/-- With two nonces, the proof is over the transcript with the second one and the check over the
    transcript with the first. -/
theorem transcripts_differ :
    ∃ msg client' salted,
      pencilFinal "r=rOprNG,r=rOprXY,s=W22Z,i=4096" = (.ok msg, client') ∧
      msg = Utf8.encode (finalWithoutProof "rOprXY".toList ++ ",p=".toList ++ Base64.standard.encode
        (Client.proof (toyCrypto "pencil".toList) salted (transcript pencilClient
          "r=rOprNG,r=rOprXY,s=W22Z,i=4096".toList "rOprXY".toList)).toList) ∧
      (∀ serverFinal, client'.verifyServerFinal (toyCrypto "pencil".toList) Base64.standard
          serverFinal =
        signatureOf Base64.standard serverFinal >>= fun signature =>
          if signature ≠ (serverSignature (toyCrypto "pencil".toList) salted
              (transcript client' client'.serverFirst "rOprNG".toList)).toList
          then .error .serverSignatureMismatch else .ok ()) ∧
      transcript pencilClient "r=rOprNG,r=rOprXY,s=W22Z,i=4096".toList "rOprXY".toList ≠
        transcript client' client'.serverFirst "rOprNG".toList := by
  have haccepted : (pencilFinal "r=rOprNG,r=rOprXY,s=W22Z,i=4096").1.isOk = true := by
    decide +kernel
  obtain ⟨msg, client', hfinal⟩ := exists_accepted haccepted
  obtain ⟨serverFirst, proven, salted, hdata, hlast, rfl, rfl⟩ := clientFinal_accepted hfinal
  rw [Utf8.decode_encode] at hdata
  cases hdata
  have hproven : (nonces "r=rOprNG,r=rOprXY,s=W22Z,i=4096".toList).getLast? =
      some "rOprXY".toList := by decide +kernel
  have hchecked : (nonces "r=rOprNG,r=rOprXY,s=W22Z,i=4096".toList).head? =
      some "rOprNG".toList := by decide +kernel
  cases hlast.symm.trans hproven
  refine ⟨_, _, salted, hfinal, rfl, verifyServerFinal_transcript Base64.standard rfl hchecked, ?_⟩
  intro hsame
  exact absurd (transcript_inj.1 hsame) (by decide)

end Scram

end ScryProxy
