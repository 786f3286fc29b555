import ScryProxy.Native.ClientAuth

/-!
# Which responses an MD5 login accepts

The auth file documents two kinds of entries that an MD5 challenge can be checked against: a
plain password and `md5` with 32 hex digits.  `authenticate_md5` asks for a plain password,
so a user with an entry of the second kind is refused whatever the response; and since only
the length of such a text is looked at, so is a user whose plain password happens to begin with
`md5` and to be 35 bytes long (`md5_login_exact_iff`).
-/

namespace ScryProxy

open Rust (Overflow)

/-! ## Hex digits -/

theorem length_hexDigest (digest : Vector UInt8 16) : (hexDigest digest).length = 32 := by
  simp [hexDigest, List.length_flatMap]

/-! ## The password message -/

/-- A PasswordMessage. -/
def passwordFrame (password : List UInt8) : Frame := ⟨msgPassword, password ++ [0]⟩

/-- What is read of a PasswordMessage if `n` bytes of the stream are there. -/
theorem parsePasswordMessage_take (ov : Overflow) {password : List UInt8}
    (hshort : (passwordFrame password).len < 2 ^ 31) (more : List UInt8) {n : Nat} (hn : 5 ≤ n) :
    parsePasswordMessage ov (((passwordFrame password).encode ++ more).take n) =
      .ok (if n < (passwordFrame password).encode.length then none else Utf8.decode password) := by
  obtain ⟨m, rfl⟩ := Nat.exists_eq_add_of_le' hn
  rw [Frame.encode_append]
  simp only [List.take_succ_cons]
  have hlen : (passwordFrame password).len = password.length + 5 := by
    simp [Frame.len, passwordFrame]
  have hencode : (passwordFrame password).encode.length = password.length + 6 := by
    simp [passwordFrame]
  have htag : (passwordFrame password).tag = msgPassword := rfl
  unfold parsePasswordMessage
  simp only [htag, BigEndian.i32_bytes32 hshort, Rust.offsetAdd_ofNat, ne_eq, not_true_eq_false,
    if_false, Rust.ok_bind]
  have hpayload : (passwordFrame password).payload ++ more = password ++ (0 :: more) := by
    simp [passwordFrame]
  rw [hpayload, hencode, hlen]
  by_cases hcut : m + 5 < password.length + 6
  · -- the length announces more than is there
    rw [if_pos hcut, if_pos]
    · rfl
    · simp only [List.length_cons, List.length_take]
      omega
  · have hthere : password.length < m := by omega
    have htake : (password ++ 0 :: more).take m = password ++ (0 :: more).take (m - password.length) :=
      by rw [List.take_append, List.take_of_length_le hthere.le]
    have hstop : 1 + (password.length + 5) - 1 = password.length + 5 := by omega
    rw [if_neg hcut, if_neg, Rust.usizeSub_of_le ov (by omega), Rust.ok_bind, hstop, if_neg, htake]
    · simp
    · simp only [List.length_cons, List.length_take, List.length_append]
      omega
    · simp only [List.length_cons, List.length_take, List.length_append]
      omega

/-! ## The login -/

/-- The documented form of an MD5 entry: `md5` and 32 hex digits. -/
def isMd5Value (value : Str) : Bool :=
  value.startsWith "md5".toList && (value.drop 3).length == 32 &&
    (value.drop 3).all Str.isAsciiHexdigit

/-- The hash of the password and the user name that a text of the auth file stands for. -/
def storedHash (md5 : Md5) (value username : Str) : Str :=
  if isMd5Value value then value.drop 3 else hexDigest (md5 (Utf8.encode (value ++ username)))

/-- The right response to a challenge. -/
def expectedResponse (md5 : Md5) (value username : Str) (salt : Vector UInt8 4) : Str :=
  "md5".toList ++ hexDigest (md5 (Utf8.encode (storedHash md5 value username) ++ salt.toList))

theorem length_expectedResponse (md5 : Md5) (value username : Str) (salt : Vector UInt8 4) :
    (expectedResponse md5 value username salt).length = 35 := by
  rw [expectedResponse, List.length_append, length_hexDigest]
  rfl

/-- The documented form has the length by which `from_string` tells an MD5 entry. -/
theorem byteLen_of_isMd5Value {value : Str} (h : isMd5Value value = true) :
    value.startsWith "md5".toList = true ∧ value.byteLen = 35 := by
  simp only [isMd5Value, Bool.and_eq_true, beq_iff_eq, List.all_eq_true] at h
  obtain ⟨⟨hfront, hlen⟩, hdigits⟩ := h
  obtain ⟨digits, rfl⟩ := List.isPrefixOf_iff_prefix.1 hfront
  have hdrop : ("md5".toList ++ digits).drop 3 = digits := rfl
  rw [hdrop] at hlen hdigits
  have hbytes : Str.byteLen digits = digits.length :=
    Str.byteLen_of_forall_utf8Size fun c hc => Str.utf8Size_of_isAsciiHexdigit (hdigits c hc)
  refine ⟨hfront, ?_⟩
  rw [Str.byteLen_append, hbytes, hlen]
  rfl

/-- The login succeeds. -/
def LoginAccepted (run : Rust LoginOutcome) : Prop := ∃ result written, run = .ok (.ok result, written)

namespace Authenticator

variable (ov : Overflow) (md5 : Md5) (auth : Authenticator) (salt : Vector UInt8 4)
  (startup : StartupMessage) (username : Str) (database : Option Str)

/-- Of the complete PasswordMessages those are accepted whose text is the right response. -/
def LoginExact (value : Str) : Prop :=
  ∀ password more, (passwordFrame password).len < 2 ^ 31 →
    (LoginAccepted (auth.authenticateMd5 ov md5 ⟨true, some ((passwordFrame password).encode ++ more)⟩ salt
        startup username database) ↔
      Utf8.decode password = some (expectedResponse md5 value username salt))

variable {file : FileAuthenticator} {value : Str}

/-- The response has to be read in one piece, and is checked against a plain password only. -/
theorem accepted_iff (hfile : auth.fileAuth = some file) (huser : file.hasUser username = true)
    {password : List UInt8} (hshort : (passwordFrame password).len < 2 ^ 31) (more : List UInt8) :
    LoginAccepted (auth.authenticateMd5 ov md5 ⟨true, some ((passwordFrame password).encode ++ more)⟩ salt
        startup username database) ↔
      ¬ passwordBuffer < (passwordFrame password).encode.length ∧
        ∃ response stored, Utf8.decode password = some response ∧
          file.getPassword username = some stored ∧
          verifyMd5Response md5 response stored username salt = true := by
  have hread := parsePasswordMessage_take ov hshort more (show 5 ≤ passwordBuffer by decide)
  unfold authenticateMd5
  simp only [hfile, huser, hread, Bool.not_true, Bool.false_eq_true, if_false, Rust.ok_bind]
  by_cases hcut : passwordBuffer < (passwordFrame password).encode.length
  · rw [if_pos hcut]
    constructor
    · rintro ⟨result, written, h⟩
      cases h
    · rintro ⟨hfits, -⟩
      exact absurd hcut hfits
  · rw [if_neg hcut]
    cases Utf8.decode password with
    | none => simp [LoginAccepted]
    | some response =>
      cases file.getPassword username with
      | none => simp [LoginAccepted]
      | some stored =>
        cases hverify : verifyMd5Response md5 response stored username salt with
        | false => simp [LoginAccepted, refuse, hverify]
        | true => simpa [LoginAccepted, hverify] using hcut

/-- For every entry that is no SCRAM verifier: exactly the right responses are accepted if and only if
    its text does not begin with `md5` or is not 35 bytes long. -/
theorem md5_login_exact_iff (hfile : auth.fileAuth = some file)
    (hentry : file.users.lookup username = some (.ofValue value))
    (hscram : value.startsWith "SCRAM-SHA-256$".toList = false) :
    LoginExact ov md5 auth salt startup username database value ↔
      ¬ (value.startsWith "md5".toList = true ∧ value.byteLen = 35) := by
  have huser : file.hasUser username = true := by rw [FileAuthenticator.hasUser, hentry]; rfl
  constructor
  · -- the right response to an MD5 entry is not accepted
    intro hexact hmd5
    have hnone : file.getPassword username = none := by
      rw [FileAuthenticator.getPassword, hentry, PasswordEntry.ofValue, if_pos hmd5]
    have hresponse := Utf8.decode_encode (expectedResponse md5 value username salt)
    have hshort : (passwordFrame (Utf8.encode (expectedResponse md5 value username salt))).len <
        2 ^ 31 := by
      have hbytes := Utf8.length_le_of_decode hresponse
      rw [length_expectedResponse] at hbytes
      simp only [passwordFrame, Frame.len, List.length_append, List.length_singleton]
      omega
    have haccepted := (hexact _ [] hshort).2 hresponse
    rw [accepted_iff ov md5 auth salt startup username database hfile huser hshort, hnone] at haccepted
    obtain ⟨-, response, stored, -, hstored, -⟩ := haccepted
    cases hstored
  · intro hplain password more hshort
    have hstored : file.getPassword username = some value := by
      rw [FileAuthenticator.getPassword, hentry, PasswordEntry.ofValue, if_neg hplain, hscram]
      rfl
    have hhash : expectedResponse md5 value username salt =
        computeMd5Response md5 value username salt := by
      have hvalue : ¬ isMd5Value value = true := fun h => hplain (byteLen_of_isMd5Value h)
      rw [expectedResponse, storedHash, if_neg hvalue]
      rfl
    rw [accepted_iff ov md5 auth salt startup username database hfile huser hshort, hstored, hhash]
    constructor
    · rintro ⟨-, response, stored, hdecode, hsome, hverify⟩
      cases hsome
      rw [hdecode, beq_iff_eq.1 hverify]
    · intro hdecode
      -- a text of 35 characters fits into the buffer
      have hbytes := Utf8.length_le_of_decode hdecode
      rw [← hhash, length_expectedResponse] at hbytes
      refine ⟨?_, _, value, hdecode, rfl, beq_self_eq_true _⟩
      have hencode : (passwordFrame password).encode.length = password.length + 6 := by
        simp [passwordFrame]
      rw [hencode, passwordBuffer]
      omega

end Authenticator

/-! ## A user with either kind of entry -/

/-- MD5 on what a login of `postgres` with the password `password` and the salt 1, 2, 3, 4 hashes. -/
def postgresMd5 : Md5 := fun bytes =>
  if bytes = asciiBytes "passwordpostgres" then
    #v[50, 225, 47, 33, 91, 162, 124, 183, 80, 201, 224, 147, 206, 75, 81, 39]
  else if bytes = asciiBytes "32e12f215ba27cb750c9e093ce4b5127" ++ [1, 2, 3, 4] then
    #v[152, 81, 28, 234, 236, 52, 122, 101, 111, 3, 44, 127, 42, 22, 239, 23]
  else Vector.replicate 16 0

def md5Config : Config where
  backend := ⟨"localhost".toList, 5432, "app".toList, "app".toList, "secret".toList⟩
  databases := []
  connectionPooling := .disabled
  poolSize := 10
  authType := .md5

/-- The authenticator with a file of one user. -/
def postgresAuth (value : Str) : Authenticator :=
  ⟨md5Config, some ⟨AList.singleton "postgres".toList (.ofValue value)⟩⟩

theorem md5_login_exact_plain :
    (postgresAuth "password".toList).LoginExact .checked postgresMd5 #v[1, 2, 3, 4] ⟨196608, ∅⟩
      "postgres".toList none "password".toList :=
  (Authenticator.md5_login_exact_iff .checked postgresMd5 (postgresAuth "password".toList)
    #v[1, 2, 3, 4] ⟨196608, ∅⟩ "postgres".toList none rfl (by decide) (by decide)).2
    (by decide)

/-- The text of an MD5 entry for the password `password`. -/
def postgresEntry : Str := "md532e12f215ba27cb750c9e093ce4b5127".toList

/-- The file is loaded and `check_password` takes the password, but the right response to the
    challenge is not accepted. -/
theorem md5_entry_refused :
    ((FileAuthenticator.fromString ("\"postgres\" \"".toList ++ postgresEntry ++ "\"".toList)).toOption.map
      (·.users.entries)) = some [⟨"postgres".toList, .ofValue postgresEntry⟩] ∧
    FileAuthenticator.checkPassword postgresMd5
      ⟨AList.singleton "postgres".toList (.ofValue postgresEntry)⟩ "postgres".toList
      "password".toList = true ∧
    isMd5Value postgresEntry = true ∧
    expectedResponse postgresMd5 postgresEntry "postgres".toList #v[1, 2, 3, 4] =
      "md598511ceaec347a656f032c7f2a16ef17".toList ∧
    ¬ LoginAccepted ((postgresAuth postgresEntry).authenticateMd5 .checked postgresMd5
      ⟨true, some (passwordFrame (asciiBytes "md598511ceaec347a656f032c7f2a16ef17")).encode⟩
      #v[1, 2, 3, 4] ⟨196608, ∅⟩ "postgres".toList none) := by
  refine ⟨by decide +kernel, by decide +kernel, by decide +kernel, by decide +kernel, ?_⟩
  intro haccepted
  rw [← List.append_nil (passwordFrame _).encode, Authenticator.accepted_iff .checked postgresMd5
    (postgresAuth postgresEntry) #v[1, 2, 3, 4] ⟨196608, ∅⟩ "postgres".toList none rfl (by decide)
    (by decide)] at haccepted
  obtain ⟨-, response, stored, -, hstored, -⟩ := haccepted
  have hnone : FileAuthenticator.getPassword
      ⟨AList.singleton "postgres".toList (.ofValue postgresEntry)⟩ "postgres".toList = none := by decide
  rw [hnone] at hstored
  cases hstored

end ScryProxy
