import ScryProxy.ForStd.Maps
import ScryProxy.ForStd.Str
import ScryProxy.ForStd.Utf8

/-!
# Users of the auth file

Model of `auth/file_auth.rs` and of `PasswordEntry` in `auth/types.rs`: one line for each user,
the name and the password in double quotes, and a password that is plain text, an MD5 hash or
a SCRAM verifier.  MD5 is a parameter.
-/

namespace ScryProxy

/-- A hash function with the results of `md5::compute`. -/
abbrev Md5 := List UInt8 → Vector UInt8 16

/-- `format!("{:x}", digest)`. -/
def hexDigest (digest : Vector UInt8 16) : Str :=
  digest.toList.flatMap fun b => [Nat.digitChar (b.toNat / 16), Nat.digitChar (b.toNat % 16)]

inductive PasswordEntry where
  | plain (password : Str)
  | md5 (hash : Str)
  | scramSha256 (verifier : Str)
  deriving DecidableEq, Repr

namespace PasswordEntry

/-- The kind of a password, as `from_string` tells it by the front of the text and its length. -/
def ofValue (pass : Str) : PasswordEntry :=
  if pass.startsWith "md5".toList ∧ pass.byteLen = 35 then
    -- `pass[3..]`, behind three characters of one byte
    .md5 (pass.drop 3)
  else if pass.startsWith "SCRAM-SHA-256$".toList then .scramSha256 pass
  else .plain pass

end PasswordEntry

/-- The `AuthError` of a line that cannot be read. -/
inductive AuthError where
  | invalidFormat (message : Str)
  deriving DecidableEq, Repr

/-- State of the loop of `parse_line`. -/
structure LineScan where
  inQuotes : Bool
  parts : List Str
  current : Str
  deriving DecidableEq, Repr

def LineScan.step (s : LineScan) (ch : Char) : LineScan :=
  if ch = '"' then
    if s.inQuotes then ⟨false, s.parts ++ [s.current], []⟩ else { s with inQuotes := true }
  else if s.inQuotes then { s with current := s.current ++ [ch] }
  else s

structure FileAuthenticator where
  users : AList fun _ : Str => PasswordEntry

namespace FileAuthenticator

/-- `parse_line`: what the first two pairs of quotes hold. -/
def parseLine (line : Str) : Option (Str × Str) :=
  match (line.foldl LineScan.step ⟨false, [], []⟩).parts with
  | user :: pass :: _ => some (user, pass)
  | _ => none

/-- The loop of `from_string`; `lineNum` counts from zero. -/
def loadLines (lineNum : Nat) : List Str → (AList fun _ : Str => PasswordEntry) →
    Except AuthError FileAuthenticator
  | [], users => .ok ⟨users⟩
  | line :: lines, users =>
    let line := line.trim
    if line.isEmpty || line.startsWith [';'] || line.startsWith ['#'] then
      loadLines (lineNum + 1) lines users
    else match parseLine line with
      | some (user, pass) => loadLines (lineNum + 1) lines (users.insert user (.ofValue pass))
      | none => .error (.invalidFormat ("Invalid format at line ".toList ++
          Nat.toDigits 10 (lineNum + 1) ++ ": ".toList ++ line))

/-- `from_string`. -/
def fromString (content : Str) : Except AuthError FileAuthenticator :=
  loadLines 0 content.lines ∅

/-- `has_user`. -/
def hasUser (file : FileAuthenticator) (username : Str) : Bool :=
  (file.users.lookup username).isSome

/-- `compute_md5_password`. -/
def computeMd5Password (md5 : Md5) (password username : Str) : Str :=
  hexDigest (md5 (Utf8.encode (password ++ username)))

/-- `check_password`. -/
def checkPassword (md5 : Md5) (file : FileAuthenticator) (username password : Str) : Bool :=
  match file.users.lookup username with
  | some (.plain stored) => stored == password
  | some (.md5 hash) => computeMd5Password md5 password username == hash
  | some (.scramSha256 _) => false
  | none => false

/-- `get_password`. -/
def getPassword (file : FileAuthenticator) (username : Str) : Option Str :=
  match file.users.lookup username with
  | some (.plain password) => some password
  | _ => none

example : (fromString "; users\n\"admin\" \"secret\"\n".toList).toOption.bind
    (·.getPassword "admin".toList) = some "secret".toList := by decide +kernel

example : (match fromString "\n\"admin\" secret".toList with
    | .error (.invalidFormat message) => message
    | .ok _ => []) = "Invalid format at line 2: \"admin\" secret".toList := by decide +kernel

end FileAuthenticator

end ScryProxy
