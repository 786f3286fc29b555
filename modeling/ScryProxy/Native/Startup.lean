import ScryProxy.ForStd.WireFields
import ScryProxy.ForStd.Maps
import ScryProxy.ForStd.Str
import ScryProxy.ForStd.Utf8

/-!
# Startup messages

Model of `StartupMessage` in `protocol/auth_messages.rs`: a length, a protocol version
and a list of NUL-terminated parameters.  The parameters are kept in a hash map, here
an `AList`; the order in which a hash map is walked is not specified, and the order of
the entries stands for it.
-/

namespace ScryProxy

structure StartupMessage where
  protocolVersion : Int
  parameters : AList fun _ : Str => Str

namespace StartupMessage

/-- `PROTOCOL_VERSION_3`. -/
def protocolVersion3 : Nat := 196608

def sslRequestCode : Int := 80877103

/-- The loop over the parameters.  Each round takes at least one byte, so `fuel` as large as the
    body is enough. -/
def parseParameters : Nat → List UInt8 → (AList fun _ : Str => Str) → AList fun _ : Str => Str
  | 0, _, parameters => parameters
  | fuel + 1, body, parameters =>
    let key := body.takeWhile (· != 0)
    match body.drop key.length with
    | [] => parameters
    | _ :: rest =>
      -- an empty key ends the list
      if (Utf8.decodeLossy key).isEmpty then parameters
      else
        -- a value may end with the message instead of a NUL
        let value := rest.takeWhile (· != 0)
        parseParameters fuel (rest.drop (value.length + 1))
          (parameters.insert (Utf8.decodeLossy key) (Utf8.decodeLossy value))

/-- `parse`. -/
def parse (data : List UInt8) : Option StartupMessage :=
  match data with
  | l₀ :: l₁ :: l₂ :: l₃ :: v₀ :: v₁ :: v₂ :: v₃ :: _ =>
    let length := Rust.asUsize (BigEndian.i32 l₀ l₁ l₂ l₃)
    let protocolVersion := BigEndian.i32 v₀ v₁ v₂ v₃
    if data.length < length then none
    else if protocolVersion = sslRequestCode then none
    else
      let body := (data.take length).drop 8
      some ⟨protocolVersion, parseParameters body.length body ∅⟩
  | _ => none

def user (m : StartupMessage) : Option Str := m.parameters.lookup "user".toList

def database (m : StartupMessage) : Option Str := m.parameters.lookup "database".toList

/-- A text and its NUL. -/
def cstring (s : Str) : List UInt8 := Utf8.encode s ++ [0]

/-- `build`.  From 2^31 bytes on the length wraps, and the model goes on with what is written; where
    it turns negative, the source panics in `Vec::with_capacity`. -/
def build (user database : Str) (extraParams : List (Str × Str)) : List UInt8 :=
  let params := cstring "user".toList ++ cstring user ++ cstring "database".toList ++
    cstring database ++ extraParams.flatMap (fun (key, value) => cstring key ++ cstring value) ++ [0]
  BigEndian.bytes32 (4 + 4 + params.length) ++ BigEndian.bytes32 protocolVersion3 ++ params

example : (parse (build "u".toList "d".toList [("k".toList, "é".toList)])).map
    (fun m => (m.user, m.database, m.parameters.lookup "k".toList)) =
    some (some "u".toList, some "d".toList, some "é".toList) := by decide +kernel

end StartupMessage

end ScryProxy
