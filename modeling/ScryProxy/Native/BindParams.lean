import ScryProxy.ForStd.Str
import ScryProxy.ForStd.Utf8

/-!
# Parameter decoding

Model of `protocol/bind.rs`: the raw parameters of a Bind message, decoded by format code
and type OID.  The texts of floating-point numbers are read by the standard library, whose
two functions are parameters here; a float is its bits.
-/

namespace ScryProxy

/-- `ParamValue` of the event protocol.  `decode_params` builds no dates, times, intervals, arrays,
    ranges or composites. -/
inductive ParamValue where
  | null
  | bool (value : Bool)
  | int16 (value : Int)
  | int32 (value : Int)
  | int64 (value : Int)
  | float32 (bits : UInt32)
  | float64 (bits : UInt64)
  | numeric (text : Str)
  | text (text : Str)
  | json (text : Str)
  | uuid (bytes : List UInt8)
  | bytes (data : List UInt8)
  | date (value : Int)
  | time (value : Int)
  | timestamp (value : Int)
  | timestampTz (value : Int)
  | interval (months days microseconds : Int)
  | array (elements : List ParamValue) (dimensions : List Int)
  | range (lower upper : Option ParamValue) (lowerInc upperInc : Bool)
  | composite (fields : List ParamValue)
  | unknown (oid : Nat) (data : List UInt8)
  deriving BEq, Repr

/-! ## Type OIDs -/

namespace Oid

def bool : Nat := 16
def bytea : Nat := 17
def int8 : Nat := 20
def int2 : Nat := 21
def int4 : Nat := 23
def text : Nat := 25
def oid : Nat := 26
def float4 : Nat := 700
def float8 : Nat := 701
def varchar : Nat := 1043
def numeric : Nat := 1700
def uuid : Nat := 2950
def json : Nat := 114
def jsonb : Nat := 3802

end Oid

/-- `get_format_code`: no code means text, one code is for all parameters. -/
def getFormatCode (formatCodes : List Int) (index : Nat) : Int :=
  match formatCodes with
  | [] => 0
  | [code] => code
  | _ => (formatCodes[index]?).getD 0

/-! ## Text format -/

/-- The loop of the hex branch: `steps` pairs of bytes from offset `i`.  The results are collected up
    to the first error, and what follows it is not sliced. -/
def decodeHexLoop (hex : Str) : Nat → Nat → Rust (Option (List UInt8))
  | 0, _ => .ok (some [])
  | steps + 1, i => do
    match Str.parseU8Hex (← hex.slice i (i + 2)) with
    | none => return none
    | some byte => (decodeHexLoop hex steps (i + 2)).map (Option.map (byte :: ·))

/-- Bytes from pairs of hex digits; `(0..hex.len()).step_by(2)` has half as many steps as there are
    bytes, rounded up. -/
def decodeHex (hex : Str) : Rust (Option (List UInt8)) :=
  decodeHexLoop hex ((hex.byteLen + 1) / 2) 0

/-- Text format UUID: 32 hex digits, whatever stands between them. -/
def decodeUuidText (text : Str) : Rust ParamValue :=
  let hex : Str := text.filter Str.isAsciiHexdigit
  if hex.byteLen = 32 then do
    let bytes ← (List.range 16).mapM fun i => do
      -- a pair that is no number leaves the byte at 0
      return (Str.parseU8Hex (← hex.slice (i * 2) (i * 2 + 2))).getD 0
    return .uuid bytes
  else .ok (.text text)

/-- Text format bytea: hex digits after `\x`. -/
def decodeByteaText (text : Str) : Rust ParamValue :=
  match text.stripPrefix "\\x".toList with
  | none => .ok (.text text)
  | some hex => (decodeHex hex).map fun bytes => (bytes.map .bytes).getD (.text text)

section

variable (parseF32 : Str → Option UInt32) (parseF64 : Str → Option UInt64)

/-- `decode_text_param`: text that is not UTF-8 stays bytes, and text that is not of its type stays
    text. -/
def decodeTextParam (data : List UInt8) (oid : Nat) : Rust ParamValue :=
  match Utf8.decode data with
  | none => .ok (.bytes data)
  | some text =>
    if oid = Oid.bool then
      if ["t".toList, "true".toList, "TRUE".toList, "1".toList].contains text then .ok (.bool true)
      else if ["f".toList, "false".toList, "FALSE".toList, "0".toList].contains text then
        .ok (.bool false)
      else .ok (.text text)
    else if oid = Oid.int2 then .ok (((Str.parseI16 text).map .int16).getD (.text text))
    else if oid = Oid.int4 ∨ oid = Oid.oid then .ok (((Str.parseI32 text).map .int32).getD (.text text))
    else if oid = Oid.int8 then .ok (((Str.parseI64 text).map .int64).getD (.text text))
    else if oid = Oid.float4 then .ok (((parseF32 text).map .float32).getD (.text text))
    else if oid = Oid.float8 then .ok (((parseF64 text).map .float64).getD (.text text))
    else if oid = Oid.numeric then .ok (.numeric text)
    else if oid = Oid.text ∨ oid = Oid.varchar then .ok (.text text)
    else if oid = Oid.json ∨ oid = Oid.jsonb then .ok (.json text)
    else if oid = Oid.uuid then decodeUuidText text
    else if oid = Oid.bytea then decodeByteaText text
    else .ok (.text text)

/-! ## Binary format -/

/-- A value of a fixed number of bytes; any other length is an unknown value. -/
def decodeFixed (size : Nat) (value : List UInt8 → ParamValue) (oid : Nat) (data : List UInt8) :
    ParamValue :=
  if data.length = size then value data else .unknown oid data

/-- `decode_binary_param`. -/
def decodeBinaryParam (data : List UInt8) (oid : Nat) : ParamValue :=
  if oid = Oid.bool then decodeFixed 1 (fun data => .bool (data != [0])) oid data
  else if oid = Oid.int2 then decodeFixed 2 (.int16 ∘ BigEndian.signed) oid data
  else if oid = Oid.int4 ∨ oid = Oid.oid then decodeFixed 4 (.int32 ∘ BigEndian.signed) oid data
  else if oid = Oid.int8 then decodeFixed 8 (.int64 ∘ BigEndian.signed) oid data
  else if oid = Oid.float4 then
    decodeFixed 4 (.float32 ∘ UInt32.ofNat ∘ BigEndian.unsigned) oid data
  else if oid = Oid.float8 then
    decodeFixed 8 (.float64 ∘ UInt64.ofNat ∘ BigEndian.unsigned) oid data
  else if oid = Oid.uuid then decodeFixed 16 .uuid oid data
  else if oid = Oid.text ∨ oid = Oid.varchar then ((Utf8.decode data).map .text).getD (.bytes data)
  else if oid = Oid.bytea then .bytes data
  else if oid = Oid.json ∨ oid = Oid.jsonb then
    -- the binary form of JSONB starts with a version byte
    let jsonData := if oid = Oid.jsonb then data.tail else data
    ((Utf8.decode jsonData).map .json).getD (.unknown oid data)
  else .unknown oid data

/-! ## Parameters -/

/-- `decode_param`. -/
def decodeParam (data : List UInt8) (oid : Nat) (format : Int) : Rust ParamValue :=
  if format = 0 then decodeTextParam parseF32 parseF64 data oid
  else .ok (decodeBinaryParam data oid)

/-- `decode_params`: a parameter without an OID has OID 0. -/
def decodeParams (paramsRaw : List (Option (List UInt8))) (formatCodes : List Int)
    (paramOids : List Nat) : Rust (List ParamValue) :=
  paramsRaw.zipIdx.mapM fun (raw, i) =>
    match raw with
    | none => .ok .null
    | some data =>
      decodeParam parseF32 parseF64 data ((paramOids[i]?).getD 0) (getFormatCode formatCodes i)

end

end ScryProxy
