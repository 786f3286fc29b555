import ScryProxy.ForStd.WireFields
import ScryProxy.ForStd.Framing
import ScryProxy.ForStd.Str
import ScryProxy.ForStd.Utf8

/-!
# Wire messages and their extraction

Model of `protocol/mod.rs` (message types) and `protocol/extractor.rs`
(`MessageExtractor`).  The client direction reassembles frames across reads in a
buffer (`extractMessages`); the backend direction scans each read on its own
(`extractReadyForQuery`, `isQueryComplete`, `findErrorFields`).

A scan over a slice `data` with a running `offset` looks at `data.drop offset`; the
pattern `t :: b₀ :: b₁ :: b₂ :: b₃ :: _` is the guard `offset + 5 <= data.len()`.
-/

namespace ScryProxy

open Rust (Overflow)

/-! ## Message types -/

def msgQuery : UInt8 := 'Q'.toUInt8
def msgParse : UInt8 := 'P'.toUInt8
def msgBind : UInt8 := 'B'.toUInt8
def msgExecute : UInt8 := 'E'.toUInt8
def msgSync : UInt8 := 'S'.toUInt8
def msgTerminate : UInt8 := 'X'.toUInt8
def msgClose : UInt8 := 'C'.toUInt8

def msgCommandComplete : UInt8 := 'C'.toUInt8
def msgReadyForQuery : UInt8 := 'Z'.toUInt8
def msgErrorResponse : UInt8 := 'E'.toUInt8

/-- Parsed frontend message. -/
inductive Message where
  | query (query : Str)
  | parse (name query : Str) (paramOids : List Nat)
  | bind (portal statement : Str) (formatCodes : List Int) (paramsRaw : List (Option (List UInt8)))
  | execute (portal : Str)
  | close (kind : Char) (name : Str)
  | sync
  | terminate
  deriving DecidableEq, Repr

/-- `MAX_FRONTEND_MESSAGE_SIZE`: 64 MiB. -/
def maxFrontendMessageSize : Nat := 64 * 1024 * 1024

/-! ## Payload parsers -/

/-- `read_cstring`: the text up to the next NUL, and the bytes after the NUL.  `none` when there is
    no NUL or the text is not UTF-8. -/
def readCstring (data : List UInt8) : Option (Str × List UInt8) :=
  let text := data.takeWhile (· != 0)
  match data.drop text.length with
  | [] => none
  -- the NUL itself is skipped
  | _ :: rest => (Utf8.decode text).map fun s => (s, rest)

/-- `n` big-endian `u32` object identifiers. -/
def readOids : Nat → List UInt8 → Option (List Nat)
  | 0, _ => some []
  | n + 1, b₀ :: b₁ :: b₂ :: b₃ :: rest =>
    (readOids n rest).map (BigEndian.u32 b₀ b₁ b₂ b₃ :: ·)
  | _ + 1, _ => none

/-- `n` big-endian `i16` format codes, and the bytes after them. -/
def readFormatCodes : Nat → List UInt8 → Option (List Int × List UInt8)
  | 0, data => some ([], data)
  | n + 1, b₀ :: b₁ :: rest =>
    (readFormatCodes n rest).map fun (codes, tail) => (BigEndian.i16 b₀ b₁ :: codes, tail)
  | _ + 1, _ => none

/-- `n` length-prefixed parameters of a Bind payload of `total` bytes. -/
def readParams (total : Nat) : Nat → List UInt8 → Rust (Option (List (Option (List UInt8))))
  | 0, _ => .ok (some [])
  | n + 1, b₀ :: b₁ :: b₂ :: b₃ :: rest =>
    let len := BigEndian.i32 b₀ b₁ b₂ b₃
    if len = -1 then
      (readParams total n rest).map (Option.map (none :: ·))
    else if len < 0 then
      -- `offset + (len as usize)` wraps below `offset`, and the slice then panics; where it does
      -- not wrap it is past the end of the payload
      if (total - rest.length : Int) + len < 0 then .ok none else .error .panic
    else if rest.length < len.toNat then .ok none
    else
      (readParams total n (rest.drop len.toNat)).map
        (Option.map (some (rest.take len.toNat) :: ·))
  | _ + 1, _ => .ok none

/-- `Vec::with_capacity(n as usize)`: a negative count is a capacity overflow. -/
def withCapacity (n : Int) : Rust Unit := if n < 0 then .error .panic else .ok ()

def parseQueryMessage (payload : List UInt8) : Option Message :=
  (readCstring payload).map fun (query, _) => .query query

def parseParseMessage (payload : List UInt8) : Rust (Option Message) :=
  match readCstring payload with
  | none => .ok none
  | some (name, rest) =>
    match readCstring rest with
    | none => .ok none
    | some (query, rest) =>
      match rest with
      | b₀ :: b₁ :: rest => do
        -- the count is signed, and a negative one panics before any OID is read
        let numParams := BigEndian.i16 b₀ b₁
        withCapacity numParams
        return (readOids numParams.toNat rest).map (.parse name query ·)
      | _ => .ok none

def parseBindMessage (payload : List UInt8) : Rust (Option Message) :=
  match readCstring payload with
  | none => .ok none
  | some (portal, rest) =>
    match readCstring rest with
    | none => .ok none
    | some (statement, rest) =>
      match rest with
      | b₀ :: b₁ :: rest => do
        let numFormatCodes := BigEndian.i16 b₀ b₁
        withCapacity numFormatCodes
        match readFormatCodes numFormatCodes.toNat rest with
        | some (formatCodes, c₀ :: c₁ :: rest) =>
          let numParams := BigEndian.i16 c₀ c₁
          withCapacity numParams
          let params ← readParams payload.length numParams.toNat rest
          return params.map (.bind portal statement formatCodes ·)
        | _ => return none
      | _ => .ok none

def parseExecuteMessage (payload : List UInt8) : Option Message :=
  (readCstring payload).map fun (portal, _) => .execute portal

def parseCloseMessage : List UInt8 → Option Message
  | [] => none
  | kind :: rest => (readCstring rest).map fun (name, _) => .close (Char.ofNat kind.toNat) name

/-- The dispatch on the type byte inside `extract_messages`. -/
def parsePayload (tag : UInt8) (payload : List UInt8) : Rust (Option Message) :=
  if tag = msgQuery then .ok (parseQueryMessage payload)
  else if tag = msgParse then parseParseMessage payload
  else if tag = msgBind then parseBindMessage payload
  else if tag = msgExecute then .ok (parseExecuteMessage payload)
  else if tag = msgClose then .ok (parseCloseMessage payload)
  else if tag = msgSync then .ok (some .sync)
  else if tag = msgTerminate then .ok (some .terminate)
  else .ok none

/-! ## Frontend reassembly -/

/-- What `extract_messages` leaves after its loop. -/
inductive Leftover where
  /-- unconsumed bytes, kept for the next call -/
  | retain (bytes : List UInt8)
  /-- an invalid length: everything buffered is dropped -/
  | framingError
  deriving DecidableEq, Repr

/-- The loop of `extract_messages` over the unconsumed bytes.  Each round takes at least five
    bytes, so `fuel = buf.length` is enough. -/
def extractLoop : Nat → List UInt8 → Rust (List Message × Leftover)
  | fuel + 1, t :: b₀ :: b₁ :: b₂ :: b₃ :: rest =>
    let length := BigEndian.i32 b₀ b₁ b₂ b₃
    -- whatever follows a refused length is dropped with it
    if length < 4 ∨ maxFrontendMessageSize < length.toNat then .ok ([], .framingError)
    -- the frame is not complete: all its bytes wait for the next read
    else if rest.length < length.toNat - 4 then .ok ([], .retain (t :: b₀ :: b₁ :: b₂ :: b₃ :: rest))
    else do
      let msg ← parsePayload t (rest.take (length.toNat - 4))
      let (messages, leftover) ← extractLoop fuel (rest.drop (length.toNat - 4))
      return (msg.toList ++ messages, leftover)
  | _, buf => .ok ([], .retain buf)

/-- `extract_messages`: the messages completed by `data`, and the new reassembly buffer. -/
def extractMessages (buffer data : List UInt8) : Rust (List Message × List UInt8) := do
  let buf := buffer ++ data
  let (messages, leftover) ← extractLoop buf.length buf
  match leftover with
  | .retain bytes => return (messages, bytes)
  | .framingError => return (messages, [])

/-! ## Backend scans -/

/-- The loop of `extract_ready_for_query`.  The next offset depends on `offset` alone, so a run of
    more rounds than there are offsets never ends. -/
def readyLoop (ov : Overflow) (data : List UInt8) : Nat → Nat → Option UInt8 → Rust (Option UInt8)
  | 0, _, _ => .error .diverge
  | fuel + 1, offset, lastStatus =>
    match data.drop offset with
    | t :: b₀ :: b₁ :: b₂ :: b₃ :: rest =>
      -- the status is taken if its byte is there, before the length is looked at
      let lastStatus := if t = msgReadyForQuery then rest.head?.or lastStatus else lastStatus
      let length := BigEndian.i32 b₀ b₁ b₂ b₃
      -- the comparison is on `usize`, so a negative length goes on to the addition
      if 0 ≤ length ∧ length < 4 then .ok lastStatus
      else do
        let next ← Rust.offsetAdd ov (offset + 1) length
        if data.length < next then .ok lastStatus
        else readyLoop ov data fuel next lastStatus
    | _ => .ok lastStatus

/-- `extract_ready_for_query`: status byte of the last ReadyForQuery the scan meets. -/
def extractReadyForQuery (ov : Overflow) (data : List UInt8) : Rust (Option UInt8) :=
  readyLoop ov data (data.length + 1) 0 none

/-- The loop of `is_query_complete`. -/
def completeLoop (ov : Overflow) (data : List UInt8) : Nat → Nat → Rust Bool
  | 0, _ => .error .diverge
  | fuel + 1, offset =>
    match data.drop offset with
    | t :: b₀ :: b₁ :: b₂ :: b₃ :: _ =>
      -- the header alone is enough: the rest of the message need not be there
      if t = msgCommandComplete ∨ t = msgReadyForQuery then .ok true
      else
        let length := BigEndian.i32 b₀ b₁ b₂ b₃
        if 0 ≤ length ∧ length < 4 then .ok false
        else do
          let next ← Rust.offsetAdd ov (offset + 1) length
          if data.length < next then .ok false else completeLoop ov data fuel next
    | _ => .ok false

/-- `is_query_complete`. -/
def isQueryComplete (ov : Overflow) (data : List UInt8) : Rust Bool :=
  completeLoop ov data (data.length + 1) 0

/-- Fields of an ErrorResponse. -/
structure ErrorFields where
  severity : Option Str := none
  sqlstate : Option Str := none
  message : Option Str := none
  deriving DecidableEq, Repr

/-- Records one field; text that is not UTF-8 and other field types are ignored. -/
def ErrorFields.set (fields : ErrorFields) (fieldType : UInt8) (text : List UInt8) : ErrorFields :=
  match Utf8.decode text with
  | none => fields
  | some value =>
    if fieldType = 'S'.toUInt8 then { fields with severity := some value }
    else if fieldType = 'C'.toUInt8 then { fields with sqlstate := some value }
    else if fieldType = 'M'.toUInt8 then { fields with message := some value }
    else fields

/-- The loop of `parse_error_fields`. -/
def parseErrorLoop : Nat → List UInt8 → ErrorFields → ErrorFields
  | fuel + 1, fieldType :: rest, fields =>
    if fieldType = 0 then fields
    else
      let text := rest.takeWhile (· != 0)
      match rest.drop text.length with
      | [] => fields
      | _ :: rest => parseErrorLoop fuel rest (fields.set fieldType text)
  | _, _, fields => fields

def parseErrorFields (data : List UInt8) : ErrorFields := parseErrorLoop data.length data {}

/-- The loop of `find_error_fields` over the remaining bytes.  An ErrorResponse that is not all
    there is not skipped: the scan goes on inside it. -/
def findErrorLoop (ov : Overflow) : Nat → List UInt8 → Rust (Option ErrorFields)
  | fuel + 1, t :: b₀ :: b₁ :: b₂ :: b₃ :: rest =>
    let length := BigEndian.i32 b₀ b₁ b₂ b₃
    if t = msgErrorResponse then
      if 4 ≤ length ∧ length.toNat - 4 ≤ rest.length then
        .ok (some (parseErrorFields (rest.take (length.toNat - 4))))
      -- `length - 4` underflows
      else if 0 ≤ length ∧ length < 4 ∧ ov = .checked then .error .panic
      else findErrorLoop ov fuel rest
    else if 4 < length ∧ length.toNat - 4 ≤ rest.length then
      findErrorLoop ov fuel (rest.drop (length.toNat - 4))
    else .ok none
  | _, _ => .ok none

def findErrorFields (ov : Overflow) (data : List UInt8) : Rust (Option ErrorFields) :=
  findErrorLoop ov data.length data

/-- `extract_error`: severity and message of the first ErrorResponse. -/
def extractError (ov : Overflow) (data : List UInt8) : Rust (Option Str) := do
  match ← findErrorFields ov data with
  | none => return none
  | some fields =>
    match fields.severity, fields.message with
    | some sev, some msg => return some (sev ++ ": ".toList ++ msg)
    | none, some msg => return some msg
    | some sev, none => return some sev
    | none, none => return none

/-- `extract_error_scrubbed`: severity and SQLSTATE of the first ErrorResponse. -/
def extractErrorScrubbed (ov : Overflow) (data : List UInt8) : Rust (Option Str) := do
  match ← findErrorFields ov data with
  | none => return none
  | some fields =>
    match fields.severity, fields.sqlstate with
    | some sev, some code => return some (sev ++ ": ".toList ++ code)
    | some sev, none => return some sev
    | none, some code => return some code
    | none, none => return none

end ScryProxy
