import ScryProxy.Native.Anonymize

/-!
# Redacted parameters

Model of `redact_param` and `redact_params` in `proxy/connection.rs`, and of the parameters
that `build_event` puts into an event.  The parameters of a pending execution are decoded
here, not when it is stored.
-/

namespace ScryProxy

mutual

/-- `redact_param`: the value goes, its type stays. -/
def redactParam : ParamValue → ParamValue
  | .null => .null
  | .bool _ => .bool false
  | .int16 _ => .int16 0
  | .int32 _ => .int32 0
  | .int64 _ => .int64 0
  | .float32 _ => .float32 0
  | .float64 _ => .float64 0
  | .numeric _ => .numeric []
  | .text _ => .text []
  | .bytes _ => .bytes []
  | .date _ => .date 0
  | .time _ => .time 0
  | .timestamp _ => .timestamp 0
  | .timestampTz _ => .timestampTz 0
  | .interval _ _ _ => .interval 0 0 0
  | .uuid _ => .uuid (List.replicate 16 0)
  | .json _ => .json []
  | .array elements dimensions => .array (redactElements elements) dimensions
  | .range lower upper lowerInc upperInc =>
    .range (redactBound lower) (redactBound upper) lowerInc upperInc
  | .composite fields => .composite (redactElements fields)
  | .unknown oid _ => .unknown oid []

/-- `elements.iter().map(redact_param)`. -/
def redactElements : List ParamValue → List ParamValue
  | [] => []
  | p :: ps => redactParam p :: redactElements ps

/-- The bound of a range, which may be missing. -/
def redactBound : Option ParamValue → Option ParamValue
  | none => none
  | some p => some (redactParam p)

end

/-- `redact_params`. -/
def AnonymizationSettings.redactParams (settings : AnonymizationSettings) (params : List ParamValue) :
    List ParamValue :=
  if !settings.enabled then params else params.map redactParam

/-- The parameters of a pending execution; without its statement a Bind has unknown ones. -/
def BoundParams.decode (parseF32 : Str → Option UInt32) (parseF64 : Str → Option UInt64) :
    BoundParams → Rust (List ParamValue)
  | .absent => .ok []
  | .typed paramsRaw formatCodes paramOids => decodeParams parseF32 parseF64 paramsRaw formatCodes paramOids
  | .untyped paramsRaw => .ok (paramsRaw.map fun raw => (raw.map (.unknown 0)).getD .null)

/-- A query event with its parameters. -/
structure ParamEvent where
  event : QueryEvent
  params : List ParamValue
  deriving Repr

namespace AnonymizationSettings

variable (settings : AnonymizationSettings) (P : SqlParser)

/-- `build_event`, with the parameters. -/
def buildParamEvent (query : Str) (params : List ParamValue) (paramsIncomplete success : Bool)
    (error : Option Str) : Option ParamEvent :=
  (settings.buildEvent P query paramsIncomplete success error).map fun event =>
    ⟨event, settings.redactParams params⟩

/-- The events of `eventsOf`: each part of a text that succeeded gets all parameters. -/
def paramEventsOf (parseF32 : Str → Option UInt32) (parseF64 : Str → Option UInt64) :
    Effect → Rust (List ParamEvent)
  | .queryFailed pending data fullError => do
    let params ← pending.params.decode parseF32 parseF64
    let error ← settings.errorField data fullError
    return (settings.buildParamEvent P pending.query params pending.paramsIncomplete false error).toList
  | .queryCompleted pending => do
    let params ← pending.params.decode parseF32 parseF64
    return (CommandDetector.splitStatements pending.query).filterMap fun statement =>
      settings.buildParamEvent P statement params pending.paramsIncomplete true none
  | _ => .ok []

end AnonymizationSettings

end ScryProxy
