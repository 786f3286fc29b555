import ScryProxy.Native.Relay

/-!
# Anonymized query events

Model of `protocol/anonymize.rs` (`QueryAnonymizer`) and of `AnonymizationSettings` in
`proxy/connection.rs`, with the events that the relay loop builds from the executions it
settles.

`sqlparser` is a parameter.  Of its syntax trees the model keeps what the anonymizer
looks at: the literals, in the order of the visitor's walk, and everything else as an
opaque shape.  The walk reaches every `Expr`; literal text that the tree keeps outside
`Expr::Value` (typed strings, the texts of COMMENT and NOTIFY) is a leaf of its own, which
the visitors pass by.  Of an event, parameters, duration and connection are left out.
-/

namespace ScryProxy

/-! ## Syntax trees -/

/-- The spellings of string values in `sqlparser::ast::Value`. -/
inductive StringForm where
  | singleQuoted
  | doubleQuoted
  | dollarQuoted (tag : Option Str)
  | tripleSingleQuoted
  | tripleDoubleQuoted
  | escaped
  | unicode
  | national
  | hex
  | singleQuotedByte
  | doubleQuotedByte
  | tripleSingleQuotedByte
  | tripleDoubleQuotedByte
  | singleQuotedRaw
  | doubleQuotedRaw
  | tripleSingleQuotedRaw
  | tripleDoubleQuotedRaw
  deriving DecidableEq, Repr

/-- `sqlparser::ast::Value`. -/
inductive SqlValue where
  | number (digits : Str) (long : Bool)
  | string (form : StringForm) (text : Str)
  | boolean (b : Bool)
  | null
  | placeholder (name : Str)
  deriving DecidableEq, Repr

/-- A place of a syntax tree that holds a literal. -/
inductive Leaf where
  /-- an `Expr::Value` -/
  | value (v : SqlValue)
  /-- literal text in another node -/
  | text (s : Str)
  deriving DecidableEq, Repr

structure SqlStatement (Shape : Type) where
  shape : Shape
  leaves : List Leaf
  deriving DecidableEq, Repr

/-- The parser with the Postgres dialect, and the printer of its trees. -/
structure SqlParser where
  Shape : Type
  parseSql : Str → Option (List (SqlStatement Shape))
  display : SqlStatement Shape → Str

/-! ## The anonymizer -/

/-- `is_sensitive_literal`. -/
def isSensitiveLiteral : SqlValue → Bool
  | .number _ _ => true
  | .string .singleQuoted _ => true
  | .string .doubleQuoted _ => true
  | .boolean _ => true
  | .null => true
  | _ => false

/-- The text that `ValueCollector` hashes for a value. -/
def fingerprintText : SqlValue → Option Str
  | .number digits _ => some digits
  | .string .singleQuoted text => some text
  | .string .doubleQuoted text => some text
  | .boolean b => some (if b then "true".toList else "false".toList)
  | .null => some "NULL".toList
  | _ => none

/-- `ValueReplacer` on one place. -/
def replaceValue : Leaf → Leaf
  | .value v => if isSensitiveLiteral v then .value (.placeholder ['?']) else .value v
  | .text s => .text s

/-- `ResidualLiteralDetector` on one place. -/
def isResidual : Leaf → Bool
  | .value v => isSensitiveLiteral v
  | .text _ => false

/-- `AnonymizedQuery`. -/
structure AnonymizedQuery where
  normalizedQuery : Str
  valueFingerprints : List Str
  deriving DecidableEq, Repr

section Anonymizer

variable (P : SqlParser)

/-- `normalize_statement`. -/
def normalizeStatement (stmt : SqlStatement P.Shape) : Option Str :=
  let normalized := { stmt with leaves := stmt.leaves.map replaceValue }
  if normalized.leaves.any isResidual then none else some (P.display normalized)

/-- `normalize_statements`. -/
def normalizeStatements (statements : List (SqlStatement P.Shape)) : Option Str :=
  (statements.mapM (normalizeStatement P)).map (List.intercalate "; ".toList)

/-- `ValueCollector` over a statement. -/
def collectFingerprints (hashValue : Str → Str) (stmt : SqlStatement P.Shape) : List Str :=
  stmt.leaves.filterMap fun
    | .value v => (fingerprintText v).map hashValue
    | .text _ => none

/-- `anonymize`; `hashValue` is the salted hash. -/
def anonymize (hashValue : Str → Str) (query : Str) : Option AnonymizedQuery := do
  let statements ← P.parseSql query
  if statements.isEmpty then none
  else
    let fingerprints := statements.flatMap (collectFingerprints P hashValue)
    let normalized ← normalizeStatements P statements
    return ⟨normalized, fingerprints⟩

end Anonymizer

/-! ## Events -/

inductive ParseFailureMode where
  | redact
  | drop
  deriving DecidableEq, Repr

structure AnonymizationSettings where
  enabled : Bool
  hashValue : Str → Str
  parseFailure : ParseFailureMode

/-- `REDACTED_QUERY`. -/
def redactedQuery : Str := "<redacted: unparseable>".toList

structure QueryEvent where
  query : Str
  normalizedQuery : Option Str
  valueFingerprints : List Str
  paramsIncomplete : Bool
  success : Bool
  error : Option Str
  deriving DecidableEq, Repr

namespace AnonymizationSettings

/-- `error_field`. -/
def errorField (settings : AnonymizationSettings) (data : List UInt8) (fullError : Str) :
    Rust (Option Str) :=
  if settings.enabled then extractErrorScrubbed .wrapping data else .ok (some fullError)

/-- `build_event`: `none` if the event is dropped. -/
def buildEvent (settings : AnonymizationSettings) (P : SqlParser) (query : Str)
    (paramsIncomplete success : Bool) (error : Option Str) : Option QueryEvent :=
  let event (query : Str) (normalized : Option Str) (fingerprints : List Str) : QueryEvent :=
    ⟨query, normalized, fingerprints, paramsIncomplete, success, error⟩
  if !settings.enabled then some (event query none [])
  else match anonymize P settings.hashValue query with
    | some anon =>
      some (event anon.normalizedQuery (some anon.normalizedQuery) anon.valueFingerprints)
    | none =>
      match settings.parseFailure with
      | .drop => none
      | .redact => some (event redactedQuery (some redactedQuery) [])

/-- The events for an execution that succeeded: one for each part of its text. -/
def successEvents (settings : AnonymizationSettings) (P : SqlParser) (pending : PendingExecution) :
    List QueryEvent :=
  (CommandDetector.splitStatements pending.query).filterMap fun statement =>
    settings.buildEvent P statement pending.paramsIncomplete true none

/-- The events that go with an effect of the relay. -/
def eventsOf (settings : AnonymizationSettings) (P : SqlParser) : Effect → Rust (List QueryEvent)
  | .queryFailed pending data fullError => do
    let error ← settings.errorField data fullError
    return (settings.buildEvent P pending.query pending.paramsIncomplete false error).toList
  | .queryCompleted pending => .ok (settings.successEvents P pending)
  | _ => .ok []

/-- The events of a run, in order. -/
def events (settings : AnonymizationSettings) (P : SqlParser) (effects : List Effect) :
    Rust (List QueryEvent) :=
  (effects.mapM (settings.eventsOf P)).map List.flatten

end AnonymizationSettings

end ScryProxy
