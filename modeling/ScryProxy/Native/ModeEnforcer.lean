import ScryProxy.Native.CommandDetector
import ScryProxy.ForStd.Framing

/-!
# Transaction tracking and pooling modes

Model of `proxy/transaction.rs` (`TransactionTracker`), `proxy/mode_enforcer.rs`
(`ModeEnforcer`) and the responses the proxy builds itself
(`build_ready_for_query`, `build_error_response`).
-/

namespace ScryProxy

/-- Transaction state as reported by ReadyForQuery; the tracker holds one of these. -/
inductive TransactionState where
  | idle
  | inTransaction
  | inError
  deriving DecidableEq, Repr

namespace TransactionState

/-- `update_from_ready_for_query`: an unknown status byte changes nothing. -/
def updateFromReadyForQuery (state : TransactionState) (status : UInt8) : TransactionState :=
  if status = 'I'.toUInt8 then .idle
  else if status = 'T'.toUInt8 then .inTransaction
  else if status = 'E'.toUInt8 then .inError
  else state

/-- `is_in_transaction`. -/
def isInTransaction : TransactionState → Bool
  | .idle => false
  | .inTransaction | .inError => true

/-- `is_idle`. -/
def isIdle : TransactionState → Bool
  | .idle => true
  | .inTransaction | .inError => false

/-- Status byte of a state. -/
def status : TransactionState → UInt8
  | .idle => 'I'.toUInt8
  | .inTransaction => 'T'.toUInt8
  | .inError => 'E'.toUInt8

theorem isIdle_iff {state : TransactionState} : state.isIdle = true ↔ state = .idle := by
  cases state <;> decide

theorem status_injective {s t : TransactionState} (h : s.status = t.status) : s = t := by
  cases s <;> cases t <;> first | rfl | exact absurd h (by decide)

theorem updateFromReadyForQuery_status (s t : TransactionState) :
    s.updateFromReadyForQuery t.status = t := by
  cases t <;> rfl

end TransactionState

/-- `PoolingStrategy` of the configuration. -/
inductive PoolingStrategy where
  | disabled
  | session
  | transaction
  | hybrid
  deriving DecidableEq, Repr

inductive PoolingMode where
  | session
  | transaction
  | hybrid
  deriving DecidableEq, Repr

/-- `pooling_mode`. -/
def PoolingStrategy.poolingMode : PoolingStrategy → PoolingMode
  | .disabled | .session => .session
  | .transaction => .transaction
  | .hybrid => .hybrid

/-- `ModeEnforcer::validate`: `some` error text for a rejected command. -/
def PoolingMode.validate (mode : PoolingMode) (sql : Str) (inTransaction : Bool) :
    Rust (Option String) :=
  if mode ≠ .transaction then .ok none
  else do
    match ← CommandDetector.detect sql with
    | some (.set _ _) =>
      if inTransaction then return none
      else return some "session variables not supported in transaction pooling mode"
    | some (.createTempTable _) =>
      return some "temporary tables not supported in transaction pooling mode"
    | some (.declareCursor _ true) =>
      return some "cursors WITH HOLD not supported in transaction pooling mode"
    | some (.advisoryLock _) =>
      return some "advisory locks not supported in transaction pooling mode"
    | _ => return none

/-- Bytes of an ASCII text. -/
def asciiBytes (s : String) : List UInt8 := s.toList.map Char.toUInt8

/-- ReadyForQuery with the given transaction state. -/
def buildReadyForQuery (state : TransactionState) : List UInt8 :=
  ['Z'.toUInt8, 0, 0, 0, 5, state.status]

/-- ErrorResponse with severity, SQLSTATE and message.  `ModeEnforcer::build_error_response` is the
    instance with `ERROR` and `0A000`. -/
def buildErrorResponse (severity code message : String) : List UInt8 :=
  Frame.encode
    { tag := 'E'.toUInt8
      payload := 'S'.toUInt8 :: asciiBytes severity ++ [0] ++ 'C'.toUInt8 :: asciiBytes code ++ [0] ++
        'M'.toUInt8 :: asciiBytes message ++ [0] ++ [0] }

end ScryProxy
