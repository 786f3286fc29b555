import ScryProxy.ForStd.Lru
import ScryProxy.Native.CommandDetector

/-!
# Pin tracking

Model of `proxy/connection_state.rs`: `ConnectionState` records what session state
the backend is believed to hold.  A connection is pinned while any of it is left.
Hash maps are `AList`s and hash sets are `Finset`s.
-/

namespace ScryProxy

/-- Reasons why a connection is pinned to a client. -/
inductive PinReason where
  | preparedStatement
  | sessionVariable
  | tempTable
  | cursor
  | advisoryLock
  | listen
  | unknownCommand
  deriving DecidableEq, Repr

/-- All state tracked for one backend connection. -/
structure ConnectionState where
  preparedStatements : AList fun _ : Str => Str × List Nat
  sessionVariables : AList fun _ : Str => Str
  tempTables : Finset Str
  cursors : Finset Str
  advisoryLocks : Finset Int
  listenChannels : Finset Str
  unknownCommand : Bool
  maxPreparedStatements : Nat
  /-- oldest first -/
  preparedStatementsLru : List Str

namespace ConnectionState

/-- A bound of `0` is raised to `1`. -/
def new (maxPreparedStatements : Nat) : ConnectionState where
  preparedStatements := ∅
  sessionVariables := ∅
  tempTables := ∅
  cursors := ∅
  advisoryLocks := ∅
  listenChannels := ∅
  unknownCommand := false
  maxPreparedStatements := max maxPreparedStatements 1
  preparedStatementsLru := []

/-- `is_pinned`. -/
def isPinned (s : ConnectionState) : Bool :=
  s.unknownCommand || !s.preparedStatements.entries.isEmpty || !s.sessionVariables.entries.isEmpty ||
  decide (s.tempTables ≠ ∅) || decide (s.cursors ≠ ∅) || decide (s.advisoryLocks ≠ ∅) ||
  decide (s.listenChannels ≠ ∅)

def markUnknownCommand (s : ConnectionState) : ConnectionState := { s with unknownCommand := true }

/-! ## Prepared statements -/

/-- `add_prepared_statement`: refresh a known name, else evict down to the bound and insert. -/
def addPreparedStatement (s : ConnectionState) (name query : Str) (paramOids : List Nat) :
    ConnectionState :=
  let (lru, statements) :=
    -- a known name is refreshed and evicts nothing
    if name ∈ s.preparedStatements then
      (s.preparedStatementsLru.filter (· != name), s.preparedStatements)
    else Lru.evict s.maxPreparedStatements s.preparedStatementsLru s.preparedStatements
  { s with
    preparedStatements := statements.insert name (query, paramOids)
    preparedStatementsLru := lru ++ [name] }

def removePreparedStatement (s : ConnectionState) (name : Str) : ConnectionState :=
  { s with
    preparedStatements := s.preparedStatements.erase name
    preparedStatementsLru := s.preparedStatementsLru.filter (· != name) }

def clearPreparedStatements (s : ConnectionState) : ConnectionState :=
  { s with preparedStatements := ∅, preparedStatementsLru := [] }

/-! ## Other session state -/

def addSessionVariable (s : ConnectionState) (name value : Str) : ConnectionState :=
  { s with sessionVariables := s.sessionVariables.insert name value }

def removeSessionVariable (s : ConnectionState) (name : Str) : ConnectionState :=
  { s with sessionVariables := s.sessionVariables.erase name }

def clearSessionVariables (s : ConnectionState) : ConnectionState :=
  { s with sessionVariables := ∅ }

def addTempTable (s : ConnectionState) (name : Str) : ConnectionState :=
  { s with tempTables := insert name s.tempTables }

def removeTempTable (s : ConnectionState) (name : Str) : ConnectionState :=
  { s with tempTables := s.tempTables.erase name }

def addCursor (s : ConnectionState) (name : Str) : ConnectionState :=
  { s with cursors := insert name s.cursors }

def removeCursor (s : ConnectionState) (name : Str) : ConnectionState :=
  { s with cursors := s.cursors.erase name }

def addAdvisoryLock (s : ConnectionState) (key : Int) : ConnectionState :=
  { s with advisoryLocks := insert key s.advisoryLocks }

def removeAdvisoryLock (s : ConnectionState) (key : Int) : ConnectionState :=
  { s with advisoryLocks := s.advisoryLocks.erase key }

def addListenChannel (s : ConnectionState) (channel : Str) : ConnectionState :=
  { s with listenChannels := insert channel s.listenChannels }

def removeListenChannel (s : ConnectionState) (channel : Str) : ConnectionState :=
  { s with listenChannels := s.listenChannels.erase channel }

def clearListenChannels (s : ConnectionState) : ConnectionState := { s with listenChannels := ∅ }

/-- `clear_all`: everything but the bound. -/
def clearAll (s : ConnectionState) : ConnectionState :=
  { new s.maxPreparedStatements with maxPreparedStatements := s.maxPreparedStatements }

/-! ## Applying queries -/

/-- The effect of a recognised command on the tracked state. -/
def applyCommand (s : ConnectionState) : DetectedCommand → ConnectionState
  | .set name value => s.addSessionVariable name value
  | .reset name => s.removeSessionVariable name
  | .resetAll => s.clearSessionVariables
  | .createTempTable name => s.addTempTable name
  | .dropTable name => s.removeTempTable name
  | .declareCursor name _ => s.addCursor name
  | .closeCursor name => s.removeCursor name
  -- a call whose key cannot be read leaves no trace, taking or releasing
  | .advisoryLock none => s
  | .advisoryLock (some key) => s.addAdvisoryLock key
  | .advisoryUnlock none => s
  | .advisoryUnlock (some key) => s.removeAdvisoryLock key
  | .discardAll => s.clearAll
  | .deallocate name => s.removePreparedStatement name
  | .deallocateAll => s.clearPreparedStatements
  | .listen channel => s.addListenChannel channel
  | .unlisten none => s.clearListenChannels
  | .unlisten (some channel) => s.removeListenChannel channel
  | .notify _ _ => s

def applyClass (s : ConnectionState) : CommandClass → ConnectionState
  | .clean => s
  | .unknown => s.markUnknownCommand
  | .stateful cmd => s.applyCommand cmd

/-- `apply_single_statement`. -/
def applySingleStatement (s : ConnectionState) (query : Str) : Rust ConnectionState :=
  (CommandDetector.classify query).map s.applyClass

/-- `apply_query`: every `;`-separated part is classified and applied; text without any part is
    classified as it is. -/
def applyQuery (s : ConnectionState) (query : Str) : Rust ConnectionState :=
  match CommandDetector.splitStatements query with
  | [] => s.applySingleStatement query
  -- in the order of the text, each part on the state that the ones before it left
  | statements => statements.foldlM applySingleStatement s

/-- `ConnectionHandler::apply_parse_state`: the text of a Parse is applied like a query, then the
    statement is recorded. -/
def applyParseState (s : ConnectionState) (name query : Str) (paramOids : List Nat) :
    Rust ConnectionState := do
  let s ← s.applyQuery query
  return s.addPreparedStatement name query paramOids

end ConnectionState

end ScryProxy
