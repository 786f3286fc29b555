import ScryProxy.ForStd.Str

/-!
# Command detection

Model of `protocol/command_detector.rs`: `CommandDetector` classifies SQL text by
prefixes and substrings of its uppercased form.  Offsets found in the uppercased
text are applied to the original text, where they may fall outside a character
boundary; the slice then panics.
-/

namespace ScryProxy

open Str (toUppercase toLowercase)

/-- Detected command that affects connection state. -/
inductive DetectedCommand where
  | set (name value : Str)
  | reset (name : Str)
  | resetAll
  | createTempTable (name : Str)
  | dropTable (name : Str)
  | declareCursor (name : Str) (withHold : Bool)
  | closeCursor (name : Str)
  | advisoryLock (key : Option Int)
  | advisoryUnlock (key : Option Int)
  | discardAll
  | deallocate (name : Str)
  | deallocateAll
  | listen (channel : Str)
  /-- `none` is `UNLISTEN *` -/
  | unlisten (channel : Option Str)
  | notify (channel : Str) (payload : Option Str)
  deriving DecidableEq, Repr

/-- Multiplexing-safety classification of a client command. -/
inductive CommandClass where
  | clean
  | stateful (cmd : DetectedCommand)
  | unknown
  deriving DecidableEq, Repr

namespace CommandDetector

/-- `starts_with_keyword`: `kw` at a word boundary. -/
def startsWithKeyword (upper kw : Str) : Bool :=
  upper.startsWith kw &&
    match upper.drop kw.length with
    | [] => true
    | c :: _ => Str.isWhitespace c || c == '(' || c == ';'

def cleanKeywords : List Str :=
  ["SELECT", "INSERT", "UPDATE", "DELETE", "WITH", "VALUES", "TABLE", "EXPLAIN", "SHOW", "BEGIN",
    "START", "COMMIT", "ROLLBACK", "END", "ABORT", "SAVEPOINT", "RELEASE"].map String.toList

/-- `is_known_clean`. -/
def isKnownClean (sql : Str) : Bool :=
  let upper := toUppercase sql.trimStart
  -- `set_config()` changes a setting from inside a SELECT
  if upper.contains "SET_CONFIG".toList then false
  else cleanKeywords.any fun kw => startsWithKeyword upper kw

/-! ## Parsers for the recognised commands -/

/-- `SET name = value` or `SET name TO value`. -/
def parseSet (sql : Str) : Rust (Option DetectedCommand) :=
  match sql.getFrom 3 with
  | none => .ok none
  | some rest =>
    let rest := rest.trim
    match rest.find ['='] with
    | some eqPos => do
      let name ← rest.sliceTo eqPos
      let value ← rest.sliceFrom (eqPos + 1)
      return some (.set (toLowercase name.trim) (value.trim.trimMatches '\''))
    | none =>
      -- the offset is found in the uppercased text and applied to the original one
      match (toUppercase rest).find " TO ".toList with
      | some toPos => do
        let name ← rest.sliceTo toPos
        let value ← rest.sliceFrom (toPos + 4)
        return some (.set (toLowercase name.trim) (value.trim.trimMatches '\''))
      | none => .ok none

def parseReset (sql : Str) : Option DetectedCommand :=
  (sql.getFrom 5).map fun rest =>
    if rest.trim.eqIgnoreAsciiCase "ALL".toList then .resetAll else .reset (toLowercase rest.trim)

/-- Table name: first word after `TEMP TABLE` or `TEMPORARY TABLE`. -/
def parseCreateTempTable (sql : Str) : Rust (Option DetectedCommand) :=
  let upper := toUppercase sql
  let tablePos := ((upper.find "TEMP TABLE".toList).map (· + 10)).or
    ((upper.find "TEMPORARY TABLE".toList).map (· + 15))
  match tablePos with
  | none => .ok none
  | some pos => do
    let rest ← sql.sliceFrom pos
    return rest.trim.firstWord.map .createTempTable

def parseDropTable (sql : Str) : Rust (Option DetectedCommand) :=
  if (toUppercase sql).startsWith "DROP TABLE".toList then do
    let rest := (← sql.sliceFrom 10).trim
    let rest ←
      if (toUppercase rest).startsWith "IF EXISTS".toList then
        (rest.sliceFrom 9).map Str.trim
      else pure rest
    return rest.firstWord.map .dropTable
  else .ok none

def parseDeclareCursor (sql : Str) : Rust (Option DetectedCommand) :=
  let upper := toUppercase sql
  if upper.startsWith "DECLARE ".toList then do
    let rest := (← sql.sliceFrom 8).trim
    return rest.firstWord.map (.declareCursor · (upper.contains "WITH HOLD".toList))
  else .ok none

def parseCloseCursor (sql : Str) : Rust (Option DetectedCommand) :=
  if (toUppercase sql).startsWith "CLOSE ".toList then do
    let rest := (← sql.sliceFrom 6).trim
    return rest.firstWord.map .closeCursor
  else .ok none

def parseDeallocate (sql : Str) : Rust (Option DetectedCommand) :=
  if (toUppercase sql).startsWith "DEALLOCATE ".toList then do
    let rest := (← sql.sliceFrom 11).trim
    let rest ←
      if (toUppercase rest).startsWith "PREPARE ".toList then
        (rest.sliceFrom 8).map Str.trim
      else pure rest
    if rest.eqIgnoreAsciiCase "ALL".toList then return some .deallocateAll
    else return rest.firstWord.map .deallocate
  else .ok none

def parseListen (sql : Str) : Option DetectedCommand := do
  let rest ← sql.getFrom 7
  let word ← rest.trim.firstWord
  return .listen (word.trimMatches '"')

def parseUnlisten (sql : Str) : Option DetectedCommand :=
  let rest := ((sql.getFrom 8).getD []).trim
  if rest.isEmpty || rest == ['*'] then some (.unlisten none)
  else rest.firstWord.map fun word => .unlisten (some (word.trimMatches '"'))

def parseNotify (sql : Str) : Rust (Option DetectedCommand) :=
  match sql.getFrom 7 with
  | none => .ok none
  | some rest =>
    let rest := rest.trim
    match rest.find [','] with
    | some idx => do
      let payload ← rest.sliceFrom (idx + 1)
      let channel ← rest.sliceTo idx
      return some (.notify (channel.trim.trimMatches '"') (some (payload.trim.trimMatches '\'')))
    | none => .ok (some (.notify (rest.trim.trimMatches '"') none))

/-- `extract_lock_key`: the text between the first `(` and the first `)`, as an integer.  Panics
    when the first `)` stands before the first `(`. -/
def extractLockKey (sql : Str) : Rust (Option Int) :=
  match sql.find ['('], sql.find [')'] with
  | some start, some stop => do
    let inner ← sql.slice (start + 1) stop
    return inner.trim.parseI64
  | _, _ => .ok none

/-! ## Classification -/

/-- `detect`: the first matching rule decides, and its parser's answer is final. -/
def detect (sql : Str) : Rust (Option DetectedCommand) :=
  let sqlUpper := toUppercase sql.trim
  let sqlTrimmed := sql.trim
  if sqlUpper.startsWith "SET ".toList then parseSet sqlTrimmed
  else if sqlUpper.startsWith "RESET ".toList then .ok (parseReset sqlTrimmed)
  else if sqlUpper.startsWith "DISCARD ALL".toList then .ok (some .discardAll)
  else if sqlUpper.contains "CREATE".toList &&
      (sqlUpper.contains "TEMP TABLE".toList || sqlUpper.contains "TEMPORARY TABLE".toList) then
    parseCreateTempTable sqlTrimmed
  else if sqlUpper.startsWith "DROP TABLE".toList then parseDropTable sqlTrimmed
  else if sqlUpper.startsWith "DECLARE ".toList && sqlUpper.contains "CURSOR".toList then
    parseDeclareCursor sqlTrimmed
  else if sqlUpper.startsWith "CLOSE ".toList then parseCloseCursor sqlTrimmed
  else if sqlUpper.startsWith "DEALLOCATE ".toList then parseDeallocate sqlTrimmed
  else if sqlUpper.startsWith "LISTEN ".toList then .ok (parseListen sqlTrimmed)
  else if sqlUpper.startsWith "UNLISTEN ".toList || sqlUpper == "UNLISTEN".toList then
    .ok (parseUnlisten sqlTrimmed)
  else if sqlUpper.startsWith "NOTIFY ".toList then parseNotify sqlTrimmed
  -- the shared forms contain these names, the try-locks do not
  else if sqlUpper.contains "PG_ADVISORY_LOCK".toList &&
      !sqlUpper.contains "PG_ADVISORY_UNLOCK".toList then
    (extractLockKey sqlUpper).map fun key => some (.advisoryLock key)
  else if sqlUpper.contains "PG_ADVISORY_UNLOCK".toList then
    (extractLockKey sqlUpper).map fun key => some (.advisoryUnlock key)
  else .ok none

/-- `classify`. -/
def classify (sql : Str) : Rust CommandClass := do
  match ← detect sql with
  | some cmd => return .stateful cmd
  | none => return if isKnownClean sql then .clean else .unknown

/-- `split_statements`: cuts at every `;`, whatever it stands in. -/
def splitStatements (sql : Str) : List Str :=
  ((sql.splitOn ';').map Str.trim).filter fun s => !s.isEmpty

end CommandDetector

end ScryProxy
