import ScryProxy.Spec.Pg.Lexer

/-!
# Statements that touch session state

What a session can hold beyond a transaction (`Obj`), and the statements that create
and remove it, recognised from their tokens.  Everything else is `other`.
-/

namespace Pg

inductive LockMode where
  | exclusive
  | shared
  deriving DecidableEq, Repr

/-- Advisory locks are keyed by one `bigint` or by two `int4`, in separate key spaces. -/
inductive LockKey where
  | one (key : Int)
  | two (first second : Int)
  deriving DecidableEq, Repr

/-- A piece of session state. -/
inductive Obj where
  | setting (name : Str)
  | prepared (name : Str)
  | tempTable (name : Str)
  | cursor (name : Str) (hold : Bool)
  | channel (name : Str)
  | lock (key : LockKey) (mode : LockMode)
  deriving DecidableEq, Repr

inductive Kind where
  | setting | prepared | tempTable | cursor | channel | lock
  deriving DecidableEq, Repr

def Obj.kind : Obj → Kind
  | .setting _ => .setting
  | .prepared _ => .prepared
  | .tempTable _ => .tempTable
  | .cursor _ _ => .cursor
  | .channel _ => .channel
  | .lock _ _ => .lock

/-- State of this kind rolls back with its transaction. -/
def Kind.rollsBack : Kind → Bool
  | .setting | .tempTable | .channel => true
  | .prepared | .cursor | .lock => false

inductive Statement where
  | begin
  | commit (chain : Bool)
  | rollback (chain : Bool)
  | savepoint (name : Str)
  | rollbackTo (name : Str)
  | release (name : Str)
  | set (name : Str)
  | reset (name : Str)
  | discardAll
  /-- `RESET ALL`, `DEALLOCATE ALL`, `CLOSE ALL`, `UNLISTEN *`, `DISCARD TEMP`,
      `pg_advisory_unlock_all()` -/
  | clear (kind : Kind)
  | deallocate (name : Str)
  | createTemp (name : Str) (ifNotExists : Bool)
  | dropTable (names : List Str)
  | declare (name : Str) (hold : Bool)
  | close (name : Str)
  | listen (channel : Str)
  | unlisten (channel : Str)
  | lock (mode : LockMode) (mayFail : Bool) (args : List Token)
  | unlock (mode : LockMode) (args : List Token)
  | other
  deriving DecidableEq, Repr

/-! ## Pieces of the grammar -/

/-- The name an identifier token stands for. -/
def Token.name? : Token → Option Str
  | .word w => some w
  | .quoted n => some n
  | .unicode body => decodeUnicode '\\' body
  | _ => none

def keywords (s : List String) : List Token := s.map fun w => .word w.toList

/-- Drops the keywords where they stand. -/
def skip (words : List String) (ts : List Token) : List Token :=
  if (keywords words).isPrefixOf ts then ts.drop words.length else ts

/-- A dotted name: its parts and what follows. -/
def dotted : List Token → Option (List Str × List Token)
  | t :: .symbol '.' :: rest => do
    let name ← t.name?
    let (names, rest) ← dotted rest
    return (name :: names, rest)
  | t :: rest => t.name?.map fun name => ([name], rest)
  | [] => none

/-- A list of dotted names separated by commas, each by its last part, to the end of the statement
    or to `CASCADE` or `RESTRICT`. -/
def tableList : Nat → List Token → Option (List Str)
  | 0, _ => none
  | fuel + 1, ts =>
    (dotted ts).bind fun (names, rest) =>
      match rest with
      | [] => some [names.getLastD []]
      | [t] => if t ∈ keywords ["cascade", "restrict"] then some [names.getLastD []] else none
      | .symbol ',' :: rest => (tableList fuel rest).map (names.getLastD [] :: ·)
      | _ => none

/-! ## Statements by their first keyword

Each parser gets the tokens after the keyword. -/

def parseEnd (result : Bool → Statement) (ts : List Token) : Statement :=
  let ts := skip ["work"] (skip ["transaction"] ts)
  if ts = [] ∨ ts = keywords ["and", "no", "chain"] then result false
  else if ts = keywords ["and", "chain"] then result true
  else .other

/-- A statement that ends with a name. -/
def parseName (result : Str → Statement) : List Token → Statement
  | [t] => (t.name?.map result).getD .other
  | _ => .other

def parseRollback (ts : List Token) : Statement :=
  let rest := skip ["work"] (skip ["transaction"] ts)
  match rest with
  | .word w :: rest' =>
    if w = "to".toList then parseName .rollbackTo (skip ["savepoint"] rest')
    else parseEnd .rollback ts
  | _ => parseEnd .rollback ts

/-- Names of settings are joined by dots; case never matters in them. -/
def settingName (names : List Str) : Str := fold (List.intercalate ['.'] names)

def parseSet (ts : List Token) : Statement :=
  match dotted (skip ["session"] ts) with
  | some (names, t :: value) =>
    if t = .symbol '=' ∨ t = .word "to".toList then
      if value = keywords ["default"] then .reset (settingName names) else .set (settingName names)
    else .other
  | _ => .other

def parseReset (ts : List Token) : Statement :=
  if ts = keywords ["all"] then .clear .setting
  else match dotted ts with
    | some (names, []) => .reset (settingName names)
    | _ => .other

def parseDiscard (ts : List Token) : Statement :=
  if ts = keywords ["all"] then .discardAll
  else if ts = keywords ["temp"] ∨ ts = keywords ["temporary"] then .clear .tempTable
  else .other

def parseDeallocate (ts : List Token) : Statement :=
  let ts := if ts.length = 1 then ts else skip ["prepare"] ts
  if ts = keywords ["all"] then .clear .prepared else parseName .deallocate ts

def parseCreate (ts : List Token) : Statement :=
  match skip ["local"] (skip ["global"] ts) with
  | t :: .word w :: rest =>
    if t ∈ keywords ["temp", "temporary"] ∧ w = "table".toList then
      let rest' := skip ["if", "not", "exists"] rest
      match dotted rest' with
      | some (names, _) => .createTemp (names.getLastD []) (rest'.length < rest.length)
      | none => .other
    else .other
  | _ => .other

def parseDrop : List Token → Statement
  | .word w :: rest =>
    if w = "table".toList then
      ((tableList rest.length (skip ["if", "exists"] rest)).map .dropTable).getD .other
    else .other
  | _ => .other

def parseDeclare : List Token → Statement
  | t :: rest =>
    match t.name?, rest.dropWhile (· != .word "cursor".toList) with
    | some name, _ :: rest => .declare name ((keywords ["with", "hold"]).isPrefixOf rest)
    | _, _ => .other
  | [] => .other

def parseClose (ts : List Token) : Statement :=
  if ts = keywords ["all"] then .clear .cursor else parseName .close ts

def parseUnlisten (ts : List Token) : Statement :=
  if ts = [.symbol '*'] then .clear .channel else parseName .unlisten ts

/-- Session-level advisory lock functions. -/
def lockFunctions : List (Str × (List Token → Statement)) :=
  [("pg_advisory_lock".toList, .lock .exclusive false),
    ("pg_advisory_lock_shared".toList, .lock .shared false),
    ("pg_try_advisory_lock".toList, .lock .exclusive true),
    ("pg_try_advisory_lock_shared".toList, .lock .shared true),
    ("pg_advisory_unlock".toList, .unlock .exclusive),
    ("pg_advisory_unlock_shared".toList, .unlock .shared),
    ("pg_advisory_unlock_all".toList, fun _ => .clear .lock)]

/-- No parenthesis is closed before it is opened, and none stays open; `depth` are open. -/
def balanced : Nat → List Token → Bool
  | depth, [] => depth == 0
  | depth, .symbol '(' :: ts => balanced (depth + 1) ts
  | 0, .symbol ')' :: _ => false
  | depth + 1, .symbol ')' :: ts => balanced depth ts
  | depth, _ :: ts => balanced depth ts

/-- `SELECT f(args)` for one of the lock functions. -/
def parseSelect (ts : List Token) : Statement :=
  match dotted ts with
  | some (names, .symbol '(' :: rest) =>
    if names.dropLast = [] ∨ names.dropLast = ["pg_catalog".toList] then
      match lockFunctions.lookup (names.getLastD []), rest.getLast? with
      | some result, some (.symbol ')') =>
        if balanced 0 rest.dropLast then result rest.dropLast else .other
      | _, _ => .other
    else .other
  | _ => .other

def parsers : List (Str × (List Token → Statement)) :=
  [("begin".toList, fun _ => .begin), ("start".toList, fun _ => .begin),
    ("commit".toList, parseEnd .commit), ("end".toList, parseEnd .commit),
    ("rollback".toList, parseRollback), ("abort".toList, parseEnd .rollback),
    ("savepoint".toList, parseName .savepoint),
    ("release".toList, fun ts => parseName .release (skip ["savepoint"] ts)),
    ("set".toList, parseSet), ("reset".toList, parseReset), ("discard".toList, parseDiscard),
    ("deallocate".toList, parseDeallocate), ("create".toList, parseCreate),
    ("drop".toList, parseDrop), ("declare".toList, parseDeclare), ("close".toList, parseClose),
    ("listen".toList, parseName .listen), ("unlisten".toList, parseUnlisten),
    ("select".toList, parseSelect)]

/-- The statement a token list stands for. -/
def parse : List Token → Statement
  | .word w :: rest => ((parsers.lookup w).map (· rest)).getD .other
  | _ => .other

/-- The single statement of a text. -/
def parseSingle (sql : Str) : Option Statement :=
  match lex sql, statements sql with
  | some _, [ts] => some (parse ts)
  | _, _ => none

/-- The key that literal arguments stand for. -/
def literalKey : List Token → Option LockKey
  | [.number n] => (Str.decimal n).map fun k => .one k
  | [.symbol '-', .number n] => (Str.decimal n).map fun k => .one (-(k : Int))
  | [.number a, .symbol ',', .number b] => do
    return .two (← Str.decimal a) (← Str.decimal b)
  | _ => none

example : parseSingle "create TEMP table If Not Exists pg_temp.\"A b\" (x int)".toList =
    some (.createTemp "A b".toList true) := by decide +kernel

example : parseSingle "SELECT pg_catalog.pg_try_advisory_lock(1, (2));".toList =
    some (.lock .exclusive true
      [.number ['1'], .symbol ',', .symbol '(', .number ['2'], .symbol ')']) := by decide +kernel

end Pg
