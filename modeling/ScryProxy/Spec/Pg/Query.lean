import ScryProxy.Spec.Pg.Session

/-!
# What a query can do to its session

The statements that begin like a query (SELECT, INSERT, UPDATE, DELETE, WITH, VALUES,
TABLE, EXPLAIN), with SHOW and transaction control, and the places in them from which
session state can change (`sources`): calls of the functions that set parameters, take
or give back advisory locks or run a query text, a new table that can be temporary, an
UPDATE of `pg_settings`, and EXPLAIN ANALYZE of a prepared statement.

Expressions are not evaluated: which calls are made, how often and with what arguments
is a choice of the environment, and so is whether the statement fails.  Functions and
views that users define are outside of this.  `keepsSession_iff`: a statement leaves every
session as it was, in all its runs, exactly when it has no source.
-/

namespace Pg

/-! ## Session state -/

/-- What a session holds from one transaction to the next. -/
structure Holdings where
  /-- values of the parameters -/
  values : Str → Str
  objs : List Obj

inductive Change where
  /-- a local value ends with the transaction -/
  | assign (name value : Str) (isLocal : Bool)
  | act (a : Act)
  deriving DecidableEq, Repr

def Change.assigns (values : Str → Str) : Change → Str → Str
  | .assign name value false => Function.update values name value
  | _ => values

def Change.act? : Change → Option Act
  | .act a => some a
  | .assign _ _ _ => none

namespace Holdings

/-- After a transaction that makes the changes. -/
def after (h : Holdings) (changes : List Change) (commits : Bool) : Holdings :=
  let now := (changes.filterMap Change.act?).foldl Act.perform h.objs
  if commits then ⟨changes.foldl Change.assigns h.values, Session.outlive now⟩
  else ⟨h.values, Session.outlive (Session.restore h.objs now)⟩

/-- No transaction is open: the cursors that are left are held. -/
def Settled (h : Holdings) : Prop := Session.outlive h.objs = h.objs

/-- The same parameter values and the same objects, counted. -/
def Same (h h' : Holdings) : Prop := h'.values = h.values ∧ h'.objs.Perm h.objs

/-- Rolling back without a change gives back what there was. -/
theorem restore_self (objs : List Obj) : (Session.restore objs objs).Perm objs := by
  have hnow : objs.filter (fun o => !o.kind.rollsBack && (o.kind != .cursor || decide (o ∈ objs))) =
      objs.filter fun o => !o.kind.rollsBack := by
    refine List.filter_congr fun o ho => ?_
    simp [ho]
  unfold Session.restore
  rw [hnow]
  exact List.filter_append_perm _ objs

theorem same_after_nil {h : Holdings} (hsettled : h.Settled) (commits : Bool) :
    h.Same (h.after [] commits) := by
  cases commits with
  | true => exact ⟨rfl, .of_eq hsettled⟩
  | false =>
    have hperm : (Session.outlive (Session.restore h.objs h.objs)).Perm (Session.outlive h.objs) :=
      (restore_self h.objs).filter _
    exact ⟨rfl, hperm.trans (.of_eq hsettled)⟩

end Holdings

/-! ## Sources -/

/-- Built-in functions that change session state. -/
inductive SessionFunction where
  | setConfig
  | lock (mode : LockMode) (mayFail : Bool)
  | unlock (mode : LockMode)
  | unlockAll
  /-- runs a query text that it is given -/
  | runsText
  deriving DecidableEq, Repr

def sessionFunctions : List (Str × SessionFunction) :=
  [("set_config".toList, .setConfig),
    ("pg_advisory_lock".toList, .lock .exclusive false),
    ("pg_advisory_lock_shared".toList, .lock .shared false),
    ("pg_try_advisory_lock".toList, .lock .exclusive true),
    ("pg_try_advisory_lock_shared".toList, .lock .shared true),
    ("pg_advisory_unlock".toList, .unlock .exclusive),
    ("pg_advisory_unlock_shared".toList, .unlock .shared),
    ("pg_advisory_unlock_all".toList, .unlockAll),
    ("query_to_xml".toList, .runsText),
    ("query_to_xml_and_xmlschema".toList, .runsText),
    ("ts_stat".toList, .runsText),
    ("ts_rewrite".toList, .runsText)]

/-- A place of a statement from which session state can change. -/
inductive Source where
  /-- a call; `escaped` if the name is spelled `U&""` -/
  | call (f : SessionFunction) (escaped : Bool)
  /-- a new table that can be temporary -/
  | table (name : Str)
  /-- an UPDATE of `pg_settings` -/
  | settings
  /-- a prepared statement is executed -/
  | prepared
  deriving DecidableEq, Repr

/-- The changes that calls can make. -/
def Change.byCall : Change → Bool
  | .assign _ _ _ => true
  | .act (.acquire (.lock _ _)) => true
  | .act (.release (.lock _ _)) => true
  | .act (.clear .lock) => true
  | _ => false

def SessionFunction.allows : SessionFunction → Change → Bool
  | .setConfig, .assign _ _ _ => true
  | .lock mode _, .act (.acquire (.lock _ mode')) => mode' = mode
  | .unlock mode, .act (.release (.lock _ mode')) => mode' = mode
  | .unlockAll, .act (.clear .lock) => true
  | .runsText, c => c.byCall
  | _, _ => false

def Source.allows : Source → Change → Bool
  | .call f _, c => f.allows c
  | .table name, .act (.create (.tempTable name')) => name' = name
  | .settings, .assign _ _ isLocal => !isLocal
  | .prepared, .act (.create (.tempTable _)) => true
  | .prepared, c => c.byCall
  | _, _ => false

/-! ### Calls -/

/-- The name a token spells, whether by escapes, and what follows it. -/
def spelledName : Token → List Token → Option (Str × Bool × List Token)
  | .word w, rest => some (w, false, rest)
  | .quoted n, rest => some (n, false, rest)
  | .unicode body, .word u :: .literal [esc] :: rest =>
    if u = "uescape".toList then (decodeUnicode esc body).map (·, true, rest)
    else (decodeUnicode '\\' body).map (·, true, .word u :: .literal [esc] :: rest)
  | .unicode body, rest => (decodeUnicode '\\' body).map (·, true, rest)
  | _, _ => none

/-- After these tokens (nearest first) a name before a parenthesis is a function of the system
    catalog: it is not qualified by another schema and does not name a table, a common table
    expression or an alias with its columns. -/
def namesFunction : List Token → Bool
  | .symbol '.' :: schema :: _ => schema.name? = some "pg_catalog".toList
  | t :: _ => t ∉ keywords ["into", "as", "with", "recursive"]
  | [] => true

def callAt (before : List Token) (t : Token) (rest : List Token) : Option Source :=
  (spelledName t rest).bind fun (name, escaped, after) =>
    if after.head? = some (.symbol '(') ∧ namesFunction before then
      (sessionFunctions.lookup name).map (.call · escaped)
    else none

/-- The calls in the tokens that follow `before`. -/
def calls : List Token → List Token → List Source
  | _, [] => []
  | before, t :: rest => (callAt before t rest).toList ++ calls (t :: before) rest

/-! ### New tables -/

/-- The table that is created, if it can be temporary: it is unless the name is qualified by another
    schema or the table is unlogged.  For a plain name the search path decides. -/
def tempTarget (ts : List Token) : Option Str :=
  let ts := skip ["local"] (skip ["global"] ts)
  if ts.head? = some (.word "unlogged".toList) then none
  else (dotted (skip ["table"] (skip ["temp"] (skip ["temporary"] ts)))).bind fun (names, _) =>
    match names.dropLast.getLast? with
    | none => names.getLast?
    | some schema => if "pg_temp".toList.isPrefixOf schema then names.getLast? else none

/-- What follows the INTO of a SELECT; the INTO of INSERT and MERGE is another. -/
def afterInto : Nat → Option Token → List Token → Option (List Token)
  | _, _, [] => none
  | depth, prev, t :: rest =>
    if t = .symbol '(' then afterInto (depth + 1) (some t) rest
    else if t = .symbol ')' then afterInto (depth - 1) (some t) rest
    else if depth = 0 ∧ t = .word "into".toList then
      if prev.any (· ∈ keywords ["insert", "merge"]) then none else some rest
    else afterInto depth (some t) rest

/-- The table of CREATE TABLE AS. -/
def createTarget (ts : List Token) : Option Str :=
  match ts.dropWhile (· ∈ keywords ["local", "global", "temp", "temporary"]) with
  | .word w :: rest =>
    if w = "table".toList then tempTarget (skip ["if", "not", "exists"] rest) else none
  | _ => none

/-! ### Updates of `pg_settings` -/

def updatesSettings : Nat → List Token → Bool
  | _, [] => false
  | depth, t :: rest =>
    if t = .symbol '(' then updatesSettings (depth + 1) rest
    else if t = .symbol ')' then updatesSettings (depth - 1) rest
    else
      (decide (depth = 0) && t == .word "update".toList &&
        (dotted ((skip ["only"] rest).dropWhile (· == .symbol '('))).any fun (names, _) =>
          names = ["pg_settings".toList] || names = ["pg_catalog".toList, "pg_settings".toList]) ||
      updatesSettings depth rest

/-! ### Statements -/

/-- The sources of a query, which starts with the keyword `w`. -/
def querySources (w : Str) (rest : List Token) : List Source :=
  calls [] (.word w :: rest) ++
  (if w = "select".toList ∨ w = "with".toList then
    ((afterInto 0 none rest).bind tempTarget).map .table else none).toList ++
  if (w = "update".toList ∨ w = "with".toList) ∧ updatesSettings 0 (.word w :: rest) then
    [.settings]
  else []

def queryKeywords : List Str :=
  ["select", "insert", "update", "delete", "merge", "with", "values", "table"].map String.toList

/-- What EXPLAIN ANALYZE runs. -/
def executedSources (body : List Token) : List Source :=
  match body.dropWhile (· == .symbol '(') with
  | .word w :: rest =>
    if queryKeywords.contains w then querySources w rest
    else if w = "execute".toList then [.prepared]
    else if w = "create".toList then
      calls [] rest ++ ((createTarget rest).map .table).toList ++
        if .word "execute".toList ∈ rest then [.prepared] else []
    -- the query of the cursor is run, but no cursor is made
    else if w = "declare".toList then calls [] rest
    else []
  | _ => []

/-- The last ANALYZE among the options of EXPLAIN, each with its value. -/
def analyzeOption (options : List Token) : Bool :=
  (options.splitOn (.symbol ',')).foldl (fun on option =>
    match option with
    | t :: value =>
      if t ∈ keywords ["analyze", "analyse"] then
        match value with
        | [.word v] | [.literal v] => fold v ≠ "false".toList ∧ fold v ≠ "off".toList
        | [.number v] => v ≠ ['0']
        | _ => true
      else on
    | [] => on) false

/-- Whether EXPLAIN runs its statement, and the statement. -/
def explainBody : List Token → Bool × List Token
  | .symbol '(' :: rest =>
    (analyzeOption (rest.takeWhile (· != .symbol ')')), (rest.dropWhile (· != .symbol ')')).tail)
  | t :: rest =>
    if t ∈ keywords ["analyze", "analyse"] then (true, skip ["verbose"] rest) else (false, t :: rest)
  | [] => (false, [])

/-- The sources of a statement.  SHOW and transaction control have none. -/
def sources : List Token → List Source
  | .word w :: rest =>
    if w = "explain".toList then
      if (explainBody rest).1 then executedSources (explainBody rest).2 else []
    else if queryKeywords.contains w then querySources w rest
    else []
  | _ => []

/-! ## Runs -/

/-- A run of the statement as a transaction, from `h` to `h'`. -/
def Runs (ts : List Token) (h h' : Holdings) : Prop :=
  ∃ changes commits, (∀ c ∈ changes, ∃ s ∈ sources ts, s.allows c = true) ∧
    h' = h.after changes commits

/-- In every run the session is left as it was. -/
def KeepsSession (ts : List Token) : Prop :=
  ∀ h h' : Holdings, h.Settled → Runs ts h h' → h.Same h'

/-- A session that holds just these objects, with every parameter empty. -/
def Holdings.ofObjs (objs : List Obj) : Holdings := ⟨fun _ => [], objs⟩

theorem Holdings.not_same_assign :
    ¬ (ofObjs []).Same ((ofObjs []).after [.assign [] ['x'] false] true) := by
  intro h
  have hvalue : ['x'] = ([] : Str) := congrFun h.1 []
  exact nomatch hvalue

theorem Holdings.not_same_of_length {h h' : Holdings} (hlen : h'.objs.length ≠ h.objs.length) :
    ¬ h.Same h' :=
  fun hsame => hlen hsame.2.length_eq

/-- Every source can change some session. -/
theorem Source.exists_change (s : Source) :
    ∃ (h : Holdings) (c : Change), h.Settled ∧ s.allows c = true ∧ ¬ h.Same (h.after [c] true) := by
  have hassign (hs : s.allows (.assign [] ['x'] false) = true) :
      ∃ (h : Holdings) (c : Change), h.Settled ∧ s.allows c = true ∧
        ¬ h.Same (h.after [c] true) :=
    ⟨.ofObjs [], _, rfl, hs, Holdings.not_same_assign⟩
  -- a lock that is taken, or that is there and given back, changes the number of objects
  cases s with
  | call f escaped =>
    cases f with
    | setConfig => exact hassign rfl
    | lock mode mayFail =>
      exact ⟨.ofObjs [], .act (.acquire (.lock (.one 0) mode)), rfl, decide_eq_true rfl,
        Holdings.not_same_of_length Nat.one_ne_zero⟩
    | unlock mode =>
      refine ⟨.ofObjs [.lock (.one 0) mode], .act (.release (.lock (.one 0) mode)), rfl,
        decide_eq_true rfl, Holdings.not_same_of_length ?_⟩
      cases mode <;> decide
    | unlockAll =>
      exact ⟨.ofObjs [.lock (.one 0) .exclusive], .act (.clear .lock), rfl, rfl,
        Holdings.not_same_of_length (by decide)⟩
    | runsText => exact hassign rfl
  | table name =>
    exact ⟨.ofObjs [], .act (.create (.tempTable name)), rfl, decide_eq_true rfl,
      Holdings.not_same_of_length Nat.one_ne_zero⟩
  | settings => exact hassign rfl
  | prepared => exact hassign rfl

/-- A statement keeps every session exactly if nothing in it can change one. -/
theorem keepsSession_iff {ts : List Token} : KeepsSession ts ↔ sources ts = [] := by
  constructor
  · intro hkeeps
    by_contra hne
    obtain ⟨s, hs⟩ := List.exists_mem_of_ne_nil _ hne
    obtain ⟨h, c, hsettled, hallows, hchanged⟩ := s.exists_change
    refine hchanged (hkeeps h _ hsettled ⟨[c], true, ?_, rfl⟩)
    intro c' hc'
    rw [List.mem_singleton.1 hc']
    exact ⟨s, hs, hallows⟩
  · rintro hnone h _ hsettled ⟨changes, commits, hallowed, rfl⟩
    -- without a source there is no change
    have hnil : changes = [] := by
      refine List.eq_nil_iff_forall_not_mem.2 fun c hc => ?_
      obtain ⟨s, hs, -⟩ := hallowed c hc
      rw [hnone] at hs
      exact nomatch hs
    rw [hnil]
    exact Holdings.same_after_nil hsettled commits

example : ["SELECT pg_try_advisory_lock(1)", "WITH insert AS (SELECT 1) SELECT 1 INTO t FROM insert",
      "INSERT INTO t SELECT 1", "UPDATE ONLY pg_catalog.pg_settings SET setting = 'x'",
      "EXPLAIN SELECT set_config('a', 'b', false)", "EXPLAIN (ANALYZE) EXECUTE p"].map
    (fun sql => (statements sql.toList).map sources) =
    [[[.call (.lock .exclusive true) false]], [[.table ['t']]], [[]], [[.settings]], [[]],
      [[.prepared]]] := by decide +kernel

end Pg
