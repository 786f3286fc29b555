import ScryProxy.Spec.Pg.Statement

/-!
# A reference backend session

What a Postgres session holds and how statements and transactions change it.  The
results of statements that the text does not determine (whether a statement fails,
what an argument evaluates to, what an unrecognised statement does) are choices of
the environment.

- Settings, temporary tables and channel registrations roll back with their
  transaction; prepared statements and advisory locks do not.
- A failed statement, and any statement but the end of the block in an aborted
  transaction, has no effect (`runStatement_aborted`).
- `DISCARD ALL` fails inside a block and beside other statements.
- Parse executes nothing; Execute runs the text that was parsed.
- Only Query and Execute bring anything back into reach or create it, and Parse
  creates nothing but its statement (`mayHold_receive_parse`, `mayHold_receive_sync`).
-/

namespace Pg

/-! ## Effects on the objects held -/

inductive Act where
  /-- create if absent -/
  | create (o : Obj)
  /-- one more of a counted object -/
  | acquire (o : Obj)
  /-- one less; nothing if absent -/
  | release (o : Obj)
  | clear (kind : Kind)
  deriving DecidableEq, Repr

/-- Objects are kept as a bag: advisory locks count. -/
def Act.perform (objs : List Obj) : Act → List Obj
  | .create o => objs.insert o
  | .acquire o => o :: objs
  | .release o => objs.erase o
  | .clear kind => objs.filter fun o => o.kind != kind

/-- What a successful statement does outside transaction control.  `key` is the value of lock
    arguments and `granted` the answer of a try-lock. -/
def Statement.acts (key : LockKey) (granted : Bool) : Statement → List Act
  | .set name => [.create (.setting name)]
  | .reset name => [.release (.setting name)]
  | .clear kind => [.clear kind]
  | .deallocate name => [.release (.prepared name)]
  | .createTemp name _ => [.create (.tempTable name)]
  | .dropTable names => names.map fun name => .release (.tempTable name)
  | .declare name hold => [.create (.cursor name hold)]
  | .close name => [.release (.cursor name true), .release (.cursor name false)]
  | .listen channel => [.create (.channel channel)]
  | .unlisten channel => [.release (.channel channel)]
  | .lock mode mayFail _ => if mayFail && !granted then [] else [.acquire (.lock key mode)]
  | .unlock mode _ => [.release (.lock key mode)]
  | _ => []

/-! ## Transactions -/

structure Session where
  objs : List Obj
  /-- states to roll back to, newest first; the last one is the start of the open transaction, and
      without a transaction there is none -/
  frames : List (Str × List Obj)
  /-- the transaction was opened by `BEGIN` -/
  block : Bool
  aborted : Bool
  /-- an extended-protocol message failed: messages are skipped until Sync -/
  skipping : Bool
  /-- texts of prepared statements, latest first; the unnamed one is `[]` -/
  texts : List (Str × Str)
  deriving DecidableEq, Repr

namespace Session

def start : Session := ⟨[], [], false, false, false, []⟩

/-- Objects after a rollback to `saved`: transactional objects are those of `saved`, and a cursor
    opened since is gone. -/
def restore (saved now : List Obj) : List Obj :=
  saved.filter (fun o => o.kind.rollsBack) ++
  now.filter (fun o => !o.kind.rollsBack && (o.kind != .cursor || o ∈ saved))

/-- Cursors without hold end with their transaction. -/
def outlive (objs : List Obj) : List Obj :=
  objs.filter fun
    | .cursor _ hold => hold
    | _ => true

def close (b : Session) (objs : List Obj) : Session :=
  { b with objs := outlive objs, frames := [], block := false, aborted := false }

def commit (b : Session) : Session := b.close b.objs

def rollback (b : Session) : Session :=
  match b.frames.getLast? with
  | some (_, saved) => b.close (restore saved b.objs)
  | none => b.close b.objs

/-- Opens a transaction unless one is open. -/
def openTransaction (b : Session) : Session :=
  if b.frames = [] then { b with frames := [([], b.objs)] } else b

/-- `AND CHAIN`: a new block follows at once. -/
def chained (chain : Bool) (b : Session) : Session :=
  if chain then { b.openTransaction with block := true } else b

/-- What an error does to the transaction. -/
def fail (b : Session) : Session :=
  if b.block then { b with aborted := true } else b.rollback

/-- `ROLLBACK TO`: the savepoint stays. -/
def rollbackTo (b : Session) (name : Str) : Option Session :=
  match b.frames.dropWhile (·.1 != name) with
  | (_, saved) :: frames =>
    some { b with
      objs := restore saved b.objs
      frames := (name, saved) :: frames
      aborted := false }
  | [] => none

/-- `RELEASE`: the savepoint and the later ones go. -/
def releaseSavepoint (b : Session) (name : Str) : Option Session :=
  match b.frames.dropWhile (·.1 != name) with
  | _ :: frames => some { b with frames }
  | [] => none

/-- What the environment decides about a statement. -/
inductive Result where
  | failed
  /-- `acts` are the effects of a statement that is not recognised -/
  | done (acts : List Act) (key : LockKey) (granted : Bool)
  deriving DecidableEq, Repr

/-- One statement inside an open transaction; `none` is an error.  `alone` says that it is the only
    one of its transaction. -/
def runStatement (alone : Bool) (b : Session) (st : Statement) (result : Result) : Option Session :=
  if b.aborted then
    match st with
    | .commit chain | .rollback chain => some (b.rollback.chained chain)
    | .rollbackTo name => b.rollbackTo name
    | _ => none
  else
    match result with
    | .failed => none
    | .done acts key granted =>
      match st with
      -- BEGIN inside a block is a warning, outside it makes the open transaction a block
      | .begin => some { b with block := true }
      | .commit chain => some (b.commit.chained chain)
      | .rollback chain => some (b.rollback.chained chain)
      | .savepoint name =>
        if b.block then some { b with frames := (name, b.objs) :: b.frames } else none
      | .rollbackTo name => if b.block then b.rollbackTo name else none
      | .release name => if b.block then b.releaseSavepoint name else none
      -- refused in a block and beside other statements
      | .discardAll => if b.block || !alone then none else some { b with objs := [] }
      | .other => some { b with objs := acts.foldl Act.perform b.objs }
      | st => some { b with objs := (st.acts key granted).foldl Act.perform b.objs }

/-- The statements of a Query in order; an error ends it. -/
def runStatements (alone : Bool) : Session → List (Statement × Result) → Session
  | b, [] => b
  | b, (st, result) :: rest =>
    match runStatement alone b.openTransaction st result with
    | none => b.openTransaction.fail
    | some b' => runStatements alone b' rest

/-- The end of a Query, or Sync: a transaction that no `BEGIN` opened commits. -/
def settle (b : Session) : Session := if b.block then b else b.commit

/-! ## Messages -/

inductive Message where
  /-- `results` are for the statements of the text in order; a missing one is a failure -/
  | query (sql : Str) (results : List Result)
  | parse (name sql : Str) (paramOids : List Nat) (fails : Bool)
  /-- Close of a statement -/
  | close (name : Str)
  /-- Bind and Execute of a prepared statement -/
  | execute (name : Str) (result : Result)
  | sync
  deriving DecidableEq, Repr

/-- The text of a live prepared statement. -/
def text? (b : Session) (name : Str) : Option Str :=
  if name = [] ∨ .prepared name ∈ b.objs then b.texts.lookup name else none

/-- An extended-protocol error. -/
def failExtended (b : Session) : Session := { b.fail with skipping := true }

def endsBlock : Statement → Bool
  | .commit _ | .rollback _ | .rollbackTo _ => true
  | _ => false

/-- Parse succeeds on a text of at most one statement, under a name not in use, and in an aborted
    transaction only for the end of the block. -/
def canParse (b : Session) (name sql : Str) : Bool :=
  (lex sql).isSome && decide ((statements sql).length ≤ 1) &&
  decide (name = [] ∨ .prepared name ∉ b.objs) &&
  (!b.aborted || (statements sql).all fun ts => endsBlock (parse ts))

/-- One message of the client. -/
def receive (b : Session) (msg : Message) : Session :=
  if b.skipping then
    match msg with
    | .sync => { b.settle with skipping := false }
    | _ => b
  else
    match msg with
    | .query sql results =>
      -- a text that does not lex is one error
      if (lex sql).isSome then
        let sts := (statements sql).map parse
        let alone := decide (sts.length = 1 ∧ b.frames = [])
        let results := results ++ List.replicate sts.length .failed
        (runStatements alone b (sts.zip results)).settle
      else b.openTransaction.fail
    | .parse name sql _ fails =>
      if !fails && b.canParse name sql then
        { b.openTransaction with
          objs := if name = [] then b.objs else b.objs.insert (.prepared name)
          texts := (name, sql) :: b.texts }
      else b.openTransaction.failExtended
    | .close name => { b with objs := b.objs.filter (· != .prepared name) }
    | .execute name result =>
      match b.text? name with
      | none => b.openTransaction.failExtended
      | some sql =>
        match (statements sql).map parse with
        | [] => b.openTransaction
        | st :: _ =>
          match runStatement (decide (b.frames = [])) b.openTransaction st result with
          | none => b.openTransaction.failExtended
          | some b' => b'
    | .sync => b.settle

/-! ## What a session may still hold -/

/-- The object is held, or a rollback could bring it back. -/
def mayHold (b : Session) (o : Obj) : Bool :=
  decide (o ∈ b.objs) || (o.kind.rollsBack && b.frames.any fun frame => decide (o ∈ frame.2))

variable {b : Session} {o : Obj}

theorem mayHold_iff :
    b.mayHold o = true ↔
      o ∈ b.objs ∨ (o.kind.rollsBack = true ∧ ∃ frame ∈ b.frames, o ∈ frame.2) := by
  simp [mayHold]

/-- A closed transaction leaves nothing to roll back to. -/
theorem mayHold_close {objs : List Obj} (h : (b.close objs).mayHold o = true) : o ∈ objs := by
  rcases mayHold_iff.1 h with h | ⟨-, frame, hframe, -⟩
  · exact (List.mem_filter.1 h).1
  · cases hframe

theorem mayHold_settle (h : b.settle.mayHold o = true) : b.mayHold o = true := by
  unfold settle at h
  split at h
  · exact h
  · exact mayHold_iff.2 (.inl (mayHold_close h))

theorem mayHold_openTransaction (h : b.openTransaction.mayHold o = true) : b.mayHold o = true := by
  unfold openTransaction at h
  split at h
  · rcases mayHold_iff.1 h with h | ⟨-, frame, hframe, ho⟩
    · exact mayHold_iff.2 (.inl h)
    -- the one frame is what the session holds
    · cases List.mem_singleton.1 hframe
      exact mayHold_iff.2 (.inl ho)
  · exact h

theorem mayHold_rollback (h : b.rollback.mayHold o = true) : b.mayHold o = true := by
  unfold rollback at h
  split at h
  next saved hlast =>
    rcases List.mem_append.1 (mayHold_close h) with hsaved | hnow
    · obtain ⟨ho, hkind⟩ := List.mem_filter.1 hsaved
      exact mayHold_iff.2 (.inr ⟨hkind, _, List.mem_of_getLast? hlast, ho⟩)
    · exact mayHold_iff.2 (.inl (List.mem_filter.1 hnow).1)
  next => exact mayHold_iff.2 (.inl (mayHold_close h))

theorem mayHold_fail (h : b.fail.mayHold o = true) : b.mayHold o = true := by
  unfold fail at h
  split at h
  · exact h
  · exact mayHold_rollback h

/-- Parse makes nothing but its statement. -/
theorem mayHold_receive_parse {name sql : Str} {paramOids : List Nat} {fails : Bool}
    (h : (b.receive (.parse name sql paramOids fails)).mayHold o = true) :
    b.mayHold o = true ∨ o = .prepared name := by
  unfold receive at h
  split at h
  · exact .inl h
  dsimp only at h
  split at h
  · rcases mayHold_iff.1 h with h | h
    · dsimp only at h
      split at h
      · exact .inl (mayHold_iff.2 (.inl h))
      · rcases List.mem_insert_iff.1 h with rfl | h
        · exact .inr rfl
        · exact .inl (mayHold_iff.2 (.inl h))
    · exact .inl (mayHold_openTransaction (mayHold_iff.2 (.inr h)))
  · exact .inl (mayHold_openTransaction (mayHold_fail h))

/-- Sync brings nothing back. -/
theorem mayHold_receive_sync (h : (b.receive .sync).mayHold o = true) : b.mayHold o = true := by
  unfold receive at h
  split at h
  · exact mayHold_settle h
  · exact mayHold_settle h

theorem mayHold_receive_close {name : Str} (h : (b.receive (.close name)).mayHold o = true) :
    b.mayHold o = true := by
  unfold receive at h
  split at h
  · exact h
  · rw [mayHold_iff] at h ⊢
    exact h.imp (fun h => (List.mem_filter.1 h).1) id

end Session

end Pg
