import ScryProxy.Spec.PinnedObjects

/-!
# Advisory locks

The backend counts session-level advisory locks by key and mode; the tracker keeps a
set of the integers it can read between the first parentheses of a call.  A text pins
a key when it mentions `pg_advisory_lock` and not `pg_advisory_unlock`, and drops it
when it mentions the latter.  As long as each call that takes a lock not yet held pins
its key, and no call drops a key that is still held afterwards, a held lock means a
pinned connection (`lockPinSound_of_admits`); `tellsPins_lock` and `tellsPins_unlock` say
which calls are like that.  `tryLock_unpinned` holds a lock that the tracker never saw.
-/

namespace ScryProxy

open CommandDetector (classify)

/-- A call of a session-level lock function: its text, the value its arguments have, and the answer
    of a try-lock. -/
structure LockCall where
  sql : Str
  key : Pg.LockKey
  granted : Bool
  deriving DecidableEq, Repr

/-- The locks held after a call; `none` when the text is not one call of a lock function, or its
    literal arguments are not the key. -/
def LockCall.run (locks : List Pg.Obj) (call : LockCall) : Option (List Pg.Obj) :=
  let done (st : Pg.Statement) := (st.acts call.key call.granted).foldl Pg.Act.perform locks
  match Pg.parseSingle call.sql with
  | some (.lock mode mayFail args) =>
    if (Pg.literalKey args).all (· = call.key) then some (done (.lock mode mayFail args)) else none
  | some (.unlock mode args) =>
    if (Pg.literalKey args).all (· = call.key) then some (done (.unlock mode args)) else none
  | some (.clear .lock) => some (done (.clear .lock))
  | _ => none

/-- What a call of a lock function leaves: the locks before it, and the one it takes. -/
theorem LockCall.mem_run_lock {locks locks' : List Pg.Obj} {call : LockCall} {mode : Pg.LockMode}
    {mayFail : Bool} {args : List Pg.Token}
    (hparse : Pg.parseSingle call.sql = some (.lock mode mayFail args))
    (hrun : call.run locks = some locks') {o : Pg.Obj} (ho : o ∈ locks') :
    o ∈ locks ∨ o = .lock call.key mode := by
  unfold LockCall.run at hrun
  rw [hparse] at hrun
  dsimp only at hrun
  split at hrun
  · cases hrun
    unfold Pg.Statement.acts at ho
    dsimp only at ho
    split at ho
    · exact .inl ho
    · rcases List.mem_cons.1 ho with rfl | ho
      · exact .inr rfl
      · exact .inl ho
  · cases hrun

/-- A lock call whose words give its key is fine in every state. -/
theorem tellsPins_lock {call : LockCall} {mode : Pg.LockMode} {mayFail : Bool}
    {args : List Pg.Token} {key : Int} (hparts : queryParts call.sql = [call.sql])
    (hparse : Pg.parseSingle call.sql = some (.lock mode mayFail args))
    (hkey : call.key = .one key)
    (hclass : classify call.sql = .ok (.stateful (.advisoryLock (some key))))
    (j : ConnectionState × List Pg.Obj) : TellsPins LockCall.sql LockCall.run j call := by
  intro locks hrun
  refine .of_adds hparts hclass rfl (fun _ => rfl) fun o ho hnew => ?_
  rcases LockCall.mem_run_lock hparse hrun ho with hold | rfl
  · exact absurd hold hnew
  · exact hkey

/-- An unlock call whose words give a key is fine where it gives up the last lock of that key. -/
theorem tellsPins_unlock {call : LockCall} (key : Int) (hparts : queryParts call.sql = [call.sql])
    (hclass : classify call.sql = .ok (.stateful (.advisoryUnlock (some key))))
    {j : ConnectionState × List Pg.Obj}
    (hgone : ∀ locks, call.run j.2 = some locks →
      locks ⊆ j.2 ∧ ∀ mode, .lock (.one key) mode ∉ locks) :
    TellsPins LockCall.sql LockCall.run j call := by
  intro locks hrun
  obtain ⟨hsub, hnone⟩ := hgone locks hrun
  refine .of_drops hparts hclass hsub fun p hdrop o ho hstands => ?_
  -- the only pin it drops is that of its key
  cases of_decide_eq_true hdrop
  cases o with
  | lock k mode =>
    cases hstands
    exact absurd ho (hnone mode)
  | _ => cases hstands

/-- After the calls, a held lock means a pinned connection. -/
def LockPinSound (maxPreparedStatements : Nat) (calls : List LockCall) : Prop :=
  ∀ j, Trace.exec (watchTexts LockCall.sql LockCall.run) (.new maxPreparedStatements, []) calls =
      some j → j.2 ≠ [] → j.1.isPinned = true

/-- In a run whose calls pin the keys they take and drop no key that stays held, a held lock pins
    the connection. -/
theorem lockPinSound_of_admits (maxPreparedStatements : Nat) (calls : List LockCall)
    (hadm : Trace.Admits (watchTexts LockCall.sql LockCall.run)
      (TellsPins LockCall.sql LockCall.run) (.new maxPreparedStatements, []) calls) :
    LockPinSound maxPreparedStatements calls :=
  fun _ hrun hne => pinned_of_admits hadm hrun hne

/-- Two locks by literal keys and the unlock of one: the other is held, and the connection is
    pinned. -/
theorem lockPinSound_two_keys :
    (Trace.exec (watchTexts LockCall.sql LockCall.run) (.new 100, [])
      [⟨"SELECT pg_advisory_lock(7)".toList, .one 7, true⟩,
        ⟨"SELECT pg_advisory_lock(8)".toList, .one 8, true⟩,
        ⟨"SELECT pg_advisory_unlock(7)".toList, .one 7, true⟩]).map Prod.snd =
      some [.lock (.one 8) .exclusive] ∧
    LockPinSound 100 [⟨"SELECT pg_advisory_lock(7)".toList, .one 7, true⟩,
      ⟨"SELECT pg_advisory_lock(8)".toList, .one 8, true⟩,
      ⟨"SELECT pg_advisory_unlock(7)".toList, .one 7, true⟩] := by
  refine ⟨by decide +kernel, lockPinSound_of_admits 100 _ ?_⟩
  have hparse₁ : Pg.parseSingle "SELECT pg_advisory_lock(7)".toList =
      some (.lock .exclusive false [.number ['7']]) := by decide +kernel
  have hparse₂ : Pg.parseSingle "SELECT pg_advisory_lock(8)".toList =
      some (.lock .exclusive false [.number ['8']]) := by decide +kernel
  refine ⟨tellsPins_lock (by decide +kernel) hparse₁ rfl (by decide +kernel) _,
    fun j₁ h₁ => ⟨tellsPins_lock (by decide +kernel) hparse₂ rfl (by decide +kernel) _,
      fun j₂ h₂ => ⟨?_, fun _ _ => trivial⟩⟩⟩
  refine tellsPins_unlock 7 (by decide +kernel) (by decide +kernel) ?_
  -- the locks are those of the two calls before
  have hsome₁ : LockCall.run [] ⟨"SELECT pg_advisory_lock(7)".toList, .one 7, true⟩ =
      some [.lock (.one 7) .exclusive] := by decide +kernel
  have hsome₂ : LockCall.run [.lock (.one 7) .exclusive]
      ⟨"SELECT pg_advisory_lock(8)".toList, .one 8, true⟩ =
      some [.lock (.one 8) .exclusive, .lock (.one 7) .exclusive] := by decide +kernel
  have hlocks₁ := Option.some.inj ((watchTexts_eq_some h₁).2.symm.trans hsome₁)
  have hlocks₂ := (watchTexts_eq_some h₂).2
  rw [hlocks₁] at hlocks₂
  rw [Option.some.inj (hlocks₂.symm.trans hsome₂)]
  have hrun : LockCall.run [.lock (.one 8) .exclusive, .lock (.one 7) .exclusive]
      ⟨"SELECT pg_advisory_unlock(7)".toList, .one 7, true⟩ = some [.lock (.one 8) .exclusive] := by
    decide +kernel
  intro locks h
  rw [Option.some.inj (h.symm.trans hrun)]
  exact ⟨by simp, by simp⟩

/-- `pg_try_advisory_lock` is read as a plain SELECT: the lock is held on an unpinned connection. -/
theorem tryLock_unpinned :
    ¬ LockPinSound 100 [⟨"SELECT pg_try_advisory_lock(7)".toList, .one 7, true⟩] := by
  have hend : (Trace.exec (watchTexts LockCall.sql LockCall.run) (.new 100, [])
      [⟨"SELECT pg_try_advisory_lock(7)".toList, .one 7, true⟩]).map
        (fun j => (j.2, j.1.isPinned)) =
      some ([.lock (.one 7) .exclusive], false) := by decide +kernel
  exact unpinned_of_run id hend (by decide)

end ScryProxy
