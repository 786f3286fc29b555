import ScryProxy.Spec.Observed
import ScryProxy.Spec.Pg.Statement

/-!
# Prepared statements and the bounded tracker

The tracker keeps at most `maxPreparedStatements` names, the backend keeps all of
them.  Parse, Close and DEALLOCATE run against both.  As long as no Parse has to evict
and no text drops the name of a statement that stays, every live statement is tracked
and the connection is pinned (`preparedPinSound_of_admits`).  Past the bound,
`evicted_statement_unpinned` closes the tracked statements and leaves an evicted one
behind on an unpinned connection.
-/

namespace ScryProxy

open ConnectionState (readQuery HasRoom Keeps)

/-- An operation on prepared statements; DEALLOCATE comes as the text of a Query. -/
inductive PreparedOp where
  | parse (name query : Str) (paramOids : List Nat)
  | close (name : Str)
  | deallocate (sql : Str)
  deriving DecidableEq, Repr

namespace PreparedOp

/-- The frontend message that carries the operation. -/
def message : PreparedOp → Message
  | .parse name query paramOids => .parse name query paramOids
  | .close name => .close 'S' name
  | .deallocate sql => .query sql

/-- The named statements live after the operation succeeded; `none` when it fails. -/
def live (names : Finset Str) : PreparedOp → Option (Finset Str)
  | .parse name query _ =>
    if name ≠ [] ∧ name ∉ names ∧ (Pg.lex query).isSome ∧ (Pg.statements query).length ≤ 1 then
      some (insert name names)
    else none
  | .close name => some (names.erase name)
  | .deallocate sql =>
    match Pg.parseSingle sql with
    | some (.deallocate name) => if name ∈ names then some (names.erase name) else none
    | some (.clear .prepared) => some ∅
    | _ => none

/-- Tracker and backend take a successful operation together. -/
def step (j : ConnectionState × Finset Str) (op : PreparedOp) :
    Option (ConnectionState × Finset Str) := do
  let s ← (j.1.observe op.message).toOption
  let names ← live j.2 op
  return (s, names)

/-- A Parse finds room, and the text of a Parse or a DEALLOCATE drops the name of no statement that
    is live after it. -/
def Safe (j : ConnectionState × Finset Str) (op : PreparedOp) : Prop :=
  match op with
  | .parse name query _ => ∀ cs, readQuery query = .ok cs →
      HasRoom j.1 name cs ∧ ∀ n ∈ j.2, ∀ c ∈ cs, ¬ c.drops (.prepared n) = true
  | .close _ => True
  | .deallocate sql => ∀ cs, readQuery sql = .ok cs →
      ∀ names, live j.2 (.deallocate sql) = some names →
        ∀ n ∈ names, ∀ c ∈ cs, ¬ c.drops (.prepared n) = true

/-- Every live statement is tracked. -/
def Tracked (j : ConnectionState × Finset Str) : Prop := ∀ n ∈ j.2, j.1.Holds (.prepared n)

theorem step_eq_some {j j' : ConnectionState × Finset Str} {op : PreparedOp}
    (h : step j op = some j') :
    j.1.observe op.message = .ok j'.1 ∧ live j.2 op = some j'.2 := by
  obtain ⟨s, hs, h⟩ := Option.bind_eq_some_iff.1 h
  obtain ⟨names, hnames, h⟩ := Option.bind_eq_some_iff.1 h
  cases h
  refine ⟨?_, hnames⟩
  cases ho : j.1.observe op.message with
  | error e => rw [ho] at hs; cases hs
  | ok s' => rw [ho] at hs; cases hs; rfl

/-- A safe operation keeps every live statement tracked. -/
theorem tracked_step {j j' : ConnectionState × Finset Str} {op : PreparedOp} (hj : Tracked j)
    (hsafe : Safe j op) (h : step j op = some j') : Tracked j' := by
  obtain ⟨hobs, hlive⟩ := step_eq_some h
  obtain ⟨s', names⟩ := j'
  intro n hn
  refine ConnectionState.holds_observe hobs ?_
  cases op with
  | parse name query paramOids =>
    simp only [live, Option.ite_none_right_eq_some, Option.some.injEq] at hlive
    obtain ⟨-, rfl⟩ := hlive
    rcases Finset.mem_insert.1 hn with rfl | hn
    · exact .inl rfl
    · refine .inr fun cs hread => ?_
      obtain ⟨hroom, hdrop⟩ := hsafe cs hread
      exact ⟨.inl ⟨hj n hn, hdrop n hn⟩, .inr hroom⟩
  | close name =>
    cases hlive
    obtain ⟨hne, hn⟩ := Finset.mem_erase.1 hn
    exact ⟨hj n hn, fun ⟨_, hp⟩ => hne (Pin.prepared.inj hp)⟩
  | deallocate sql =>
    intro cs hread
    -- DEALLOCATE creates nothing, so what is live after it was live before
    have hsub : n ∈ j.2 := by
      simp only [live] at hlive
      split at hlive
      · split at hlive <;> cases hlive
        exact (Finset.mem_erase.1 hn).2
      · cases hlive
        exact absurd hn (Finset.notMem_empty n)
      · cases hlive
    exact .inl ⟨hj n hsub, hsafe cs hread names hlive n hn⟩

end PreparedOp

open PreparedOp (step Safe Tracked tracked_step)

/-- After the operations, a live statement means a pinned connection. -/
def PreparedPinSound (maxPreparedStatements : Nat) (ops : List PreparedOp) : Prop :=
  ∀ s names, Trace.exec step (.new maxPreparedStatements, ∅) ops = some (s, names) →
    names.Nonempty → s.isPinned = true

/-- In a run of safe operations a live prepared statement pins the connection. -/
theorem preparedPinSound_of_admits (maxPreparedStatements : Nat) (ops : List PreparedOp)
    (hadm : Trace.Admits step Safe (.new maxPreparedStatements, ∅) ops) :
    PreparedPinSound maxPreparedStatements ops := by
  intro s names hrun ⟨n, hn⟩
  have htracked : Tracked (s, names) :=
    Trace.exec_invariant (fun _ _ _ hinv hok hstep => tracked_step hinv hok hstep)
      (fun n hn => absurd hn (Finset.notMem_empty n)) hadm hrun
  exact (ConnectionState.isPinned_iff s).2 ⟨.prepared n, htracked n hn⟩

/-- Two statements under a bound of two, then one closed: the other still pins. -/
theorem preparedPinSound_within_bound :
    PreparedPinSound 2 [.parse "s1".toList "SELECT 1".toList [],
      .parse "s2".toList "SELECT 2".toList [], .close "s2".toList] := by
  refine preparedPinSound_of_admits 2 _ ⟨?_, fun j₁ h₁ => ⟨?_, fun j₂ h₂ => ⟨trivial, fun _ _ => trivial⟩⟩⟩
  · intro cs hread
    cases hread
    exact ⟨.inl (by decide), by simp⟩
  · cases h₁
    intro cs hread
    cases hread
    exact ⟨.inl (by decide), by decide⟩

/-- With a bound of one, the second Parse evicts `s1`, and closing `s2` unpins the connection while
    `s1` is still live. -/
theorem evicted_statement_unpinned :
    ¬ PreparedPinSound 1 [.parse "s1".toList "SELECT 1".toList [],
      .parse "s2".toList "SELECT 2".toList [], .close "s2".toList] := by
  intro h
  have hpin := h _ _ rfl (by decide)
  revert hpin
  decide

end ScryProxy
