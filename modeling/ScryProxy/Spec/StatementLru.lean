import ScryProxy.ForStd.Trace
import ScryProxy.Native.StatementCache

/-!
# The statement cache as an LRU cache

`insert_statement` takes a known name out of the order list but leaves it in the map while
it makes room, so at the bound a statement that is parsed again costs another one its
place.  Apart from that the cache is the reference of `Lru` (`cache_exact_iff`).

A run carries the cache, the reference and the operations so far.
-/

namespace ScryProxy

/-- An operation on the cached statements. -/
inductive CacheOp where
  | insert (name : Str) (stmt : PreparedStatement)
  | get (name : Str)
  | remove (name : Str)
  deriving DecidableEq, Repr

namespace CacheOp

def apply (c : PreparedStatementCache) : CacheOp → PreparedStatementCache
  | .insert name stmt => c.insertStatement name stmt
  | .get name => (c.getStatement name).2
  | .remove name => c.removeStatement name

/-- The operation on a reference of the given capacity. -/
def applyRef (capacity : Nat) (r : AList fun _ : Str => PreparedStatement) :
    CacheOp → AList fun _ : Str => PreparedStatement
  | .insert name stmt => Lru.use capacity r name stmt
  | .get name => Lru.touch r name
  | .remove name => r.erase name

/-- The definition of the name that the operation brings. -/
def defines (name : Str) : CacheOp → Option PreparedStatement
  | .insert name' stmt => if name' = name then some stmt else none
  | _ => none

end CacheOp

/-- Cache and reference after some operations. -/
structure CacheRun where
  cache : PreparedStatementCache
  reference : AList fun _ : Str => PreparedStatement
  /-- the operations, latest first -/
  history : List CacheOp

namespace CacheRun

def new (maxSize : Nat) : CacheRun := ⟨.new maxSize, ∅, []⟩

def step (run : CacheRun) (op : CacheOp) : Option CacheRun :=
  some ⟨op.apply run.cache, op.applyRef run.cache.maxSize run.reference, op :: run.history⟩

/-- The definition that was inserted last. -/
def latest (run : CacheRun) (name : Str) : Option PreparedStatement :=
  run.history.findSome? (·.defines name)

/-- The cached names are those of the reference, and `get_statement` returns the latest definition of
    each of them. -/
def Exact (run : CacheRun) : Prop :=
  (∀ name, name ∈ run.cache.statements ↔ name ∈ run.reference) ∧
    ∀ name ∈ run.cache.statements, (run.cache.getStatement name).1 = run.latest name

/-- A name that is cached is not inserted again while the cache is full, unless it is the only one. -/
def Spared (run : CacheRun) : CacheOp → Prop
  | .insert name _ => name ∉ run.cache.statements ∨
      run.cache.statements.entries.length < run.cache.maxSize ∨ run.cache.maxSize = 1
  | _ => True

instance (run : CacheRun) (op : CacheOp) : Decidable (run.Spared op) := by
  unfold Spared
  split <;> infer_instance

/-- Cache and reference hold the same in the same order. -/
structure Agrees (maxSize : Nat) (run : CacheRun) : Prop where
  maxSize_eq : run.cache.maxSize = maxSize
  simulates : Lru.Simulates run.cache.lruOrder run.cache.statements run.reference
  bounded : run.cache.statements.entries.length ≤ maxSize
  current : ∀ name stmt, run.cache.statements.lookup name = some stmt → run.latest name = some stmt

theorem getStatement_fst (c : PreparedStatementCache) (name : Str) :
    (c.getStatement name).1 = c.statements.lookup name := by
  unfold PreparedStatementCache.getStatement
  cases c.statements.lookup name with
  | none => rfl
  | some stmt => rfl

/-- `insert_statement` after its loop. -/
theorem insertStatement_eq {c : PreparedStatementCache} {name : Str} {order : List Str}
    {statements : AList fun _ : Str => PreparedStatement} (stmt : PreparedStatement)
    (h : Lru.evict c.maxSize
      (if name ∈ c.statements then c.lruOrder.filter (· != name) else c.lruOrder) c.statements =
        (order, statements)) :
    c.insertStatement name stmt =
      { c with statements := statements.insert name stmt, lruOrder := order ++ [name] } := by
  rw [PreparedStatementCache.insertStatement, h]

theorem latest_cons_of_none {run : CacheRun} {op : CacheOp} {name : Str}
    {cache : PreparedStatementCache} {reference : AList fun _ : Str => PreparedStatement}
    (h : op.defines name = none) :
    latest ⟨cache, reference, op :: run.history⟩ name = run.latest name := by
  rw [latest, List.findSome?_cons, h]
  rfl

namespace Agrees

variable {maxSize : Nat} {run : CacheRun}

theorem new (maxSize : Nat) : Agrees maxSize (.new maxSize) :=
  ⟨rfl, .empty, Nat.zero_le _, fun name stmt h => by cases h⟩

theorem exact (h : Agrees maxSize run) : run.Exact := by
  refine ⟨h.simulates.mem_iff, fun name hname => ?_⟩
  obtain ⟨stmt, hstmt⟩ := Option.isSome_iff_exists.1 (AList.lookup_isSome.2 hname)
  rw [getStatement_fst, hstmt, h.current name stmt hstmt]

/-- A name that is not cached costs the oldest entry on both sides. -/
theorem insert_new (hmax : 1 ≤ maxSize) (h : Agrees maxSize run) {name : Str}
    (hname : name ∉ run.cache.statements) (stmt : PreparedStatement) :
    Lru.Simulates (run.cache.insertStatement name stmt).lruOrder
      (run.cache.insertStatement name stmt).statements
      (Lru.use maxSize run.reference name stmt) := by
  have hsim := h.simulates
  have hnew : name ∉ run.cache.lruOrder := fun hmem => hname ((hsim.synced.mem_iff name).1 hmem)
  rcases hsim.synced.evict_cases hmax h.bounded with ⟨hlt, heq⟩ | ⟨oldest, order, hfull, horder, heq⟩
  · rw [insertStatement_eq stmt (by rw [if_neg hname, h.maxSize_eq, heq]),
      Lru.use_of_lt (by rwa [← hsim.length_eq])]
    exact hsim.insert hnew stmt
  · -- the front of the order list is the last entry of the reference
    rw [insertStatement_eq stmt (by rw [if_neg hname, h.maxSize_eq, heq])]
    rw [horder] at hnew hsim
    rw [Lru.use_full hsim.order_eq (hsim.length_eq.symm.trans hfull)
      (fun hmem => hname ((hsim.mem_iff name).2 hmem))]
    exact hsim.erase_oldest.insert (fun hmem => hnew (List.mem_cons_of_mem _ hmem)) stmt

/-- A cached name only moves to the end, if there is room or nothing else to evict. -/
theorem insert_known (h : Agrees maxSize run) {name : Str} (hname : name ∈ run.cache.statements)
    (hroom : run.cache.statements.entries.length < maxSize ∨ maxSize = 1) (stmt : PreparedStatement) :
    Lru.Simulates (run.cache.insertStatement name stmt).lruOrder
      (run.cache.insertStatement name stmt).statements
      (Lru.use maxSize run.reference name stmt) := by
  have hsim := h.simulates
  have hevict : Lru.evict maxSize (run.cache.lruOrder.filter (· != name)) run.cache.statements =
      (run.cache.lruOrder.filter (· != name), run.cache.statements) := by
    rcases hroom with hlt | hone
    · exact Lru.evict_of_lt hlt
    · -- the name is the only one, and the order list without it is empty
      have hlen := (hsim.erase name).synced.length_eq
      have hless := Maps.length_erase hname
      have hle := h.bounded
      rw [List.eq_nil_of_length_eq_zero (l := run.cache.lruOrder.filter (· != name)) (by omega)]
      rfl
  rw [insertStatement_eq stmt (by rw [if_pos hname, h.maxSize_eq, hevict]),
    Lru.use_of_mem ((hsim.mem_iff name).1 hname) (hsim.length_eq ▸ h.bounded)]
  exact hsim.refresh name stmt

/-- At the bound a cached name that is inserted again costs another one its place, which the
    reference does not do. -/
theorem not_exact_insert (h : Agrees maxSize run) {name : Str} (hname : name ∈ run.cache.statements)
    (hfull : ¬ run.cache.statements.entries.length < maxSize) (hmore : maxSize ≠ 1)
    (stmt : PreparedStatement) {run' : CacheRun}
    (hstep : run.step (.insert name stmt) = some run') : ¬ run'.Exact := by
  have hsim := h.simulates
  have hlen := (hsim.erase name).synced.length_eq
  have hless := Maps.length_erase hname
  have hle := h.bounded
  -- without the name the order list still has a front, and the map still counts the name
  obtain ⟨oldest, order, horder⟩ : ∃ oldest order,
      run.cache.lruOrder.filter (· != name) = oldest :: order :=
    List.exists_cons_of_length_pos (by omega)
  have hmem : oldest ∈ run.cache.lruOrder.filter (· != name) := by
    rw [horder]
    exact List.mem_cons_self
  obtain ⟨holdest, hother⟩ := List.mem_filter.1 hmem
  have hheld := (hsim.synced.mem_iff oldest).1 holdest
  have hevict : Lru.evict maxSize (oldest :: order) run.cache.statements =
      (order, run.cache.statements.erase oldest) := by
    have hsmaller := Maps.length_erase hheld
    rw [Lru.evict, if_pos (Nat.not_lt.1 hfull), Lru.evict_of_lt (by omega)]
  intro hexact
  cases hstep
  have hiff := hexact.1 oldest
  simp only [CacheOp.apply, CacheOp.applyRef] at hiff
  rw [insertStatement_eq stmt (by rw [if_pos hname, h.maxSize_eq, horder, hevict]), h.maxSize_eq,
    Lru.use_of_mem ((hsim.mem_iff name).1 hname) (hsim.length_eq ▸ hle), AList.mem_insert,
    AList.mem_insert] at hiff
  rcases hiff.2 (.inr ((hsim.mem_iff oldest).1 hheld)) with heq | hstill
  · exact absurd heq (bne_iff_ne.1 hother)
  · exact (AList.mem_erase.1 hstill).1 rfl

/-- No operation changes the latest definition of a name that it leaves cached, but by inserting
    it. -/
theorem current_insert (h : Agrees maxSize run) (name : Str) (stmt : PreparedStatement) {name' : Str}
    {stmt' : PreparedStatement}
    (hlookup : (run.cache.insertStatement name stmt).statements.lookup name' = some stmt') :
    latest ⟨run.cache.insertStatement name stmt, Lru.use maxSize run.reference name stmt,
      .insert name stmt :: run.history⟩ name' = some stmt' := by
  rw [insertStatement_eq stmt rfl] at hlookup
  by_cases hsame : name' = name
  · rw [hsame, AList.lookup_insert] at hlookup
    rw [latest, List.findSome?_cons, CacheOp.defines, if_pos hsame.symm, hlookup]
  · rw [AList.lookup_insert_ne hsame] at hlookup
    have hother : (CacheOp.insert name stmt).defines name' = none := if_neg (Ne.symm hsame)
    rw [latest_cons_of_none hother]
    exact h.current name' stmt' (Lru.lookup_of_evict hlookup)

theorem get (h : Agrees maxSize run) (name : Str) {run' : CacheRun}
    (hstep : run.step (.get name) = some run') : Agrees maxSize run' := by
  cases hstep
  have hlatest : ∀ cache reference name', latest ⟨cache, reference, .get name :: run.history⟩ name' =
      run.latest name' := fun _ _ _ => latest_cons_of_none rfl
  simp only [CacheOp.apply, CacheOp.applyRef, PreparedStatementCache.getStatement]
  cases hlookup : run.cache.statements.lookup name with
  | none =>
    refine ⟨h.maxSize_eq, ?_, h.bounded, fun name' stmt hstmt => ?_⟩
    · have hmiss : run.reference.lookup name = none := h.simulates.lookup_eq name ▸ hlookup
      rw [Lru.touch, hmiss]
      exact h.simulates
    · rw [hlatest]
      exact h.current name' stmt hstmt
  | some stmt =>
    refine ⟨h.maxSize_eq, h.simulates.touch hlookup, h.bounded, fun name' stmt' hstmt => ?_⟩
    rw [hlatest]
    exact h.current name' stmt' hstmt

theorem remove (h : Agrees maxSize run) (name : Str) {run' : CacheRun}
    (hstep : run.step (.remove name) = some run') : Agrees maxSize run' := by
  cases hstep
  refine ⟨h.maxSize_eq, h.simulates.erase name, ?_, fun name' stmt hstmt => ?_⟩
  · exact (Maps.length_erase_le _ name).trans h.bounded
  · rw [latest_cons_of_none rfl]
    refine h.current name' stmt ?_
    by_cases hsame : name' = name
    · rw [hsame] at hstmt
      exact absurd hstmt (by simp [CacheOp.apply, PreparedStatementCache.removeStatement])
    · rwa [CacheOp.apply, PreparedStatementCache.removeStatement, AList.lookup_erase_ne hsame] at hstmt

theorem insert (hmax : 1 ≤ maxSize) (h : Agrees maxSize run) {name : Str} {stmt : PreparedStatement}
    (hspared : run.Spared (.insert name stmt)) {run' : CacheRun}
    (hstep : run.step (.insert name stmt) = some run') : Agrees maxSize run' := by
  have hsim : Lru.Simulates (run.cache.insertStatement name stmt).lruOrder
      (run.cache.insertStatement name stmt).statements
      (Lru.use maxSize run.reference name stmt) := by
    by_cases hname : name ∈ run.cache.statements
    · have hroom := hspared.resolve_left (not_not.2 hname)
      rw [h.maxSize_eq] at hroom
      exact h.insert_known hname hroom stmt
    · exact h.insert_new hmax hname stmt
  cases hstep
  rw [h.maxSize_eq]
  refine ⟨h.maxSize_eq, hsim, ?_, fun name' stmt' hlookup => h.current_insert name stmt hlookup⟩
  exact Nat.le_trans (Nat.le_of_eq hsim.length_eq) (Lru.length_use_le _ _ _ _)

theorem step (hmax : 1 ≤ maxSize) (h : Agrees maxSize run) {op : CacheOp} (hspared : run.Spared op)
    {run' : CacheRun} (hstep : run.step op = some run') : Agrees maxSize run' := by
  cases op with
  | insert name stmt => exact h.insert hmax hspared hstep
  | get name => exact h.get name hstep
  | remove name => exact h.remove name hstep

theorem spared_of_exact (h : Agrees maxSize run) {op : CacheOp} {run' : CacheRun}
    (hstep : run.step op = some run') (hexact : run'.Exact) : run.Spared op := by
  cases op with
  | insert name stmt =>
    by_contra hnot
    rw [Spared, not_or, not_or, not_not, h.maxSize_eq] at hnot
    exact h.not_exact_insert hnot.1 hnot.2.1 hnot.2.2 stmt hstep hexact
  | get name => trivial
  | remove name => trivial

end Agrees

theorem exec_isSome (run : CacheRun) (ops : List CacheOp) : (Trace.exec step run ops).isSome = true := by
  induction ops generalizing run with
  | nil => rfl
  | cons op ops ih => exact ih _

end CacheRun

/-- The cache is an exact LRU cache throughout the runs that never insert a cached name into a full
    cache of more than one entry. -/
theorem cache_exact_iff (maxSize : Nat) (hmax : 1 ≤ maxSize) (ops : List CacheOp) :
    Trace.Always CacheRun.step CacheRun.Exact (.new maxSize) ops ↔
      Trace.Admits CacheRun.step CacheRun.Spared (.new maxSize) ops := by
  refine Trace.always_iff_admits_of_keep (fun run h => CacheRun.Agrees.exact h)
    (fun run op run' h hspared hstep => CacheRun.Agrees.step hmax h hspared hstep)
    (fun run op run' h hstep hexact => CacheRun.Agrees.spared_of_exact h hstep hexact)
    (CacheRun.Agrees.new maxSize) (CacheRun.exec_isSome _ _)

/-- Two places, a read that saves the older entry, and a statement that is parsed again while there
    is room. -/
theorem cache_exact_two :
    Trace.Always CacheRun.step CacheRun.Exact (.new 2)
      [.insert ['a'] ⟨['1'], []⟩, .insert ['a'] ⟨['2'], []⟩, .insert ['b'] ⟨['3'], []⟩, .get ['a'],
        .insert ['c'] ⟨['4'], []⟩, .remove ['a']] :=
  (cache_exact_iff 2 (by decide) _).2 (by decide)

/-- Two statements in a cache of two: when the newer one is parsed again the older one is gone. -/
theorem cache_loses_other :
    ¬ Trace.Always CacheRun.step CacheRun.Exact (.new 2)
      [.insert ['a'] ⟨['1'], []⟩, .insert ['b'] ⟨['2'], []⟩, .insert ['b'] ⟨['3'], []⟩] := by
  intro h
  have hend := h.last rfl
  have hsame := hend.1 ['a']
  revert hsame
  decide

end ScryProxy
