import ScryProxy.Native.ConnectionState

/-!
# The two structures of the statement tracker

`prepared_statements` and `prepared_statements_lru` are changed by separate lines of four
operations.  The invariant that ties them together (`Consistent`) says in addition how long
ago each tracked name was added, so that the name at the front of the order list can be
told from the operations alone.
-/

namespace ScryProxy

/-- An operation on the tracked statements. -/
inductive TrackerOp where
  | add (name query : Str) (paramOids : List Nat)
  | remove (name : Str)
  | clear
  | clearAll
  deriving DecidableEq, Repr

namespace TrackerOp

def apply (s : ConnectionState) : TrackerOp → ConnectionState
  | .add name query paramOids => s.addPreparedStatement name query paramOids
  | .remove name => s.removePreparedStatement name
  | .clear => s.clearPreparedStatements
  | .clearAll => s.clearAll

def adds (name : Str) : TrackerOp → Bool
  | .add name' _ _ => decide (name' = name)
  | _ => false

end TrackerOp

/-- The state after the operations. -/
def tracker (maxPreparedStatements : Nat) (ops : List TrackerOp) : ConnectionState :=
  ops.foldl TrackerOp.apply (.new maxPreparedStatements)

/-- How many operations there were since the name was last added. -/
def age (ops : List TrackerOp) (name : Str) : Nat := ops.reverse.findIdx (·.adds name)

/-- The name of the last addition, unless that name was removed since. -/
def lastAdded (ops : List TrackerOp) : Option Str :=
  ops.foldl (fun last op =>
    match op with
    | .add name _ _ => some name
    | .remove name => if last = some name then none else last
    | .clear | .clearAll => none) none

/-- Nothing in the history tells the two structures apart. -/
structure Consistent (maxPreparedStatements : Nat) (ops : List TrackerOp) (s : ConnectionState) :
    Prop where
  bound : s.maxPreparedStatements = max maxPreparedStatements 1
  synced : Lru.Synced s.preparedStatementsLru s.preparedStatements
  bounded : s.preparedStatements.entries.length ≤ max maxPreparedStatements 1
  /-- the order list goes from the name added longest ago to the one added last -/
  byAge : s.preparedStatementsLru.Pairwise fun older newer => age ops newer < age ops older
  last : ∀ name, lastAdded ops = some name → name ∈ s.preparedStatements

theorem age_concat (ops : List TrackerOp) (op : TrackerOp) (name : Str) :
    age (ops ++ [op]) name = if op.adds name then 0 else age ops name + 1 := by
  rw [age, List.reverse_append, List.reverse_singleton, List.singleton_append, List.findIdx_cons]
  cases op.adds name <;> rfl

/-- The order of two names does not change when neither is added. -/
theorem age_lt_concat {ops : List TrackerOp} {op : TrackerOp} {older newer : Str}
    (holder : op.adds older = false) (h : age ops newer < age ops older) :
    age (ops ++ [op]) newer < age (ops ++ [op]) older := by
  rw [age_concat, age_concat, holder]
  split
  · exact Nat.succ_pos _
  · exact Nat.succ_lt_succ h

namespace Consistent

variable {n : Nat} {ops : List TrackerOp} {s : ConnectionState}

theorem new (n : Nat) : Consistent n [] (.new n) where
  bound := rfl
  synced := .empty
  bounded := Nat.zero_le _
  byAge := List.Pairwise.nil
  last := nofun

theorem bound_pos (h : Consistent n ops s) : 0 < s.maxPreparedStatements := by
  rw [h.bound]
  omega

/-- What the two structures are when room has been made for a name. -/
structure Room (s : ConnectionState) (name : Str) (order : List Str)
    (statements : AList fun _ : Str => Str × List Nat) : Prop where
  synced : Lru.Synced order statements
  absent : name ∉ order
  sublist : order.Sublist s.preparedStatementsLru
  bounded : statements.entries.length < s.maxPreparedStatements
  /-- only the name at the front may have gone -/
  kept : ∀ k ∈ s.preparedStatements, k ≠ name → k ∉ statements →
    s.preparedStatementsLru.head? = some k

/-- An addition makes room and puts the name at the end. -/
theorem add_eq (h : Consistent n ops s) (name query : Str) (paramOids : List Nat) :
    ∃ order statements, Room s name order statements ∧
      s.addPreparedStatement name query paramOids = { s with
        preparedStatements := statements.insert name (query, paramOids)
        preparedStatementsLru := order ++ [name] } := by
  have hle : s.preparedStatements.entries.length ≤ s.maxPreparedStatements := by
    rw [h.bound]
    exact h.bounded
  unfold ConnectionState.addPreparedStatement
  by_cases hmem : name ∈ s.preparedStatements
  · -- the old entry of the name is replaced
    rw [if_pos hmem]
    refine ⟨_, s.preparedStatements.erase name, ⟨h.synced.erase name, ?_, List.filter_sublist, ?_, ?_⟩,
      ?_⟩
    · simp
    · have hlen := Maps.length_erase hmem
      omega
    · intro k hk hne hgone
      exact absurd (AList.mem_erase.2 ⟨hne, hk⟩) hgone
    · rw [Maps.insert_erase_self]
  · rw [if_neg hmem]
    have habsent : name ∉ s.preparedStatementsLru := fun hname => hmem ((h.synced.mem_iff name).1 hname)
    rcases h.synced.evict_cases h.bound_pos hle with ⟨hlt, heq⟩ | ⟨oldest, order, hfull, horder, heq⟩
    · rw [heq]
      exact ⟨_, _, ⟨h.synced, habsent, List.Sublist.refl _, hlt, fun k hk _ hgone => absurd hk hgone⟩, rfl⟩
    · -- at the bound the front of the order list goes
      rw [heq]
      have hsynced := h.synced
      rw [horder] at hsynced habsent
      have holdest : oldest ∈ s.preparedStatements := (hsynced.mem_iff oldest).1 List.mem_cons_self
      refine ⟨_, _, ⟨hsynced.erase_oldest, fun hname => habsent (List.mem_cons_of_mem _ hname), ?_, ?_,
        ?_⟩, rfl⟩
      · rw [horder]
        exact List.sublist_cons_self _ _
      · have hlen := Maps.length_erase holdest
        omega
      · intro k hk hne hgone
        have hoff : k = oldest := by_contra fun hother => hgone (AList.mem_erase.2 ⟨hother, hk⟩)
        rw [horder, hoff]
        rfl

/-- The name that was added last has age `0`, and the others keep their order. -/
theorem byAge_add (h : Consistent n ops s) {name : Str} {order : List Str}
    (hsub : order.Sublist s.preparedStatementsLru) (habsent : name ∉ order) (query : Str)
    (paramOids : List Nat) :
    (order ++ [name]).Pairwise fun older newer =>
      age (ops ++ [.add name query paramOids]) newer <
        age (ops ++ [.add name query paramOids]) older := by
  have hother : ∀ k ∈ order, (TrackerOp.add name query paramOids).adds k = false := fun k hk =>
    decide_eq_false fun heq => habsent (heq ▸ hk)
  rw [List.pairwise_append]
  refine ⟨?_, List.pairwise_singleton _ _, fun k hk new hnew => ?_⟩
  · refine (h.byAge.sublist hsub).imp_of_mem fun hk _ hlt => ?_
    exact age_lt_concat (hother _ hk) hlt
  · rw [List.mem_singleton.1 hnew, age_concat, age_concat, hother k hk]
    simp [TrackerOp.adds]

theorem add (h : Consistent n ops s) (name query : Str) (paramOids : List Nat) :
    Consistent n (ops ++ [.add name query paramOids]) (s.addPreparedStatement name query paramOids) := by
  obtain ⟨order, statements, hroom, heq⟩ := h.add_eq name query paramOids
  rw [heq]
  have hnew : name ∉ statements := fun hname => hroom.absent ((hroom.synced.mem_iff name).2 hname)
  have hlt := hroom.bounded
  rw [h.bound] at hlt
  refine ⟨h.bound, hroom.synced.insert hroom.absent _, ?_, h.byAge_add hroom.sublist hroom.absent _ _,
    fun last hlast => ?_⟩
  · rw [Maps.length_insert hnew]
    exact hlt
  · rw [lastAdded, List.foldl_append] at hlast
    exact (AList.mem_insert _).2 (.inl (Option.some.inj hlast).symm)

theorem remove (h : Consistent n ops s) (name : Str) :
    Consistent n (ops ++ [.remove name]) (s.removePreparedStatement name) := by
  refine ⟨h.bound, h.synced.erase name, ?_, ?_, fun last hlast => ?_⟩
  · exact (Maps.length_erase_le _ name).trans h.bounded
  · exact (h.byAge.sublist List.filter_sublist).imp fun hlt => age_lt_concat rfl hlt
  · rw [lastAdded, List.foldl_append] at hlast
    simp only [List.foldl_cons, List.foldl_nil, Option.ite_none_left_eq_some] at hlast
    refine AList.mem_erase.2 ⟨fun heq => hlast.1 ?_, h.last last hlast.2⟩
    rw [← heq]
    exact hlast.2

/-- An operation that leaves nothing tracked. -/
theorem cleared {op : TrackerOp} {s' : ConnectionState} (h : Consistent n ops s)
    (hop : op = .clear ∨ op = .clearAll) (hbound : s'.maxPreparedStatements = s.maxPreparedStatements)
    (hstatements : s'.preparedStatements = ∅) (hlru : s'.preparedStatementsLru = []) :
    Consistent n (ops ++ [op]) s' := by
  refine ⟨hbound.trans h.bound, ?_, ?_, ?_, fun last hlast => ?_⟩
  · rw [hstatements, hlru]
    exact .empty
  · rw [hstatements]
    exact Nat.zero_le _
  · rw [hlru]
    exact List.Pairwise.nil
  · rw [lastAdded, List.foldl_append] at hlast
    rcases hop with rfl | rfl <;> cases hlast

theorem step (h : Consistent n ops s) (op : TrackerOp) : Consistent n (ops ++ [op]) (op.apply s) := by
  cases op with
  | add name query paramOids => exact h.add name query paramOids
  | remove name => exact h.remove name
  | clear => exact h.cleared (.inl rfl) rfl rfl rfl
  | clearAll => exact h.cleared (.inr rfl) rfl rfl rfl

theorem tracker (n : Nat) (ops : List TrackerOp) : Consistent n ops (tracker n ops) := by
  induction ops using List.reverseRecOn with
  | nil => exact .new n
  | append_singleton ops op ih =>
    rw [ScryProxy.tracker, List.foldl_append]
    exact ih.step op

/-- What an addition loses is the name that was added longest ago. -/
theorem oldest_of_lost (h : Consistent n ops s) {name query : Str} {paramOids : List Nat} {lost : Str}
    (htracked : lost ∈ s.preparedStatements)
    (hlost : lost ∉ (s.addPreparedStatement name query paramOids).preparedStatements) :
    ∀ other ∈ s.preparedStatements, other ≠ lost → age ops other < age ops lost := by
  obtain ⟨order, statements, hroom, heq⟩ := h.add_eq name query paramOids
  rw [heq, AList.mem_insert, not_or] at hlost
  have hhead := hroom.kept lost htracked hlost.1 hlost.2
  obtain ⟨rest, horder⟩ := List.head?_eq_some_iff.1 hhead
  intro other hother hne
  have hmem := (h.synced.mem_iff other).2 hother
  have hage := h.byAge
  rw [horder] at hmem hage
  exact List.rel_of_pairwise_cons hage ((List.mem_cons.1 hmem).resolve_left hne)

end Consistent

/-- After any operations the order list has each tracked name once and no other, the bound is kept,
    the name that was added last is tracked unless it was removed, and a further addition loses
    nothing but the name that was added longest ago, without the defensive `break`. -/
theorem tracker_consistent (maxPreparedStatements : Nat) (ops : List TrackerOp) :
    let s := tracker maxPreparedStatements ops
    s.preparedStatementsLru.Nodup ∧
      (∀ name, name ∈ s.preparedStatementsLru ↔ name ∈ s.preparedStatements) ∧
      s.preparedStatements.entries.length ≤ max 1 maxPreparedStatements ∧
      (∀ name, lastAdded ops = some name → name ∈ s.preparedStatements) ∧
      ∀ name query paramOids,
        (∀ lost ∈ s.preparedStatements,
          lost ∉ (s.addPreparedStatement name query paramOids).preparedStatements →
            ∀ other ∈ s.preparedStatements, other ≠ lost → age ops other < age ops lost) ∧
        (name ∉ s.preparedStatements →
          ¬ Lru.Breaks s.maxPreparedStatements s.preparedStatementsLru s.preparedStatements) := by
  intro s
  have h : Consistent maxPreparedStatements ops s := .tracker maxPreparedStatements ops
  refine ⟨h.synced.nodup, h.synced.mem_iff, ?_, h.last, fun name query paramOids => ⟨?_, ?_⟩⟩
  · rw [Nat.max_comm]
    exact h.bounded
  · intro lost htracked hlost
    exact h.oldest_of_lost htracked hlost
  · intro _
    exact h.synced.not_breaks h.bound_pos

end ScryProxy
