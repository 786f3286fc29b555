import Mathlib.Data.Finset.Basic
import ScryProxy.ForStd.Maps

/-!
# Bounded maps with least-recently-added eviction

A map and the list of its keys, oldest first.  `evict` is the loop that makes room
before an insertion: while the map is at its bound, the oldest key goes.  The loop also
stops when the order list is empty (`Breaks`), which does not happen while the list and
the map have the same keys (`Synced`).

A map with its entries in order of use, newest first, is the reference that such a pair
of structures is compared with (`use`, `touch`).
-/

namespace Lru

open Maps

variable {K V : Type} [DecidableEq K]

/-- Drops the oldest keys until the map is below `bound`, or the order list is empty. -/
def evict (bound : Nat) : List K → (AList fun _ : K => V) → List K × (AList fun _ : K => V)
  | [], m => ([], m)
  | oldest :: order, m =>
    if bound ≤ m.entries.length then evict bound order (m.erase oldest) else (oldest :: order, m)

/-- The loop of `evict` ends with an empty order list while the map is still at its bound. -/
def Breaks (bound : Nat) : List K → (AList fun _ : K => V) → Prop
  | [], m => bound ≤ m.entries.length
  | oldest :: order, m => bound ≤ m.entries.length ∧ Breaks bound order (m.erase oldest)

/-- The order list has every key of the map, once, and no other. -/
structure Synced (order : List K) (m : AList fun _ : K => V) : Prop where
  nodup : order.Nodup
  mem_iff : ∀ k, k ∈ order ↔ k ∈ m

variable {bound : Nat} {order : List K} {m : AList fun _ : K => V} {k : K}

/-- Below the bound nothing is evicted. -/
theorem evict_of_lt (h : m.entries.length < bound) : evict bound order m = (order, m) := by
  cases order with
  | nil => rfl
  | cons oldest order => simp [evict, Nat.not_le.2 h]

/-- The loop changes no value. -/
theorem lookup_of_evict {v : V} (h : (evict bound order m).2.lookup k = some v) :
    m.lookup k = some v := by
  induction order generalizing m with
  | nil => exact h
  | cons oldest order ih =>
    rw [evict] at h
    split at h
    · have herase := ih h
      by_cases hk : k = oldest
      · rw [hk, AList.lookup_erase] at herase
        cases herase
      · rwa [AList.lookup_erase_ne hk] at herase
    · exact h

namespace Synced

omit [DecidableEq K] in
theorem empty : Synced [] (∅ : AList fun _ : K => V) :=
  ⟨List.nodup_nil, fun k => by simp⟩

omit [DecidableEq K] in
theorem length_eq (h : Synced order m) : order.length = m.entries.length := by
  have hperm : order.Perm m.keys :=
    (List.perm_ext_iff_of_nodup h.nodup m.keys_nodup).2 fun k => h.mem_iff k
  rw [hperm.length_eq]
  exact List.length_map _

theorem erase_oldest {oldest : K} (h : Synced (oldest :: order) m) : Synced order (m.erase oldest) := by
  obtain ⟨hnew, hnodup⟩ := List.nodup_cons.1 h.nodup
  refine ⟨hnodup, fun k => ?_⟩
  rw [AList.mem_erase, ← h.mem_iff k, List.mem_cons]
  constructor
  · intro hk
    exact ⟨fun heq => hnew (heq ▸ hk), .inr hk⟩
  · intro hk
    exact hk.2.resolve_left hk.1

theorem erase [BEq K] [LawfulBEq K] (h : Synced order m) (k : K) :
    Synced (order.filter (· != k)) (m.erase k) := by
  refine ⟨h.nodup.filter _, fun k' => ?_⟩
  rw [List.mem_filter, h.mem_iff k', AList.mem_erase, bne_iff_ne, and_comm]

/-- A key that the order list does not have is added as the newest. -/
theorem insert (h : Synced order m) (hk : k ∉ order) (v : V) :
    Synced (order ++ [k]) (m.insert k v) := by
  refine ⟨?_, fun k' => ?_⟩
  · rw [List.nodup_append]
    refine ⟨h.nodup, List.nodup_singleton k, fun a ha b hb heq => ?_⟩
    rw [List.mem_singleton.1 hb] at heq
    exact hk (heq ▸ ha)
  · rw [List.mem_append, List.mem_singleton, AList.mem_insert, h.mem_iff k', or_comm]

/-- An empty order list means an empty map, which is below every bound. -/
theorem not_breaks (h : Synced order m) (hbound : 0 < bound) : ¬ Breaks bound order m := by
  induction order generalizing m with
  | nil =>
    intro hbreak
    have hlen := h.length_eq
    rw [List.length_nil] at hlen
    rw [Breaks] at hbreak
    omega
  | cons oldest order ih => exact fun hbreak => ih h.erase_oldest hbreak.2

/-- Up to its bound the map loses one key at most, the oldest. -/
theorem evict_cases (h : Synced order m) (hbound : 0 < bound) (hle : m.entries.length ≤ bound) :
    (m.entries.length < bound ∧ Lru.evict bound order m = (order, m)) ∨
      ∃ oldest order', m.entries.length = bound ∧ order = oldest :: order' ∧
        Lru.evict bound order m = (order', m.erase oldest) := by
  by_cases hlt : m.entries.length < bound
  · exact .inl ⟨hlt, evict_of_lt hlt⟩
  · have hfull : m.entries.length = bound := by omega
    cases order with
    | nil =>
      have hlen := h.length_eq
      rw [List.length_nil] at hlen
      omega
    | cons oldest order =>
      have hlen := length_erase ((h.mem_iff oldest).1 List.mem_cons_self)
      refine .inr ⟨oldest, order, hfull, rfl, ?_⟩
      rw [Lru.evict, if_pos (Nat.not_lt.1 hlt), evict_of_lt (by omega)]

end Synced

/-! ## The reference -/

/-- The `n` newest entries. -/
def truncate (n : Nat) (r : AList fun _ : K => V) : AList fun _ : K => V :=
  ⟨r.entries.take n, r.nodupKeys.sublist (List.take_sublist n r.entries)⟩

/-- An entry is written: it becomes the newest, and what is beyond the capacity goes. -/
def use (capacity : Nat) (r : AList fun _ : K => V) (k : K) (v : V) : AList fun _ : K => V :=
  truncate capacity (r.insert k v)

/-- An entry is read: it becomes the newest. -/
def touch (r : AList fun _ : K => V) (k : K) : AList fun _ : K => V :=
  match r.lookup k with
  | some v => r.insert k v
  | none => r

/-- The order list and the map hold what the reference holds, in its order. -/
structure Simulates (order : List K) (m r : AList fun _ : K => V) : Prop where
  order_eq : order = r.keys.reverse
  lookup_eq : ∀ k, m.lookup k = r.lookup k

variable {capacity : Nat} {r : AList fun _ : K => V}

omit [DecidableEq K] in
theorem truncate_of_le {n : Nat} (h : r.entries.length ≤ n) : truncate n r = r :=
  AList.ext (List.take_of_length_le h)

theorem length_use_le (capacity : Nat) (r : AList fun _ : K => V) (k : K) (v : V) :
    (use capacity r k v).entries.length ≤ capacity :=
  List.length_take_le _ _

theorem use_of_lt (h : r.entries.length < capacity) (k : K) (v : V) :
    use capacity r k v = r.insert k v := by
  refine truncate_of_le ?_
  rw [AList.entries_insert, List.length_cons]
  have herase : (List.kerase k r.entries).length ≤ r.entries.length := length_erase_le r k
  omega

/-- A known key takes no room. -/
theorem use_of_mem (h : k ∈ r) (hle : r.entries.length ≤ capacity) (v : V) :
    use capacity r k v = r.insert k v := by
  refine truncate_of_le ?_
  rwa [length_insert_of_mem h]

/-- The last entry can be erased by its key. -/
theorem entries_erase_last {oldest : K} {keys : List K} (h : r.keys = keys ++ [oldest]) :
    (r.erase oldest).entries = r.entries.dropLast := by
  have hnodup := r.keys_nodup
  rcases List.eq_nil_or_concat r.entries with hnil | ⟨front, last, hentries⟩
  · rw [AList.keys, hnil] at h
    exact absurd h (by simp)
  · rw [List.concat_eq_append] at hentries
    have hkeys : r.keys = front.keys ++ [last.1] := by
      rw [AList.keys, hentries, List.keys, List.map_append]
      rfl
    rw [hkeys] at h hnodup
    have hlast : last.1 = oldest := by
      have hparts := List.append_inj' h rfl
      exact List.singleton_inj.1 hparts.2
    have habsent : oldest ∉ front.keys := by
      intro hmem
      exact (List.nodup_append.1 hnodup).2.2 oldest hmem last.1 (List.mem_singleton_self _) hlast.symm
    show List.kerase oldest r.entries = r.entries.dropLast
    rw [hentries, List.kerase_append_right habsent, List.kerase_cons_eq hlast.symm,
      List.append_nil, List.dropLast_concat]

/-- At the capacity a new key costs the oldest. -/
theorem use_full {oldest : K} {order : List K} (hkeys : oldest :: order = r.keys.reverse)
    (hfull : r.entries.length = capacity) (hk : k ∉ r) (v : V) :
    use capacity r k v = (r.erase oldest).insert k v := by
  have hlast : r.keys = order.reverse ++ [oldest] := by
    rw [← List.reverse_cons, hkeys, List.reverse_reverse]
  have hgone : k ∉ r.erase oldest := fun hmem => hk (AList.mem_erase.1 hmem).2
  have hpos : capacity = r.entries.length - 1 + 1 := by
    have hlen : r.keys.length = r.entries.length := List.length_map _
    rw [hlast, List.length_append, List.length_singleton] at hlen
    omega
  refine AList.ext ?_
  rw [AList.entries_insert_of_notMem hgone, entries_erase_last hlast, List.dropLast_eq_take]
  show (r.insert k v).entries.take capacity = _
  rw [AList.entries_insert_of_notMem hk, hpos, List.take_succ_cons]

/-- The key can be taken out by any lawful comparison. -/
theorem filter_bne_eq_erase [BEq K] [LawfulBEq K] (h : order.Nodup) :
    order.filter (· != k) = @List.erase K instBEqOfDecidableEq order k := by
  rw [@List.Nodup.erase_eq_filter K instBEqOfDecidableEq _ _ h]
  refine List.filter_congr fun k' _ => Bool.eq_iff_iff.2 ?_
  exact bne_iff_ne.trans (@bne_iff_ne K instBEqOfDecidableEq _ k' k).symm

namespace Simulates

theorem empty : Simulates [] (∅ : AList fun _ : K => V) ∅ := ⟨rfl, fun _ => rfl⟩

theorem mem_iff (h : Simulates order m r) (k : K) : k ∈ m ↔ k ∈ r := by
  rw [← AList.lookup_isSome, h.lookup_eq k, AList.lookup_isSome]

theorem synced (h : Simulates order m r) : Synced order m := by
  refine ⟨?_, fun k => ?_⟩
  · rw [h.order_eq]
    exact List.nodup_reverse.2 r.keys_nodup
  · rw [h.order_eq, List.mem_reverse, h.mem_iff k]
    exact AList.mem_keys.symm

theorem length_eq (h : Simulates order m r) : m.entries.length = r.entries.length := by
  rw [← h.synced.length_eq, h.order_eq, List.length_reverse]
  exact List.length_map _

theorem erase [BEq K] [LawfulBEq K] (h : Simulates order m r) (k : K) :
    Simulates (order.filter (· != k)) (m.erase k) (r.erase k) := by
  constructor
  · rw [h.order_eq, AList.keys_erase, List.filter_reverse, filter_bne_eq_erase r.keys_nodup]
  · intro k'
    by_cases hk : k' = k
    · rw [hk, AList.lookup_erase, AList.lookup_erase]
    · rw [AList.lookup_erase_ne hk, AList.lookup_erase_ne hk, h.lookup_eq k']

theorem erase_oldest {oldest : K} (h : Simulates (oldest :: order) m r) :
    Simulates order (m.erase oldest) (r.erase oldest) := by
  have herase := h.erase oldest
  rwa [filter_bne_eq_erase h.synced.nodup, List.erase_cons_head] at herase

/-- A new key is the newest on both sides. -/
theorem insert (h : Simulates order m r) (hk : k ∉ order) (v : V) :
    Simulates (order ++ [k]) (m.insert k v) (r.insert k v) := by
  constructor
  · have hkeys : k ∉ r.keys := by rwa [h.order_eq, List.mem_reverse] at hk
    rw [AList.keys_insert, List.erase_of_not_mem hkeys, List.reverse_cons, ← h.order_eq]
  · intro k'
    by_cases hk : k' = k
    · rw [hk, AList.lookup_insert, AList.lookup_insert]
    · rw [AList.lookup_insert_ne hk, AList.lookup_insert_ne hk, h.lookup_eq k']

/-- A key moves to the newest place with a new value. -/
theorem refresh [BEq K] [LawfulBEq K] (h : Simulates order m r) (k : K) (v : V) :
    Simulates (order.filter (· != k) ++ [k]) (m.insert k v) (r.insert k v) := by
  rw [← insert_erase_self m, ← insert_erase_self r]
  exact (h.erase k).insert (by simp) v

/-- A key moves to the newest place and keeps its value. -/
theorem touch [BEq K] [LawfulBEq K] (h : Simulates order m r) {v : V} (hv : m.lookup k = some v) :
    Simulates (order.filter (· != k) ++ [k]) m (touch r k) := by
  have hvalue : ∀ k', m.lookup k' = (m.insert k v).lookup k' := by
    intro k'
    by_cases hk : k' = k
    · rw [hk, AList.lookup_insert, hv]
    · rw [AList.lookup_insert_ne hk]
  rw [Lru.touch, ← h.lookup_eq k, hv]
  refine ⟨(h.refresh k v).order_eq, fun k' => ?_⟩
  rw [hvalue, (h.refresh k v).lookup_eq]

end Simulates

end Lru
