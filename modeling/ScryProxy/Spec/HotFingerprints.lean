import ScryProxy.ForStd.HeavyHitters
import ScryProxy.Native.HotData

/-!
# Hot fingerprints are not missed

The sketch counts the fingerprints of a bucket together, so its estimates are those of
`HeavyHitters.estimate`; the heap has the entries of the map, so its first entry is a least
one, and an update of the map is a step of the table of `HeavyHitters`.

## Key results

- `CountMinSketch.increment_spec`: the estimate that `increment` returns
- `TopKHeap.update_step`: `update` is a step of the abstract table
- `HotDataTracker.run_tracks`: what a run of accesses leaves
- `HotDataTracker.heavy_hitters_reported`: the reported fingerprints
-/

namespace ScryProxy

open HeavyHitters (load estimate Step Tracks)
open Rust (Overflow)

/-! ## The sketch -/

namespace CountMinSketch

variable {sketch : CountMinSketch} {l : List Str} {fingerprint : Str}

/-- The rows of a sketch. -/
def rows (sketch : CountMinSketch) : List (Str → Nat) := (List.range sketch.depth).map sketch.bucket

/-- The counters are the loads of the buckets. -/
def Counts (sketch : CountMinSketch) (l : List Str) : Prop :=
  ∀ i < sketch.depth, ∀ b, sketch.table i b = load (sketch.bucket i) l b

/-- No counter of the sketch reaches 2^64. -/
def Fits (sketch : CountMinSketch) (l : List Str) : Prop :=
  ∀ i < sketch.depth, ∀ b, load (sketch.bucket i) l b < 2 ^ 64

theorem fetchAdd_same {table : Nat → Nat → Nat} {i : Nat} {bucket : Str → Nat}
    (hcounts : ∀ b, table i b = load bucket l b)
    (hfits : ∀ b, load bucket (l ++ [fingerprint]) b < 2 ^ 64) (b : Nat) :
    fetchAdd table i (bucket fingerprint) i b = load bucket (l ++ [fingerprint]) b := by
  have hfits := hfits b
  rw [HeavyHitters.load_concat] at hfits ⊢
  unfold fetchAdd
  by_cases hb : b = bucket fingerprint
  · subst hb
    rw [if_pos ⟨rfl, rfl⟩, hcounts, if_pos rfl]
    rw [if_pos rfl] at hfits
    exact Nat.mod_eq_of_lt hfits
  · rw [if_neg (fun h => hb h.2), hcounts, if_neg (Ne.symm hb), Nat.add_zero]

/-- The loop of `increment`, after `n` rows. -/
theorem incrementRow_range (ov : Overflow) (hcounts : sketch.Counts l)
    (hfits : sketch.Fits (l ++ [fingerprint])) {n : Nat} (hn : n ≤ sketch.depth) :
    ∃ table, (List.range n).foldlM (sketch.incrementRow ov fingerprint) (sketch.table, u64Max) =
        .ok (table, estimate u64Max ((List.range n).map sketch.bucket) (l ++ [fingerprint]) fingerprint) ∧
      ∀ i b, table i b =
        if i < n then load (sketch.bucket i) (l ++ [fingerprint]) b else sketch.table i b := by
  induction n with
  | zero => exact ⟨sketch.table, rfl, fun i b => rfl⟩
  | succ n ih =>
    obtain ⟨table, hrun, htable⟩ := ih (by omega)
    have hrow : ∀ b, table n b = load (sketch.bucket n) l b := by
      intro b
      rw [htable, if_neg (lt_irrefl n), hcounts n (by omega)]
    have hnew : table n (sketch.bucket n fingerprint) + 1 =
        load (sketch.bucket n) (l ++ [fingerprint]) (sketch.bucket n fingerprint) := by
      rw [hrow, HeavyHitters.load_concat, if_pos rfl]
    have hsmall := hfits n (by omega) (sketch.bucket n fingerprint)
    refine ⟨fetchAdd table n (sketch.bucket n fingerprint), ?_, ?_⟩
    · rw [List.range_succ, Rust.foldlM_concat hrun, incrementRow,
        Rust.u64Add_of_lt ov (by rw [hnew]; exact hsmall), Rust.ok_bind, hnew, List.map_append,
        List.map_singleton, HeavyHitters.estimate_concat]
      rfl
    · intro i b
      by_cases hi : i = n
      · subst hi
        rw [if_pos (Nat.lt_succ_self i)]
        exact fetchAdd_same hrow (hfits i (by omega)) b
      · have hother : fetchAdd table n (sketch.bucket n fingerprint) i b = table i b :=
          if_neg fun h => hi h.1
        rw [hother, htable]
        by_cases hlt : i < n
        · rw [if_pos hlt, if_pos (by omega)]
        · rw [if_neg hlt, if_neg (by omega)]

/-- `increment` counts the fingerprint and returns its estimate. -/
theorem increment_spec (ov : Overflow) (hcounts : sketch.Counts l)
    (hfits : sketch.Fits (l ++ [fingerprint])) :
    ∃ table, sketch.increment ov fingerprint =
        .ok ({ sketch with table }, estimate u64Max sketch.rows (l ++ [fingerprint]) fingerprint) ∧
      Counts { sketch with table } (l ++ [fingerprint]) := by
  obtain ⟨table, hrun, htable⟩ := incrementRow_range ov hcounts hfits le_rfl
  refine ⟨table, ?_, ?_⟩
  · rw [increment, hrun]
    rfl
  · intro i hi b
    exact (htable i b).trans (if_pos hi)

end CountMinSketch

/-! ## The table -/

theorem mem_hotEntries {counts : AList fun _ : Str => Nat} {entry : HotDataEntry} :
    entry ∈ hotEntries counts ↔ counts.lookup entry.fingerprint = some entry.accessCount := by
  rw [← Option.mem_def, AList.mem_lookup_iff, hotEntries, List.mem_map]
  constructor
  · rintro ⟨e, he, rfl⟩
    exact he
  · intro he
    exact ⟨_, he, rfl⟩

theorem length_hotEntries (counts : AList fun _ : Str => Nat) :
    (hotEntries counts).length = counts.entries.length := List.length_map _

theorem hotEntries_insert {counts : AList fun _ : Str => Nat} {fingerprint : Str}
    (hnew : fingerprint ∉ counts) (count : Nat) :
    hotEntries (counts.insert fingerprint count) = ⟨fingerprint, count⟩ :: hotEntries counts := by
  rw [hotEntries, AList.entries_insert_of_notMem hnew]
  rfl

/-- The entries without one of them. -/
theorem perm_hotEntries_erase {counts : AList fun _ : Str => Nat} {entry : HotDataEntry}
    (h : counts.lookup entry.fingerprint = some entry.accessCount) :
    (hotEntries counts).Perm (entry :: hotEntries (counts.erase entry.fingerprint)) := by
  -- erasing the entry and inserting it again changes no lookup
  have hsame : counts.entries.Perm
      ((counts.erase entry.fingerprint).insert entry.fingerprint entry.accessCount).entries := by
    apply List.lookup_ext counts.nodupKeys (AList.nodupKeys _)
    intro fingerprint count
    show count ∈ counts.lookup fingerprint ↔
      count ∈ ((counts.erase entry.fingerprint).insert entry.fingerprint entry.accessCount).lookup fingerprint
    by_cases hf : fingerprint = entry.fingerprint
    · rw [hf, AList.lookup_insert, h]
    · rw [AList.lookup_insert_ne hf, AList.lookup_erase_ne hf]
  have hinsert := hotEntries_insert (Maps.notMem_erase_self counts entry.fingerprint) entry.accessCount
  exact (hsame.map _).trans (hinsert ▸ .rfl)

namespace TopKHeap

variable {order : IterOrder} {t : TopKHeap} {fingerprint : Str} {count : Nat}

/-- The heap has the entries of the map. -/
def Mirrors (t : TopKHeap) : Prop := t.heap.toList.Perm (hotEntries t.fingerprintToCount)

theorem perm_foldl_push (entries : List HotDataEntry) (heap : BinaryHeap HotDataEntry.reversed) :
    (entries.foldl .push heap).toList.Perm (entries ++ heap.toList) := by
  induction entries generalizing heap with
  | nil => exact .rfl
  | cons entry entries ih =>
    exact ((ih (heap.push entry)).trans ((heap.perm_push entry).append_left entries)).trans
      List.perm_middle

theorem mirrors_rebuildHeap (order : IterOrder) (t : TopKHeap) : (t.rebuildHeap order).Mirrors := by
  have hpush := perm_foldl_push (order.iter t.fingerprintToCount) .empty
  rw [show (BinaryHeap.empty : BinaryHeap HotDataEntry.reversed).toList = [] from rfl, List.append_nil]
    at hpush
  exact hpush.trans (order.perm _)

theorem mirrors_insertEntry (h : t.Mirrors) (hnew : fingerprint ∉ t.fingerprintToCount) (count : Nat) :
    (t.insertEntry fingerprint count).Mirrors := by
  unfold Mirrors insertEntry
  rw [hotEntries_insert hnew]
  exact (t.heap.perm_push _).trans (h.cons _)

/-- The first entry of the heap is a least one of the map. -/
theorem least_of_peek (h : t.Mirrors) {entry : HotDataEntry} (hpeek : t.heap.peek = some entry) :
    t.fingerprintToCount.lookup entry.fingerprint = some entry.accessCount ∧
      ∀ y d, t.fingerprintToCount.lookup y = some d → entry.accessCount ≤ d := by
  obtain ⟨rest, -, hperm⟩ := BinaryHeap.pop_of_peek hpeek
  constructor
  · have hmem : entry ∈ t.heap.toList := hperm.subset List.mem_cons_self
    exact mem_hotEntries.1 (h.subset hmem)
  · intro y d hy
    have hmem : (⟨y, d⟩ : HotDataEntry) ∈ t.heap.toList := h.symm.subset (mem_hotEntries.2 hy)
    exact BinaryHeap.le_peek hpeek _ hmem

/-- A least entry goes from both. -/
theorem removeMin_of_peek (h : t.Mirrors) {entry : HotDataEntry} (hpeek : t.heap.peek = some entry) :
    t.removeMin.fingerprintToCount = t.fingerprintToCount.erase entry.fingerprint ∧
      t.removeMin.k = t.k ∧ t.removeMin.Mirrors := by
  obtain ⟨rest, hpop, hperm⟩ := BinaryHeap.pop_of_peek hpeek
  have hremove : t.removeMin =
      ⟨t.k, rest, t.fingerprintToCount.erase entry.fingerprint⟩ := by
    unfold removeMin
    rw [hpop]
  rw [hremove]
  have herase := perm_hotEntries_erase (least_of_peek h hpeek).1
  exact ⟨rfl, rfl, ((hperm.trans h).trans herase).cons_inv⟩

/-- `update` is a step of the table, and the heap goes with it. -/
theorem update_step (order : IterOrder) (h : t.Mirrors) (fingerprint : Str) (count : Nat) :
    Step t.k t.fingerprintToCount fingerprint count (t.update order fingerprint count).fingerprintToCount ∧
      (t.update order fingerprint count).k = t.k ∧ (t.update order fingerprint count).Mirrors := by
  unfold update
  by_cases hmem : fingerprint ∈ t.fingerprintToCount
  · rw [if_pos hmem]
    exact ⟨.refresh hmem, rfl, mirrors_rebuildHeap order _⟩
  · rw [if_neg hmem]
    by_cases hroom : t.fingerprintToCount.entries.length < t.k
    · rw [if_pos hroom]
      exact ⟨.add hmem hroom, rfl, mirrors_insertEntry h hmem count⟩
    · rw [if_neg hroom]
      have hfull := Nat.le_of_not_lt hroom
      cases hpeek : t.heap.peek with
      | none =>
        -- an empty heap mirrors an empty map
        refine ⟨.keep hmem hfull ?_, rfl, h⟩
        intro y d hy
        have hentry : (⟨y, d⟩ : HotDataEntry) ∈ t.heap.toList := h.symm.subset (mem_hotEntries.2 hy)
        rw [BinaryHeap.peek_eq_none_iff.1 hpeek] at hentry
        cases hentry
      | some entry =>
        obtain ⟨hentry, hleast⟩ := least_of_peek h hpeek
        dsimp only
        by_cases hgt : count > entry.accessCount
        · rw [if_pos hgt]
          obtain ⟨hmap, hk, hmirrors⟩ := removeMin_of_peek h hpeek
          have hgone : fingerprint ∉ t.removeMin.fingerprintToCount := by
            rw [hmap]
            exact fun hin => hmem (AList.mem_erase.1 hin).2
          refine ⟨?_, hk, mirrors_insertEntry hmirrors hgone count⟩
          show Step t.k t.fingerprintToCount fingerprint count
            (t.removeMin.fingerprintToCount.insert fingerprint count)
          rw [hmap]
          exact .replace hmem hfull hentry hleast hgt
        · rw [if_neg hgt]
          refine ⟨.keep hmem hfull ?_, rfl, h⟩
          intro y d hy
          exact (Nat.le_of_not_lt hgt).trans (hleast y d hy)

end TopKHeap

/-! ## Runs -/

namespace HotDataTracker

variable {k : Nat} {hash : Nat → Str → UInt64}

/-- The buckets of a tracker's rows. -/
def bucketOf (hash : Nat → Str → UInt64) (i : Nat) (fingerprint : Str) : Nat :=
  (hash i fingerprint).toNat % 2048

/-- The estimates of a tracker's sketch. -/
def estimates (hash : Nat → Str → UInt64) : List Str → Str → Nat :=
  estimate u64Max ((List.range 4).map (bucketOf hash))

/-- No counter reaches 2^64. -/
def CountsFit (hash : Nat → Str → UInt64) (fingerprints : List Str) : Prop :=
  ∀ i < 4, ∀ b, fingerprints.countP (fun fingerprint => bucketOf hash i fingerprint = b) < 2 ^ 64

/-- What a tracker knows about the accesses it has seen. -/
structure Tracked (k : Nat) (hash : Nat → Str → UInt64) (fingerprints : List Str)
    (tracker : HotDataTracker) : Prop where
  sketch : ∃ table, tracker.sketch = ⟨2048, 4, table, hash⟩
  counts : tracker.sketch.Counts fingerprints
  bound : tracker.topK.k = k
  mirrors : tracker.topK.Mirrors
  tracks : Tracks k (estimates hash) fingerprints tracker.topK.fingerprintToCount

theorem tracked_new (k : Nat) (hash : Nat → Str → UInt64) : Tracked k hash [] (new k hash) where
  sketch := ⟨_, rfl⟩
  counts _ _ _ := rfl
  bound := rfl
  mirrors := .rfl
  tracks := Tracks.empty

theorem CountsFit.of_concat {fingerprints : List Str} {fingerprint : Str}
    (h : CountsFit hash (fingerprints ++ [fingerprint])) : CountsFit hash fingerprints := by
  intro i hi b
  have hlt := h i hi b
  rw [List.countP_append] at hlt
  omega

/-- One access. -/
theorem Tracked.recordAccess {fingerprints : List Str} {tracker : HotDataTracker}
    (h : Tracked k hash fingerprints tracker) (ov : Overflow) (access : HotAccess)
    (hfit : CountsFit hash (fingerprints ++ [access.fingerprint])) :
    ∃ tracker', tracker.recordAccess ov access = .ok tracker' ∧
      Tracked k hash (fingerprints ++ [access.fingerprint]) tracker' := by
  obtain ⟨sketch, topK⟩ := tracker
  obtain ⟨table, hsketch⟩ := h.sketch
  subst hsketch
  obtain ⟨table', hincrement, hcounts⟩ := CountMinSketch.increment_spec ov h.counts hfit
  set count := estimates hash (fingerprints ++ [access.fingerprint]) access.fingerprint
  obtain ⟨hstep, hk, hmirrors⟩ := TopKHeap.update_step access.order h.mirrors access.fingerprint count
  refine ⟨⟨⟨2048, 4, table', hash⟩, topK.update access.order access.fingerprint count⟩, ?_, ?_⟩
  · rw [HotDataTracker.recordAccess, hincrement]
    rfl
  · refine ⟨⟨table', rfl⟩, hcounts, hk.trans h.bound, hmirrors, ?_⟩
    have hsmall : (fingerprints ++ [access.fingerprint]).count access.fingerprint ≤ u64Max := by
      have hload : load (bucketOf hash 0) (fingerprints ++ [access.fingerprint])
          (bucketOf hash 0 access.fingerprint) < 2 ^ 64 := hfit 0 (by decide) _
      exact Nat.le_sub_one_of_lt (HeavyHitters.count_le_load.trans_lt hload)
    exact h.tracks.step (fun _ => HeavyHitters.estimate_le_concat _)
      (HeavyHitters.count_le_estimate hsmall) (h.bound ▸ hstep)

/-- A run of accesses returns, whatever the overflow setting. -/
theorem run_tracks (ov : Overflow) (k : Nat) (accesses : List HotAccess)
    (hfit : CountsFit hash (accesses.map HotAccess.fingerprint)) :
    ∃ tracker, (new k hash).recordAccesses ov accesses = .ok tracker ∧
      Tracked k hash (accesses.map HotAccess.fingerprint) tracker := by
  induction accesses using List.reverseRecOn with
  | nil => exact ⟨new k hash, rfl, tracked_new k hash⟩
  | append_singleton accesses access ih =>
    rw [List.map_append, List.map_singleton] at hfit ⊢
    obtain ⟨tracker, hrun, htracked⟩ := ih hfit.of_concat
    obtain ⟨tracker', hstep, htracked'⟩ := htracked.recordAccess ov access hfit
    refine ⟨tracker', ?_, htracked'⟩
    rw [recordAccesses, Rust.foldlM_concat hrun]
    exact hstep

theorem perm_getTopK (order : IterOrder) (tracker : HotDataTracker) :
    (tracker.getTopK order).Perm (hotEntries tracker.topK.fingerprintToCount) :=
  (List.mergeSort_perm _ _).trans (order.perm _)

/-- A fingerprint is reported exactly if the table has it. -/
theorem mem_fingerprints_getTopK {order : IterOrder} {tracker : HotDataTracker} {fingerprint : Str} :
    fingerprint ∈ (tracker.getTopK order).map HotDataEntry.fingerprint ↔
      fingerprint ∈ tracker.topK.fingerprintToCount := by
  rw [((perm_getTopK order tracker).map _).mem_iff, hotEntries, List.map_map]
  exact Iff.rfl

/-- What is reported after a run of accesses, whatever the hash functions collide on. -/
theorem heavy_hitters_reported (ov : Overflow) (k : Nat) (hk : 1 ≤ k) (hash : Nat → Str → UInt64)
    (accesses : List HotAccess) (hfit : CountsFit hash (accesses.map HotAccess.fingerprint))
    (order : IterOrder) :
    ∃ tracker, (new k hash).recordAccesses ov accesses = .ok tracker ∧
      let fingerprints := accesses.map HotAccess.fingerprint
      let report := tracker.getTopK order
      let reported := report.map HotDataEntry.fingerprint
      (∀ entry ∈ report, fingerprints.count entry.fingerprint ≤ entry.accessCount) ∧
        reported.Nodup ∧ reported.length ≤ k ∧
        (fingerprints.toFinset.card ≤ k → ∀ fingerprint ∈ fingerprints, fingerprint ∈ reported) ∧
        (k < fingerprints.toFinset.card →
          report ≠ [] ∧ ∀ fingerprint, fingerprint ∉ reported →
            ∀ entry ∈ report, fingerprints.count fingerprint ≤ entry.accessCount) := by
  obtain ⟨tracker, hrun, htracked⟩ := run_tracks ov k accesses hfit
  have htracks := htracked.tracks
  have hperm := perm_getTopK order tracker
  have hlookup : ∀ entry ∈ tracker.getTopK order,
      tracker.topK.fingerprintToCount.lookup entry.fingerprint = some entry.accessCount :=
    fun entry hentry => mem_hotEntries.1 (hperm.subset hentry)
  have hlength : (tracker.getTopK order).length = tracker.topK.fingerprintToCount.entries.length := by
    rw [hperm.length_eq, length_hotEntries]
  refine ⟨tracker, hrun, ?_, ?_, ?_, ?_, ?_⟩
  · intro entry hentry
    exact htracks.count_le _ _ (hlookup entry hentry)
  · have hkeys : (hotEntries tracker.topK.fingerprintToCount).map HotDataEntry.fingerprint =
        tracker.topK.fingerprintToCount.keys := List.map_map
    rw [(hperm.map _).nodup_iff, hkeys]
    exact AList.keys_nodup _
  · rw [List.length_map, hlength]
    exact htracks.bounded
  · intro hcard fingerprint hmem
    exact mem_fingerprints_getTopK.2 (htracks.mem_of_card_le hcard hmem)
  · intro hcard
    constructor
    · intro hempty
      rw [hempty, htracks.length_of_card_gt hcard] at hlength
      simp at hlength
      omega
    · intro fingerprint hnot entry hentry
      exact htracks.missed _ (fun hmem => hnot (mem_fingerprints_getTopK.2 hmem)) _ _ (hlookup entry hentry)

/-- Accesses with a map that is iterated in the order of its entries. -/
def accessesOf (fingerprints : List Str) : List HotAccess :=
  fingerprints.map fun fingerprint => ⟨fingerprint, hotEntries, fun _ => .rfl⟩

/-- Three accesses of two fingerprints that collide in every row, with room for one. -/
theorem heavy_hitters_colliding :
    CountsFit (fun _ _ => 0) ["a".toList, "b".toList, "b".toList] ∧
      ∃ tracker, (new 1 fun _ _ => 0).recordAccesses .checked
          (accessesOf ["a".toList, "b".toList, "b".toList]) = .ok tracker ∧
        ∃ entry ∈ tracker.getTopK ⟨hotEntries, fun _ => .rfl⟩,
          ["a".toList, "b".toList, "b".toList].count entry.fingerprint ≤ entry.accessCount := by
  have hfit : CountsFit (fun _ _ => 0) ["a".toList, "b".toList, "b".toList] := by
    intro i _ b
    exact List.countP_le_length.trans_lt (by decide)
  refine ⟨hfit, ?_⟩
  obtain ⟨tracker, hrun, hcount, -, -, -, hfull⟩ := heavy_hitters_reported .checked 1 le_rfl (fun _ _ => 0)
    (accessesOf ["a".toList, "b".toList, "b".toList]) hfit ⟨hotEntries, fun _ => .rfl⟩
  obtain ⟨hne, -⟩ := hfull (by decide)
  obtain ⟨entry, hentry⟩ := List.exists_mem_of_ne_nil _ hne
  exact ⟨tracker, hrun, entry, hentry, hcount entry hentry⟩

end HotDataTracker

end ScryProxy
