import Mathlib.Data.List.AList
import Mathlib.Order.OrderDual
import ScryProxy.ForStd.BinaryHeap
import ScryProxy.ForStd.Str

/-!
# Hot data

Model of `observability/hot_data.rs`: the sketch that estimates how often a fingerprint was
accessed, the table of the `k` fingerprints with the greatest estimates, and the heap that
finds a least one of them.  Decay is left out.

The hash functions are a parameter.  So is the order in which a hash map is iterated: it is
chosen anew for each iteration.
-/

namespace ScryProxy

open Rust (Overflow)

/-! ## The sketch -/

/-- `u64::MAX`. -/
def u64Max : Nat := 2 ^ 64 - 1

structure CountMinSketch where
  width : Nat
  depth : Nat
  /-- by row and bucket; a bucket is a remainder, so every index is in range -/
  table : Nat → Nat → Nat
  /-- the hash functions of the rows -/
  hash : Nat → Str → UInt64

namespace CountMinSketch

/-- `CountMinSketch::new`. -/
def new (width depth : Nat) (hash : Nat → Str → UInt64) : CountMinSketch :=
  ⟨width, depth, fun _ _ => 0, hash⟩

def bucket (sketch : CountMinSketch) (i : Nat) (fingerprint : Str) : Nat :=
  (sketch.hash i fingerprint).toNat % sketch.width

/-- `fetch_add(1)` on a counter, which wraps. -/
def fetchAdd (table : Nat → Nat → Nat) (i bucket : Nat) : Nat → Nat → Nat :=
  fun i' bucket' =>
    if i' = i ∧ bucket' = bucket then (table i bucket + 1) % 2 ^ 64 else table i' bucket'

/-- The body of the loop of `increment`: the table and the least count so far. -/
def incrementRow (ov : Overflow) (sketch : CountMinSketch) (fingerprint : Str)
    (state : (Nat → Nat → Nat) × Nat) (i : Nat) : Rust ((Nat → Nat → Nat) × Nat) := do
  let bucket := sketch.bucket i fingerprint
  -- `fetch_add` returns the old count
  let newCount ← Rust.u64Add ov (state.1 i bucket) 1
  return (fetchAdd state.1 i bucket, min state.2 newCount)

/-- `increment`: counts the fingerprint in every row and returns its estimate. -/
def increment (ov : Overflow) (sketch : CountMinSketch) (fingerprint : Str) :
    Rust (CountMinSketch × Nat) := do
  let (table, minCount) ←
    (List.range sketch.depth).foldlM (sketch.incrementRow ov fingerprint) (sketch.table, u64Max)
  return ({ sketch with table }, minCount)

end CountMinSketch

/-! ## The table -/

structure HotDataEntry where
  fingerprint : Str
  accessCount : Nat
  deriving DecidableEq, Repr

/-- `Reverse<HotDataEntry>`: entries are compared by their counts, the other way round. -/
def HotDataEntry.reversed (entry : HotDataEntry) : Natᵒᵈ := OrderDual.toDual entry.accessCount

/-- The entries of the map. -/
def hotEntries (counts : AList fun _ : Str => Nat) : List HotDataEntry :=
  counts.entries.map fun e => ⟨e.1, e.2⟩

/-- An order in which a hash map is iterated. -/
structure IterOrder where
  iter : (AList fun _ : Str => Nat) → List HotDataEntry
  perm : ∀ counts, (iter counts).Perm (hotEntries counts)

structure TopKHeap where
  k : Nat
  heap : BinaryHeap HotDataEntry.reversed
  fingerprintToCount : AList fun _ : Str => Nat

namespace TopKHeap

/-- `TopKHeap::new`. -/
def new (k : Nat) : TopKHeap := ⟨k, .empty, ∅⟩

/-- `rebuild_heap`. -/
def rebuildHeap (order : IterOrder) (t : TopKHeap) : TopKHeap :=
  { t with heap := (order.iter t.fingerprintToCount).foldl .push .empty }

/-- Removes a least entry from the heap and from the map. -/
def removeMin (t : TopKHeap) : TopKHeap :=
  match t.heap.pop with
  | none => t
  | some (removed, heap) =>
    { t with heap, fingerprintToCount := t.fingerprintToCount.erase removed.fingerprint }

/-- A new entry, in the map and in the heap. -/
def insertEntry (t : TopKHeap) (fingerprint : Str) (count : Nat) : TopKHeap :=
  { t with
    fingerprintToCount := t.fingerprintToCount.insert fingerprint count
    heap := t.heap.push ⟨fingerprint, count⟩ }

/-- `update`. -/
def update (order : IterOrder) (t : TopKHeap) (fingerprint : Str) (count : Nat) : TopKHeap :=
  if fingerprint ∈ t.fingerprintToCount then
    rebuildHeap order { t with fingerprintToCount := t.fingerprintToCount.insert fingerprint count }
  else if t.fingerprintToCount.entries.length < t.k then t.insertEntry fingerprint count
  else
    match t.heap.peek with
    | none => t
    | some minEntry =>
      if count > minEntry.accessCount then t.removeMin.insertEntry fingerprint count else t

/-- `get_top_k`: the greatest counts first. -/
def getTopK (order : IterOrder) (t : TopKHeap) : List HotDataEntry :=
  (order.iter t.fingerprintToCount).mergeSort fun a b => b.accessCount ≤ a.accessCount

end TopKHeap

/-! ## The tracker -/

structure HotDataTracker where
  sketch : CountMinSketch
  topK : TopKHeap

/-- A call of `record_access`, and the order in which the map is iterated in it. -/
structure HotAccess where
  fingerprint : Str
  order : IterOrder

namespace HotDataTracker

/-- `HotDataTracker::new`. -/
def new (k : Nat) (hash : Nat → Str → UInt64) : HotDataTracker :=
  ⟨CountMinSketch.new 2048 4 hash, TopKHeap.new k⟩

/-- `record_access`. -/
def recordAccess (ov : Overflow) (tracker : HotDataTracker) (access : HotAccess) :
    Rust HotDataTracker := do
  let (sketch, estimatedCount) ← tracker.sketch.increment ov access.fingerprint
  return ⟨sketch, tracker.topK.update access.order access.fingerprint estimatedCount⟩

/-- Calls made one after another. -/
def recordAccesses (ov : Overflow) (tracker : HotDataTracker) (accesses : List HotAccess) :
    Rust HotDataTracker :=
  accesses.foldlM (recordAccess ov) tracker

/-- `get_top_k`. -/
def getTopK (order : IterOrder) (tracker : HotDataTracker) : List HotDataEntry :=
  tracker.topK.getTopK order

end HotDataTracker

end ScryProxy
