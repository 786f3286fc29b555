import Mathlib.Data.List.AList
import ScryProxy.ForStd.Str

/-!
# Client registry

Model of `ClientRegistry` in `proxy/admin_handles.rs`.  Its two maps have a lock each, and no
operation holds both, so the operations here are the sections between taking and releasing one
lock; `deregister` has two of them and `kill_by_database` three.
-/

namespace ScryProxy

/-- `ClientEntry`, without the fields that are only shown to the administrator. -/
structure ClientEntry where
  connId : Nat
  database : Str
  deriving DecidableEq, Repr

/-- The cancellation handle of a spawned task. -/
structure AbortHandle where
  task : Nat
  deriving DecidableEq, Repr

structure ClientRegistry where
  inner : AList fun _ : Nat => ClientEntry
  abortHandles : AList fun _ : Nat => AbortHandle

namespace ClientRegistry

def new : ClientRegistry := ⟨∅, ∅⟩

def register (r : ClientRegistry) (entry : ClientEntry) : ClientRegistry :=
  { r with inner := r.inner.insert entry.connId entry }

/-- `register_abort_handle`. -/
def registerAbortHandle (r : ClientRegistry) (connId : Nat) (handle : AbortHandle) :
    ClientRegistry :=
  { r with abortHandles := r.abortHandles.insert connId handle }

/-- `deregister`, on `inner`. -/
def deregisterEntry (r : ClientRegistry) (connId : Nat) : ClientRegistry :=
  { r with inner := r.inner.erase connId }

/-- `deregister`, on `abort_handles`. -/
def deregisterHandle (r : ClientRegistry) (connId : Nat) : ClientRegistry :=
  { r with abortHandles := r.abortHandles.erase connId }

/-- `kill_by_database`, step 1: the connections of the database. -/
def matched (r : ClientRegistry) (db : Str) : List Nat :=
  ((r.inner.entries.map Sigma.snd).filter fun e => e.database.eqIgnoreAsciiCase db).map
    ClientEntry.connId

/-- `kill_by_database`, step 2: the handles that are found are taken out; `abort` is called on
    each. -/
def abortMatched : List Nat → ClientRegistry → List AbortHandle × ClientRegistry
  | [], r => ([], r)
  | id :: ids, r =>
    match r.abortHandles.lookup id with
    | some handle =>
      let rest := abortMatched ids { r with abortHandles := r.abortHandles.erase id }
      (handle :: rest.1, rest.2)
    | none => abortMatched ids r

/-- `kill_by_database`, step 3. -/
def removeMatched (r : ClientRegistry) (ids : List Nat) : ClientRegistry :=
  { r with inner := ids.foldl (fun inner id => inner.erase id) r.inner }

/-- `kill_by_database` as a whole, with the handles that `abort` was called on. -/
def killByDatabase (r : ClientRegistry) (db : Str) : List Nat × List AbortHandle × ClientRegistry :=
  let matched := r.matched db
  if matched.isEmpty then (matched, [], r)
  else
    let aborted := abortMatched matched r
    (matched, aborted.1, aborted.2.removeMatched matched)

/-! ## What the sections leave behind -/

variable {r : ClientRegistry}

theorem mem_matched {db : Str} {id : Nat} (h : id ∈ r.matched db) :
    ∃ key entry, r.inner.lookup key = some entry ∧ entry.connId = id := by
  obtain ⟨entry, hentry, rfl⟩ := List.mem_map.1 h
  obtain ⟨pair, hpair, rfl⟩ := List.mem_map.1 (List.mem_filter.1 hentry).1
  exact ⟨pair.1, pair.2, AList.mem_lookup_iff.2 hpair, rfl⟩

@[simp] theorem abortMatched_inner (ids : List Nat) (r : ClientRegistry) :
    (abortMatched ids r).2.inner = r.inner := by
  induction ids generalizing r with
  | nil => rfl
  | cons id ids ih =>
    rw [abortMatched]
    split
    · exact ih _
    · exact ih r

/-- The handles of the matched connections are gone, the others stay. -/
theorem lookup_abortMatched (ids : List Nat) (r : ClientRegistry) (id : Nat) :
    (abortMatched ids r).2.abortHandles.lookup id =
      if id ∈ ids then none else r.abortHandles.lookup id := by
  induction ids generalizing r with
  | nil => rfl
  | cons a ids ih =>
    rw [abortMatched]
    split
    · next handle hlookup =>
      rw [ih]
      by_cases heq : id = a
      · subst heq; simp
      · simp [AList.lookup_erase_ne heq, heq]
    · next hlookup =>
      rw [ih]
      by_cases heq : id = a
      · subst heq; simp [hlookup]
      · simp [heq]

variable {handle : AbortHandle}

/-- Every handle that was there for a matched connection is used. -/
theorem mem_abortMatched {ids : List Nat} {id : Nat} (hid : id ∈ ids)
    (hlookup : r.abortHandles.lookup id = some handle) : handle ∈ (abortMatched ids r).1 := by
  induction ids generalizing r with
  | nil => cases hid
  | cons a ids ih =>
    rw [abortMatched]
    by_cases heq : id = a
    · subst heq
      simp [hlookup]
    · have hrest : id ∈ ids := (List.mem_cons.1 hid).resolve_left heq
      split
      · exact List.mem_cons_of_mem _ (ih hrest (by rwa [AList.lookup_erase_ne heq]))
      · exact ih hrest hlookup

/-- No other handle is. -/
theorem exists_of_mem_abortMatched {ids : List Nat} (h : handle ∈ (abortMatched ids r).1) :
    ∃ id ∈ ids, r.abortHandles.lookup id = some handle := by
  induction ids generalizing r with
  | nil => cases h
  | cons a ids ih =>
    rw [abortMatched] at h
    split at h
    · next first hlookup =>
      rcases List.mem_cons.1 h with rfl | hrest
      · exact ⟨a, List.mem_cons_self, hlookup⟩
      · obtain ⟨id, hid, hfound⟩ := ih hrest
        by_cases heq : id = a
        · subst heq
          rw [AList.lookup_erase] at hfound
          cases hfound
        · rw [AList.lookup_erase_ne heq] at hfound
          exact ⟨id, List.mem_cons_of_mem a hid, hfound⟩
    · obtain ⟨id, hid, hfound⟩ := ih h
      exact ⟨id, List.mem_cons_of_mem a hid, hfound⟩

/-- The handles of the database's connections are used, if they are there. -/
theorem mem_killByDatabase {db : Str} :
    handle ∈ (r.killByDatabase db).2.1 ↔
      ∃ id ∈ r.matched db, r.abortHandles.lookup id = some handle := by
  by_cases hempty : (r.matched db).isEmpty = true
  · simp [killByDatabase, List.isEmpty_iff.1 hempty]
  · simp only [killByDatabase, hempty]
    constructor
    · exact exists_of_mem_abortMatched
    · rintro ⟨id, hid, hlookup⟩
      exact mem_abortMatched hid hlookup

theorem lookup_removeMatched {ids : List Nat} {id : Nat} {entry : ClientEntry}
    (h : (r.removeMatched ids).inner.lookup id = some entry) : r.inner.lookup id = some entry := by
  obtain ⟨inner, handles⟩ := r
  simp only [removeMatched] at h ⊢
  induction ids generalizing inner with
  | nil => exact h
  | cons a ids ih =>
    have herase := ih (inner.erase a) h
    by_cases heq : id = a
    · subst heq
      rw [AList.lookup_erase] at herase
      cases herase
    · rwa [AList.lookup_erase_ne heq] at herase

end ClientRegistry

end ScryProxy
