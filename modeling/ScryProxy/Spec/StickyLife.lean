import ScryProxy.Spec.PoolLife

/-!
# The life of a pinned connection

The pool manager used by any callers through all of its operations, each `ManagedConnection`
at most once.  No operation loses a connection or puts it into two places: what the manager
holds after it is what it held before and what it was given (`PoolManager.release_perm` and
its like, `StickyLife.valid_step`).

What `pin` and `release` are meant to leave in the sticky map is recorded beside the manager
as promises: the connection, under its client, with the reasons it was pinned for.  `release`
puts a connection back without its reasons, and neither operation replaces an entry that the
client has got in the meantime; the promises are kept just by the runs in which that does not
matter (`StickyLife.pinned_kept_iff`).
-/

namespace ScryProxy

open Rust (Overflow)

/-! ## What the operations move -/

namespace PoolManager

/-- The connections in the sticky map. -/
def sticky (pm : PoolManager) : List PooledBackend := pm.stickyMap.entries.map fun e => e.2.1

/-- Every connection that the manager has: idle, closed and sticky. -/
def objects (pm : PoolManager) : List PooledBackend := pm.pool.idle ++ pm.pool.closed ++ pm.sticky

variable {clientId : Nat} {b : PooledBackend} {info : StickyConnectionInfo}

theorem sticky_perm_erase {pm : PoolManager} (h : pm.stickyMap.lookup clientId = some (b, info)) :
    pm.sticky.Perm (b :: (pm.stickyMap.erase clientId).entries.map fun e => e.2.1) :=
  (Maps.entries_perm_erase h).map _

/-- A new entry for a client that has none. -/
theorem objects_insert_new (pm : PoolManager) (h : pm.stickyMap.lookup clientId = none)
    (b : PooledBackend) (info : StickyConnectionInfo) (next : Nat) :
    (objects { pm with
      stickyMap := pm.stickyMap.insert clientId (b, info), nextBindingId := next }).Perm
      (b :: pm.objects) := by
  have hnew : clientId ∉ pm.stickyMap := AList.lookup_eq_none.1 h
  simp only [objects, sticky, AList.entries_insert_of_notMem hnew, List.map_cons]
  exact List.perm_middle

/-- An entry that is changed and keeps its connection, while another one goes to the pool. -/
theorem objects_insert_old (pm : PoolManager) (h : pm.stickyMap.lookup clientId = some (b, info))
    (info' : StickyConnectionInfo) (c : PooledBackend) :
    (objects { pm with
      stickyMap := pm.stickyMap.insert clientId (b, info'), pool := pm.pool.put c }).Perm
      (c :: pm.objects) := by
  have hsticky : ((pm.stickyMap.insert clientId (b, info')).entries.map fun e => e.2.1).Perm
      pm.sticky := by
    rw [AList.entries_insert, List.map_cons]
    exact (sticky_perm_erase h).symm
  exact ((hsticky.append_left _).cons c)

/-- An entry that is removed goes to the pool. -/
theorem objects_erase (pm : PoolManager) (h : pm.stickyMap.lookup clientId = some (b, info)) :
    (objects { pm with
      stickyMap := pm.stickyMap.erase clientId, pool := pm.pool.put b }).Perm pm.objects := by
  have hsticky := (sticky_perm_erase h).symm.append_left (pm.pool.idle ++ pm.pool.closed)
  exact List.perm_middle.symm.trans hsticky

theorem release_perm (pm : PoolManager) (conn : ManagedConnection) (now : Nat) :
    (pm.release conn now).objects.Perm (conn.connection :: pm.objects) := by
  unfold release
  split
  · split
    · next b info h => exact objects_insert_old pm h _ _
    · next h => exact objects_insert_new pm h _ _ _
  · exact .rfl

theorem pin_perm (pm : PoolManager) (clientId : Nat) (reason : PinReason) (conn : ManagedConnection)
    (now : Nat) : (pm.pin clientId reason conn now).objects.Perm (conn.connection :: pm.objects) := by
  unfold pin
  split
  · next b info h => exact objects_insert_old pm h _ _
  · next h => exact objects_insert_new pm h _ _ _

theorem unpin_perm (pm : PoolManager) (clientId : Nat) : (pm.unpin clientId).objects.Perm pm.objects := by
  unfold unpin
  split
  · next b info h => exact objects_erase pm h
  · exact .rfl

/-- One round of `cleanup_idle`: the entry goes to the pool, or stays. -/
theorem removeIdle_perm (idleUnpinSecs now : Nat) (cleaned : Nat × PoolManager) (clientId : Nat) :
    (removeIdle idleUnpinSecs now cleaned clientId).2.objects.Perm cleaned.2.objects := by
  unfold removeIdle
  split
  · next b info h =>
    split
    · exact objects_erase cleaned.2 h
    · exact .rfl
  · exact .rfl

theorem cleanupIdle_perm (pm : PoolManager) (idleUnpinSecs now : Nat) :
    (pm.cleanupIdle idleUnpinSecs now).2.objects.Perm pm.objects := by
  unfold cleanupIdle
  split
  · exact .rfl
  · -- every round moves connections only, so the loop does
    apply List.foldlRecOn (motive := fun cleaned : Nat × PoolManager => cleaned.2.objects.Perm pm.objects)
    · exact .rfl
    · intro cleaned hcleaned clientId _
      exact (removeIdle_perm idleUnpinSecs now cleaned clientId).trans hcleaned

theorem lookup_unpin (pm : PoolManager) (clientId c : Nat) :
    (pm.unpin clientId).stickyMap.lookup c = if c = clientId then none else pm.stickyMap.lookup c := by
  unfold unpin
  split
  · exact Maps.lookup_erase_eq pm.stickyMap clientId c
  · next hnone =>
    split
    · next h => rw [h, hnone]
    · rfl

theorem lookup_removeIdle (idleUnpinSecs now : Nat) (cleaned : Nat × PoolManager) (clientId c : Nat) :
    (removeIdle idleUnpinSecs now cleaned clientId).2.stickyMap.lookup c =
      if c = clientId then
        (cleaned.2.stickyMap.lookup c).filter fun e => !e.2.isIdle idleUnpinSecs now
      else cleaned.2.stickyMap.lookup c := by
  unfold removeIdle
  by_cases hc : c = clientId
  · subst hc
    rw [if_pos rfl]
    cases hentry : cleaned.2.stickyMap.lookup c with
    | none => exact hentry
    | some entry =>
      obtain ⟨b, info⟩ := entry
      cases hidle : info.isIdle idleUnpinSecs now with
      | false => simp [hidle, hentry, Option.filter_some]
      | true => simp [hidle, AList.lookup_erase, Option.filter_some]
  · rw [if_neg hc]
    split
    · split
      · exact AList.lookup_erase_ne hc
      · rfl
    · rfl

/-- The loop of `cleanup_idle` checks the entries of the clients listed. -/
theorem lookup_foldl_removeIdle (idleUnpinSecs now c : Nat) (clients : List Nat)
    (cleaned : Nat × PoolManager) :
    (clients.foldl (removeIdle idleUnpinSecs now) cleaned).2.stickyMap.lookup c =
      if c ∈ clients then
        (cleaned.2.stickyMap.lookup c).filter fun e => !e.2.isIdle idleUnpinSecs now
      else cleaned.2.stickyMap.lookup c := by
  induction clients generalizing cleaned with
  | nil => simp
  | cons clientId clients ih =>
    rw [List.foldl_cons, ih, lookup_removeIdle]
    -- a client that is listed twice is checked twice
    by_cases hfirst : c = clientId <;> by_cases hrest : c ∈ clients <;>
      simp [hfirst, hrest, Option.filter_filter]

/-- `cleanup_idle` removes the entries that are idle. -/
theorem lookup_cleanupIdle (pm : PoolManager) (idleUnpinSecs now c : Nat) :
    (pm.cleanupIdle idleUnpinSecs now).2.stickyMap.lookup c =
      if idleUnpinSecs = 0 then pm.stickyMap.lookup c
      else (pm.stickyMap.lookup c).filter fun e => !e.2.isIdle idleUnpinSecs now := by
  unfold cleanupIdle
  split
  · rfl
  · rw [lookup_foldl_removeIdle]
    split
    · rfl
    · next hout =>
      -- an entry that was not listed is not idle
      cases hentry : pm.stickyMap.lookup c with
      | none => rfl
      | some entry =>
        have hbusy : entry.2.isIdle idleUnpinSecs now = false := by
          apply Bool.eq_false_iff.2
          intro hidle
          apply hout
          have hmem : ⟨c, entry⟩ ∈ pm.stickyMap.entries := AList.mem_lookup_iff.1 hentry
          exact List.mem_map.2 ⟨⟨c, entry⟩, List.mem_filter.2 ⟨hmem, hidle⟩, rfl⟩
        rw [Option.filter_some, hbusy]
        rfl

/-- An acquire takes the client's sticky connection, or moves connections of the pool only. -/
theorem acquire_cases {ov : Overflow} {pm pm' : PoolManager} {needsSticky : Bool}
    {attempts : List Attempt} {fresh : Option PooledBackend}
    {result : Except AcquireError ManagedConnection}
    (h : pm.acquire ov clientId needsSticky attempts fresh = .ok (result, pm')) :
    (∃ b info, pm.stickyMap.lookup clientId = some (b, info) ∧ result = .ok ⟨b, clientId, true⟩ ∧
      pm' = { pm with stickyMap := pm.stickyMap.erase clientId }) ∨
    ∃ got pool new, result.toOption = got.map (fun b => ⟨b, clientId, false⟩) ∧
      pm' = { pm with pool } ∧ (new = [] ∨ got = fresh ∧ new = fresh.toList) ∧
      (got.toList ++ (pool.idle ++ pool.closed)).Perm (new ++ (pm.pool.idle ++ pm.pool.closed)) := by
  unfold acquire at h
  split at h
  · cases h
    exact .inr ⟨none, pm.pool, [], rfl, rfl, .inl rfl, .rfl⟩
  · split at h
    · next b info hsticky =>
      cases h
      split at hsticky
      · exact .inl ⟨b, info, hsticky, rfl, rfl⟩
      · cases hsticky
    · obtain ⟨⟨got, pool⟩, hget, h⟩ := Rust.bind_returns.1 h
      obtain ⟨new, hnew, hperm⟩ := Pool.get_perm hget
      cases got <;> cases h <;> exact .inr ⟨_, pool, new, rfl, rfl, hnew, hperm⟩

/-- What an acquire hands out was the manager's, or has just been opened. -/
theorem acquire_perm {ov : Overflow} {pm pm' : PoolManager} {needsSticky : Bool}
    {attempts : List Attempt} {fresh : Option PooledBackend}
    {result : Except AcquireError ManagedConnection}
    (h : pm.acquire ov clientId needsSticky attempts fresh = .ok (result, pm')) :
    ∃ got new, result.toOption.map ManagedConnection.connection = got ∧
      (new = [] ∨ got = fresh ∧ new = fresh.toList) ∧
      (got.toList ++ pm'.objects).Perm (new ++ pm.objects) := by
  rcases acquire_cases h with ⟨b, info, hsticky, rfl, rfl⟩ | ⟨got, pool, new, hresult, rfl, hnew, hperm⟩
  · refine ⟨some b, [], rfl, .inl rfl, ?_⟩
    exact (objects_erase pm hsticky)
  · refine ⟨got, new, ?_, hnew, ?_⟩
    · rw [hresult, Option.map_map]
      exact Option.map_id'
    · have hmoved := hperm.append_right pm.sticky
      rw [List.append_assoc got.toList, List.append_assoc new] at hmoved
      exact hmoved

end PoolManager

/-! ## Runs -/

/-- A connection in a caller's hands, and the pin reasons that its entry had when it was taken from
    the sticky map. -/
structure Holding where
  conn : ManagedConnection
  reasons : List PinReason
  deriving DecidableEq, Repr

/-- What should be in the sticky map: a connection, under its client, with its pin reasons. -/
structure Promise where
  clientId : Nat
  connection : PooledBackend
  reasons : List PinReason
  deriving DecidableEq, Repr

/-- The promise is kept. -/
def PoolManager.keeps (pm : PoolManager) (p : Promise) : Bool :=
  (pm.stickyMap.lookup p.clientId).any fun entry =>
    entry.1 = p.connection && p.reasons.all (· ∈ entry.2.pinReasons)

/-- A call of the pool manager; a caller gives back what is in its hands. -/
inductive StickyEvent where
  /-- `attempts` are the recycles made, in order; `fresh` is the startup response recorded for a
      newly created connection, if one can be created -/
  | acquire (clientId : Nat) (needsSticky : Bool) (attempts : List Attempt)
      (fresh : Option (Option (List UInt8)))
  | release (held : Holding) (now : Nat)
  | pin (clientId : Nat) (reason : PinReason) (held : Holding) (now : Nat)
  | unpin (clientId : Nat)
  | cleanupIdle (now : Nat)
  deriving DecidableEq, Repr

/-- The pool manager, what its callers hold, and what it has promised. -/
structure StickyLife where
  manager : PoolManager
  hands : List Holding
  promises : List Promise
  /-- number for the next connection created -/
  created : Nat
  /-- numbers of the connections created -/
  opened : List Nat

namespace StickyLife

def new : StickyLife := ⟨.new, [], [], 0, []⟩

/-- The reasons that the entry of a connection from the sticky map had. -/
def reasonsOf (ℓ : StickyLife) (conn : ManagedConnection) : List PinReason :=
  if conn.isPinned then
    ((ℓ.manager.stickyMap.lookup conn.clientId).map fun entry => entry.2.pinReasons).getD []
  else []

/-- The promises to the clients whose entries are still there: an `acquire`, an `unpin` and a
    `cleanup_idle` may remove an entry. -/
def standing (ℓ : StickyLife) (manager : PoolManager) : List Promise :=
  ℓ.promises.filter fun p => manager.hasSticky p.clientId

/-- The promise of a `release`. -/
def released (held : Holding) : List Promise :=
  if held.conn.isPinned then [⟨held.conn.clientId, held.conn.connection, held.reasons⟩] else []

/-- One call; `none` if it cannot happen, or does not return. -/
def step (ov : Overflow) (idleUnpinSecs : Nat) (ℓ : StickyLife) : StickyEvent → Option StickyLife
  | .acquire clientId needsSticky attempts fresh =>
    match ℓ.manager.acquire ov clientId needsSticky attempts
        (fresh.map fun startupResponse => ⟨ℓ.created, startupResponse⟩) with
    | .error _ => none
    | .ok (.error _, manager) => some { ℓ with manager, created := ℓ.created + 1 }
    | .ok (.ok conn, manager) =>
      some { ℓ with
        manager
        hands := ⟨conn, ℓ.reasonsOf conn⟩ :: ℓ.hands
        promises := ℓ.standing manager
        created := ℓ.created + 1
        opened := if conn.connection.id = ℓ.created then ℓ.created :: ℓ.opened else ℓ.opened }
  | .release held now =>
    if held ∈ ℓ.hands then
      some { ℓ with
        manager := ℓ.manager.release held.conn now
        hands := ℓ.hands.erase held
        promises := released held ++ ℓ.promises }
    else none
  | .pin clientId reason held now =>
    if held ∈ ℓ.hands then
      some { ℓ with
        manager := ℓ.manager.pin clientId reason held.conn now
        hands := ℓ.hands.erase held
        promises := ⟨clientId, held.conn.connection, held.reasons ++ [reason]⟩ :: ℓ.promises }
    else none
  | .unpin clientId =>
    let manager := ℓ.manager.unpin clientId
    some { ℓ with manager, promises := ℓ.standing manager }
  | .cleanupIdle now =>
    let manager := (ℓ.manager.cleanupIdle idleUnpinSecs now).2
    some { ℓ with manager, promises := ℓ.standing manager }

/-- Every connection: the manager's and those in hands. -/
def objects (ℓ : StickyLife) : List PooledBackend :=
  ℓ.manager.objects ++ ℓ.hands.map fun held => held.conn.connection

/-- Every connection that was opened and has not been closed is in exactly one place: the pool, the
    sticky map or a caller's hands. -/
def OnePlace (ℓ : StickyLife) : Prop :=
  ∀ id ∈ ℓ.opened, id ∉ ℓ.manager.pool.closed.map PooledBackend.id →
    (ℓ.manager.pool.idle.map PooledBackend.id).count id +
      (ℓ.manager.sticky.map PooledBackend.id).count id +
      (ℓ.hands.map fun held => held.conn.connection.id).count id = 1

/-- Every promise is kept. -/
def Kept (ℓ : StickyLife) : Prop := ℓ.promises.all ℓ.manager.keeps = true

/-- The calls that keep the promises: a connection is pinned for a client without an entry, and for
    no other reasons than before; a connection from the sticky map is released while its client has
    no entry, and had no reasons to lose. -/
def meets (ℓ : StickyLife) : StickyEvent → Prop
  | .pin clientId reason held _ => ℓ.manager.hasSticky clientId = false ∧ ∀ r ∈ held.reasons, r = reason
  | .release held _ =>
    held.conn.isPinned = true → ℓ.manager.hasSticky held.conn.clientId = false ∧ held.reasons = []
  | _ => True

instance (ℓ : StickyLife) (e : StickyEvent) : Decidable (ℓ.meets e) := by
  cases e <;> unfold meets <;> infer_instance

/-! ## Places -/

/-- The connections are those that were opened, each once. -/
structure Valid (ℓ : StickyLife) : Prop where
  located : (ℓ.objects.map PooledBackend.id).Perm ℓ.opened
  distinct : ℓ.opened.Nodup
  known : ∀ id ∈ ℓ.opened, id < ℓ.created

theorem valid_new : Valid .new := ⟨.rfl, List.nodup_nil, nofun⟩

variable {ℓ : StickyLife}

theorem Valid.onePlace (h : ℓ.Valid) : ℓ.OnePlace := by
  intro id hid hclosed
  have hcount : (ℓ.objects.map PooledBackend.id).count id = 1 := by
    rw [h.located.count_eq, List.count_eq_one_of_mem h.distinct hid]
  have hnone := List.count_eq_zero.2 hclosed
  have hhands : (ℓ.hands.map fun held => held.conn.connection).map PooledBackend.id =
      ℓ.hands.map fun held => held.conn.connection.id := List.map_map
  simp only [objects, PoolManager.objects, List.map_append, List.count_append, hhands] at hcount
  omega

variable {held : Holding} {clientId : Nat}

/-- What is in the sticky map is in no hands. -/
theorem Valid.ne_of_sticky (h : ℓ.Valid) (hheld : held ∈ ℓ.hands) {b : PooledBackend}
    {info : StickyConnectionInfo} (hsticky : ℓ.manager.stickyMap.lookup clientId = some (b, info)) :
    b ≠ held.conn.connection := by
  rintro rfl
  have hnodup : (ℓ.objects.map PooledBackend.id).Nodup := h.located.nodup_iff.2 h.distinct
  rw [objects, List.map_append, List.nodup_append] at hnodup
  have hmem : held.conn.connection ∈ ℓ.manager.objects :=
    List.mem_append_right _ (List.mem_map.2 ⟨_, AList.mem_lookup_iff.1 hsticky, rfl⟩)
  exact hnodup.2.2 _ (List.mem_map_of_mem hmem) _
    (List.mem_map_of_mem (List.mem_map.2 ⟨held, hheld, rfl⟩)) rfl

variable {ℓ' : StickyLife}

/-- A call that only moves connections. -/
theorem Valid.move (h : ℓ.Valid) (hperm : ℓ'.objects.Perm ℓ.objects)
    (hopened : ℓ'.opened = ℓ.opened) (hcreated : ℓ.created ≤ ℓ'.created) : ℓ'.Valid := by
  refine ⟨?_, hopened ▸ h.distinct, fun id hid => ?_⟩
  · rw [hopened]
    exact (hperm.map _).trans h.located
  · exact Nat.lt_of_lt_of_le (h.known id (hopened ▸ hid)) hcreated

/-- A call that opens a connection. -/
theorem Valid.opens (h : ℓ.Valid)
    (hids : (ℓ'.objects.map PooledBackend.id).Perm (ℓ.created :: ℓ.objects.map PooledBackend.id))
    (hopened : ℓ'.opened = ℓ.created :: ℓ.opened) (hcreated : ℓ'.created = ℓ.created + 1) :
    ℓ'.Valid := by
  refine ⟨?_, ?_, ?_⟩
  · rw [hopened]
    exact hids.trans (h.located.cons _)
  · rw [hopened]
    -- the number of the new connection has not been used
    exact List.nodup_cons.2 ⟨fun hmem => Nat.lt_irrefl _ (h.known _ hmem), h.distinct⟩
  · intro id hid
    rw [hopened] at hid
    rw [hcreated]
    rcases List.mem_cons.1 hid with rfl | hid
    · exact Nat.lt_succ_self _
    · exact Nat.lt_succ_of_lt (h.known id hid)

variable {manager : PoolManager}

/-- A call that takes a connection out of its caller's hands. -/
theorem objects_given (hheld : held ∈ ℓ.hands)
    (hperm : manager.objects.Perm (held.conn.connection :: ℓ.manager.objects)) :
    (manager.objects ++ (ℓ.hands.erase held).map fun held => held.conn.connection).Perm ℓ.objects := by
  -- what leaves the hands is what the manager gets
  have hback := (List.perm_cons_erase hheld).symm.map fun held => held.conn.connection
  exact (hperm.append_right _).trans (List.perm_middle.symm.trans (hback.append_left _))

variable {ov : Overflow} {idleUnpinSecs : Nat}

theorem valid_acquire (hvalid : ℓ.Valid) {needsSticky : Bool} {attempts : List Attempt}
    {fresh : Option (Option (List UInt8))}
    (h : ℓ.step ov idleUnpinSecs (.acquire clientId needsSticky attempts fresh) = some ℓ') :
    ℓ'.Valid := by
  simp only [step] at h
  split at h
  · cases h
  · next e manager hacquire =>
    cases h
    obtain ⟨got, new, rfl, hnew, hperm⟩ := PoolManager.acquire_perm hacquire
    -- nothing is handed out, so nothing was opened
    have hnone : new = [] := by
      rcases hnew with rfl | ⟨hfresh, rfl⟩
      · rfl
      · rw [← hfresh]
        rfl
    subst hnone
    exact hvalid.move (hperm.append_right _) rfl (Nat.le_succ _)
  · next conn manager hacquire =>
    cases h
    obtain ⟨got, new, rfl, hnew, hperm⟩ := PoolManager.acquire_perm hacquire
    have hmoved : (manager.objects ++ conn.connection :: ℓ.hands.map fun held => held.conn.connection).Perm
        (new ++ ℓ.objects) := by
      rw [objects, ← List.append_assoc]
      exact List.perm_middle.trans (hperm.append_right _)
    rcases hnew with rfl | ⟨hfresh, rfl⟩
    · -- the connection was there before, so its number is an old one
      have hold : conn.connection.id ∈ ℓ.opened := by
        apply hvalid.located.mem_iff.1
        exact List.mem_map_of_mem (hmoved.mem_iff.1 (List.mem_append_right _ List.mem_cons_self))
      have hne : conn.connection.id ≠ ℓ.created := Nat.ne_of_lt (hvalid.known _ hold)
      exact hvalid.move hmoved (if_neg hne) (Nat.le_succ _)
    · cases fresh with
      | none => cases hfresh
      | some startupResponse =>
        have hconn : conn.connection = ⟨ℓ.created, startupResponse⟩ := Option.some.inj hfresh
        have hid : conn.connection.id = ℓ.created := by rw [hconn]
        exact hvalid.opens (hmoved.map PooledBackend.id) (if_pos hid) rfl

theorem valid_step {e : StickyEvent} (hvalid : ℓ.Valid) (h : ℓ.step ov idleUnpinSecs e = some ℓ') :
    ℓ'.Valid := by
  cases e with
  | acquire clientId needsSticky attempts fresh => exact valid_acquire hvalid h
  | release held now =>
    simp only [step] at h
    split at h
    · next hheld =>
      cases h
      exact hvalid.move (objects_given hheld (PoolManager.release_perm _ _ _)) rfl (Nat.le_refl _)
    · cases h
  | pin clientId reason held now =>
    simp only [step] at h
    split at h
    · next hheld =>
      cases h
      exact hvalid.move (objects_given hheld (PoolManager.pin_perm _ _ _ _ _)) rfl (Nat.le_refl _)
    · cases h
  | unpin clientId =>
    cases h
    exact hvalid.move ((PoolManager.unpin_perm _ _).append_right _) rfl (Nat.le_refl _)
  | cleanupIdle now =>
    cases h
    exact hvalid.move ((PoolManager.cleanupIdle_perm _ _ _).append_right _) rfl (Nat.le_refl _)

/-! ## Promises -/

theorem keeps_iff {pm : PoolManager} {p : Promise} : pm.keeps p = true ↔
    ∃ info, pm.stickyMap.lookup p.clientId = some (p.connection, info) ∧
      ∀ r ∈ p.reasons, r ∈ info.pinReasons := by
  unfold PoolManager.keeps
  cases hentry : pm.stickyMap.lookup p.clientId with
  | none => simp
  | some entry =>
    obtain ⟨b, info⟩ := entry
    simp only [Option.any_some, Bool.and_eq_true, decide_eq_true_eq, List.all_eq_true]
    constructor
    · rintro ⟨rfl, hreasons⟩
      exact ⟨info, rfl, hreasons⟩
    · rintro ⟨info', heq, hreasons⟩
      cases heq
      exact ⟨rfl, hreasons⟩

/-- A promise looks only at the entry of its client. -/
theorem keeps_congr {pm pm' : PoolManager} {p : Promise}
    (h : pm'.stickyMap.lookup p.clientId = pm.stickyMap.lookup p.clientId) : pm'.keeps p = pm.keeps p := by
  unfold PoolManager.keeps
  rw [h]

theorem kept_iff : ℓ.Kept ↔ ∀ p ∈ ℓ.promises, ℓ.manager.keeps p = true :=
  List.all_eq_true

/-- A call that may remove entries and changes none keeps the promises that stand. -/
theorem kept_standing (hkept : ℓ.Kept) (hsub : ∀ c entry, manager.stickyMap.lookup c = some entry →
      ℓ.manager.stickyMap.lookup c = some entry) :
    (ℓ.standing manager).all manager.keeps = true := by
  rw [List.all_eq_true]
  intro p hp
  obtain ⟨hp, hstands⟩ := List.mem_filter.1 hp
  obtain ⟨entry, hentry⟩ := Option.isSome_iff_exists.1 (AList.lookup_isSome.2 (of_decide_eq_true hstands))
  rw [keeps_congr (hentry.trans (hsub _ _ hentry).symm)]
  exact kept_iff.1 hkept p hp

/-- A new entry leaves the other promises alone. -/
theorem keeps_insert (hkept : ℓ.Kept) (hnone : ℓ.manager.stickyMap.lookup clientId = none)
    {entry : PooledBackend × StickyConnectionInfo}
    (hmap : manager.stickyMap = ℓ.manager.stickyMap.insert clientId entry) :
    ∀ p ∈ ℓ.promises, manager.keeps p = true := by
  intro p hp
  have hold := kept_iff.1 hkept p hp
  -- a promise that was kept has an entry, and this client had none
  have hne : p.clientId ≠ clientId := by
    rintro rfl
    obtain ⟨info, hentry, -⟩ := keeps_iff.1 hold
    rw [hnone] at hentry
    cases hentry
  have hsame : manager.stickyMap.lookup p.clientId = ℓ.manager.stickyMap.lookup p.clientId := by
    rw [hmap, AList.lookup_insert_ne hne]
  rw [keeps_congr hsame, hold]

theorem hasSticky_eq_false_iff {pm : PoolManager} :
    pm.hasSticky clientId = false ↔ pm.stickyMap.lookup clientId = none := by
  rw [PoolManager.hasSticky, decide_eq_false_iff_not, AList.lookup_eq_none]

/-- A connection that is given back goes into the sticky map with `kept` as its reasons if its client
    has no entry; an entry that is there keeps its connection.  So the promise is kept if there is no
    entry and the reasons are among those kept. -/
theorem kept_given_iff (hvalid : ℓ.Valid) (hkept : ℓ.Kept) (hheld : held ∈ ℓ.hands)
    {reasons kept : List PinReason}
    (hnone : ℓ.manager.stickyMap.lookup clientId = none → ∃ info : StickyConnectionInfo,
      manager.stickyMap = ℓ.manager.stickyMap.insert clientId (held.conn.connection, info) ∧
        info.pinReasons = kept)
    (hsome : ∀ b info, ℓ.manager.stickyMap.lookup clientId = some (b, info) →
      ∃ info', manager.stickyMap = ℓ.manager.stickyMap.insert clientId (b, info')) :
    (⟨clientId, held.conn.connection, reasons⟩ :: ℓ.promises).all manager.keeps = true ↔
      ℓ.manager.hasSticky clientId = false ∧ ∀ r ∈ reasons, r ∈ kept := by
  rw [hasSticky_eq_false_iff, List.all_cons, Bool.and_eq_true, keeps_iff]
  -- by whether the client has an entry, as in the source
  cases hentry : ℓ.manager.stickyMap.lookup clientId with
  | none =>
    obtain ⟨info, hmap, rfl⟩ := hnone hentry
    have hothers := List.all_eq_true.2 (keeps_insert hkept hentry hmap)
    simp only [hmap, AList.lookup_insert, Option.some.injEq, Prod.mk.injEq, true_and, exists_eq_left',
      hothers, and_true]
  | some entry =>
    obtain ⟨b, info⟩ := entry
    obtain ⟨info', hmap⟩ := hsome b info hentry
    refine iff_of_false ?_ (by simp)
    rintro ⟨⟨info'', hlookup, -⟩, -⟩
    rw [hmap, AList.lookup_insert] at hlookup
    -- the entry has another connection than the one given back
    exact hvalid.ne_of_sticky hheld hentry (congrArg Prod.fst (Option.some.inj hlookup))

theorem kept_pin_iff (hvalid : ℓ.Valid) (hkept : ℓ.Kept) (hheld : held ∈ ℓ.hands) (clientId : Nat)
    (reason : PinReason) (now : Nat) :
    (⟨clientId, held.conn.connection, held.reasons ++ [reason]⟩ :: ℓ.promises).all
        (ℓ.manager.pin clientId reason held.conn now).keeps = true ↔
      ℓ.manager.hasSticky clientId = false ∧ ∀ r ∈ held.reasons, r = reason := by
  have hreasons : (∀ r ∈ held.reasons ++ [reason], r ∈ [reason]) ↔ ∀ r ∈ held.reasons, r = reason := by
    simp [or_imp]
  rw [← hreasons]
  apply kept_given_iff hvalid hkept hheld
  · intro hnone
    exact ⟨⟨[reason], now, ℓ.manager.nextBindingId⟩, by rw [PoolManager.pin, hnone], rfl⟩
  · intro b info hsome
    exact ⟨_, by rw [PoolManager.pin, hsome]⟩

theorem kept_release_iff (hvalid : ℓ.Valid) (hkept : ℓ.Kept) (hheld : held ∈ ℓ.hands) (now : Nat) :
    (released held ++ ℓ.promises).all (ℓ.manager.release held.conn now).keeps = true ↔
      (held.conn.isPinned = true →
        ℓ.manager.hasSticky held.conn.clientId = false ∧ held.reasons = []) := by
  unfold released
  cases hpinned : held.conn.isPinned with
  | false =>
    have hmap : (ℓ.manager.release held.conn now).stickyMap = ℓ.manager.stickyMap := by
      rw [PoolManager.release, hpinned]
      rfl
    refine iff_of_true ?_ fun h => absurd h Bool.false_ne_true
    rw [if_neg Bool.false_ne_true, List.nil_append, List.all_eq_true]
    intro p hp
    have hsame : (ℓ.manager.release held.conn now).stickyMap.lookup p.clientId =
        ℓ.manager.stickyMap.lookup p.clientId := by rw [hmap]
    rw [keeps_congr hsame]
    exact kept_iff.1 hkept p hp
  | true =>
    have hreasons : (∀ r ∈ held.reasons, r ∈ ([] : List PinReason)) ↔ held.reasons = [] := by
      rw [List.eq_nil_iff_forall_not_mem]
      simp
    rw [if_pos rfl, List.singleton_append, ← hreasons]
    simp only [true_imp_iff]
    apply kept_given_iff hvalid hkept hheld
    · intro hnone
      exact ⟨⟨[], now, ℓ.manager.nextBindingId⟩, by rw [PoolManager.release, if_pos hpinned, hnone], rfl⟩
    · intro b info hsome
      exact ⟨_, by rw [PoolManager.release, if_pos hpinned, hsome]⟩

/-- An acquire keeps the promises that stand, and all of them if it fails. -/
theorem kept_acquire (hkept : ℓ.Kept) {needsSticky : Bool} {attempts : List Attempt}
    {fresh : Option PooledBackend} {result : Except AcquireError ManagedConnection}
    (h : ℓ.manager.acquire ov clientId needsSticky attempts fresh = .ok (result, manager)) :
    (ℓ.standing manager).all manager.keeps = true ∧
      (result.toOption = none → ℓ.promises.all manager.keeps = true) := by
  rcases PoolManager.acquire_cases h with
    ⟨b, info, -, rfl, rfl⟩ | ⟨got, pool, new, -, rfl, -, -⟩
  · refine ⟨kept_standing hkept fun c entry hentry => ?_, nofun⟩
    rw [Maps.lookup_erase_eq] at hentry
    split at hentry
    · cases hentry
    · exact hentry
  · exact ⟨kept_standing hkept fun _ _ hentry => hentry, fun _ => hkept⟩

/-- A call keeps the promises just when it is one of those that do. -/
theorem kept_step_iff {e : StickyEvent} (hvalid : ℓ.Valid) (hkept : ℓ.Kept)
    (h : ℓ.step ov idleUnpinSecs e = some ℓ') : ℓ'.Kept ↔ ℓ.meets e := by
  cases e with
  | acquire clientId needsSticky attempts fresh =>
    refine iff_of_true ?_ trivial
    simp only [step] at h
    split at h
    · cases h
    · next error manager hacquire =>
      cases h
      exact (kept_acquire hkept hacquire).2 rfl
    · next conn manager hacquire =>
      cases h
      exact (kept_acquire hkept hacquire).1
  | release held now =>
    simp only [step] at h
    split at h
    · next hheld =>
      cases h
      exact kept_release_iff hvalid hkept hheld now
    · cases h
  | pin clientId reason held now =>
    simp only [step] at h
    split at h
    · next hheld =>
      cases h
      exact kept_pin_iff hvalid hkept hheld clientId reason now
    · cases h
  | unpin clientId =>
    cases h
    refine iff_of_true (kept_standing hkept fun c entry hentry => ?_) trivial
    rw [PoolManager.lookup_unpin] at hentry
    split at hentry
    · cases hentry
    · exact hentry
  | cleanupIdle now =>
    cases h
    refine iff_of_true (kept_standing hkept fun c entry hentry => ?_) trivial
    rw [PoolManager.lookup_cleanupIdle] at hentry
    split at hentry
    · exact hentry
    · exact (Option.filter_eq_some_iff.1 hentry).1

/-- In every run of the five operations, each connection is in exactly one place.  What is pinned, or
    taken from the sticky map and released, stays in the sticky map with its reasons just if every
    pin finds no entry for its client and drops no reason, and every release of a connection from the
    sticky map finds no entry for its client and has no reason to drop. -/
theorem pinned_kept_iff (ov : Overflow) (idleUnpinSecs : Nat) {events : List StickyEvent}
    (hrun : (Trace.exec (step ov idleUnpinSecs) .new events).isSome = true) :
    Trace.Always (step ov idleUnpinSecs) OnePlace .new events ∧
      (Trace.Always (step ov idleUnpinSecs) (fun ℓ => ℓ.OnePlace ∧ ℓ.Kept) .new events ↔
        Trace.Admits (step ov idleUnpinSecs) meets .new events) := by
  have hkeep : ∀ ℓ e ℓ', Valid ℓ → step ov idleUnpinSecs ℓ e = some ℓ' → Valid ℓ' :=
    fun ℓ e ℓ' hvalid h => valid_step hvalid h
  have hstep : ∀ ℓ e ℓ', Valid ℓ → ℓ.OnePlace ∧ ℓ.Kept → step ov idleUnpinSecs ℓ e = some ℓ' →
      (ℓ'.OnePlace ∧ ℓ'.Kept ↔ ℓ.meets e) := by
    intro ℓ e ℓ' hvalid hkept h
    rw [← kept_step_iff hvalid hkept.2 h]
    exact and_iff_right (valid_step hvalid h).onePlace
  constructor
  · have hany : Trace.Admits (step ov idleUnpinSecs) (fun _ _ => True) .new events :=
      Trace.admits_of_forall (fun _ _ => trivial) _
    exact Trace.always_of_admits (fun ℓ e ℓ' hvalid _ h => hkeep ℓ e ℓ' hvalid h)
      (fun ℓ hvalid => hvalid.onePlace) valid_new hany
  · exact Trace.always_iff_admits hkeep hstep valid_new ⟨valid_new.onePlace, rfl⟩ hrun

/-- A client's connection is pinned, and idle until it is cleaned up. -/
def pinnedAndIdle : List StickyEvent :=
  [.acquire 7 false [] (some none), .pin 7 .tempTable ⟨⟨⟨0, none⟩, 7, false⟩, []⟩ 0,
    .cleanupIdle 100000000000, .cleanupIdle 400000000000]

theorem pinnedAndIdle_kept :
    Trace.Admits (step .wrapping 300) meets .new pinnedAndIdle ∧
      Trace.Always (step .wrapping 300) (fun ℓ => ℓ.OnePlace ∧ ℓ.Kept) .new pinnedAndIdle := by
  have hmeets : Trace.Admits (step .wrapping 300) meets .new pinnedAndIdle := by decide
  exact ⟨hmeets, (pinned_kept_iff .wrapping 300 (by decide)).2.2 hmeets⟩

/-- A client's connection is pinned, used once more, and released. -/
def pinnedAndUsed : List StickyEvent :=
  [.acquire 7 false [] (some none), .pin 7 .tempTable ⟨⟨⟨0, none⟩, 7, false⟩, []⟩ 0,
    .acquire 7 true [] none, .release ⟨⟨⟨0, none⟩, 7, true⟩, [.tempTable]⟩ 5]

/-- The connection is pinned for its temporary table, and after the release for nothing. -/
theorem pinnedAndUsed_reasons_lost :
    ((Trace.exec (step .wrapping 300) .new (pinnedAndUsed.take 2)).bind fun ℓ =>
        ℓ.manager.stickyMap.lookup 7) = some (⟨0, none⟩, ⟨[.tempTable], 0, 1⟩) ∧
      ((Trace.exec (step .wrapping 300) .new pinnedAndUsed).bind fun ℓ =>
        ℓ.manager.stickyMap.lookup 7) = some (⟨0, none⟩, ⟨[], 5, 2⟩) ∧
      ¬ Trace.Always (step .wrapping 300) (fun ℓ => ℓ.OnePlace ∧ ℓ.Kept) .new pinnedAndUsed := by
  refine ⟨by decide, by decide, fun h => ?_⟩
  have hbroken : (Trace.exec (step .wrapping 300) .new pinnedAndUsed).any
      (fun ℓ => !ℓ.promises.all ℓ.manager.keeps) = true := by decide
  cases hrun : Trace.exec (step .wrapping 300) .new pinnedAndUsed with
  | none =>
    rw [hrun] at hbroken
    cases hbroken
  | some ℓ =>
    have hkept : ℓ.promises.all ℓ.manager.keeps = true := (h.last hrun).2
    rw [hrun, Option.any_some, hkept] at hbroken
    cases hbroken

end StickyLife

end ScryProxy
