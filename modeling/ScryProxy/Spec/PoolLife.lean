import ScryProxy.Native.Relay

/-!
# The life of a pool

The pool manager with the connections that its clients hold.  Every physical connection
is created once and is then idle, held by one client, or closed; a `get` and a release
only move it between these (`Pool.get_perm`, `PoolLife.valid_step`).  Nothing in the
proxy calls `pin`, so the sticky map stays empty and no held connection is marked pinned.
-/

namespace ScryProxy

open Rust (Overflow)

/-- A use of the pool manager by the handlers or the admin console. -/
inductive PoolEvent where
  /-- `attempts` are the recycles made, in order; `fresh` is the startup response recorded for a
      newly created connection, if one can be created -/
  | acquire (clientId : Nat) (needsSticky : Bool) (attempts : List Attempt)
      (fresh : Option (Option (List UInt8)))
  | release (conn : ManagedConnection) (now : Nat)
  | pause
  | resume
  deriving DecidableEq, Repr

/-- The recycles that an event makes. -/
def PoolEvent.attempts : PoolEvent → List Attempt
  | .acquire _ _ attempts _ => attempts
  | _ => []

/-- Each of the attempts is made: its object is idle when its turn comes, and those before it were
    refused. -/
def Pool.tries (ov : Overflow) : Pool → List Attempt → Bool
  | _, [] => true
  | p, a :: attempts => decide (a.object ∈ p.idle) && (attempts.isEmpty ||
      decide (recycle ov a.env = .ok false) &&
        Pool.tries ov ⟨p.idle.erase a.object, a.object :: p.closed⟩ attempts)

/-- The pool manager and the connections its clients hold. -/
structure PoolLife where
  manager : PoolManager
  held : List ManagedConnection
  /-- number for the next connection created -/
  created : Nat

namespace PoolLife

def new : PoolLife := ⟨.new, [], 0⟩

/-- An acquire that is neither refused nor served from the sticky map asks the pool. -/
def asksPool (ℓ : PoolLife) (clientId : Nat) (needsSticky : Bool) : Bool :=
  ℓ.manager.accepting && !(needsSticky && ℓ.manager.hasSticky clientId)

/-- One event; `none` if it cannot happen, or does not return. -/
def step (ov : Overflow) (ℓ : PoolLife) : PoolEvent → Option PoolLife
  | .acquire clientId needsSticky attempts fresh =>
    if ℓ.manager.pool.tries ov attempts && (ℓ.asksPool clientId needsSticky || attempts.isEmpty) then
      match ℓ.manager.acquire ov clientId needsSticky attempts
          (fresh.map fun startupResponse => ⟨ℓ.created, startupResponse⟩) with
      | .error _ => none
      | .ok (.error _, manager) => some ⟨manager, ℓ.held, ℓ.created + 1⟩
      | .ok (.ok conn, manager) => some ⟨manager, conn :: ℓ.held, ℓ.created + 1⟩
    else none
  | .release conn now =>
    if conn ∈ ℓ.held then
      some { ℓ with manager := ℓ.manager.release conn now, held := ℓ.held.erase conn }
    else none
  | .pause => some { ℓ with manager := ℓ.manager.pause }
  | .resume => some { ℓ with manager := ℓ.manager.resume }

/-- Every connection the pool knows: idle, closed and held. -/
def objects (ℓ : PoolLife) : List PooledBackend :=
  ℓ.manager.pool.idle ++ ℓ.manager.pool.closed ++ ℓ.held.map ManagedConnection.connection

/-- No connection is pinned, and each is in one place only. -/
structure Valid (ℓ : PoolLife) : Prop where
  noSticky : ℓ.manager.stickyMap = ∅
  unpinned : ∀ c ∈ ℓ.held, c.isPinned = false
  distinct : (ℓ.objects.map PooledBackend.id).Nodup
  known : ∀ b ∈ ℓ.objects, b.id < ℓ.created

theorem valid_new : Valid .new :=
  ⟨rfl, nofun, List.nodup_nil, nofun⟩

/-- What is idle or closed is not held. -/
theorem Valid.not_held {ℓ : PoolLife} (h : ℓ.Valid) {b : PooledBackend}
    (hb : b ∈ ℓ.manager.pool.idle ++ ℓ.manager.pool.closed) {c : ManagedConnection}
    (hc : c ∈ ℓ.held) : c.connection ≠ b := by
  have hdistinct := h.distinct
  rw [objects, List.map_append, List.nodup_append] at hdistinct
  rintro rfl
  exact hdistinct.2.2 _ (List.mem_map_of_mem hb) _
    (List.mem_map_of_mem (List.mem_map_of_mem hc)) rfl

/-- What is idle is not closed. -/
theorem Valid.not_closed {ℓ : PoolLife} (h : ℓ.Valid) {b : PooledBackend}
    (hb : b ∈ ℓ.manager.pool.idle) : b ∉ ℓ.manager.pool.closed := by
  have hdistinct := h.distinct
  rw [objects, List.append_assoc, List.map_append, List.nodup_append] at hdistinct
  intro hclosed
  exact hdistinct.2.2 _ (List.mem_map_of_mem hb) _
    (List.mem_map_of_mem (List.mem_append_left _ hclosed)) rfl

/-- A step that moves connections and creates at most the next one keeps them in one place. -/
theorem Valid.move {ℓ : PoolLife} (h : ℓ.Valid) {fresh objs : List PooledBackend}
    (hfresh : fresh = [] ∨ ∃ b, fresh = [b] ∧ b.id = ℓ.created)
    (hperm : objs.Perm (fresh ++ ℓ.objects)) :
    (objs.map PooledBackend.id).Nodup ∧ ∀ b ∈ objs, b.id < ℓ.created + 1 := by
  rw [(hperm.map _).nodup_iff]
  have hknown : ∀ b ∈ fresh ++ ℓ.objects, b.id < ℓ.created + 1 := by
    intro b hb
    rcases List.mem_append.1 hb with hb | hb
    · rcases hfresh with rfl | ⟨b', rfl, hid⟩
      · cases hb
      · rw [List.mem_singleton.1 hb, hid]
        exact Nat.lt_succ_self _
    · exact Nat.lt_succ_of_lt (h.known b hb)
  refine ⟨?_, fun b hb => hknown b (hperm.mem_iff.1 hb)⟩
  rcases hfresh with rfl | ⟨b, rfl, hid⟩
  · exact h.distinct
  -- the number of the new connection has not been used
  · refine List.nodup_cons.2 ⟨fun hmem => ?_, h.distinct⟩
    obtain ⟨b', hb', heq⟩ := List.mem_map.1 hmem
    exact absurd (h.known b' hb') (by rw [heq, hid]; exact lt_irrefl _)

end PoolLife

variable {ov : Overflow} {fresh got : Option PooledBackend} {attempts : List Attempt}

/-- A `get` moves connections: what it returns was idle or is fresh, and what it refuses is closed. -/
theorem Pool.get_perm {p p' : Pool} (h : p.get ov fresh attempts = .ok (got, p')) :
    ∃ new, (new = [] ∨ got = fresh ∧ new = fresh.toList) ∧
      (got.toList ++ (p'.idle ++ p'.closed)).Perm (new ++ (p.idle ++ p.closed)) := by
  induction attempts generalizing p with
  | nil => cases h; exact ⟨_, .inr ⟨rfl, rfl⟩, .rfl⟩
  | cons a attempts ih =>
    unfold Pool.get at h
    split at h
    · next hidle =>
      -- the object leaves the idle queue either way
      have hmoved := List.perm_cons_erase hidle
      obtain ⟨ok, -, h⟩ := Rust.bind_returns.1 h
      cases ok with
      | true =>
        cases h
        exact ⟨[], .inl rfl, (hmoved.symm.append_right p.closed)⟩
      | false =>
        obtain ⟨new, hnew, hperm⟩ := ih h
        refine ⟨new, hnew, hperm.trans (List.Perm.append_left new ?_)⟩
        exact List.perm_middle.trans (hmoved.symm.append_right p.closed)
    · exact ih h

variable {b : PooledBackend}

theorem Pool.get_closed {p p' : Pool} (h : p.get ov fresh attempts = .ok (got, p'))
    (hb : b ∈ p.closed) : b ∈ p'.closed := by
  induction attempts generalizing p with
  | nil => cases h; exact hb
  | cons a attempts ih =>
    unfold Pool.get at h
    split at h
    · obtain ⟨ok, -, h⟩ := Rust.bind_returns.1 h
      cases ok with
      | true => cases h; exact hb
      | false => exact ih h (List.mem_cons_of_mem _ hb)
    · exact ih h hb

/-- An idle connection that is not tried stays idle. -/
theorem Pool.get_untried {p p' : Pool} (h : p.get ov fresh attempts = .ok (got, p'))
    (hb : b ∈ p.idle) (hnone : ∀ a ∈ attempts, a.object ≠ b) : b ∈ p'.idle := by
  induction attempts generalizing p with
  | nil => cases h; exact hb
  | cons a attempts ih =>
    have hne := hnone a List.mem_cons_self
    have hrest := fun a ha => hnone a (List.mem_cons_of_mem _ ha)
    have hkept : b ∈ p.idle.erase a.object := (List.mem_erase_of_ne hne.symm).2 hb
    unfold Pool.get at h
    split at h
    · obtain ⟨ok, -, h⟩ := Rust.bind_returns.1 h
      cases ok with
      | true => cases h; exact hkept
      | false => exact ih h hkept hrest
    · exact ih h hb hrest

/-- The first attempt on a connection decides whether it is handed out or closed. -/
theorem Pool.get_tried {p p' : Pool} (htries : p.tries ov attempts = true)
    (h : p.get ov fresh attempts = .ok (got, p')) {a : Attempt}
    (hfind : attempts.find? (fun a => a.object = b) = some a) :
    ∃ ok, recycle ov a.env = .ok ok ∧ if ok then got = some b else b ∈ p'.closed := by
  induction attempts generalizing p with
  | nil => cases hfind
  | cons a' attempts ih =>
    simp only [Pool.tries, Bool.and_eq_true, decide_eq_true_eq] at htries
    obtain ⟨hidle, htries⟩ := htries
    simp only [Pool.get, hidle, if_true] at h
    obtain ⟨ok, hrecycle, h⟩ := Rust.bind_returns.1 h
    by_cases hobj : a'.object = b
    · rw [List.find?_cons_of_pos (by simpa using hobj)] at hfind
      obtain rfl := Option.some.inj hfind
      refine ⟨ok, hrecycle, ?_⟩
      cases ok with
      | true => cases h; exact congrArg some hobj
      | false => exact Pool.get_closed h (hobj ▸ List.mem_cons_self)
    · -- a later attempt is on `b`, so this one was refused
      rw [List.find?_cons_of_neg (by simpa using hobj)] at hfind
      have hmore : attempts.isEmpty = false := by
        cases attempts with
        | nil => cases hfind
        | cons _ _ => rfl
      simp only [hmore, Bool.false_or, Bool.and_eq_true, decide_eq_true_eq] at htries
      cases hrecycle.symm.trans htries.1
      exact ih htries.2 h hfind

namespace PoolLife

/-! ## Steps -/

variable {ov : Overflow} {ℓ ℓ' : PoolLife}

/-- An acquire asks the pool with the attempts listed, or there are none and nothing moves. -/
theorem acquire_cases (hvalid : ℓ.Valid) {clientId : Nat} {needsSticky : Bool}
    {attempts : List Attempt} {fresh : Option (Option (List UInt8))}
    (h : ℓ.step ov (.acquire clientId needsSticky attempts fresh) = some ℓ') :
    (attempts = [] ∧ ℓ' = { ℓ with created := ℓ.created + 1 }) ∨
    ∃ got pool, ℓ.manager.pool.tries ov attempts = true ∧
      ℓ.manager.pool.get ov (fresh.map fun s => ⟨ℓ.created, s⟩) attempts = .ok (got, pool) ∧
      ℓ' = ⟨{ ℓ.manager with pool }, (got.toList.map fun b => ⟨b, clientId, false⟩) ++ ℓ.held,
        ℓ.created + 1⟩ := by
  -- nothing is ever found in the sticky map
  have hnone : (if needsSticky then ℓ.manager.stickyMap.lookup clientId else none) = none := by
    rw [hvalid.noSticky]
    split <;> rfl
  simp only [step] at h
  split at h
  · next hguard =>
    simp only [Bool.and_eq_true] at hguard
    obtain ⟨htries, hasks⟩ := hguard
    simp only [PoolManager.acquire, hnone] at h
    -- a paused manager refuses before it looks at the pool
    cases hacc : ℓ.manager.accepting with
    | false =>
      rw [asksPool, hacc] at hasks
      rw [if_pos (by rw [hacc]; rfl)] at h
      cases h
      exact .inl ⟨by simpa using hasks, rfl⟩
    | true =>
      rw [if_neg (by rw [hacc]; decide)] at h
      cases hget : ℓ.manager.pool.get ov (fresh.map fun s => ⟨ℓ.created, s⟩) attempts with
      | error e => rw [hget] at h; cases h
      | ok result =>
        obtain ⟨got, pool⟩ := result
        rw [hget] at h
        refine .inr ⟨got, pool, htries, rfl, ?_⟩
        cases got <;> cases h <;> rfl
  · cases h

theorem release_eq (hvalid : ℓ.Valid) {conn : ManagedConnection} {now : Nat}
    (h : ℓ.step ov (.release conn now) = some ℓ') :
    conn ∈ ℓ.held ∧ ℓ' = { ℓ with
      manager := { ℓ.manager with pool := ℓ.manager.pool.put conn.connection }
      held := ℓ.held.erase conn } := by
  simp only [step] at h
  split at h
  · next hheld =>
    cases h
    refine ⟨hheld, ?_⟩
    simp only [PoolManager.release, hvalid.unpinned conn hheld, Bool.false_eq_true, if_false]
  · cases h

/-- What an acquire hands out joins the held connections. -/
theorem objects_acquire {got : List PooledBackend} {new : List PooledBackend} {p p' : Pool}
    (held : List ManagedConnection) (clientId : Nat)
    (hperm : (got ++ (p'.idle ++ p'.closed)).Perm (new ++ (p.idle ++ p.closed))) :
    (p'.idle ++ p'.closed ++ ((got.map fun b => (⟨b, clientId, false⟩ : ManagedConnection)) ++
      held).map ManagedConnection.connection).Perm
      (new ++ (p.idle ++ p.closed ++ held.map ManagedConnection.connection)) := by
  have hgot : (got.map fun b => (⟨b, clientId, false⟩ : ManagedConnection)).map
      ManagedConnection.connection = got := by
    rw [List.map_map]
    exact List.map_id got
  rw [List.map_append, hgot, ← List.append_assoc, ← List.append_assoc new]
  exact (List.perm_append_comm.trans hperm).append_right _

/-- What is released joins the idle connections. -/
theorem objects_release (p : Pool) {held : List ManagedConnection} {conn : ManagedConnection}
    (hheld : conn ∈ held) :
    ((p.put conn.connection).idle ++ (p.put conn.connection).closed ++
      (held.erase conn).map ManagedConnection.connection).Perm
      (p.idle ++ p.closed ++ held.map ManagedConnection.connection) := by
  have hback := (List.perm_cons_erase hheld).symm.map ManagedConnection.connection
  exact List.perm_middle.symm.trans (hback.append_left _)

variable {e : PoolEvent}

/-- Every event keeps each connection in one place. -/
theorem valid_step (hvalid : ℓ.Valid) (h : ℓ.step ov e = some ℓ') : ℓ'.Valid := by
  cases e with
  | acquire clientId needsSticky attempts fresh =>
    rcases acquire_cases hvalid h with ⟨-, rfl⟩ | ⟨got, pool, -, hget, rfl⟩
    · exact ⟨hvalid.noSticky, hvalid.unpinned, hvalid.distinct,
        fun b hb => Nat.lt_succ_of_lt (hvalid.known b hb)⟩
    · obtain ⟨new, hnew, hperm⟩ := Pool.get_perm hget
      -- a `get` creates at most the next connection
      have hfresh : new = [] ∨ ∃ b, new = [b] ∧ b.id = ℓ.created := by
        rcases hnew with rfl | ⟨-, rfl⟩
        · exact .inl rfl
        · cases fresh with
          | none => exact .inl rfl
          | some s => exact .inr ⟨_, rfl, rfl⟩
      obtain ⟨hdistinct, hknown⟩ := hvalid.move hfresh (objects_acquire ℓ.held clientId hperm)
      refine ⟨hvalid.noSticky, fun c hc => ?_, hdistinct, hknown⟩
      rcases List.mem_append.1 hc with hc | hc
      · obtain ⟨b, -, rfl⟩ := List.mem_map.1 hc
        rfl
      · exact hvalid.unpinned c hc
  | release conn now =>
    obtain ⟨hheld, rfl⟩ := release_eq hvalid h
    have hperm := objects_release ℓ.manager.pool hheld
    refine ⟨hvalid.noSticky, fun c hc => hvalid.unpinned c (List.mem_of_mem_erase hc), ?_,
      fun b hb => hvalid.known b (hperm.mem_iff.1 hb)⟩
    exact (hperm.map _).nodup_iff.2 hvalid.distinct
  | pause | resume =>
    cases h
    exact ⟨hvalid.noSticky, hvalid.unpinned, hvalid.distinct, hvalid.known⟩

theorem valid_exec {events : List PoolEvent} (hvalid : ℓ.Valid)
    (h : Trace.exec (step ov) ℓ events = some ℓ') : ℓ'.Valid :=
  Trace.exec_keeps (fun _ _ _ hs hstep => valid_step hs hstep) hvalid h

variable {b : PooledBackend}

/-- A closed connection stays closed. -/
theorem closed_step (hvalid : ℓ.Valid) (h : ℓ.step ov e = some ℓ') (hb : b ∈ ℓ.manager.pool.closed) :
    b ∈ ℓ'.manager.pool.closed := by
  cases e with
  | acquire clientId needsSticky attempts fresh =>
    rcases acquire_cases hvalid h with ⟨-, rfl⟩ | ⟨got, pool, -, hget, rfl⟩
    · exact hb
    · exact Pool.get_closed hget hb
  | release conn now =>
    obtain ⟨-, rfl⟩ := release_eq hvalid h
    exact hb
  | pause | resume => cases h; exact hb

/-- An idle connection that an event does not try stays idle. -/
theorem untried_step (hvalid : ℓ.Valid) (h : ℓ.step ov e = some ℓ') (hb : b ∈ ℓ.manager.pool.idle)
    (hnone : ∀ a ∈ e.attempts, a.object ≠ b) : b ∈ ℓ'.manager.pool.idle := by
  cases e with
  | acquire clientId needsSticky attempts fresh =>
    rcases acquire_cases hvalid h with ⟨-, rfl⟩ | ⟨got, pool, -, hget, rfl⟩
    · exact hb
    · exact Pool.get_untried hget hb hnone
  | release conn now =>
    obtain ⟨-, rfl⟩ := release_eq hvalid h
    exact List.mem_cons_of_mem _ hb
  | pause | resume => cases h; exact hb

/-- The first attempt of an event on a connection hands it to a client or closes it. -/
theorem tried_step (hvalid : ℓ.Valid) (h : ℓ.step ov e = some ℓ') {a : Attempt}
    (hfind : e.attempts.find? (fun a => a.object = b) = some a) :
    ∃ ok, recycle ov a.env = .ok ok ∧
      if ok then ∃ c ∈ ℓ'.held, c.connection = b else b ∈ ℓ'.manager.pool.closed := by
  cases e with
  | acquire clientId needsSticky attempts fresh =>
    rcases acquire_cases hvalid h with ⟨rfl, -⟩ | ⟨got, pool, htries, hget, rfl⟩
    · cases hfind
    · obtain ⟨ok, hok, hfate⟩ := Pool.get_tried htries hget hfind
      refine ⟨ok, hok, ?_⟩
      cases ok with
      | true =>
        obtain rfl : got = some b := hfate
        exact ⟨⟨b, clientId, false⟩, by simp, rfl⟩
      | false => exact hfate
  | release | pause | resume => cases hfind

end PoolLife

end ScryProxy
