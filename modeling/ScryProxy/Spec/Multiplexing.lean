import Mathlib.Data.List.Perm.Basic
import ScryProxy.Spec.PausedSessions

/-!
# Many sessions on one pool

The handlers of all clients, sharing a pool of bounded size.  A handler in its loop holds a
connection: the held connections are at all times those of the handlers in their loops
(`covered_exec`).  At the end of a transaction a handler gives its connection back and asks
for one at once, before its client sends anything, so an idle client holds a connection as soon
as the pool has one for it.  Clients that are idle after a transaction leave the pool alone
only if there are none of them, and a further client gets a connection without their doing
exactly if fewer of them than the pool has slots are back in their loops (`multiplexes_iff`).
-/

namespace ScryProxy

open Frame (encodeAll)

/-- A client's handler. -/
inductive Client where
  /-- in the acquire at the start of the session -/
  | arriving (clientId : Nat)
  /-- in its loop -/
  | relaying (r : Relay)
  /-- in the acquire that follows the end of a transaction, in the arm for the read of `data` -/
  | returning (r : Relay) (data : List UInt8) (writes : Writes)
  | gone

namespace Client

/-- The connection a handler holds. -/
def conn? : Client → Option ManagedConnection
  | .relaying r => some r.managedConn
  | .arriving _ | .returning _ _ _ | .gone => none

/-- The client is connected and past its startup. -/
def established : Client → Bool
  | .relaying _ | .returning _ _ _ => true
  | .arriving _ | .gone => false

def ofRelay : Option Relay → Client
  | some r => .relaying r
  | none => .gone

end Client

/-- The pool and the handlers of its clients. -/
structure Proxy where
  pool : PoolLife
  clients : List Client

inductive ProxyEvent where
  | connect (clientId : Nat)
  /-- the acquire of a handler returns -/
  | acquired (i : Nat) (env : ReacquireEnv)
  | backendRead (i : Nat) (data : List UInt8) (writes : Writes) (now : Nat)
  /-- any other arm of a handler's loop -/
  | arm (i : Nat) (input : Input) (now : Nat)
  | pause
  | resume

/-- No client sends anything or leaves, and nothing comes from a backend. -/
def ProxyEvent.quiet : ProxyEvent → Bool
  | .connect _ | .acquired _ _ => true
  | .backendRead _ _ _ _ | .arm _ _ _ | .pause | .resume => false

namespace Proxy

def new : Proxy := ⟨.new, []⟩

def setClient (s : Proxy) (i : Nat) (v : Served) : Proxy :=
  ⟨v.pool, s.clients.set i (.ofRelay v.relay)⟩

/-- A handler's acquire returns; with all slots taken it does not. -/
def answered (poolSize : Nat) (s : Proxy) (i : Nat) (env : ReacquireEnv) (clientId : Nat)
    (needsSticky : Bool) (iterate : Option ManagedConnection → Rust (List Effect × Outcome)) :
    Option Proxy :=
  if s.pool.manager.accepting = true ∧ poolSize ≤ s.pool.held.length then none
  else do
    let (answer, pool) ← s.pool.acquire clientId needsSticky env
    let v ← (⟨pool, none, false⟩ : Served).resume env iterate answer
    return s.setClient i v

/-- One event; `none` if it cannot happen, or does not return. -/
def step (cfg : RelayConfig) (poolSize : Nat) (s : Proxy) : ProxyEvent → Option Proxy
  | .connect clientId => some { s with clients := s.clients ++ [.arriving clientId] }
  | .acquired i env =>
    match s.clients[i]? with
    | some (.arriving clientId) =>
      s.answered poolSize i env clientId false fun conn =>
        .ok ([], conn.elim (.exit .withoutConnection) fun conn => .next (.start cfg conn))
    | some (.returning r data writes) =>
      s.answered poolSize i env r.managedConn.clientId r.connState.isPinned
        (Relay.backendRead cfg r data writes)
    | _ => none
  | .backendRead i data writes now =>
    match s.clients[i]? with
    | some (.relaying r) =>
      match Relay.backendRead cfg r data writes none with
      -- the arm that gives the connection back goes on in its acquire
      | .ok (_, .exit .withoutConnection) =>
        (s.pool.step .wrapping (.release r.managedConn now)).map fun pool =>
          ⟨pool, s.clients.set i (.returning r data writes)⟩
      | result => ((⟨s.pool, some r, false⟩ : Served).settle now result).map (s.setClient i)
    | _ => none
  | .arm _ (.backendRead _ _ _) _ => none
  | .arm i input now =>
    match s.clients[i]? with
    | some (.relaying r) =>
      ((⟨s.pool, some r, false⟩ : Served).settle now (Relay.step cfg r input)).map (s.setClient i)
    | _ => none
  | .pause => (s.pool.step .wrapping .pause).map fun pool => { s with pool }
  | .resume => (s.pool.step .wrapping .resume).map fun pool => { s with pool }

/-- The connections that handlers hold. -/
def holding (s : Proxy) : List ManagedConnection := s.clients.filterMap Client.conn?

/-- No established client holds a connection while all of them stay idle. -/
def NoneHolds (cfg : RelayConfig) (poolSize : Nat) (s : Proxy) : Prop :=
  ∀ events t, (∀ e ∈ events, e.quiet = true) → Trace.exec (step cfg poolSize) s events = some t →
    ∀ (i : Nat) (c c' : Client), s.clients[i]? = some c → c.established = true →
      t.clients[i]? = some c' → c'.conn? = none

/-- A further client can get a connection while all others stay idle. -/
def ServesFurther (cfg : RelayConfig) (poolSize : Nat) (s : Proxy) : Prop :=
  ∃ clientId events t, (∀ e ∈ events, e.quiet = true) ∧
    Trace.exec (step cfg poolSize) s (.connect clientId :: events) = some t ∧
    ∃ r, t.clients[s.clients.length]? = some (.relaying r)

end Proxy

/-! ## What a handler holds -/

/-- The loop goes on with `conn`, or is left by giving it back. -/
def Outcome.Keeps (conn : ManagedConnection) : Outcome → Prop
  | .next r => r.managedConn = conn
  | .exit how => how = .release conn ∨ how = .dropped conn

namespace Relay

variable {cfg : RelayConfig} {r : Relay} {effects : List Effect} {outcome : Outcome}

variable {data : List UInt8}

theorem clientRead_keeps {now : Nat} {writes : Writes}
    (h : clientRead cfg r data now writes = .ok (effects, outcome)) :
    outcome.Keeps r.managedConn := by
  obtain ⟨messages, buffer, r₁, applied, verdict, -, hmsgs, hcases⟩ := clientRead_cases h
  have hconn : r₁.managedConn = r.managedConn := (handleMessages_sameLink hmsgs).1.managedConn
  have harmed := (armDeadline_sameLink cfg r₁ now).managedConn
  rcases hcases with ⟨-, -, rfl⟩ | ⟨-, rfl⟩ | ⟨-, how, rfl, rfl | ⟨-, rfl⟩⟩
  · exact harmed.trans hconn
  · exact harmed.trans hconn
  · exact .inr (by rw [hconn])
  · exact .inl (by rw [hconn])

/-- A backend read either gives the connection back or keeps it. -/
theorem backendRead_keeps {writes : Writes}
    (h : backendRead cfg r data writes none = .ok (effects, outcome)) :
    outcome = .exit .withoutConnection ∨ outcome.Keeps r.managedConn := by
  obtain ⟨r₁, settled, status, hlink, -, -, -, hcases⟩ := backendRead_cases h
  rcases hcases with ⟨-, -, rfl⟩ | ⟨-, ⟨conn, hnone, -, -⟩ | ⟨-, -, rfl⟩⟩ | ⟨-, rfl, -⟩
  · exact .inr hlink.managedConn
  · cases hnone
  · exact .inl rfl
  · exact .inr (.inr rfl)

/-- A read that gave the connection back goes on with whatever the acquire returns. -/
theorem backendRead_reacquired {writes : Writes}
    (h : backendRead cfg r data writes none = .ok (effects, .exit .withoutConnection))
    (conn : ManagedConnection) :
    ∃ more r', backendRead cfg r data writes (some conn) = .ok (more, .next r') ∧
      r'.managedConn = conn := by
  rw [backendRead_eq] at h ⊢
  obtain ⟨⟨r₁, settled⟩, hsettled, h⟩ := Rust.bind_returns.1 h
  obtain ⟨status, hstatus, h⟩ := Rust.bind_returns.1 h
  simp only [hsettled, hstatus, Rust.ok_bind, Rust.pure_eq_ok, Except.ok.injEq] at h ⊢
  by_cases hclient : writes.client = true
  · by_cases hends : endsTransaction cfg (disarmDeadline cfg r₁) status = true
    · simp [relayRead, hclient, hends]
    · simp [relayRead, hclient, hends] at h
  · simp [relayRead, hclient] at h

theorem step_keeps {input : Input} (hinput : ∀ data writes conn, input ≠ .backendRead data writes conn)
    (h : step cfg r input = .ok (effects, outcome)) : outcome.Keeps r.managedConn := by
  cases input with
  | clientRead data now writes => exact clientRead_keeps h
  | clientClosed | backendClosed =>
    cases h
    exact .inl rfl
  | backendRead data writes conn => exact absurd rfl (hinput data writes conn)
  | deadline now =>
    simp only [step] at h
    split at h
    · cases h
      exact .inl rfl
    · cases h
      rfl

end Relay

section Held

variable {ℓ ℓ' : PoolLife} {conn : ManagedConnection} {rest : List ManagedConnection}

theorem PoolLife.leave_held {now : Nat} {how : Exit} (hheld : (conn :: rest).Perm ℓ.held)
    (hhow : how = .release conn ∨ how = .dropped conn) (h : ℓ.leave .wrapping now how = some ℓ') :
    rest.Perm ℓ'.held := by
  have herase : rest.Perm (ℓ.held.erase conn) := by simpa using hheld.erase conn
  have hmem : conn ∈ ℓ.held := hheld.mem_iff.1 (List.mem_cons_self ..)
  rcases hhow with rfl | rfl
  · simp only [leave, step, hmem, if_true, Option.some.injEq] at h
    exact h ▸ herase
  · simp only [leave, hmem, if_true, Option.some.injEq] at h
    exact h ▸ herase

theorem PoolLife.acquire_held {clientId : Nat} {needsSticky : Bool} {env : ReacquireEnv}
    {answer : Except AcquireError ManagedConnection}
    (h : ℓ.acquire clientId needsSticky env = some (answer, ℓ')) :
    ℓ'.held = answer.toOption.toList ++ ℓ.held := by
  simp only [acquire] at h
  split at h
  · cases h
  · next hacquire =>
    obtain ⟨ℓ'', hstep, heq⟩ := Option.map_eq_some_iff.1 h
    cases heq
    simp only [step, hacquire] at hstep
    split at hstep
    · cases answer with
      | error e =>
        cases hstep
        rfl
      | ok conn =>
        cases hstep
        rfl
    · cases hstep

/-- The handlers, one of which has just done something, hold what is held. -/
def Served.Covers (rest : List ManagedConnection) (v : Served) : Prop :=
  ((v.relay.map Relay.managedConn).toList ++ rest).Perm v.pool.held

theorem Served.settle_covers {v v' : Served} {now : Nat} {effects : List Effect} {outcome : Outcome}
    (hheld : (conn :: rest).Perm v.pool.held) (hkeeps : outcome.Keeps conn)
    (h : v.settle now (.ok (effects, outcome)) = some v') : v'.Covers rest := by
  cases outcome with
  | next r =>
    cases h
    cases hkeeps
    exact hheld
  | exit how =>
    obtain ⟨pool, hleave, rfl⟩ := Option.map_eq_some_iff.1 h
    exact PoolLife.leave_held hheld hkeeps hleave

theorem Served.resume_covers {v v' : Served} {env : ReacquireEnv}
    {iterate : Option ManagedConnection → Rust (List Effect × Outcome)}
    {answer : Except AcquireError ManagedConnection}
    (hiterate : ∀ conn, ∃ effects r, iterate (some conn) = .ok (effects, .next r) ∧
      r.managedConn = conn)
    (hheld : (answer.toOption.toList ++ rest).Perm v.pool.held)
    (h : v.resume env iterate answer = some v') : v'.Covers rest := by
  cases answer with
  | error e =>
    cases h
    exact hheld
  | ok conn =>
    have hconn : (conn :: rest).Perm v.pool.held := hheld
    cases hstarted : conn.connection.startupResponse with
    | some response =>
      obtain ⟨effects, r, hnext, hsame⟩ := hiterate conn
      simp only [resume, hstarted, hnext] at h
      exact settle_covers hconn (show (Outcome.next r).Keeps conn from hsame) h
    | none =>
      cases hstartup : env.startup with
      | none =>
        simp only [resume, hstarted, hstartup] at h
        exact settle_covers hconn (show (Outcome.exit (.dropped conn)).Keeps conn from .inr rfl) h
      | some response =>
        -- the startup response is recorded on the connection
        let conn' : ManagedConnection := { conn with connection := ⟨conn.connection.id, some response⟩ }
        have hset : (conn' :: rest).Perm (conn' :: v.pool.held.erase conn) := by
          refine .cons conn' ?_
          simpa using hconn.erase conn
        obtain ⟨effects, r, hnext, hsame⟩ := hiterate conn'
        simp only [resume, hstarted, hstartup, PoolLife.setStartupResponse] at h
        rw [hnext] at h
        exact settle_covers hset (show (Outcome.next r).Keeps conn' from hsame) h

end Held

namespace Proxy

variable {cfg : RelayConfig} {poolSize : Nat} {s s' : Proxy} {e : ProxyEvent} {i : Nat}

/-- What the clients other than `i` hold. -/
def othersHold (s : Proxy) (i : Nat) : List ManagedConnection :=
  (s.clients.eraseIdx i).filterMap Client.conn?

theorem holding_perm {c : Client} (h : s.clients[i]? = some c) :
    s.holding.Perm (c.conn?.toList ++ s.othersHold i) := by
  obtain ⟨hi, rfl⟩ := List.getElem?_eq_some_iff.1 h
  refine ((List.getElem_cons_eraseIdx_perm hi).symm.filterMap Client.conn?).trans ?_
  rw [List.filterMap_cons]
  cases (s.clients[i]).conn? <;> exact .rfl

theorem holding_set_perm (hi : i < s.clients.length) (c : Client) (pool : PoolLife) :
    (Proxy.mk pool (s.clients.set i c)).holding.Perm (c.conn?.toList ++ s.othersHold i) := by
  refine ((List.set_perm_cons_eraseIdx hi c).filterMap Client.conn?).trans ?_
  rw [List.filterMap_cons]
  cases c.conn? <;> exact .rfl

theorem conn?_ofRelay (relay : Option Relay) :
    (Client.ofRelay relay).conn? = relay.map Relay.managedConn := by
  cases relay <;> rfl

/-- The held connections are those of the handlers in their loops, and a handler in its acquire is
    in the arm that gave its connection back. -/
structure Covered (cfg : RelayConfig) (s : Proxy) : Prop where
  held : s.holding.Perm s.pool.held
  returning : ∀ r data writes, .returning r data writes ∈ s.clients →
    ∃ effects, Relay.backendRead cfg r data writes none = .ok (effects, .exit .withoutConnection)

theorem covered_new (cfg : RelayConfig) : Covered cfg .new := ⟨.nil, by simp [new]⟩

theorem Covered.setClient (h : Covered cfg s) {v : Served} (hi : i < s.clients.length)
    (hv : v.Covers (s.othersHold i)) : Covered cfg (s.setClient i v) := by
  refine ⟨?_, fun r data writes hmem => ?_⟩
  · refine (holding_set_perm hi _ v.pool).trans ?_
    rw [conn?_ofRelay]
    exact hv
  · rcases List.mem_or_eq_of_mem_set hmem with hmem | heq
    · exact h.returning r data writes hmem
    · cases hrelay : v.relay <;> simp [hrelay, Client.ofRelay] at heq

variable {env : ReacquireEnv} {needsSticky : Bool}
  {iterate : Option ManagedConnection → Rust (List Effect × Outcome)}

/-- An acquire that returns was made on a pool that was paused or had a slot. -/
theorem answered_cases {clientId : Nat}
    (h : s.answered poolSize i env clientId needsSticky iterate = some s') :
    ∃ answer pool v, s.pool.acquire clientId needsSticky env = some (answer, pool) ∧
      (⟨pool, none, false⟩ : Served).resume env iterate answer = some v ∧ s' = s.setClient i v ∧
      (s.pool.manager.accepting = true → s.pool.held.length < poolSize) := by
  simp only [answered] at h
  split at h
  · cases h
  · next hroom =>
    obtain ⟨⟨answer, pool⟩, hacquire, h⟩ := Option.bind_eq_some_iff.1 h
    obtain ⟨v, hresume, h⟩ := Option.bind_eq_some_iff.1 h
    cases h
    exact ⟨answer, pool, v, hacquire, hresume, rfl, fun haccepts =>
      Nat.lt_of_not_le fun hfull => hroom ⟨haccepts, hfull⟩⟩

/-- The handler whose acquire returns goes on with whatever connection it gets. -/
theorem Covered.acquired_cases (h : Covered cfg s)
    (hstep : step cfg poolSize s (.acquired i env) = some s') :
    ∃ c clientId needsSticky iterate, s.clients[i]? = some c ∧ c.conn? = none ∧
      s.answered poolSize i env clientId needsSticky iterate = some s' ∧
      ∀ conn, ∃ effects r, iterate (some conn) = .ok (effects, .next r) ∧ r.managedConn = conn := by
  simp only [step] at hstep
  split at hstep
  · next hi => exact ⟨_, _, _, _, hi, rfl, hstep, fun conn => ⟨_, _, rfl, rfl⟩⟩
  · next r data writes hi =>
    obtain ⟨effects, hread⟩ := h.returning r data writes (List.mem_of_getElem? hi)
    exact ⟨_, _, _, _, hi, rfl, hstep, Relay.backendRead_reacquired hread⟩
  · cases hstep

theorem Covered.answered (h : Covered cfg s) {clientId : Nat} (hi : i < s.clients.length)
    (hrest : (s.othersHold i).Perm s.pool.held)
    (hiterate : ∀ conn, ∃ effects r, iterate (some conn) = .ok (effects, .next r) ∧
      r.managedConn = conn)
    (hstep : s.answered poolSize i env clientId needsSticky iterate = some s') :
    Covered cfg s' := by
  obtain ⟨answer, pool, v, hacquire, hresume, rfl, -⟩ := answered_cases hstep
  refine h.setClient hi (Served.resume_covers hiterate ?_ hresume)
  rw [PoolLife.acquire_held hacquire]
  exact hrest.append_left _

/-- The event of a handler in its loop, and what it does. -/
theorem Covered.settle (h : Covered cfg s) {r : Relay} (hi : s.clients[i]? = some (.relaying r))
    {now : Nat} {effects : List Effect} {outcome : Outcome} (hkeeps : outcome.Keeps r.managedConn)
    (hstep : ((⟨s.pool, some r, false⟩ : Served).settle now (.ok (effects, outcome))).map
      (s.setClient i) = some s') : Covered cfg s' := by
  obtain ⟨v, hv, rfl⟩ := Option.map_eq_some_iff.1 hstep
  have hheld : (r.managedConn :: s.othersHold i).Perm s.pool.held :=
    (holding_perm hi).symm.trans h.held
  exact h.setClient (List.getElem?_eq_some_iff.1 hi).1 (Served.settle_covers hheld hkeeps hv)

/-- A backend read gives the connection back and waits for another, or goes on in the loop. -/
theorem Covered.backendRead (h : Covered cfg s) {data : List UInt8} {writes : Writes} {now : Nat}
    (hstep : step cfg poolSize s (.backendRead i data writes now) = some s') : Covered cfg s' := by
  simp only [step] at hstep
  split at hstep
  · next r hi =>
    split at hstep
    · next effects hread =>
      obtain ⟨pool, hrelease, rfl⟩ := Option.map_eq_some_iff.1 hstep
      have hheld : (r.managedConn :: s.othersHold i).Perm s.pool.held :=
        (holding_perm hi).symm.trans h.held
      refine ⟨?_, fun r' data' writes' hmem => ?_⟩
      · refine (holding_set_perm (List.getElem?_eq_some_iff.1 hi).1 _ pool).trans ?_
        exact PoolLife.leave_held hheld (.inl rfl) (show s.pool.leave .wrapping now _ = _ from hrelease)
      · rcases List.mem_or_eq_of_mem_set hmem with hmem | heq
        · exact h.returning r' data' writes' hmem
        · cases heq
          exact ⟨effects, hread⟩
    · next hother =>
      cases hread : Relay.backendRead cfg r data writes none with
      | error failure =>
        rw [hread] at hstep
        cases hstep
      | ok result =>
        obtain ⟨effects, outcome⟩ := result
        rw [hread] at hstep
        rcases Relay.backendRead_keeps hread with rfl | hkeeps
        · exact absurd hread (hother effects)
        · exact h.settle hi hkeeps hstep
  · cases hstep

/-- The other arms of a loop keep the connection or leave the loop with it. -/
theorem Covered.arm (h : Covered cfg s) {input : Input} {now : Nat}
    (hstep : step cfg poolSize s (.arm i input now) = some s') : Covered cfg s' := by
  have harm : ∃ r, s.clients[i]? = some (.relaying r) ∧
      (∀ data writes conn, input ≠ .backendRead data writes conn) ∧
      ((⟨s.pool, some r, false⟩ : Served).settle now (Relay.step cfg r input)).map
        (s.setClient i) = some s' := by
    cases input with
    | backendRead => cases hstep
    | clientRead | clientClosed | backendClosed | deadline =>
      simp only [step] at hstep
      split at hstep
      · next r hi => exact ⟨r, hi, by simp, hstep⟩
      · cases hstep
  obtain ⟨r, hi, hinput, hstep⟩ := harm
  cases hrun : Relay.step cfg r input with
  | error failure =>
    rw [hrun] at hstep
    cases hstep
  | ok result =>
    rw [hrun] at hstep
    exact h.settle hi (Relay.step_keeps hinput hrun) hstep

theorem covered_step (h : Covered cfg s) (hstep : step cfg poolSize s e = some s') :
    Covered cfg s' := by
  cases e with
  | connect clientId =>
    cases hstep
    refine ⟨?_, fun r data writes hmem => h.returning r data writes ?_⟩
    · have hnone : [Client.arriving clientId].filterMap Client.conn? = [] := rfl
      simpa [holding, hnone] using h.held
    · simpa using hmem
  | acquired i env =>
    obtain ⟨c, clientId, needsSticky, iterate, hi, hnone, hanswered, hiterate⟩ :=
      h.acquired_cases hstep
    have hrest := (holding_perm hi).symm.trans h.held
    rw [hnone] at hrest
    exact h.answered (List.getElem?_eq_some_iff.1 hi).1 hrest hiterate hanswered
  | backendRead i data writes now => exact h.backendRead hstep
  | arm i input now => exact h.arm hstep
  | pause | resume =>
    cases hstep
    exact ⟨h.held, h.returning⟩

variable {events : List ProxyEvent}

theorem covered_exec (hrun : Trace.exec (step cfg poolSize) .new events = some s) : Covered cfg s :=
  Trace.exec_keeps (fun _ _ _ h hstep => covered_step h hstep) (covered_new cfg) hrun

/-! ## Idle clients -/

/-- While all are idle, a handler stays in its loop with its connection. -/
theorem quiet_step_relaying (h : Covered cfg s) (he : e.quiet = true)
    (hstep : step cfg poolSize s e = some s') {r : Relay}
    (hi : s.clients[i]? = some (.relaying r)) : s'.clients[i]? = some (.relaying r) := by
  cases e with
  | connect clientId =>
    cases hstep
    exact (List.getElem?_append_left (List.getElem?_eq_some_iff.1 hi).1).trans hi
  | acquired j env =>
    obtain ⟨c, _, _, _, hj, hnone, hanswered, -⟩ := h.acquired_cases hstep
    obtain ⟨-, -, v, -, -, rfl, -⟩ := answered_cases hanswered
    have hne : j ≠ i := by
      rintro rfl
      rw [hi] at hj
      cases hj
      cases hnone
    exact (List.getElem?_set_ne hne).trans hi
  | backendRead | arm | pause | resume => cases he

theorem quiet_exec_relaying (h : Covered cfg s) (hquiet : ∀ e ∈ events, e.quiet = true)
    (hrun : Trace.exec (step cfg poolSize) s events = some s') {r : Relay}
    (hi : s.clients[i]? = some (.relaying r)) : s'.clients[i]? = some (.relaying r) := by
  have hkeep : ∀ s e s', (Covered cfg s ∧ s.clients[i]? = some (.relaying r)) → e.quiet = true →
      step cfg poolSize s e = some s' → Covered cfg s' ∧ s'.clients[i]? = some (.relaying r) :=
    fun s e s' hs he hstep =>
      ⟨covered_step hs.1 hstep, quiet_step_relaying hs.1 he hstep hs.2⟩
  exact (Trace.exec_invariant hkeep ⟨h, hi⟩ (Trace.admits_of_forall hquiet s) hrun).2

/-- With no slot free, an acquire that returns has no connection. -/
theorem answered_full {clientId : Nat} (hfull : poolSize ≤ s.pool.held.length)
    (h : s.answered poolSize i env clientId needsSticky iterate = some s') :
    s'.pool.held = s.pool.held ∧ s'.clients = s.clients.set i .gone := by
  obtain ⟨answer, pool, v, hacquire, hresume, rfl, hroom⟩ := answered_cases h
  have hpaused : s.pool.manager.accepting = false := by
    cases haccepts : s.pool.manager.accepting with
    | false => rfl
    | true => exact absurd (hroom haccepts) (Nat.not_lt.2 hfull)
  obtain rfl := (PoolLife.acquire_paused_iff hacquire).2 hpaused
  cases hresume
  exact ⟨PoolLife.acquire_held hacquire, rfl⟩

/-- With no slot free, an idle step gives no one a connection. -/
theorem quiet_step_full (h : Covered cfg s) (hfull : poolSize ≤ s.pool.held.length)
    (he : e.quiet = true) (hstep : step cfg poolSize s e = some s')
    (hnone : ∀ c, s.clients[i]? = some c → c.conn? = none) :
    poolSize ≤ s'.pool.held.length ∧ ∀ c, s'.clients[i]? = some c → c.conn? = none := by
  cases e with
  | connect clientId =>
    cases hstep
    refine ⟨hfull, fun c hc => ?_⟩
    by_cases hi : i < s.clients.length
    · exact hnone c ((List.getElem?_append_left hi).symm.trans hc)
    · have hnew := (List.getElem?_append_right (Nat.not_lt.1 hi)).symm.trans hc
      rw [List.mem_singleton.1 (List.mem_of_getElem? hnew)]
      rfl
  | acquired j env =>
    obtain ⟨-, _, _, _, -, -, hanswered, -⟩ := h.acquired_cases hstep
    obtain ⟨hheld, hclients⟩ := answered_full hfull hanswered
    refine ⟨hheld ▸ hfull, fun c hc => ?_⟩
    rw [hclients, List.getElem?_set] at hc
    split at hc
    · split at hc
      · cases hc
        rfl
      · cases hc
    · exact hnone c hc
  | backendRead | arm | pause | resume => cases he

theorem quiet_exec_full (h : Covered cfg s) (hfull : poolSize ≤ s.pool.held.length)
    (hquiet : ∀ e ∈ events, e.quiet = true)
    (hrun : Trace.exec (step cfg poolSize) s events = some s')
    (hnone : ∀ c, s.clients[i]? = some c → c.conn? = none) :
    ∀ c, s'.clients[i]? = some c → c.conn? = none := by
  have hkeep : ∀ s e s', (Covered cfg s ∧ poolSize ≤ s.pool.held.length ∧
        ∀ c, s.clients[i]? = some c → c.conn? = none) → e.quiet = true →
      step cfg poolSize s e = some s' → Covered cfg s' ∧ poolSize ≤ s'.pool.held.length ∧
        ∀ c, s'.clients[i]? = some c → c.conn? = none :=
    fun s e s' hs he hstep =>
      ⟨covered_step hs.1 hstep, quiet_step_full hs.1 hs.2.1 he hstep hs.2.2⟩
  exact (Trace.exec_invariant hkeep ⟨h, hfull, hnone⟩ (Trace.admits_of_forall hquiet s) hrun).2.2

/-- An accepting pool that can create a connection answers with one. -/
theorem acquire_fresh {ℓ : PoolLife} (haccepts : ℓ.manager.accepting = true) (clientId : Nat)
    (needsSticky : Bool) (now : Nat) :
    ∃ conn ℓ', ℓ.acquire clientId needsSticky { now } = some (.ok conn, ℓ') := by
  have hmanager : ∃ conn pm, ℓ.manager.acquire .wrapping clientId needsSticky []
      (some ⟨ℓ.created, none⟩) = .ok (.ok conn, pm) := by
    simp only [PoolManager.acquire, haccepts, Bool.not_true, Bool.false_eq_true, if_false]
    split
    · exact ⟨_, _, rfl⟩
    · exact ⟨_, _, rfl⟩
  obtain ⟨conn, pm, hconn⟩ := hmanager
  refine ⟨conn, ⟨pm, conn :: ℓ.held, ℓ.created + 1⟩, ?_⟩
  simp [PoolLife.acquire, PoolLife.step, Pool.tries, hconn]

/-- With a slot free, an acquire returns and the handler goes on. -/
theorem answered_relays (clientId : Nat) (needsSticky : Bool)
    (haccepts : s.pool.manager.accepting = true) (hroom : s.pool.held.length < poolSize)
    (hiterate : ∀ conn, ∃ effects r, iterate (some conn) = .ok (effects, .next r) ∧
      r.managedConn = conn) (hi : i < s.clients.length) :
    ∃ s' r, s.answered poolSize i { now := 0 } clientId needsSticky iterate = some s' ∧
      s'.clients[i]? = some (.relaying r) := by
  obtain ⟨conn, pool, hacquire⟩ := acquire_fresh haccepts clientId needsSticky 0
  have hresume : ∃ v r, (⟨pool, none, false⟩ : Served).resume { now := 0 } iterate (.ok conn) =
      some v ∧ v.relay = some r := by
    cases hstarted : conn.connection.startupResponse with
    | some response =>
      obtain ⟨effects, r, hnext, -⟩ := hiterate conn
      exact ⟨⟨pool, some r, false⟩, r, by simp only [Served.resume, hstarted, hnext]; rfl, rfl⟩
    | none =>
      obtain ⟨effects, r, hnext, -⟩ :=
        hiterate { conn with connection := ⟨conn.connection.id, some []⟩ }
      refine ⟨⟨(pool.setStartupResponse conn []).2, some r, false⟩, r, ?_, rfl⟩
      simp only [Served.resume, hstarted, PoolLife.setStartupResponse]
      rw [hnext]
      rfl
  obtain ⟨v, r, hresume, hrelay⟩ := hresume
  refine ⟨s.setClient i v, r, ?_, ?_⟩
  · have hfree : ¬ (s.pool.manager.accepting = true ∧ poolSize ≤ s.pool.held.length) := by omega
    simp [answered, hfree, hacquire, hresume]
  · rw [setClient, hrelay]
    exact List.getElem?_set_self hi

/-- No connection is held by an established client that stays idle exactly if there is none. -/
theorem noneHolds_iff (h : Covered cfg s) (haccepts : s.pool.manager.accepting = true)
    (hsize : 1 ≤ poolSize) :
    NoneHolds cfg poolSize s ↔ ∀ c ∈ s.clients, c.established = false := by
  constructor
  · intro hnone c hc
    obtain ⟨i, hi⟩ := List.mem_iff_getElem?.1 hc
    have hnow : ∀ (j : Nat) r, s.clients[j]? ≠ some (.relaying r) := by
      intro j r hj
      cases hnone [] s (by simp) rfl j _ _ hj rfl hj
    cases c with
    | arriving | gone => rfl
    | relaying r => exact absurd hi (hnow i r)
    | returning r data writes =>
      -- nothing is held, so its acquire can return
      have hempty : s.holding = [] := by
        refine List.filterMap_eq_nil_iff.2 fun c' hc' => ?_
        obtain ⟨j, hj⟩ := List.mem_iff_getElem?.1 hc'
        cases c' with
        | relaying r' => exact absurd hj (hnow j r')
        | arriving | returning | gone => rfl
      have hroom : s.pool.held.length < poolSize := by
        rw [← h.held.length_eq, hempty]
        exact hsize
      obtain ⟨effects, hread⟩ := h.returning r data writes hc
      obtain ⟨s', r', hstep, hback⟩ := answered_relays r.managedConn.clientId r.connState.isPinned
        haccepts hroom (Relay.backendRead_reacquired hread) (List.getElem?_eq_some_iff.1 hi).1
      have hrun : Trace.exec (step cfg poolSize) s [.acquired i { now := 0 }] = some s' := by
        refine Trace.exec_cons_eq_some.2 ⟨s', ?_, rfl⟩
        simp only [step, hi]
        exact hstep
      cases hnone [.acquired i { now := 0 }] s' (by simp [ProxyEvent.quiet]) hrun i _ _ hi rfl hback
  · intro hall events t _ _ i c c' hi hestablished
    rw [hall c (List.mem_of_getElem? hi)] at hestablished
    cases hestablished

/-- A further client gets a connection exactly if a slot is free. -/
theorem servesFurther_iff (h : Covered cfg s) (haccepts : s.pool.manager.accepting = true) :
    ServesFurther cfg poolSize s ↔ s.holding.length < poolSize := by
  rw [h.held.length_eq]
  constructor
  · rintro ⟨clientId, events, t, hquiet, hrun, r, hserved⟩
    by_contra hfull
    have hnone : ∀ c, s.clients[s.clients.length]? = some c → c.conn? = none := by simp
    have hquiet' : ∀ e ∈ .connect clientId :: events, e.quiet = true := by
      intro e he
      rcases List.mem_cons.1 he with rfl | he
      · rfl
      · exact hquiet e he
    cases quiet_exec_full h (Nat.not_lt.1 hfull) hquiet' hrun hnone _ hserved
  · intro hroom
    let s₁ : Proxy := { s with clients := s.clients ++ [.arriving 0] }
    have hi : s₁.clients[s.clients.length]? = some (.arriving 0) := List.getElem?_concat_length
    let iterate : Option ManagedConnection → Rust (List Effect × Outcome) := fun conn =>
      .ok ([], conn.elim (.exit .withoutConnection) fun conn => .next (.start cfg conn))
    have hiterate : ∀ conn, ∃ effects r, iterate (some conn) = .ok (effects, .next r) ∧
        r.managedConn = conn := fun conn => ⟨_, _, rfl, rfl⟩
    obtain ⟨t, r, hstep, hserved⟩ := answered_relays (s := s₁) 0 false haccepts hroom hiterate
      (List.getElem?_eq_some_iff.1 hi).1
    refine ⟨0, [.acquired s.clients.length { now := 0 }], t, by simp [ProxyEvent.quiet], ?_, r, hserved⟩
    refine Trace.exec_cons_eq_some.2 ⟨s₁, rfl, Trace.exec_cons_eq_some.2 ⟨t, ?_, rfl⟩⟩
    simp only [step, hi]
    exact hstep

/-- In every state that is reached, whatever the clients did before: no established client holds a
    connection while all stay idle exactly if there is none, a further client is served exactly if
    fewer handlers than there are slots are in their loops, and these keep their connections. -/
theorem multiplexes_iff {events : List ProxyEvent}
    (hrun : Trace.exec (step cfg poolSize) .new events = some s)
    (haccepts : s.pool.manager.accepting = true) (hsize : 1 ≤ poolSize) :
    (NoneHolds cfg poolSize s ↔ ∀ c ∈ s.clients, c.established = false) ∧
    (ServesFurther cfg poolSize s ↔ s.holding.length < poolSize) ∧
    ∀ quiet t, (∀ e ∈ quiet, e.quiet = true) → Trace.exec (step cfg poolSize) s quiet = some t →
      ∀ (i : Nat) r, s.clients[i]? = some (.relaying r) → t.clients[i]? = some (.relaying r) := by
  have h := covered_exec hrun
  refine ⟨noneHolds_iff h haccepts hsize, servesFurther_iff h haccepts, ?_⟩
  intro quiet t hquiet hrest i r hi
  exact quiet_exec_relaying h hquiet hrest hi

/-- One client, in a transaction and out of it, and back in its loop. -/
def afterCommit : List ProxyEvent :=
  [.connect 7, .acquired 0 { now := 0 },
    .arm 0 (.clientRead (queryFrame "BEGIN").encode 1 {}) 1,
    .backendRead 0 (encodeAll (answerFrames "BEGIN" .inTransaction)) {} 2,
    .arm 0 (.clientRead (queryFrame "COMMIT").encode 3 {}) 3,
    .backendRead 0 (encodeAll (answerFrames "COMMIT" .idle)) {} 4,
    .acquired 0 { now := 5 }]

/-- With a second slot, a further client is served. -/
theorem multiplexes_second_slot :
    ∃ s, Trace.exec (step ⟨.transaction, 0, 100⟩ 2) .new afterCommit = some s ∧
      ServesFurther ⟨.transaction, 0, 100⟩ 2 s := by
  obtain ⟨s, hrun, hview⟩ := Option.map_eq_some_iff.1 (by decide +kernel :
    (Trace.exec (step ⟨.transaction, 0, 100⟩ 2) .new afterCommit).map
      (fun s => (s.pool.manager.accepting, s.holding.length)) = some (true, 1))
  obtain ⟨haccepts, hholding⟩ := Prod.mk.injEq .. ▸ hview
  refine ⟨s, hrun, (multiplexes_iff hrun haccepts (by decide)).2.1.2 ?_⟩
  rw [hholding]
  decide

/-- What a handler in its loop knows of its client: transaction state and pin. -/
def clientView : Client → Option (TransactionState × Bool)
  | .relaying r => some (r.txnTracker, r.connState.isPinned)
  | .arriving _ | .returning _ _ _ | .gone => none

/-- In a pool of one, an idle client that has committed its transaction keeps a second one out. -/
theorem idle_client_blocks_pool :
    ∃ s, Trace.exec (step ⟨.transaction, 0, 100⟩ 1) .new afterCommit = some s ∧
      s.clients.map clientView = [some (.idle, false)] ∧
      ¬ NoneHolds ⟨.transaction, 0, 100⟩ 1 s ∧ ¬ ServesFurther ⟨.transaction, 0, 100⟩ 1 s := by
  obtain ⟨s, hrun, hview⟩ := Option.map_eq_some_iff.1 (by decide +kernel :
    (Trace.exec (step ⟨.transaction, 0, 100⟩ 1) .new afterCommit).map
      (fun s => (s.clients.map clientView, s.clients.any Client.established,
        s.pool.manager.accepting, s.holding.length)) =
      some ([some (.idle, false)], true, true, 1))
  simp only [Prod.mk.injEq] at hview
  obtain ⟨hclients, hestablished, haccepts, hholding⟩ := hview
  have h := covered_exec hrun
  refine ⟨s, hrun, hclients, fun hnone => ?_, fun hserves => ?_⟩
  · obtain ⟨c, hc, htrue⟩ := List.any_eq_true.1 hestablished
    rw [(noneHolds_iff h haccepts (Nat.le_refl 1)).1 hnone c hc] at htrue
    cases htrue
  · have hroom := (servesFurther_iff h haccepts).1 hserves
    rw [hholding] at hroom
    exact absurd hroom (Nat.lt_irrefl 1)

end Proxy

end ScryProxy
