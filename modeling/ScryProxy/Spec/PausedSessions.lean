import ScryProxy.Spec.ReleaseBoundary
import ScryProxy.Spec.TimeoutReuse

/-!
# Sessions on a paused pool

A client's session together with the pool it shares with others.  The relay takes part in
the life of the pool at two points: it gives its connection back when it leaves the loop,
and at the end of a transaction it releases its connection and acquires one again.
`pause` refuses every `acquire`, the one at the end of a transaction included, and the
refusal ends the session.

A session is ended this way exactly if one of its transactions ends, on a connection that
goes back to the pool, while the pool is paused (`survivesPause_iff`).
-/

namespace ScryProxy

open Frame (encodeAll)
open Relay (endsTransaction)

/-- What the handler meets when it gives its connection back in mid-session. -/
structure ReacquireEnv where
  now : Nat
  /-- uses of the pool by others between the release and the acquire -/
  between : List PoolEvent := []
  attempts : List Attempt := []
  /-- a new connection, if one can be created -/
  fresh : Bool := true
  /-- the startup response of a connection that has none yet, if its startup succeeds -/
  startup : Option (List UInt8) := some []

inductive SessionEvent where
  | backendRead (data : List UInt8) (writes : Writes) (env : ReacquireEnv)
  /-- any other arm of the loop -/
  | arm (input : Input) (now : Nat)
  /-- a use of the pool by another handler or the admin console -/
  | elsewhere (event : PoolEvent)

/-- The pool and one client's session. -/
structure Served where
  pool : PoolLife
  /-- `none` once the handler has left its loop -/
  relay : Option Relay
  /-- the session was ended by `AcquireError::Paused` -/
  pausedOut : Bool

namespace PoolLife

/-- An acquire with its answer. -/
def acquire (ℓ : PoolLife) (clientId : Nat) (needsSticky : Bool) (env : ReacquireEnv) :
    Option (Except AcquireError ManagedConnection × PoolLife) :=
  let fresh := if env.fresh then some none else none
  match ℓ.manager.acquire .wrapping clientId needsSticky env.attempts
      (fresh.map fun startupResponse => ⟨ℓ.created, startupResponse⟩) with
  | .error _ => none
  | .ok (answer, _) =>
    (ℓ.step .wrapping (.acquire clientId needsSticky env.attempts fresh)).map (answer, ·)

/-- `set_startup_response`. -/
def setStartupResponse (ℓ : PoolLife) (conn : ManagedConnection) (response : List UInt8) :
    ManagedConnection × PoolLife :=
  let conn' := { conn with connection := ⟨conn.connection.id, some response⟩ }
  (conn', { ℓ with held := conn' :: ℓ.held.erase conn })

end PoolLife

/-- The read ends in the branch that gives the connection back. -/
def releasesAt (cfg : RelayConfig) (r : Relay) (data : List UInt8) (writes : Writes) : Rust Bool := do
  let status ← extractReadyForQuery .wrapping data
  return writes.client && endsTransaction cfg r status

namespace Served

/-- A session past its startup. -/
def start (cfg : RelayConfig) (pool : PoolLife) (conn : ManagedConnection) : Served :=
  ⟨pool, some (.start cfg conn), false⟩

def settle (s : Served) (now : Nat) : Rust (List Effect × Outcome) → Option Served
  | .error _ => none
  | .ok (_, .next r) => some { s with relay := some r }
  | .ok (_, .exit how) =>
    (s.pool.leave .wrapping now how).map fun pool => { s with pool, relay := none }

/-- The handler after the answer to its acquire. -/
def resume (s : Served) (env : ReacquireEnv)
    (iterate : Option ManagedConnection → Rust (List Effect × Outcome)) :
    Except AcquireError ManagedConnection → Option Served
  | .error e => some { s with relay := none, pausedOut := s.pausedOut || e = .paused }
  | .ok conn =>
    match conn.connection.startupResponse, env.startup with
    | some _, _ => s.settle env.now (iterate (some conn))
    | none, some response =>
      let (conn, pool) := s.pool.setStartupResponse conn response
      { s with pool }.settle env.now (iterate (some conn))
    -- a backend whose startup fails is dropped with the session
    | none, none => s.settle env.now (.ok ([], .exit (.dropped conn)))

/-- One event; `none` if it cannot happen, or does not return. -/
def step (cfg : RelayConfig) (s : Served) : SessionEvent → Option Served
  | .elsewhere event => (s.pool.step .wrapping event).map fun pool => { s with pool }
  | .arm (.backendRead _ _ _) _ => none
  | .arm input now => do
    let r ← s.relay
    s.settle now (Relay.step cfg r input)
  | .backendRead data writes env => do
    let r ← s.relay
    match releasesAt cfg r data writes with
    | .error _ => none
    | .ok false => s.settle env.now (Relay.backendRead cfg r data writes none)
    | .ok true =>
      let pool ← s.pool.step .wrapping (.release r.managedConn env.now)
      -- the handler yields before it acquires
      let pool ← Trace.exec (PoolLife.step .wrapping) pool env.between
      let (answer, pool) ← pool.acquire r.managedConn.clientId r.connState.isPinned env
      { s with pool }.resume env (Relay.backendRead cfg r data writes) answer

end Served

/-- Whether the pool accepts after the events: the last `pause` or `resume` decides. -/
def acceptingAfter (accepting : Bool) (events : List PoolEvent) : Bool :=
  events.foldl (fun accepting event =>
    match event with
    | .pause => false
    | .resume => true
    | _ => accepting) accepting

/-- The event does not end a transaction of the session, on a connection that goes back to the pool,
    while the pool is paused. -/
def Spared (cfg : RelayConfig) (s : Served) : SessionEvent → Prop
  | .backendRead data writes env => ∀ r, s.relay = some r → releasesAt cfg r data writes = .ok true →
      acceptingAfter s.pool.manager.accepting env.between = true
  | _ => True

/-- The established session is never ended by the pause. -/
def SurvivesPause (cfg : RelayConfig) (pool : PoolLife) (conn : ManagedConnection)
    (events : List SessionEvent) : Prop :=
  ∀ s, Trace.exec (Served.step cfg) (.start cfg pool conn) events = some s → s.pausedOut = false

/-! ## The gate -/

/-- Only a paused pool answers that it is paused. -/
theorem PoolManager.acquire_paused_iff {pm pm' : PoolManager} {clientId : Nat} {sticky : Bool}
    {attempts : List Attempt} {fresh : Option PooledBackend}
    {answer : Except AcquireError ManagedConnection}
    (h : pm.acquire .wrapping clientId sticky attempts fresh = .ok (answer, pm')) :
    (answer = .error .paused ↔ pm.accepting = false) ∧ pm'.accepting = pm.accepting := by
  unfold acquire at h
  split at h
  · next hpaused =>
    cases h
    simpa using hpaused
  · next haccepts =>
    have haccepts : pm.accepting = true := by simpa using haccepts
    rw [haccepts]
    split at h
    · cases h
      simp [haccepts]
    · obtain ⟨⟨got, pool⟩, -, h⟩ := Rust.bind_returns.1 h
      cases got <;> cases h <;> simp [haccepts]

theorem PoolManager.release_accepting (pm : PoolManager) (conn : ManagedConnection) (now : Nat) :
    (pm.release conn now).accepting = pm.accepting := by
  unfold release
  split
  · split <;> rfl
  · rfl

theorem PoolLife.step_accepting {ℓ ℓ' : PoolLife} {event : PoolEvent}
    (h : ℓ.step .wrapping event = some ℓ') :
    ℓ'.manager.accepting = acceptingAfter ℓ.manager.accepting [event] := by
  cases event with
  | acquire clientId sticky attempts fresh =>
    simp only [step] at h
    split at h
    · split at h
      · cases h
      · next hacquire =>
        cases h
        exact (PoolManager.acquire_paused_iff hacquire).2
      · next hacquire =>
        cases h
        exact (PoolManager.acquire_paused_iff hacquire).2
    · cases h
  | release conn now =>
    simp only [step] at h
    split at h
    · cases h
      exact PoolManager.release_accepting _ _ _
    · cases h
  | pause | resume => cases h; rfl

theorem PoolLife.exec_accepting {ℓ ℓ' : PoolLife} {events : List PoolEvent}
    (h : Trace.exec (step .wrapping) ℓ events = some ℓ') :
    ℓ'.manager.accepting = acceptingAfter ℓ.manager.accepting events := by
  induction events generalizing ℓ with
  | nil => cases h; rfl
  | cons event events ih =>
    obtain ⟨ℓ₁, hstep, hrest⟩ := Trace.exec_cons_eq_some.1 h
    rw [ih hrest, step_accepting hstep]
    rfl

theorem PoolLife.acquire_paused_iff {ℓ ℓ' : PoolLife} {clientId : Nat} {sticky : Bool}
    {env : ReacquireEnv} {answer : Except AcquireError ManagedConnection}
    (h : ℓ.acquire clientId sticky env = some (answer, ℓ')) :
    answer = .error .paused ↔ ℓ.manager.accepting = false := by
  simp only [acquire] at h
  split at h
  · exact nomatch h
  · next hacquire =>
    obtain ⟨_, -, heq⟩ := Option.map_eq_some_iff.1 h
    cases heq
    exact (PoolManager.acquire_paused_iff hacquire).1

/-! ## The session -/

namespace Served

theorem settle_pausedOut {s s' : Served} {now : Nat} {result : Rust (List Effect × Outcome)}
    (h : s.settle now result = some s') : s'.pausedOut = s.pausedOut := by
  unfold settle at h
  split at h
  · exact nomatch h
  · cases h; rfl
  · obtain ⟨pool, -, rfl⟩ := Option.map_eq_some_iff.1 h
    rfl

theorem resume_pausedOut {s s' : Served} {env : ReacquireEnv}
    {iterate : Option ManagedConnection → Rust (List Effect × Outcome)}
    {answer : Except AcquireError ManagedConnection} (h : s.resume env iterate answer = some s') :
    s'.pausedOut = true ↔ s.pausedOut = true ∨ answer = .error .paused := by
  cases answer with
  | error e => cases h; simp
  | ok conn =>
    -- whatever becomes of the connection, the pause has no part in it
    have hsame : s'.pausedOut = s.pausedOut := by
      simp only [resume] at h
      split at h
      all_goals
        have hsettled := settle_pausedOut h
        exact hsettled
    simp [hsame]

/-- One event ends the session by the pause exactly if it is not spared. -/
theorem step_pausedOut {cfg : RelayConfig} {s s' : Served} {event : SessionEvent}
    (h : s.step cfg event = some s') :
    s'.pausedOut = true ↔ s.pausedOut = true ∨ ¬ Spared cfg s event := by
  cases event with
  | elsewhere event =>
    obtain ⟨pool, -, rfl⟩ := Option.map_eq_some_iff.1 h
    simp [Spared]
  | arm input now =>
    have hsame : s'.pausedOut = s.pausedOut := by
      cases input with
      | backendRead => exact nomatch h
      | clientRead | clientClosed | backendClosed | deadline =>
        obtain ⟨r, -, h⟩ := Option.bind_eq_some_iff.1 h
        exact settle_pausedOut h
    simp [hsame, Spared]
  | backendRead data writes env =>
    obtain ⟨r, hrelay, h⟩ := Option.bind_eq_some_iff.1 h
    simp only [Spared, hrelay, Option.some.injEq, forall_eq']
    split at h
    · exact nomatch h
    · next hkeeps =>
      simp [hkeeps, settle_pausedOut h]
    · next hreleases =>
      -- the pool that the acquire meets accepts as the events in between leave it
      obtain ⟨pool₁, hrelease, h⟩ := Option.bind_eq_some_iff.1 h
      obtain ⟨pool₂, hbetween, h⟩ := Option.bind_eq_some_iff.1 h
      obtain ⟨⟨answer, pool₃⟩, hacquire, h⟩ := Option.bind_eq_some_iff.1 h
      have haccepting : pool₂.manager.accepting =
          acceptingAfter s.pool.manager.accepting env.between := by
        rw [PoolLife.exec_accepting hbetween, PoolLife.step_accepting hrelease]
        rfl
      rw [resume_pausedOut h, PoolLife.acquire_paused_iff hacquire, haccepting, hreleases]
      simp

theorem exec_pausedOut {cfg : RelayConfig} {s s' : Served} {events : List SessionEvent}
    (h : Trace.exec (step cfg) s events = some s') :
    s'.pausedOut = false ↔
      s.pausedOut = false ∧ Trace.Admits (step cfg) (Spared cfg) s events := by
  induction events generalizing s with
  | nil => cases h; simp [Trace.Admits]
  | cons event events ih =>
    obtain ⟨s₁, hstep, hrest⟩ := Trace.exec_cons_eq_some.1 h
    have hfirst := step_pausedOut hstep
    have hfirst : s₁.pausedOut = false ↔ s.pausedOut = false ∧ Spared cfg s event := by
      rw [← Bool.not_eq_true, hfirst, not_or, not_not, Bool.not_eq_true]
    rw [ih hrest, hfirst, and_assoc, Trace.Admits, hstep]
    simp

end Served

/-- An established session is spared by the pause exactly if none of its transactions ends, on a
    connection that goes back to the pool, while the pool is paused. -/
theorem survivesPause_iff (cfg : RelayConfig) (pool : PoolLife) (conn : ManagedConnection)
    (events : List SessionEvent) :
    SurvivesPause cfg pool conn events ↔
      ∀ s, Trace.exec (Served.step cfg) (.start cfg pool conn) events = some s →
        Trace.Admits (Served.step cfg) (Spared cfg) (.start cfg pool conn) events := by
  refine forall_congr' fun s => imp_congr_right fun hrun => ?_
  rw [Served.exec_pausedOut hrun]
  exact and_iff_right rfl

/-- A pool with one connection, in client 7's hands. -/
def poolOfSeven : PoolLife := ⟨.new, [⟨⟨0, some []⟩, 7, false⟩], 1⟩

/-- A pause in the middle of a transaction ends the session when the transaction commits. -/
theorem paused_commit_ends_session :
    ¬ SurvivesPause ⟨.transaction, 0, 100⟩ poolOfSeven ⟨⟨0, some []⟩, 7, false⟩
      [.arm (.clientRead (queryFrame "BEGIN").encode 0 {}) 0,
        .backendRead (encodeAll (answerFrames "BEGIN" .inTransaction)) {} { now := 1 },
        .elsewhere .pause,
        .arm (.clientRead (queryFrame "COMMIT").encode 2 {}) 2,
        .backendRead (encodeAll (answerFrames "COMMIT" .idle)) {} { now := 3 }] := by
  intro h
  obtain ⟨s, hrun, hout⟩ := Option.map_eq_some_iff.1 (by decide +kernel :
    (Trace.exec (Served.step ⟨.transaction, 0, 100⟩)
      (.start ⟨.transaction, 0, 100⟩ poolOfSeven ⟨⟨0, some []⟩, 7, false⟩)
      [.arm (.clientRead (queryFrame "BEGIN").encode 0 {}) 0,
        .backendRead (encodeAll (answerFrames "BEGIN" .inTransaction)) {} { now := 1 },
        .elsewhere .pause,
        .arm (.clientRead (queryFrame "COMMIT").encode 2 {}) 2,
        .backendRead (encodeAll (answerFrames "COMMIT" .idle)) {} { now := 3 }]).map
      Served.pausedOut = some true)
  exact absurd hout (by rw [h s hrun]; decide)

end ScryProxy
