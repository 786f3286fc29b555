import ScryProxy.Native.ManagedSession
import ScryProxy.Spec.Forwarding
import ScryProxy.Spec.Multiplexing
import ScryProxy.Spec.WaiterOrder

/-!
# Sessions that end and waiters that wait

The managed sessions of a proxy with their pool manager and the waiters in its queue.  A session
gives its connection away once, at the end of a transaction or of its life.  `release` wakes a
waiter; a connection that is dropped, because an error is returned with `?` or the task is
aborted, goes back to the pool as well and nobody is told.

## Key results

- `ManagedSession.handover_iff`: the ways in which a session drops or releases its connection
- `returned_connection_wakes_iff`: the runs in which every connection that comes back wakes a
  waiter
-/

namespace ScryProxy

/-! ## One session -/

namespace Relay

variable {cfg : RelayConfig} {r : Relay} {input : Input} {effects : List Effect}
  {outcome : Outcome}

/-- An iteration gives its connection back to acquire one again, or keeps it. -/
theorem step_answered_none (h : step cfg r (input.answered none) = .ok (effects, outcome)) :
    outcome = .exit .withoutConnection ∨ outcome.Keeps r.managedConn := by
  cases input with
  | backendRead data writes reacquired => exact backendRead_keeps h
  | clientRead data now writes => exact .inr (step_keeps (by simp [Input.answered]) h)
  | clientClosed | backendClosed => exact .inr (step_keeps (by simp [Input.answered]) h)
  | deadline now => exact .inr (step_keeps (by simp [Input.answered]) h)

/-- It goes on with the connection that it gets. -/
theorem step_answered_some
    (h : step cfg r (input.answered none) = .ok (effects, .exit .withoutConnection))
    (conn : ManagedConnection) :
    ∃ more r', step cfg r (input.answered (some conn)) = .ok (more, .next r') ∧
      r'.managedConn = conn := by
  cases input with
  | backendRead data writes reacquired => exact backendRead_reacquired h conn
  | clientRead data now writes =>
    have hkeeps := step_keeps (by simp [Input.answered]) h
    rcases hkeeps with hkeeps | hkeeps <;> cases hkeeps
  | clientClosed | backendClosed => cases h
  | deadline now =>
    have hkeeps := step_keeps (by simp [Input.answered]) h
    rcases hkeeps with hkeeps | hkeeps <;> cases hkeeps

/-! ### Reads that end the session

Which iterations end with a failed write or a panic, and which go through `release`, in terms of
the bytes and messages of the read and of the state that it finds. -/

/-- The detector panics on the text of the message, or the decoder on its parameters. -/
def PanicsAt (cfg : RelayConfig) (inTransaction : Bool) (cache : PreparedStatementCache) :
    Message → Prop
  | .parse _ sql _ | .query sql =>
    cfg.strategy.poolingMode.validate sql inTransaction = .error .panic ∨
      cfg.strategy.poolingMode.validate sql inTransaction = .ok none ∧
        ConnectionState.readQuery sql = .error .panic
  | .bind _ statement formatCodes paramsRaw =>
    ∃ stmt, cache.statements.lookup statement = some stmt ∧
      decodeParams (fun _ => none) (fun _ => none) paramsRaw formatCodes stmt.paramOids =
        .error .panic
  | .execute _ | .sync | .close _ _ | .terminate => False

/-- One of the messages that are looked at panics. -/
def Panics (cfg : RelayConfig) (inTransaction : Bool) :
    Nat → PreparedStatementCache → List Message → Prop
  | _, _, [] => False
  | index, cache, msg :: msgs =>
    PanicsAt cfg inTransaction cache msg ∨
      verdictOn cfg inTransaction index msg = .forward ∧ Legible cfg inTransaction msg ∧
        ∃ cache', cache.observe msg = .ok cache' ∧ Panics cfg inTransaction (index + 1) cache' msgs

/-- The scans of a backend read return, up to that for an error or the end of a query. -/
def Settles (data : List UInt8) : Prop :=
  ∃ error, extractError .wrapping data = .ok error ∧
    (error = none → ∃ done, isQueryComplete .wrapping data = .ok done)

/-- The iteration ends the session with a panic, or with `?` at a failed write. -/
def LeavesByError (cfg : RelayConfig) (r : Relay) : Input → Prop
  | .clientRead data _ writes =>
    extractMessages r.frontendBuffer data = .error .panic ∨
      ∃ msgs buffer, extractMessages r.frontendBuffer data = .ok (msgs, buffer) ∧
        (Panics cfg r.txnTracker.isInTransaction 0 r.stmtCache msgs ∨
          ((∀ msg ∈ lookedAt cfg r.txnTracker.isInTransaction 0 msgs,
              Legible cfg r.txnTracker.isInTransaction msg) ∧
            r.stmtCache.Decodes (passed cfg r.txnTracker.isInTransaction 0 msgs) ∧
            (verdictOf cfg r.txnTracker.isInTransaction 0 msgs = .forward ∧
                writes.backend = false ∨
              (∃ error, verdictOf cfg r.txnTracker.isInTransaction 0 msgs = .reject error) ∧
                writes.client = false)))
  | .backendRead data writes _ =>
    extractError .wrapping data = .error .panic ∨
      extractError .wrapping data = .ok none ∧ isQueryComplete .wrapping data = .error .panic ∨
      Settles data ∧ (extractReadyForQuery .wrapping data = .error .panic ∨
        (∃ status, extractReadyForQuery .wrapping data = .ok status) ∧ writes.client = false)
  | .clientClosed | .backendClosed | .deadline _ => False

/-- The iteration calls `release`: the session ends in order, or a transaction ends. -/
def CallsRelease (cfg : RelayConfig) (r : Relay) : Input → Prop
  | .clientClosed | .backendClosed => True
  | .deadline now => cfg.queryTimeoutEnabled = true ∧ r.queryDeadline.any (· ≤ now) = true
  | .clientRead data _ _ =>
    ∃ msgs buffer, extractMessages r.frontendBuffer data = .ok (.terminate :: msgs, buffer)
  | .backendRead data writes _ =>
    writes.client = true ∧ Settles data ∧
      ∃ status, extractReadyForQuery .wrapping data = .ok status ∧ endsTransaction cfg r status = true

theorem handleMessage_panics_iff {i : Nat} {msg : Message} :
    handleMessage cfg r i msg = .error .panic ↔
      PanicsAt cfg r.txnTracker.isInTransaction r.stmtCache msg := by
  cases msg with
  | parse name sql oids =>
    simp only [handleMessage, PanicsAt, Rust.bind_fails]
    refine or_congr Iff.rfl ⟨?_, ?_⟩
    · rintro ⟨error, hvalid, h⟩
      cases error with
      | some error => cases h
      | none =>
        rcases Rust.bind_fails.1 h with h | ⟨s, -, h⟩
        · refine ⟨hvalid, ?_⟩
          rw [ConnectionState.applyParseState, ConnectionState.applyQuery_eq] at h
          rcases Rust.bind_fails.1 h with h | ⟨s, -, h⟩
          · exact Rust.map_fails.1 h
          · cases h
        · cases h
    · rintro ⟨hvalid, hread⟩
      refine ⟨none, hvalid, Rust.bind_fails.2 (.inl ?_)⟩
      rw [ConnectionState.applyParseState, ConnectionState.applyQuery_eq, hread]
      rfl
  | query sql =>
    simp only [handleMessage, PanicsAt, Rust.bind_fails]
    refine or_congr Iff.rfl ⟨?_, ?_⟩
    · rintro ⟨error, hvalid, h⟩
      cases error with
      | some error => cases h
      | none =>
        rcases Rust.bind_fails.1 h with h | ⟨s, -, h⟩
        · rw [ConnectionState.applyQuery_eq] at h
          exact ⟨hvalid, Rust.map_fails.1 h⟩
        · cases h
    · rintro ⟨hvalid, hread⟩
      refine ⟨none, hvalid, Rust.bind_fails.2 (.inl ?_)⟩
      rw [ConnectionState.applyQuery_eq, hread]
      rfl
  | bind portal statement formatCodes paramsRaw =>
    simp only [handleMessage, PanicsAt, Rust.map_fails]
    cases hfound : r.stmtCache.statements.lookup statement with
    | none =>
      rw [PreparedStatementCache.bindPortal_none _ _ _ hfound]
      simp
    | some stmt =>
      rw [PreparedStatementCache.bindPortal_some _ _ _ hfound, Rust.map_fails]
      simp
  | close kind name =>
    refine iff_of_false ?_ id
    simp only [handleMessage]
    split
    · simp
    · split <;> simp
  | execute | sync | terminate => exact iff_of_false (by simp [handleMessage]) id

theorem handleMessages_panics_iff {i : Nat} {msgs : List Message} :
    handleMessages cfg r i msgs = .error .panic ↔
      Panics cfg r.txnTracker.isInTransaction i r.stmtCache msgs := by
  induction msgs generalizing r i with
  | nil => exact iff_of_false (by simp [handleMessages]) id
  | cons msg msgs ih =>
    rw [handleMessages, Rust.bind_fails, handleMessage_panics_iff, Panics]
    refine or_congr Iff.rfl ⟨?_, ?_⟩
    · rintro ⟨⟨r₁, effects₁, v₁⟩, hmsg, h⟩
      obtain ⟨hv, hlegible⟩ := handleMessage_verdict hmsg
      have htracker := (handleMessage_sameLink hmsg).1.txnTracker
      cases v₁ with
      | forward =>
        rcases Rust.bind_fails.1 h with h | ⟨x, -, h⟩
        · rw [ih, htracker] at h
          exact ⟨hv.symm, hlegible, _, handleMessage_cache hmsg, h⟩
        · cases h
      | reject error => cases h
      | terminate => cases h
    · rintro ⟨hv, hlegible, cache, hcache, h⟩
      obtain ⟨⟨r₁, effects₁, v₁⟩, hmsg⟩ := handleMessage_returns (i := i) hlegible
        (PreparedStatementCache.observe_returns_iff.1 ⟨cache, hcache⟩)
      obtain rfl : v₁ = .forward := (handleMessage_verdict hmsg).1.trans hv
      have htracker := (handleMessage_sameLink hmsg).1.txnTracker
      cases hcache.symm.trans (handleMessage_cache hmsg)
      refine ⟨_, hmsg, Rust.bind_fails.2 (.inl ?_)⟩
      rw [ih, htracker]
      exact h

variable {data : List UInt8}

theorem settles_iff : Settles data ↔ ∃ r' settled, settlePending r data = .ok (r', settled) := by
  constructor
  · rintro ⟨error, herror, hdone⟩
    cases error with
    | some error =>
      simp only [settlePending, herror, Rust.ok_bind]
      split <;> exact ⟨_, _, rfl⟩
    | none =>
      obtain ⟨done, hdone⟩ := hdone rfl
      simp only [settlePending, herror, hdone, Rust.ok_bind]
      cases done with
      | false => exact ⟨_, _, rfl⟩
      | true =>
        simp only [if_true]
        split <;> exact ⟨_, _, rfl⟩
  · rintro ⟨r', settled, h⟩
    obtain ⟨error, herror, h⟩ := Rust.bind_returns.1 h
    refine ⟨error, herror, ?_⟩
    rintro rfl
    obtain ⟨done, hdone, -⟩ := Rust.bind_returns.1 h
    exact ⟨done, hdone⟩

theorem settlePending_panics_iff :
    settlePending r data = .error .panic ↔ extractError .wrapping data = .error .panic ∨
      extractError .wrapping data = .ok none ∧ isQueryComplete .wrapping data = .error .panic := by
  rw [settlePending, Rust.bind_fails]
  refine or_congr Iff.rfl ⟨?_, ?_⟩
  · rintro ⟨error, herror, h⟩
    cases error with
    | some error =>
      simp only at h
      split at h <;> cases h
    | none =>
      rcases Rust.bind_fails.1 h with h | ⟨done, -, h⟩
      · exact ⟨herror, h⟩
      · split at h
        · split at h <;> cases h
        · cases h
  · rintro ⟨herror, hdone⟩
    exact ⟨none, herror, Rust.bind_fails.2 (.inl hdone)⟩

/-- A client read fails at the extractor, at a message, or at the write that its verdict asks for. -/
theorem clientRead_drops_iff {now : Nat} {writes : Writes} :
    LeavesByError cfg r (.clientRead data now writes) ↔
      clientRead cfg r data now writes = .error .panic ∨
        ∃ effects conn, clientRead cfg r data now writes = .ok (effects, .exit (.dropped conn)) := by
  simp only [LeavesByError, clientRead]
  cases extractMessages r.frontendBuffer data with
  | error e => simp
  | ok extracted =>
    obtain ⟨msgs, buffer⟩ := extracted
    have hpanics := @handleMessages_panics_iff cfg { r with frontendBuffer := buffer } 0 msgs
    simp only at hpanics
    simp only [Rust.ok_bind, reduceCtorEq, false_or, Except.ok.injEq, Prod.mk.injEq, and_assoc,
      exists_and_left, exists_eq_left', ← hpanics]
    cases hmsgs : handleMessages cfg { r with frontendBuffer := buffer } 0 msgs with
    | error e =>
      -- the messages would have been handled
      have hfails : ¬ ((∀ msg ∈ lookedAt cfg r.txnTracker.isInTransaction 0 msgs,
          Legible cfg r.txnTracker.isInTransaction msg) ∧
          r.stmtCache.Decodes (passed cfg r.txnTracker.isInTransaction 0 msgs)) := by
        rintro ⟨hlegible, hdecodes⟩
        obtain ⟨x, hx⟩ := handleMessages_returns (r := { r with frontendBuffer := buffer }) hlegible
          hdecodes
        cases hmsgs.symm.trans hx
      rw [← and_assoc, or_iff_left fun h => hfails h.1]
      simp
    | ok x =>
      obtain ⟨r₁, applied, v⟩ := x
      obtain ⟨hv, hlegible⟩ := handleMessages_verdict hmsgs
      have hdecodes := PreparedStatementCache.decodes_iff.2 ⟨_, handleMessages_cache hmsgs⟩
      simp only at hv hlegible hdecodes
      rw [← hv, and_iff_right hlegible, and_iff_right hdecodes]
      cases v with
      | forward => cases hw : writes.backend <;> simp
      | reject error => cases hw : writes.client <;> simp
      | terminate => simp

/-- A backend read fails at a scan, or at the write to the client. -/
theorem backendRead_drops_iff {writes : Writes} {reacquired : Option ManagedConnection} :
    LeavesByError cfg r (.backendRead data writes reacquired) ↔
      backendRead cfg r data writes none = .error .panic ∨
        ∃ effects conn, backendRead cfg r data writes none = .ok (effects, .exit (.dropped conn)) := by
  have hpanics := @settlePending_panics_iff r data
  have hsettles := @settles_iff r data
  simp only [LeavesByError, ← or_assoc, ← hpanics, hsettles, backendRead_eq]
  cases settlePending r data with
  | error e => simp
  | ok p =>
    obtain ⟨r₁, settled⟩ := p
    cases extractReadyForQuery .wrapping data with
    | error e => simp
    | ok status =>
      cases hw : writes.client with
      | false => simp [relayRead, hw]
      | true =>
        cases hends : endsTransaction cfg (disarmDeadline cfg r₁) status <;> simp [relayRead, hw, hends]

theorem leavesByError_iff :
    LeavesByError cfg r input ↔ step cfg r (input.answered none) = .error .panic ∨
      ∃ effects conn, step cfg r (input.answered none) = .ok (effects, .exit (.dropped conn)) := by
  cases input with
  | clientRead data now writes => exact clientRead_drops_iff
  | backendRead data writes reacquired => exact backendRead_drops_iff
  | clientClosed | backendClosed => exact iff_of_false id (by simp [Input.answered, step])
  | deadline now =>
    refine iff_of_false id ?_
    simp only [Input.answered, step]
    split <;> simp [queryTimeout]

/-- A client read releases the connection if Terminate comes first in it. -/
theorem clientRead_releases_iff {now : Nat} {writes : Writes} :
    CallsRelease cfg r (.clientRead data now writes) ↔
      ∃ effects how, clientRead cfg r data now writes = .ok (effects, .exit how) ∧
        ∀ conn, how ≠ .dropped conn := by
  constructor
  · rintro ⟨msgs, buffer, hext⟩
    simp only [clientRead, hext, Rust.ok_bind]
    exact ⟨[], _, rfl, by simp⟩
  · rintro ⟨effects, how, hread, hhow⟩
    obtain ⟨msgs, buffer, r₁, applied, v, hext, hmsgs, hcases⟩ := clientRead_cases hread
    rcases hcases with ⟨-, -, hnext⟩ | ⟨-, hnext⟩ | ⟨-, how', hexit, hdropped | ⟨hv, -⟩⟩
    · cases hnext
    · cases hnext
    · cases hexit
      exact absurd hdropped (hhow _)
    · rw [(handleMessages_verdict hmsgs).1] at hv
      obtain ⟨-, tail, rfl⟩ := verdictOf_terminate hv
      exact ⟨tail, buffer, hext⟩

/-- A backend read that is written to the client releases the connection at the end of a
    transaction. -/
theorem backendRead_releases_iff {writes : Writes} {reacquired : Option ManagedConnection} :
    CallsRelease cfg r (.backendRead data writes reacquired) ↔
      ∃ effects how, backendRead cfg r data writes none = .ok (effects, .exit how) ∧
        ∀ conn, how ≠ .dropped conn := by
  have hsettles := @settles_iff r data
  simp only [CallsRelease, hsettles, backendRead_eq]
  cases hsettle : settlePending r data with
  | error e => simp
  | ok p =>
    obtain ⟨r₁, settled⟩ := p
    obtain ⟨hlink, hstate, -⟩ := settlePending_sameLink hsettle
    have hsame : ∀ status, endsTransaction cfg (disarmDeadline cfg r₁) status =
        endsTransaction cfg r status := by
      have hdisarm : (disarmDeadline cfg r₁).connState = r₁.connState := by
        unfold disarmDeadline
        split <;> rfl
      intro status
      rw [endsTransaction, (hlink.trans (disarmDeadline_sameLink cfg r₁)).txnTracker, hdisarm, hstate]
      rfl
    cases extractReadyForQuery .wrapping data with
    | error e => simp
    | ok status =>
      cases hw : writes.client with
      | false => simp [relayRead, hw]
      | true => cases hends : endsTransaction cfg r status <;> simp [relayRead, hw, hsame, hends]

/-- The session ends through `release` also at the end of a stream and at the query timeout. -/
theorem callsRelease_iff :
    CallsRelease cfg r input ↔
      ∃ effects how, step cfg r (input.answered none) = .ok (effects, .exit how) ∧
        ∀ conn, how ≠ .dropped conn := by
  cases input with
  | clientRead data now writes => exact clientRead_releases_iff
  | backendRead data writes reacquired => exact backendRead_releases_iff
  | clientClosed | backendClosed => exact iff_of_true trivial ⟨[], _, rfl, by simp⟩
  | deadline now =>
    simp only [CallsRelease, Input.answered, step, ← Bool.and_eq_true]
    split
    · next hpassed => exact iff_of_true hpassed ⟨_, _, rfl, by simp⟩
    · next hpassed => simp [hpassed]

end Relay

namespace ManagedSession

variable {cfg : RelayConfig} {ses ses' : ManagedSession} {turn : SessionTurn}
  {given : Option Handover}

/-- No connection is pinned, and a session in its acquire has released the one it had. -/
def Valid (cfg : RelayConfig) : ManagedSession → Prop
  | .starting conn => conn.isPinned = false
  | .relaying r => r.managedConn.isPinned = false
  | .reacquiring r input =>
    ∃ effects, Relay.step cfg r (input.answered none) = .ok (effects, .exit .withoutConnection)
  | .initializing r input conn => conn.isPinned = false ∧
    ∃ effects, Relay.step cfg r (input.answered none) = .ok (effects, .exit .withoutConnection)
  | .ended => True

theorem captured_isPinned (conn : ManagedConnection) (response : List UInt8) :
    (conn.captured response).isPinned = conn.isPinned := by
  unfold ManagedConnection.captured
  split <;> rfl

/-- With a connection again, the session is back in its loop. -/
theorem resume_eq {r : Relay} {input : Input} {effects : List Effect}
    (h : Relay.step cfg r (input.answered none) = .ok (effects, .exit .withoutConnection))
    (conn : ManagedConnection) :
    ∃ r', resume cfg r input conn = some (.relaying r', none) ∧ r'.managedConn = conn := by
  obtain ⟨more, r', hstep, hconn⟩ := Relay.step_answered_some h conn
  exact ⟨r', by simp [resume, hstep, settle], hconn⟩

/-- The ways of an iteration: the session stays in its loop, releases its connection (and ends, or
    acquires one again), or drops it. -/
theorem iterate_cases {r : Relay} {input : Input} (h : iterate cfg r input = some (ses', given)) :
    (∃ r', ses' = .relaying r' ∧ r'.managedConn = r.managedConn ∧ given = none) ∨
      (given = some (.release r.managedConn) ∧ r.CallsRelease cfg input ∧
        (ses' = .ended ∨ ses' = .reacquiring r input ∧ ∃ effects,
          Relay.step cfg r (input.answered none) = .ok (effects, .exit .withoutConnection))) ∨
      (ses' = .ended ∧ given = some (.drop r.managedConn) ∧ r.LeavesByError cfg input) := by
  unfold iterate at h
  cases hstep : Relay.step cfg r (input.answered none) with
  | error e =>
    cases e with
    | panic =>
      simp only [hstep, settle, Option.some.injEq, Prod.mk.injEq] at h
      exact .inr (.inr ⟨h.1.symm, h.2.symm, Relay.leavesByError_iff.2 (.inl hstep)⟩)
    | diverge => simp [hstep, settle] at h
  | ok result =>
    obtain ⟨effects, outcome⟩ := result
    rcases Relay.step_answered_none hstep with rfl | hkeeps
    · simp only [hstep, Option.some.injEq, Prod.mk.injEq] at h
      exact .inr (.inl ⟨h.2.symm, Relay.callsRelease_iff.2 ⟨effects, _, hstep, by simp⟩,
        .inr ⟨h.1.symm, effects, rfl⟩⟩)
    · cases outcome with
      | next r' =>
        simp only [hstep, settle, Option.some.injEq, Prod.mk.injEq] at h
        exact .inl ⟨r', h.1.symm, hkeeps, h.2.symm⟩
      | exit how =>
        rcases hkeeps with rfl | rfl
        · simp only [hstep, settle, handover, Option.some.injEq, Prod.mk.injEq] at h
          exact .inr (.inl ⟨h.2.symm, Relay.callsRelease_iff.2 ⟨effects, _, hstep, by simp⟩,
            .inl h.1.symm⟩)
        · simp only [hstep, settle, handover, Option.some.injEq, Prod.mk.injEq] at h
          exact .inr (.inr ⟨h.1.symm, h.2.symm,
            Relay.leavesByError_iff.2 (.inr ⟨effects, _, hstep⟩)⟩)

/-- The handler is left while it owns a connection, and not through `release`: a startup exchange
    or a write fails, or the task is aborted. -/
def Abandons (cfg : RelayConfig) : ManagedSession → SessionTurn → Prop
  | .starting _, .startup none | .initializing _ _ _, .startup none => True
  | .relaying r, .iterate input => r.LeavesByError cfg input
  | ses, .abort => ses.conn? ≠ none
  | _, _ => False

/-- The session gives its connection to `release`. -/
def Releases (cfg : RelayConfig) : ManagedSession → SessionTurn → Prop
  | .relaying r, .iterate input => r.CallsRelease cfg input
  | _, _ => False

theorem step_valid (hses : ses.Valid cfg) (h : ses.step cfg turn = some (ses', given)) :
    ses'.Valid cfg ∧ ∀ conn, given = some (.release conn) → conn.isPinned = false := by
  cases turn with
  | abort =>
    -- nothing is released
    have habort : ses' = .ended ∧ given = ses.conn?.map .drop := by
      cases ses <;> simp_all [step]
    obtain ⟨rfl, rfl⟩ := habort
    refine ⟨trivial, fun conn hconn => ?_⟩
    cases hown : ses.conn? <;> rw [hown] at hconn <;> cases hconn
  | iterate input =>
    cases ses with
    | relaying r =>
      have hpin : r.managedConn.isPinned = false := hses
      rcases iterate_cases h with ⟨r', rfl, hconn, rfl⟩ | ⟨rfl, -, hses'⟩ | ⟨rfl, rfl, -⟩
      · refine ⟨?_, by simp⟩
        show r'.managedConn.isPinned = false
        rw [hconn]
        exact hpin
      · refine ⟨?_, fun conn hconn => by cases hconn; exact hpin⟩
        rcases hses' with rfl | ⟨rfl, hreleased⟩
        · trivial
        · exact hreleased
      · exact ⟨trivial, by simp⟩
    | starting | reacquiring | initializing | ended => cases h
  | startup response =>
    cases ses with
    | starting conn =>
      cases response with
      | none => cases h; exact ⟨trivial, by simp⟩
      | some response =>
        cases h
        exact ⟨(captured_isPinned conn response).trans hses, by simp⟩
    | initializing r input conn =>
      cases response with
      | none => cases h; exact ⟨trivial, by simp⟩
      | some response =>
        obtain ⟨hpin, effects, hreleased⟩ := hses
        obtain ⟨r', hresume, hconn⟩ := resume_eq hreleased (conn.captured response)
        simp only [step, hresume, Option.some.injEq, Prod.mk.injEq] at h
        obtain ⟨rfl, rfl⟩ := h
        refine ⟨?_, by simp⟩
        show r'.managedConn.isPinned = false
        rw [hconn, captured_isPinned]
        exact hpin
    | relaying | reacquiring | ended => cases h

theorem iterate_drops_iff {r : Relay} {input : Input} :
    (∃ ses' conn, iterate cfg r input = some (ses', some (.drop conn))) ↔ r.LeavesByError cfg input := by
  constructor
  · rintro ⟨ses', conn, h⟩
    rcases iterate_cases h with ⟨-, -, -, hgiven⟩ | ⟨hgiven, -⟩ | ⟨-, -, hleaves⟩
    · cases hgiven
    · cases hgiven
    · exact hleaves
  · intro hleaves
    rcases Relay.leavesByError_iff.1 hleaves with hpanic | ⟨effects, conn, hexit⟩
    · exact ⟨.ended, r.managedConn, by simp [iterate, hpanic, settle]⟩
    · exact ⟨.ended, conn, by simp [iterate, hexit, settle, handover]⟩

theorem iterate_releases_iff {r : Relay} {input : Input} :
    (∃ ses' conn, iterate cfg r input = some (ses', some (.release conn))) ↔ r.CallsRelease cfg input := by
  constructor
  · rintro ⟨ses', conn, h⟩
    rcases iterate_cases h with ⟨-, -, -, hgiven⟩ | ⟨-, hreleases, -⟩ | ⟨-, hgiven, -⟩
    · cases hgiven
    · exact hreleases
    · cases hgiven
  · intro hreleases
    obtain ⟨effects, how, hstep, hhow⟩ := Relay.callsRelease_iff.1 hreleases
    rcases Relay.step_answered_none hstep with hexit | rfl | rfl
    · cases hexit
      exact ⟨.reacquiring r input, r.managedConn, by simp [iterate, hstep]⟩
    · exact ⟨.ended, r.managedConn, by simp [iterate, hstep, settle, handover]⟩
    · exact absurd rfl (hhow _)

/-- The connection is dropped just where the handler is left without `release`. -/
theorem handover_iff (hses : ses.Valid cfg) :
    ((∃ ses' conn, ses.step cfg turn = some (ses', some (.drop conn))) ↔ ses.Abandons cfg turn) ∧
      ((∃ ses' conn, ses.step cfg turn = some (ses', some (.release conn))) ↔
        ses.Releases cfg turn) := by
  cases turn with
  | abort => cases ses <;> simp [step, Abandons, Releases, conn?]
  | iterate input =>
    cases ses with
    | relaying r => exact ⟨iterate_drops_iff, iterate_releases_iff⟩
    | starting | reacquiring | initializing | ended => simp [step, Abandons, Releases]
  | startup response =>
    cases ses with
    | starting conn => cases response <;> simp [step, Abandons, Releases]
    | initializing r input conn =>
      cases response with
      | none => simp [step, Abandons, Releases]
      | some response =>
        obtain ⟨-, effects, hreleased⟩ := hses
        obtain ⟨r', hresume, -⟩ := resume_eq hreleased (conn.captured response)
        simp [step, hresume, Abandons, Releases]
    | relaying | reacquiring | ended => simp [step, Abandons, Releases]

/-- A session whose acquire returns gives nothing away. -/
theorem acquired_cases {r : Relay} {input : Input}
    (hses : (ManagedSession.reacquiring r input).Valid cfg)
    {answer : Except AcquireError ManagedConnection}
    (hanswer : ∀ conn, answer = .ok conn → conn.isPinned = false)
    (h : acquired cfg r input answer = some (ses', given)) : ses'.Valid cfg ∧ given = none := by
  cases answer with
  | error e => cases h; exact ⟨trivial, rfl⟩
  | ok conn =>
    have hpin := hanswer conn rfl
    obtain ⟨effects, hreleased⟩ := hses
    simp only [acquired] at h
    split at h
    · obtain ⟨r', hresume, hconn⟩ := resume_eq hreleased conn
      rw [hresume] at h
      cases h
      refine ⟨?_, rfl⟩
      show r'.managedConn.isPinned = false
      rw [hconn]
      exact hpin
    · cases h
      exact ⟨⟨hpin, effects, hreleased⟩, rfl⟩

end ManagedSession

/-! ## All sessions -/

/-- The managed sessions of a proxy, their pool manager, and the wait queue with its waiters. -/
structure SharedSessions where
  manager : PoolManager
  room : WaitingRoom
  sessions : List ManagedSession
  /-- calls of `notify_one` -/
  notifications : Nat

inductive SharedTurn where
  /-- a client's acquire returns, and its session begins; a client that gets no connection has none -/
  | connect (clientId : Nat) (attempts : List Attempt) (fresh : Option PooledBackend)
  /-- the acquire of a session in mid-session returns -/
  | acquired (i : Nat) (attempts : List Attempt) (fresh : Option PooledBackend) (now : Nat)
  | turn (i : Nat) (turn : SessionTurn) (now : Nat)
  /-- an acquire that found no connection waits -/
  | enqueue
  /-- a waiter leaves: it was notified, it has waited too long, or its task is aborted -/
  | leave (id : Nat)

namespace SharedSessions

def start (maxDepth : Nat) : SharedSessions := ⟨.new, .start maxDepth, [], 0⟩

/-- The manager gets what a session gives away.  `release` notifies before its argument is dropped;
    a waiter that is woken between the two waits for the connection in `deadpool`. -/
def handOver (s : SharedSessions) (now : Nat) : Option Handover → SharedSessions
  | none => s
  | some (.release conn) => { s with
      manager := s.manager.release conn now
      room := (s.room.step .notifyOne).getD s.room
      notifications := s.notifications + 1 }
  | some (.drop conn) => { s with
      manager := { s.manager with pool := s.manager.pool.put conn.connection } }

def setSession (s : SharedSessions) (i : Nat) (ses : ManagedSession) : SharedSessions :=
  { s with sessions := s.sessions.set i ses }

/-- One event; `none` if it cannot happen, or does not return. -/
def step (cfg : RelayConfig) (s : SharedSessions) : SharedTurn → Option SharedSessions
  | .connect clientId attempts fresh =>
    match s.manager.acquire .wrapping clientId (s.manager.hasSticky clientId) attempts fresh with
    | .ok (.ok conn, manager) =>
      some { s with manager, sessions := s.sessions ++ [.starting conn] }
    | .ok (.error _, manager) => some { s with manager }
    | .error _ => none
  | .acquired i attempts fresh now =>
    match s.sessions[i]? with
    | some (.reacquiring r input) =>
      match s.manager.acquire .wrapping r.managedConn.clientId r.connState.isPinned attempts
          fresh with
      | .ok (answer, manager) =>
        (ManagedSession.acquired cfg r input answer).map fun p =>
          ({ s with manager }.setSession i p.1).handOver now p.2
      | .error _ => none
    | _ => none
  | .turn i turn now => do
    let ses ← s.sessions[i]?
    let (ses, given) ← ses.step cfg turn
    return (s.setSession i ses).handOver now given
  | .enqueue => (s.room.step .enqueue).map fun room => { s with room }
  | .leave id => (s.room.step (.drop id)).map fun room => { s with room }

/-- Connections in the pool. -/
def idle (s : SharedSessions) : Nat := s.manager.pool.idle.length

/-! ## What holds in every run -/

variable {cfg : RelayConfig} {s s' : SharedSessions}

structure Valid (cfg : RelayConfig) (s : SharedSessions) : Prop where
  noSticky : s.manager.stickyMap = ∅
  sessions : ∀ ses ∈ s.sessions, ses.Valid cfg
  room : s.room.Kept

theorem valid_start (cfg : RelayConfig) (maxDepth : Nat) : (start maxDepth).Valid cfg :=
  ⟨rfl, by simp [start], .start maxDepth⟩

theorem Valid.setSession (h : s.Valid cfg) (i : Nat) {ses : ManagedSession} (hses : ses.Valid cfg) :
    (s.setSession i ses).Valid cfg := by
  refine ⟨h.noSticky, fun ses' hmem => ?_, h.room⟩
  rcases List.mem_or_eq_of_mem_set hmem with hmem | rfl
  · exact h.sessions ses' hmem
  · exact hses

theorem release_unpinned (manager : PoolManager) {conn : ManagedConnection}
    (hconn : conn.isPinned = false) (now : Nat) :
    manager.release conn now = { manager with pool := manager.pool.put conn.connection } := by
  simp [PoolManager.release, hconn]

theorem Valid.handOver (h : s.Valid cfg) (now : Nat) {given : Option Handover}
    (hgiven : ∀ conn, given = some (.release conn) → conn.isPinned = false) :
    (s.handOver now given).Valid cfg := by
  cases given with
  | none => exact h
  | some given =>
    cases given with
    | release conn =>
      have hmanager := release_unpinned s.manager (hgiven conn rfl) now
      refine ⟨?_, h.sessions, h.room.keep (e := .notifyOne) rfl⟩
      show (s.manager.release conn now).stickyMap = ∅
      rw [hmanager]
      exact h.noSticky
    | drop conn => exact ⟨h.noSticky, h.sessions, h.room⟩

variable {fresh : Option PooledBackend} {attempts : List Attempt}

/-- A `get` takes idle connections and adds none. -/
theorem idle_get_le {got : Option PooledBackend} {p p' : Pool}
    (h : p.get .wrapping fresh attempts = .ok (got, p')) : p'.idle.length ≤ p.idle.length := by
  induction attempts generalizing p with
  | nil => cases h; exact le_rfl
  | cons a attempts ih =>
    have herase : (p.idle.erase a.object).length ≤ p.idle.length := List.length_erase_le
    unfold Pool.get at h
    split at h
    · obtain ⟨ok, -, h⟩ := Rust.bind_returns.1 h
      cases ok with
      | true => cases h; exact herase
      | false => exact (ih h).trans herase
    · exact ih h

/-- With nothing in the sticky map, an acquire only takes from the pool, and what it returns is not
    pinned. -/
theorem acquire_cases {manager manager' : PoolManager} (hsticky : manager.stickyMap = ∅)
    {clientId : Nat} {needsSticky : Bool} {answer : Except AcquireError ManagedConnection}
    (h : manager.acquire .wrapping clientId needsSticky attempts fresh = .ok (answer, manager')) :
    manager'.stickyMap = ∅ ∧ manager'.pool.idle.length ≤ manager.pool.idle.length ∧
      ∀ conn, answer = .ok conn → conn.isPinned = false := by
  have hnone : (if needsSticky then manager.stickyMap.lookup clientId else none) = none := by
    rw [hsticky]
    split <;> rfl
  simp only [PoolManager.acquire, hnone] at h
  split at h
  · cases h
    exact ⟨hsticky, le_rfl, by simp⟩
  · obtain ⟨⟨got, pool⟩, hget, h⟩ := Rust.bind_returns.1 h
    have hle := idle_get_le hget
    cases got with
    | none => cases h; exact ⟨hsticky, hle, by simp⟩
    | some b =>
      cases h
      exact ⟨hsticky, hle, fun conn hconn => by cases hconn; rfl⟩

/-- An acquire in mid-session leaves the session with what it gets. -/
theorem Valid.acquired (h : s.Valid cfg) {i : Nat} {now : Nat}
    (hstep : s.step cfg (.acquired i attempts fresh now) = some s') :
    s'.Valid cfg ∧ s'.idle ≤ s.idle := by
  simp only [step] at hstep
  split at hstep
  · next r input hi =>
    have hses := h.sessions _ (List.mem_of_getElem? hi)
    split at hstep
    · next answer manager hacquire =>
      obtain ⟨hsticky, hle, hanswer⟩ := acquire_cases h.noSticky hacquire
      obtain ⟨⟨ses', given⟩, hacquired, rfl⟩ := Option.map_eq_some_iff.1 hstep
      obtain ⟨hses', rfl⟩ := ManagedSession.acquired_cases hses hanswer hacquired
      have hmanager : Valid cfg { s with manager } := ⟨hsticky, h.sessions, h.room⟩
      exact ⟨hmanager.setSession i hses', hle⟩
    · cases hstep
  · cases hstep

theorem Valid.connect (h : s.Valid cfg) {clientId : Nat}
    (hstep : s.step cfg (.connect clientId attempts fresh) = some s') :
    s'.Valid cfg ∧ s'.idle ≤ s.idle := by
  simp only [step] at hstep
  split at hstep
  · next conn manager hacquire =>
    obtain ⟨hsticky, hle, hanswer⟩ := acquire_cases h.noSticky hacquire
    cases hstep
    refine ⟨⟨hsticky, fun ses hses => ?_, h.room⟩, hle⟩
    rcases List.mem_append.1 hses with hses | hses
    · exact h.sessions ses hses
    · rw [List.mem_singleton.1 hses]
      exact hanswer conn rfl
  · next manager hacquire =>
    obtain ⟨hsticky, hle, -⟩ := acquire_cases h.noSticky hacquire
    cases hstep
    exact ⟨⟨hsticky, h.sessions, h.room⟩, hle⟩
  · cases hstep

/-- The waiters' own steps do not touch the pool. -/
theorem Valid.room_step (h : s.Valid cfg) {e : WaiterEvent}
    (hstep : (s.room.step e).map (fun room => { s with room }) = some s') :
    s'.Valid cfg ∧ s'.idle ≤ s.idle := by
  obtain ⟨room, hroom, rfl⟩ := Option.map_eq_some_iff.1 hstep
  exact ⟨⟨h.noSticky, h.sessions, h.room.keep hroom⟩, le_rfl⟩

theorem turn_eq_some {i : Nat} {turn : SessionTurn} {now : Nat} :
    s.step cfg (.turn i turn now) = some s' ↔
      ∃ ses ses' given, s.sessions[i]? = some ses ∧ ses.step cfg turn = some (ses', given) ∧
        s' = (s.setSession i ses').handOver now given := by
  simp only [step, Option.bind_eq_bind, Option.bind_eq_some_iff, Option.pure_def, Option.some.injEq,
    Prod.exists]
  constructor
  · rintro ⟨ses, hi, ses', given, hses, rfl⟩
    exact ⟨ses, ses', given, hi, hses, rfl⟩
  · rintro ⟨ses, ses', given, hi, hses, rfl⟩
    exact ⟨ses, hi, ses', given, hses, rfl⟩

theorem Valid.keep (s : SharedSessions) (e : SharedTurn) (s' : SharedSessions) (h : s.Valid cfg)
    (hstep : s.step cfg e = some s') : s'.Valid cfg := by
  cases e with
  | connect clientId attempts fresh => exact (h.connect hstep).1
  | acquired i attempts fresh now => exact (h.acquired hstep).1
  | turn i turn now =>
    obtain ⟨ses, ses', given, hi, hses, rfl⟩ := turn_eq_some.1 hstep
    obtain ⟨hvalid, hgiven⟩ := ManagedSession.step_valid (h.sessions _ (List.mem_of_getElem? hi)) hses
    exact (h.setSession i hvalid).handOver now hgiven
  | enqueue => exact (h.room_step hstep).1
  | leave id => exact (h.room_step hstep).1

/-! ## Waking a waiter -/

/-- If a connection comes back to the pool, `notify_one` is called once, and one of the waiters that
    are alive and not yet notified is woken. -/
def Wakes (cfg : RelayConfig) (s : SharedSessions) (e : SharedTurn) : Prop :=
  ∀ s', s.step cfg e = some s' → s.idle < s'.idle →
    s'.notifications = s.notifications + 1 ∧
      (s.room.unnotified ≠ [] → ∃ id ∈ s.room.unnotified, id ∈ s'.room.notified)

/-- No session abandons its connection, and none releases it while the sender at the front of the
    queue belongs to a waiter that is gone and another one waits. -/
def Careful (cfg : RelayConfig) (s : SharedSessions) : SharedTurn → Prop
  | .turn i turn _ => ∀ ses, s.sessions[i]? = some ses →
      ¬ ses.Abandons cfg turn ∧ (ses.Releases cfg turn → s.room.Fresh .notifyOne)
  | .connect _ _ _ | .acquired _ _ _ _ | .enqueue | .leave _ => True

theorem wakes_of_idle_le {e : SharedTurn} (h : ∀ s', s.step cfg e = some s' → s'.idle ≤ s.idle) :
    s.Wakes cfg e :=
  fun s' hstep hlt => absurd hlt (by have := h s' hstep; omega)

end SharedSessions

/-- A notification reaches a waiter just if the one at the front is alive or none waits. -/
theorem WaitingRoom.Kept.woken_iff {r : WaitingRoom} (h : r.Kept) :
    (r.unnotified ≠ [] → ∃ id ∈ r.unnotified, id ∈ r.wakes.toList ++ r.notified) ↔
      r.Fresh .notifyOne := by
  have hnot : ∀ id ∈ r.unnotified, id ∉ r.notified := by
    intro id hid
    simpa using (List.mem_filter.1 hid).2
  simp only [Fresh, h.unnotified_eq] at hnot ⊢
  cases hqueue : r.queue.waiters with
  | nil => simp [awaited, hqueue]
  | cons tx rest =>
    by_cases hlive : tx ∈ r.live
    · have hmem : tx ∈ r.awaited := by simp [awaited, hqueue, hlive]
      have hwakes : r.wakes = some tx := by simp [wakes, WaitQueue.notifyOne, hqueue, hlive]
      exact ⟨fun _ => .inl ⟨tx, by simp, hlive⟩, fun _ _ => ⟨tx, hmem, by simp [hwakes]⟩⟩
    · -- the notification is lost, and who was not notified before is not now
      have hwakes : r.wakes = none := by simp [wakes, WaitQueue.notifyOne, hqueue, hlive]
      constructor
      · intro hwoken
        refine .inr (not_not.1 fun hne => ?_)
        obtain ⟨id, hid, hmem⟩ := hwoken hne
        rw [hwakes, Option.toList_none, List.nil_append] at hmem
        exact hnot id hid hmem
      · rintro (⟨tx', htx', hlive'⟩ | hnone) hne
        · rw [List.head?_cons, Option.mem_def, Option.some.injEq] at htx'
          exact absurd (htx' ▸ hlive') hlive
        · exact absurd hnone hne

namespace SharedSessions

variable {cfg : RelayConfig} {s : SharedSessions}

theorem Valid.wakes_turn (h : s.Valid cfg) (i : Nat) (turn : SessionTurn) (now : Nat) :
    s.Wakes cfg (.turn i turn now) ↔ s.Careful cfg (.turn i turn now) := by
  cases hi : s.sessions[i]? with
  | none => simp [Wakes, Careful, turn_eq_some, hi]
  | some ses =>
    have hses := h.sessions _ (List.mem_of_getElem? hi)
    obtain ⟨hdrop, hrelease⟩ := @ManagedSession.handover_iff cfg ses turn hses
    have hwakes : s.Wakes cfg (.turn i turn now) ↔ ∀ ses' given,
        ses.step cfg turn = some (ses', given) →
          s.idle < ((s.setSession i ses').handOver now given).idle →
          ((s.setSession i ses').handOver now given).notifications = s.notifications + 1 ∧
            (s.room.unnotified ≠ [] → ∃ id ∈ s.room.unnotified,
              id ∈ ((s.setSession i ses').handOver now given).room.notified) := by
      simp only [Wakes, turn_eq_some, hi, Option.some.injEq]
      constructor
      · intro hw ses' given hstep
        exact hw _ ⟨ses, ses', given, rfl, hstep, rfl⟩
      · rintro hw _ ⟨_, ses', given, rfl, hstep, rfl⟩
        exact hw ses' given hstep
    have hcareful : s.Careful cfg (.turn i turn now) ↔
        ¬ ses.Abandons cfg turn ∧ (ses.Releases cfg turn → s.room.Fresh .notifyOne) := by
      simp [Careful, hi]
    rw [hwakes, hcareful, ← hdrop, ← hrelease]
    cases hstep : ses.step cfg turn with
    | none => simp
    | some result =>
      obtain ⟨ses', given⟩ := result
      cases given with
      | none =>
        simp [SharedSessions.handOver, idle, SharedSessions.setSession]
      | some given =>
        cases given with
        | drop conn =>
          -- one more in the pool, and no call of `notify_one`
          simp [SharedSessions.handOver, idle, SharedSessions.setSession, Pool.put]
        | release conn =>
          have hpin := (ManagedSession.step_valid hses hstep).2 conn rfl
          have hmanager := release_unpinned s.manager hpin now
          rw [← h.room.woken_iff]
          simp [SharedSessions.handOver, idle, SharedSessions.setSession, hmanager,
            Pool.put, WaitingRoom.step]

theorem Valid.wakes_iff (s : SharedSessions) (e : SharedTurn) (h : s.Valid cfg) :
    s.Wakes cfg e ↔ s.Careful cfg e := by
  cases e with
  | connect clientId attempts fresh =>
    exact iff_of_true (wakes_of_idle_le fun _ hstep => (h.connect hstep).2) trivial
  | acquired i attempts fresh now =>
    exact iff_of_true (wakes_of_idle_le fun _ hstep => (h.acquired hstep).2) trivial
  | turn i turn now => exact h.wakes_turn i turn now
  | enqueue => exact iff_of_true (wakes_of_idle_le fun _ hstep => (h.room_step hstep).2) trivial
  | leave id => exact iff_of_true (wakes_of_idle_le fun _ hstep => (h.room_step hstep).2) trivial

end SharedSessions

/-- The runs in which each connection that comes back to the pool comes with one call of
    `notify_one` and wakes a waiter, if one is there, are those in which no session is left by an
    error, a panic or an abort while it owns a connection, and no release finds a dropped waiter's
    sender before that of a live one. -/
theorem returned_connection_wakes_iff (cfg : RelayConfig) (maxDepth : Nat)
    (events : List SharedTurn) :
    Trace.Admits (SharedSessions.step cfg) (SharedSessions.Wakes cfg) (.start maxDepth) events ↔
      Trace.Admits (SharedSessions.step cfg) (SharedSessions.Careful cfg) (.start maxDepth)
        events :=
  Trace.admits_congr SharedSessions.Valid.keep SharedSessions.Valid.wakes_iff
    (SharedSessions.valid_start cfg maxDepth)

/-- A client is in its loop on the only connection, and another one waits. -/
def oneWaits : List SharedTurn :=
  [.connect 7 [] (some ⟨0, none⟩), .turn 0 (.startup (some [])) 0, .enqueue]

/-- The session is killed, or the write of an answer to its client fails: the connection is back in
    the pool, and the waiter still waits. -/
theorem abandoned_connection_strands_waiter :
    let view := fun s : SharedSessions => (s.idle, s.notifications, s.room.unnotified)
    ((Trace.exec (SharedSessions.step ⟨.transaction, 0, 1000⟩) (.start 10) oneWaits).map view =
        some (0, 0, [0])) ∧
      ((Trace.exec (SharedSessions.step ⟨.transaction, 0, 1000⟩) (.start 10)
        (oneWaits ++ [.turn 0 .abort 1])).map view = some (1, 0, [0])) ∧
      ((Trace.exec (SharedSessions.step ⟨.transaction, 0, 1000⟩) (.start 10)
        (oneWaits ++ [.turn 0 (.iterate (.backendRead [90, 0, 0, 0, 5, 73] ⟨false, true⟩ none))
          1])).map view = some (1, 0, [0])) := by
  decide +kernel

end ScryProxy
