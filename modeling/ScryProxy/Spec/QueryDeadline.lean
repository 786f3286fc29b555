import ScryProxy.Spec.SyncPoints

/-!
# The query deadline and the requests it stands for

The relay on a clock, with the times at which the requests that have no ReadyForQuery yet
were forwarded.  The deadline is armed by a client read that leaves an entry for the
unnamed portal in the statement cache, and disarmed by a backend read after which there is
none.  The entry comes from Parse, Query and Bind, and goes with the first CommandComplete,
ReadyForQuery or ErrorResponse that the scans of a read find; whether a request is answered
is not looked at.

`cancelsOnlyOverdue_iff` says in which runs the timeout arm completes only when a request is
overdue, and `cancelsOverdue_iff` in which runs it completes whenever one is.  A prepared
statement without a Sync is cancelled with nothing owed (`idle_session_cancelled`), and the
second statement of a Query is never cancelled (`second_statement_unbounded`).
-/

namespace ScryProxy

open Frame (encodeAll)

/-- The query timeout in milliseconds. -/
def RelayConfig.timeoutMillis (cfg : RelayConfig) : Nat := cfg.queryTimeoutSecs * 1000

/-- Whether there is an entry for the unnamed portal after a message, given whether there was one
    before. -/
def Message.unnamedEntry (entry : Bool) : Message → Bool
  | .parse _ _ _ | .query _ => true
  | .bind portal _ _ _ => entry || decide (portal = [])
  | .close kind name => entry && !decide (kind = 'P' ∧ name = [])
  | .execute _ | .sync | .terminate => entry

namespace Relay

/-- The timeout arm completes at this time. -/
def TimesOut (cfg : RelayConfig) (r : Relay) (now : Nat) : Prop :=
  Relay.step cfg r (.deadline now) = .ok (queryTimeout r)

/-- Whether a client read is forwarded. -/
def forwards (cfg : RelayConfig) (r : Relay) (data : List UInt8) : Bool :=
  match extractMessages r.frontendBuffer data with
  | .ok (messages, _) => decide (verdictOf cfg r.txnTracker.isInTransaction 0 messages = .forward)
  | .error _ => false

/-- Whether there is an entry for the unnamed portal after a client read.  The messages in front of
    a rejected one are not forwarded, and their entries stay. -/
def entryAfter (cfg : RelayConfig) (r : Relay) (data : List UInt8) : Bool :=
  match extractMessages r.frontendBuffer data with
  | .ok (messages, _) =>
    (messages.takeWhile fun m => (rejection cfg r.txnTracker.isInTransaction m).isNone).foldl
      Message.unnamedEntry (r.stmtCache.hasPending [])
  | .error _ => false

end Relay

/-- The relay, the time, and the requests that the client has no answer to. -/
structure Clocked where
  relay : Relay
  /-- time of the last read -/
  now : Nat
  /-- bytes that the backend has of a message that is not complete -/
  inbox : List UInt8
  /-- bytes of a backend message of which the rest was not read yet -/
  outbox : List UInt8
  /-- when each request that the backend has not answered was forwarded, oldest first -/
  due : List Nat
  /-- the same for backends that were given back before they answered -/
  stranded : List Nat

/-- A read of the relay. -/
inductive Arrival where
  | client (data : List UInt8)
  | backend (data : List UInt8) (reacquired : Option ManagedConnection)

def Arrival.input (now : Nat) : Arrival → Input
  | .client data => .clientRead data now {}
  | .backend data reacquired => .backendRead data {} reacquired

namespace Clocked

def start (cfg : RelayConfig) (conn : ManagedConnection) : Clocked :=
  ⟨.start cfg conn, 0, [], [], [], []⟩

/-- The forwarding times of the requests without an answer. -/
def unanswered (x : Clocked) : List Nat := x.stranded ++ x.due

/-- The requests that a forwarded read completes are unanswered from then on. -/
def forward (x : Clocked) (now : Nat) (data : List UInt8) (sent : Bool) : Clocked :=
  if sent then
    let (frames, inbox) := Frame.split (x.inbox ++ data)
    { x with now, inbox, due := x.due ++ List.replicate (frames.countP isRequest) now }
  else { x with now }

/-- A backend read answers requests in order; the backend sends no other ReadyForQuery. -/
def deliver (x : Clocked) (now : Nat) (data : List UInt8) (released : Bool) : Option Clocked :=
  let (frames, outbox) := Frame.split (x.outbox ++ data)
  let answered := frames.countP isReady
  if x.due.length < answered then none
  else if released then
    some { x with
      now, inbox := [], outbox := [], due := []
      stranded := x.stranded ++ x.due.drop answered }
  else some { x with now, outbox, due := x.due.drop answered }

/-- One read, after which the relay is still in its loop. -/
def step (cfg : RelayConfig) (x : Clocked) (event : Nat × Arrival) : Option Clocked :=
  if event.1 < x.now then none
  else
    match Relay.step cfg x.relay (event.2.input event.1) with
    | .ok (effects, .next relay) =>
      match event.2 with
      | .client data => some { x.forward event.1 data (.toBackend data ∈ effects) with relay }
      | .backend data _ =>
        (x.deliver event.1 data (effects.any Effect.isRelease)).map fun x => { x with relay }
    | _ => none

/-- How many requests a client read completes at the backend. -/
def requests (cfg : RelayConfig) (x : Clocked) (data : List UInt8) : Nat :=
  if x.relay.forwards cfg data then (Frame.split (x.inbox ++ data)).1.countP isRequest else 0

/-- What is unanswered after a backend read. -/
def later (x : Clocked) (data : List UInt8) : List Nat :=
  x.stranded ++ x.due.drop ((Frame.split (x.outbox ++ data)).1.countP isReady)

/-- The timeout arm completes only while some request was forwarded at least the timeout ago and is
    not answered. -/
def CancelsOnlyOverdue (cfg : RelayConfig) (x : Clocked) : Prop :=
  ∀ now, x.now ≤ now → x.relay.TimesOut cfg now → ∃ t ∈ x.unanswered, t + cfg.timeoutMillis ≤ now

/-- The timeout arm completes when a request is unanswered for longer than the timeout. -/
def CancelsOverdue (cfg : RelayConfig) (x : Clocked) : Prop :=
  ∀ now, x.now ≤ now → (∃ t ∈ x.unanswered, t + cfg.timeoutMillis < now) → x.relay.TimesOut cfg now

/-- A client read that arms the deadline leaves a request unanswered.  A backend read that does not
    disarm it leaves one that is overdue when the deadline has passed. -/
def Accounted (cfg : RelayConfig) (x : Clocked) : Nat × Arrival → Prop
  | (_, .client data) => x.relay.queryDeadline = none → x.relay.entryAfter cfg data = true →
      x.unanswered ≠ [] ∨ 0 < x.requests cfg data
  | (now, .backend data _) => ∀ d ∈ x.relay.queryDeadline, x.relay.stmtCache.hasPending [] = true →
      showsCompletion data = false → ∃ t ∈ x.later data, t + cfg.timeoutMillis ≤ max d now

/-- A client read that arms the deadline leaves a request unanswered, and a backend read starts at a
    message boundary. -/
def Framed (cfg : RelayConfig) (x : Clocked) : Nat × Arrival → Prop
  | (now, .client data) => x.Accounted cfg (now, .client data)
  | (_, .backend data _) => x.outbox = [] ∧ ∃ part todo rest, data = encodeAll part ++ rest ∧
      Frame.Partial rest todo ∧ ∀ f ∈ part ++ todo, f.len < 2 ^ 31

/-- A client read with the first request that is unanswered finds a deadline or leaves an entry for
    the unnamed portal.  A backend read that leaves a request unanswered finds such an entry, and
    the scans do not take it for the end of a query. -/
def Guarded (cfg : RelayConfig) (x : Clocked) : Nat × Arrival → Prop
  | (_, .client data) => x.unanswered = [] → 0 < x.requests cfg data →
      x.relay.queryDeadline ≠ none ∨ x.relay.entryAfter cfg data = true
  | (_, .backend data _) => x.later data ≠ [] →
      x.relay.stmtCache.hasPending [] = true ∧ showsCompletion data = false

instance (cfg : RelayConfig) (x : Clocked) : ∀ event, Decidable (x.Accounted cfg event)
  | (_, .client _) => inferInstanceAs (Decidable (_ → _ → _ ∨ _))
  | (_, .backend _ _) => inferInstanceAs (Decidable (∀ _ ∈ _, _ → _ → ∃ _ ∈ _, _))

instance (cfg : RelayConfig) (x : Clocked) : ∀ event, Decidable (x.Guarded cfg event)
  | (_, .client _) => inferInstanceAs (Decidable (_ → _ → _ ∨ _))
  | (_, .backend _ _) => inferInstanceAs (Decidable (_ → _ ∧ _))

end Clocked

/-! ## Entries of the statement cache -/

namespace PreparedStatementCache

variable (c : PreparedStatementCache)

theorem hasPending_setPending (portal name : Str) (p : PendingExecution) :
    (c.setPending portal p).hasPending name = (c.hasPending name || decide (portal = name)) := by
  simp [hasPending, setPending, Bool.or_comm, eq_comm]

theorem hasPending_clearPending (portal name : Str) :
    (c.clearPending portal).hasPending name = (c.hasPending name && !decide (portal = name)) := by
  simp [hasPending, clearPending, Bool.and_comm, eq_comm]

theorem hasPending_removeStatement (name portal : Str) :
    (c.removeStatement name).hasPending portal = c.hasPending portal := rfl

theorem hasPending_getStatement (name portal : Str) :
    (c.getStatement name).2.hasPending portal = c.hasPending portal := by
  unfold getStatement
  split <;> rfl

/-- An entry that is taken is gone. -/
theorem hasPending_takePending_self (portal : Str) :
    (c.takePending portal).2.hasPending portal = false := by
  simp [hasPending, takePending]

theorem hasPending_eq_false (portal : Str) (h : (c.takePending portal).1 = none) :
    c.hasPending portal = false := by
  simpa [hasPending] using AList.lookup_eq_none.1 h

end PreparedStatementCache

/-! ## The deadline after a read -/

namespace Relay

variable {cfg : RelayConfig} {r r' : Relay} {i now : Nat} {msg : Message} {msgs : List Message}
  {data : List UInt8} {effects : List Effect} {v : Verdict}

theorem timesOut_iff (henabled : cfg.queryTimeoutEnabled = true) :
    r.TimesOut cfg now ↔ ∃ d, r.queryDeadline = some d ∧ d ≤ now := by
  simp only [TimesOut, Relay.step, henabled, Bool.true_and]
  cases hd : r.queryDeadline with
  | none => simp [queryTimeout]
  | some d =>
    by_cases hle : d ≤ now
    · simp [hle]
    · simp [hle, queryTimeout]

theorem armDeadline_queryDeadline (henabled : cfg.queryTimeoutEnabled = true) :
    (armDeadline cfg r now).queryDeadline =
      if r.queryDeadline = none ∧ r.stmtCache.hasPending [] = true then
        some (now + cfg.timeoutMillis)
      else r.queryDeadline := by
  unfold armDeadline
  simp only [henabled, Bool.true_and, Bool.and_eq_true, Option.isNone_iff_eq_none]
  split <;> rfl

/-- The deadline is left to the end of the read, and a message that is let through changes the
    entry of the unnamed portal as `unnamedEntry` says. -/
theorem handleMessage_entry (h : handleMessage cfg r i msg = .ok (r', effects, v)) :
    r'.queryDeadline = r.queryDeadline ∧
      (v = .forward → r'.stmtCache.hasPending [] =
        msg.unnamedEntry (r.stmtCache.hasPending [])) ∧
      ((∃ error, v = .reject error) → r' = r) := by
  cases msg with
  | parse | query =>
    obtain ⟨error, -, h⟩ := Rust.bind_returns.1 h
    cases error with
    | some error => cases h; exact ⟨rfl, nofun, fun _ => rfl⟩
    | none =>
      obtain ⟨s, -, h⟩ := Rust.bind_returns.1 h
      cases h
      refine ⟨rfl, fun _ => ?_, by simp⟩
      simp [PreparedStatementCache.hasPending_setPending, Message.unnamedEntry]
  | bind portal statement codes params =>
    obtain ⟨cache, hcache, h⟩ := Rust.map_returns.1 h
    obtain ⟨p, rfl⟩ := PreparedStatementCache.exists_of_bindPortal hcache
    cases h
    refine ⟨rfl, fun _ => ?_, by simp⟩
    rw [PreparedStatementCache.hasPending_setPending]
    exact congrArg (· || decide (portal = []))
      (r.stmtCache.hasPending_getStatement statement [])
  | close kind name =>
    simp only [handleMessage] at h
    split at h
    · next hkind =>
      cases h
      refine ⟨rfl, fun _ => ?_, by simp⟩
      simp [PreparedStatementCache.hasPending_removeStatement, Message.unnamedEntry, hkind]
    · split at h
      · next hkind =>
        cases h
        refine ⟨rfl, fun _ => ?_, by simp⟩
        simp [PreparedStatementCache.hasPending_clearPending, Message.unnamedEntry, hkind]
      · next hkind =>
        cases h
        exact ⟨rfl, fun _ => by simp [Message.unnamedEntry, hkind], by simp⟩
  | execute | sync => cases h; exact ⟨rfl, fun _ => rfl, fun _ => rfl⟩
  | terminate => cases h; exact ⟨rfl, fun _ => rfl, fun _ => rfl⟩

/-- Unless the client leaves, the messages up to a rejected one decide about the entry. -/
theorem handleMessages_entry (h : handleMessages cfg r i msgs = .ok (r', effects, v))
    (hstays : v ≠ .terminate) :
    r'.queryDeadline = r.queryDeadline ∧
      r'.stmtCache.hasPending [] =
        (msgs.takeWhile fun m => (rejection cfg r.txnTracker.isInTransaction m).isNone).foldl
          Message.unnamedEntry (r.stmtCache.hasPending []) := by
  induction msgs generalizing r r' i effects v with
  | nil => cases h; exact ⟨rfl, rfl⟩
  | cons msg msgs ih =>
    obtain ⟨⟨r₁, effects₁, v₁⟩, hmsg, h⟩ := Rust.bind_returns.1 h
    obtain ⟨hdeadline, hentry, hsame⟩ := handleMessage_entry hmsg
    have hverdict := (handleMessage_verdict hmsg).1
    have htracker := (handleMessage_sameLink hmsg).1.txnTracker
    rw [verdictOn] at hverdict
    cases v₁ with
    | forward =>
      obtain ⟨⟨r₂, effects₂, v₂⟩, hrest, h⟩ := Rust.bind_returns.1 h
      cases h
      obtain ⟨hdeadline₂, hentry₂⟩ := ih hrest hstays
      have hnone : rejection cfg r.txnTracker.isInTransaction msg = none := by
        cases hrej : rejection cfg r.txnTracker.isInTransaction msg with
        | none => rfl
        | some error => rw [hrej] at hverdict; cases hverdict
      refine ⟨hdeadline₂.trans hdeadline, ?_⟩
      rw [hentry₂, htracker, hentry rfl, List.takeWhile_cons_of_pos (by rw [hnone]; rfl),
        List.foldl_cons]
    | reject error =>
      cases h
      have hsome : rejection cfg r.txnTracker.isInTransaction msg = some error := by
        cases hrej : rejection cfg r.txnTracker.isInTransaction msg with
        | none => rw [hrej] at hverdict; simp only at hverdict; split at hverdict <;> cases hverdict
        | some error' => rw [hrej] at hverdict; cases hverdict; rfl
      refine ⟨hdeadline, ?_⟩
      rw [hsame ⟨error, rfl⟩, List.takeWhile_cons_of_neg (by rw [hsome]; simp), List.foldl_nil]
    | terminate => cases h; exact absurd rfl hstays

/-- After a client read: when it was forwarded, and the deadline. -/
theorem clientRead_deadline (henabled : cfg.queryTimeoutEnabled = true) {writes : Writes}
    (h : clientRead cfg r data now writes = .ok (effects, .next r')) :
    (.toBackend data ∈ effects ↔ r.forwards cfg data = true) ∧
      r'.queryDeadline =
        if r.queryDeadline = none ∧ r.entryAfter cfg data = true then
          some (now + cfg.timeoutMillis)
        else r.queryDeadline := by
  obtain ⟨messages, buffer, r₁, applied, verdict, hext, hmsgs, hcases⟩ := clientRead_cases h
  have happlied := (handleMessages_sameLink hmsgs).2
  have hverdict := (handleMessages_verdict hmsgs).1
  have hquiet : Effect.toBackend data ∉ applied := by
    intro hmem
    obtain ⟨sql, hsql⟩ := happlied _ hmem
    cases hsql
  have hforwards : r.forwards cfg data = decide (verdict = .forward) := by
    simp only [forwards, hext, hverdict]
  have hafter : verdict ≠ .terminate → (armDeadline cfg r₁ now).queryDeadline =
      if r.queryDeadline = none ∧ r.entryAfter cfg data = true then
        some (now + cfg.timeoutMillis)
      else r.queryDeadline := by
    intro hstays
    obtain ⟨hdeadline, hentry⟩ := handleMessages_entry hmsgs hstays
    simp only [armDeadline_queryDeadline henabled, hdeadline, hentry, entryAfter, hext]
  rw [hforwards, decide_eq_true_iff]
  rcases hcases with ⟨rfl, rfl, hout⟩ | ⟨⟨error, rfl, rfl⟩, hout⟩ | ⟨-, how, hout, -⟩
  · cases hout
    exact ⟨by simp, hafter (by simp)⟩
  · cases hout
    exact ⟨by simp [hquiet], hafter (by simp)⟩
  · cases hout

theorem disarmDeadline_queryDeadline (henabled : cfg.queryTimeoutEnabled = true) :
    (disarmDeadline cfg r).queryDeadline =
      if r.stmtCache.hasPending [] = true then r.queryDeadline else none := by
  unfold disarmDeadline
  cases r.stmtCache.hasPending [] <;> simp [henabled]

/-- The entry of the unnamed portal goes with the end of a query. -/
theorem settlePending_entry (h : settlePending r data = .ok (r', effects)) :
    r'.queryDeadline = r.queryDeadline ∧
      r'.stmtCache.hasPending [] = (r.stmtCache.hasPending [] && !showsCompletion data) := by
  rcases settlePending_cases h with ⟨hshown, pending, -, rfl, -⟩ | ⟨rfl, -, hnone⟩
  · refine ⟨rfl, ?_⟩
    rw [hshown, Bool.not_true, Bool.and_false]
    exact r.stmtCache.hasPending_takePending_self []
  · refine ⟨rfl, ?_⟩
    cases hshown : showsCompletion data with
    | false => simp
    | true =>
      rw [Bool.not_true, Bool.and_false]
      exact r'.stmtCache.hasPending_eq_false [] (hnone hshown)

/-- The deadline after a backend read. -/
theorem backendRead_deadline (henabled : cfg.queryTimeoutEnabled = true) {writes : Writes}
    {reacquired : Option ManagedConnection}
    (h : backendRead cfg r data writes reacquired = .ok (effects, .next r')) :
    r'.queryDeadline =
      if r.stmtCache.hasPending [] = true ∧ showsCompletion data = false then r.queryDeadline
      else none := by
  rw [backendRead_eq] at h
  obtain ⟨⟨r₀, settled⟩, hsettle, h⟩ := Rust.bind_returns.1 h
  obtain ⟨status, -, h⟩ := Rust.bind_returns.1 h
  obtain ⟨hdeadline, hentry⟩ := settlePending_entry hsettle
  have hdisarmed : (disarmDeadline cfg r₀).queryDeadline =
      if r.stmtCache.hasPending [] = true ∧ showsCompletion data = false then r.queryDeadline
      else none := by
    rw [disarmDeadline_queryDeadline henabled, hentry, hdeadline]
    simp only [Bool.and_eq_true, Bool.not_eq_true']
  rw [← hdisarmed]
  have h := Except.ok.inj h
  unfold relayRead at h
  split at h
  · cases h
  · split at h
    · cases reacquired with
      | none => cases h
      | some conn => cases h; rfl
    · cases h; rfl

end Relay

/-! ## Runs -/

namespace Clocked

variable {cfg : RelayConfig} {x x' : Clocked} {now : Nat} {data : List UInt8}

variable {event : Nat × Arrival}

theorem time_le_of_step (h : x.step cfg event = some x') : x.now ≤ event.1 := by
  unfold step at h
  split at h
  · cases h
  · next htime => exact Nat.le_of_not_lt htime

/-- What a client read does to the requests and the deadline. -/
theorem step_client (henabled : cfg.queryTimeoutEnabled = true)
    (h : x.step cfg (now, .client data) = some x') :
    x.now ≤ now ∧ x'.now = now ∧
      x'.unanswered = x.unanswered ++ List.replicate (x.requests cfg data) now ∧
      x'.relay.queryDeadline =
        if x.relay.queryDeadline = none ∧ x.relay.entryAfter cfg data = true then
          some (now + cfg.timeoutMillis)
        else x.relay.queryDeadline := by
  have htime := time_le_of_step h
  simp only [step] at h
  split at h
  · cases h
  split at h
  · next effects relay hstep =>
    obtain ⟨hsent, hdeadline⟩ := Relay.clientRead_deadline henabled hstep
    cases h
    refine ⟨htime, ?_, ?_, hdeadline⟩
    · unfold forward
      split <;> rfl
    · unfold forward requests unanswered
      by_cases hmem : .toBackend data ∈ effects
      · simp [hmem, hsent.1 hmem]
      · simp [hmem, mt hsent.2 hmem]
  · cases h

variable {reacquired : Option ManagedConnection}

/-- What a backend read does to the requests and the deadline. -/
theorem step_backend (henabled : cfg.queryTimeoutEnabled = true)
    (h : x.step cfg (now, .backend data reacquired) = some x') :
    x.now ≤ now ∧ x'.now = now ∧ x'.unanswered = x.later data ∧
      x'.relay.queryDeadline =
        if x.relay.stmtCache.hasPending [] = true ∧ showsCompletion data = false then
          x.relay.queryDeadline
        else none := by
  have htime := time_le_of_step h
  simp only [step] at h
  split at h
  · cases h
  split at h
  · next effects relay hstep =>
    have hdeadline := Relay.backendRead_deadline henabled hstep
    obtain ⟨y, hdeliver, rfl⟩ := Option.map_eq_some_iff.1 h
    have hy : y.now = now ∧ y.unanswered = x.later data := by
      simp only [deliver] at hdeliver
      split at hdeliver
      · cases hdeliver
      · split at hdeliver <;> cases hdeliver
        · exact ⟨rfl, List.append_nil _⟩
        · exact ⟨rfl, rfl⟩
    exact ⟨htime, hy.1, hy.2, hdeadline⟩
  · cases h

theorem later_subset (x : Clocked) (data : List UInt8) : x.later data ⊆ x.unanswered := by
  intro t ht
  rcases List.mem_append.1 ht with ht | ht
  · exact List.mem_append_left _ ht
  · exact List.mem_append_right _ (List.mem_of_mem_drop ht)

/-- No request was forwarded and no deadline armed after the last read. -/
structure Inv (cfg : RelayConfig) (x : Clocked) : Prop where
  forwarded : ∀ t ∈ x.unanswered, t ≤ x.now
  armed : ∀ d, x.relay.queryDeadline = some d → d ≤ x.now + cfg.timeoutMillis

theorem inv_start (cfg : RelayConfig) (conn : ManagedConnection) : (start cfg conn).Inv cfg :=
  ⟨by simp [start, unanswered], by simp [start, Relay.start]⟩

theorem inv_step (henabled : cfg.queryTimeoutEnabled = true) (hx : x.Inv cfg)
    (h : x.step cfg event = some x') : x'.Inv cfg := by
  obtain ⟨now, arrival⟩ := event
  cases arrival with
  | client data =>
    obtain ⟨htime, hnow, hunanswered, hdeadline⟩ := step_client henabled h
    constructor
    · intro t ht
      rw [hunanswered] at ht
      rcases List.mem_append.1 ht with ht | ht
      · have := hx.forwarded t ht
        omega
      · have := List.eq_of_mem_replicate ht
        omega
    · intro d hd
      rw [hdeadline] at hd
      split at hd
      · cases hd
        omega
      · have := hx.armed d hd
        omega
  | backend data reacquired =>
    obtain ⟨htime, hnow, hunanswered, hdeadline⟩ := step_backend henabled h
    constructor
    · intro t ht
      rw [hunanswered] at ht
      have := hx.forwarded t (later_subset x data ht)
      omega
    · intro d hd
      rw [hdeadline] at hd
      split at hd
      · have := hx.armed d hd
        omega
      · cases hd

/-- The earliest time at which the arm can complete is the one that counts. -/
theorem cancelsOnlyOverdue_at (henabled : cfg.queryTimeoutEnabled = true) :
    x.CancelsOnlyOverdue cfg ↔ ∀ d, x.relay.queryDeadline = some d →
      ∃ t ∈ x.unanswered, t + cfg.timeoutMillis ≤ max d x.now := by
  constructor
  · intro h d hd
    exact h (max d x.now) (Nat.le_max_right _ _)
      ((Relay.timesOut_iff henabled).2 ⟨d, hd, Nat.le_max_left _ _⟩)
  · intro h now hnow hfires
    obtain ⟨d, hd, hle⟩ := (Relay.timesOut_iff henabled).1 hfires
    obtain ⟨t, ht, hold⟩ := h d hd
    exact ⟨t, ht, hold.trans (Nat.max_le.2 ⟨hle, hnow⟩)⟩

/-- A request is cancelled in time if a deadline is set that has passed when the request is
    overdue. -/
theorem cancelsOverdue_at (henabled : cfg.queryTimeoutEnabled = true) :
    x.CancelsOverdue cfg ↔ ∀ t ∈ x.unanswered, ∃ d, x.relay.queryDeadline = some d ∧
      d ≤ max (t + cfg.timeoutMillis + 1) x.now := by
  constructor
  · intro h t ht
    have hfires := h (max (t + cfg.timeoutMillis + 1) x.now) (Nat.le_max_right _ _)
      ⟨t, ht, Nat.lt_of_succ_le (Nat.le_max_left _ _)⟩
    exact (Relay.timesOut_iff henabled).1 hfires
  · intro h now hnow hover
    obtain ⟨t, ht, hold⟩ := hover
    obtain ⟨d, hd, hle⟩ := h t ht
    exact (Relay.timesOut_iff henabled).2 ⟨d, hd, hle.trans (Nat.max_le.2 ⟨hold, hnow⟩)⟩

/-- A client read keeps the deadline behind an overdue request unless it arms it for none. -/
theorem cancelsOnlyOverdue_client (henabled : cfg.queryTimeoutEnabled = true) (hinv : x.Inv cfg)
    (hx : x.CancelsOnlyOverdue cfg) (h : x.step cfg (now, .client data) = some x') :
    x'.CancelsOnlyOverdue cfg ↔ x.Accounted cfg (now, .client data) := by
  rw [cancelsOnlyOverdue_at henabled] at hx ⊢
  have hinv' := inv_step henabled hinv h
  obtain ⟨htime, hnow, hunanswered, hdeadline⟩ := step_client henabled h
  constructor
  · intro hall hnone hentry
    rw [if_pos ⟨hnone, hentry⟩] at hdeadline
    obtain ⟨t, ht, -⟩ := hall _ hdeadline
    rw [hunanswered] at ht
    rcases List.mem_append.1 ht with ht | ht
    · exact .inl (List.ne_nil_of_mem ht)
    · exact .inr (Nat.pos_of_ne_zero (List.mem_replicate.1 ht).1)
  · intro hacc d hd
    rw [hdeadline] at hd
    split at hd
    · next harmed =>
      -- armed by this read: any request will do, since none is newer
      have hne : x'.unanswered ≠ [] := by
        rw [hunanswered]
        rcases hacc harmed.1 harmed.2 with hne | hpos
        · exact List.append_ne_nil_of_left_ne_nil hne _
        · exact List.append_ne_nil_of_right_ne_nil _ (by simpa using hpos.ne')
      obtain ⟨t, ht⟩ := List.exists_mem_of_ne_nil _ hne
      have hle := hinv'.forwarded t ht
      cases hd
      exact ⟨t, ht, by omega⟩
    · obtain ⟨t, ht, hold⟩ := hx d hd
      refine ⟨t, ?_, by omega⟩
      rw [hunanswered]
      exact List.mem_append_left _ ht

theorem cancelsOnlyOverdue_backend (henabled : cfg.queryTimeoutEnabled = true)
    (h : x.step cfg (now, .backend data reacquired) = some x') :
    x'.CancelsOnlyOverdue cfg ↔ x.Accounted cfg (now, .backend data reacquired) := by
  rw [cancelsOnlyOverdue_at henabled]
  obtain ⟨htime, rfl, hunanswered, hdeadline⟩ := step_backend henabled h
  rw [hunanswered, hdeadline]
  constructor
  · intro hall d hd hentry hshown
    apply hall d
    rw [if_pos ⟨hentry, hshown⟩]
    exact hd
  · intro hacc d hd
    split at hd
    · next hkept => exact hacc d hd hkept.1 hkept.2
    · cases hd

/-- Without a deadline in an orderly state nothing is unanswered. -/
theorem CancelsOverdue.unanswered_eq_nil (henabled : cfg.queryTimeoutEnabled = true)
    (hx : x.CancelsOverdue cfg) (hnone : x.relay.queryDeadline = none) : x.unanswered = [] := by
  apply List.eq_nil_iff_forall_not_mem.2
  intro t ht
  obtain ⟨d, hd, -⟩ := (cancelsOverdue_at henabled).1 hx t ht
  rw [hnone] at hd
  cases hd

/-- A client read keeps a deadline for every request unless it forwards the first of them without
    one. -/
theorem cancelsOverdue_client (henabled : cfg.queryTimeoutEnabled = true) (hinv : x.Inv cfg)
    (hx : x.CancelsOverdue cfg) (h : x.step cfg (now, .client data) = some x') :
    x'.CancelsOverdue cfg ↔ x.Guarded cfg (now, .client data) := by
  have hempty := hx.unanswered_eq_nil henabled
  rw [cancelsOverdue_at henabled] at hx ⊢
  obtain ⟨htime, rfl, hunanswered, hdeadline⟩ := step_client henabled h
  rw [hunanswered, hdeadline]
  constructor
  · intro hall _ hpos
    obtain ⟨d, hd, -⟩ := hall x'.now
      (List.mem_append_right _ (List.mem_replicate.2 ⟨hpos.ne', rfl⟩))
    split at hd
    · next harmed => exact .inr harmed.2
    · exact .inl (by rw [hd]; simp)
  · intro hguard t ht
    cases hd : x.relay.queryDeadline with
    | some d =>
      refine ⟨d, by simp, ?_⟩
      rcases List.mem_append.1 ht with ht | ht
      · obtain ⟨d', hd', hle⟩ := hx t ht
        rw [hd] at hd'
        cases hd'
        omega
      · have harmed := hinv.armed d hd
        have := List.eq_of_mem_replicate ht
        omega
    | none =>
      -- nothing was unanswered, so this read has the request
      rw [hempty hd, List.nil_append] at ht
      obtain ⟨hpos, rfl⟩ := List.mem_replicate.1 ht
      have hentry := (hguard (hempty hd) (Nat.pos_of_ne_zero hpos)).resolve_left (by simp [hd])
      exact ⟨_, if_pos ⟨rfl, hentry⟩, by omega⟩

theorem cancelsOverdue_backend (henabled : cfg.queryTimeoutEnabled = true)
    (hx : x.CancelsOverdue cfg) (h : x.step cfg (now, .backend data reacquired) = some x') :
    x'.CancelsOverdue cfg ↔ x.Guarded cfg (now, .backend data reacquired) := by
  rw [cancelsOverdue_at henabled] at hx ⊢
  obtain ⟨htime, rfl, hunanswered, hdeadline⟩ := step_backend henabled h
  rw [hunanswered, hdeadline]
  constructor
  · intro hall hne
    obtain ⟨t, ht⟩ := List.exists_mem_of_ne_nil _ hne
    obtain ⟨d, hd, -⟩ := hall t ht
    split at hd
    · next hkept => exact hkept
    · cases hd
  · intro hguard t ht
    obtain ⟨d, hd, hle⟩ := hx t (later_subset x data ht)
    refine ⟨d, ?_, by omega⟩
    rw [if_pos (hguard (List.ne_nil_of_mem ht)), hd]

/-- Just the accounted reads keep the deadline behind an overdue request. -/
theorem cancelsOnlyOverdue_step (henabled : cfg.queryTimeoutEnabled = true) (hinv : x.Inv cfg)
    (hx : x.CancelsOnlyOverdue cfg) (h : x.step cfg event = some x') :
    x'.CancelsOnlyOverdue cfg ↔ x.Accounted cfg event := by
  obtain ⟨now, arrival⟩ := event
  cases arrival with
  | client data => exact cancelsOnlyOverdue_client henabled hinv hx h
  | backend data reacquired => exact cancelsOnlyOverdue_backend henabled h

/-- Just the guarded reads keep a deadline for every request. -/
theorem cancelsOverdue_step (henabled : cfg.queryTimeoutEnabled = true) (hinv : x.Inv cfg)
    (hx : x.CancelsOverdue cfg) (h : x.step cfg event = some x') :
    x'.CancelsOverdue cfg ↔ x.Guarded cfg event := by
  obtain ⟨now, arrival⟩ := event
  cases arrival with
  | client data => exact cancelsOverdue_client henabled hinv hx h
  | backend data reacquired => exact cancelsOverdue_backend henabled hx h

/-- A ReadyForQuery in a read that starts at a message boundary is seen. -/
theorem showsCompletion_of_ready {part todo : List Frame} {rest : List UInt8}
    (hlen : ∀ f ∈ part ++ todo, f.len < 2 ^ 31) (hrest : Frame.Partial rest todo)
    (hready : part.countP isReady ≠ 0) : showsCompletion (encodeAll part ++ rest) = true := by
  obtain ⟨f, hf, htag⟩ := List.countP_pos_iff.1 (Nat.pos_of_ne_zero hready)
  have hends : part.any (endsQuery ·.tag) = true := by
    refine List.any_eq_true.2 ⟨f, hf, ?_⟩
    rw [show f.tag = msgReadyForQuery from of_decide_eq_true htag]
    decide
  have hcomplete : isQueryComplete .wrapping (encodeAll part ++ rest) = .ok true := by
    rw [isQueryComplete_encodeAll .wrapping hlen hrest, hends, Bool.true_or]
  unfold showsCompletion
  split
  · rfl
  · exact decide_eq_true hcomplete

/-- At message boundaries only an arming read can be unaccounted for. -/
theorem accounted_of_framed (henabled : cfg.queryTimeoutEnabled = true)
    (hx : x.CancelsOnlyOverdue cfg) (htime : x.now ≤ event.1) (h : x.Framed cfg event) :
    x.Accounted cfg event := by
  obtain ⟨now, arrival⟩ := event
  cases arrival with
  | client data => exact h
  | backend data reacquired =>
    intro d hd _ hshown
    obtain ⟨houtbox, part, todo, rest, rfl, hrest, hlen⟩ := h
    -- the read answers nothing, or it would show that
    have hnone : part.countP isReady = 0 := by
      by_contra hready
      rw [showsCompletion_of_ready hlen hrest hready] at hshown
      cases hshown
    have hlater : x.later (encodeAll part ++ rest) = x.unanswered := by
      rw [later, houtbox, List.nil_append, Frame.split_encodeAll hlen hrest, hnone, List.drop_zero]
      rfl
    obtain ⟨t, ht, hold⟩ := (cancelsOnlyOverdue_at henabled).1 hx d hd
    rw [hlater]
    exact ⟨t, ht, hold.trans (max_le_max_left d htime)⟩

/-- With the timeout enabled, the arm completes only for an overdue request throughout just the runs
    whose reads are all accounted for.  If backend reads start at message boundaries, it is enough
    that every client read that arms the deadline leaves a request unanswered. -/
theorem cancelsOnlyOverdue_iff {cfg : RelayConfig} {conn : ManagedConnection}
    {events : List (Nat × Arrival)} (henabled : cfg.queryTimeoutEnabled = true)
    (hrun : (Trace.exec (step cfg) (start cfg conn) events).isSome = true) :
    (Trace.Always (step cfg) (CancelsOnlyOverdue cfg) (start cfg conn) events ↔
      Trace.Admits (step cfg) (Accounted cfg) (start cfg conn) events) ∧
    (Trace.Admits (step cfg) (Framed cfg) (start cfg conn) events →
      Trace.Always (step cfg) (CancelsOnlyOverdue cfg) (start cfg conn) events) := by
  have hkeep : ∀ x event x', Inv cfg x → step cfg x event = some x' → Inv cfg x' :=
    fun _ _ _ => inv_step henabled
  have hstart : (start cfg conn).CancelsOnlyOverdue cfg := by
    rw [cancelsOnlyOverdue_at henabled]
    intro d hd
    cases hd
  constructor
  · exact Trace.always_iff_admits hkeep (fun _ _ _ => cancelsOnlyOverdue_step henabled)
      (inv_start cfg conn) hstart hrun
  · have hframed : ∀ x event x', (Inv cfg x ∧ CancelsOnlyOverdue cfg x) → Framed cfg x event →
        step cfg x event = some x' → Inv cfg x' ∧ CancelsOnlyOverdue cfg x' := by
      intro x event x' hx hevent hstep
      have hacc := accounted_of_framed henabled hx.2 (time_le_of_step hstep) hevent
      exact ⟨inv_step henabled hx.1 hstep, (cancelsOnlyOverdue_step henabled hx.1 hx.2 hstep).2 hacc⟩
    exact Trace.always_of_admits hframed (fun _ hx => hx.2) ⟨inv_start cfg conn, hstart⟩

/-- Two queries, the answer to the first in two reads. -/
theorem cancelsOnlyOverdue_two_queries :
    Trace.Always (step ⟨.transaction, 30, 100⟩) (CancelsOnlyOverdue ⟨.transaction, 30, 100⟩)
      (start ⟨.transaction, 30, 100⟩ ⟨⟨0, none⟩, 0, false⟩)
      [(0, .client (queryFrame "SELECT 1").encode),
        (10, .backend (Frame.encode ⟨'T'.toUInt8, [0, 0]⟩) none),
        (20, .backend (encodeAll (answerFrames "SELECT 1" .idle)) none),
        (50000, .client (queryFrame "SELECT 2").encode)] :=
  (cancelsOnlyOverdue_iff rfl (by decide +kernel)).1.2 (by decide +kernel)

/-- A statement is prepared with Parse and Flush, and the backend has parsed it.  Nothing is owed,
    but 30 seconds later the session is cancelled. -/
theorem idle_session_cancelled :
    ¬ Trace.Always (step ⟨.transaction, 30, 100⟩) (CancelsOnlyOverdue ⟨.transaction, 30, 100⟩)
      (start ⟨.transaction, 30, 100⟩ ⟨⟨0, none⟩, 0, false⟩)
      [(0, .client (encodeAll [⟨msgParse, asciiBytes "s" ++ [0] ++ asciiBytes "SELECT 1" ++ [0, 0, 0]⟩,
          ⟨'H'.toUInt8, []⟩])),
        (5, .backend (Frame.encode ⟨'1'.toUInt8, []⟩) none)] := by
  intro hall
  have hstate : (Trace.exec (step ⟨.transaction, 30, 100⟩)
      (start ⟨.transaction, 30, 100⟩ ⟨⟨0, none⟩, 0, false⟩)
      [(0, .client (encodeAll [⟨msgParse, asciiBytes "s" ++ [0] ++ asciiBytes "SELECT 1" ++ [0, 0, 0]⟩,
          ⟨'H'.toUInt8, []⟩])),
        (5, .backend (Frame.encode ⟨'1'.toUInt8, []⟩) none)]).map
      (fun x => (x.relay.queryDeadline, x.unanswered)) = some (some 30000, []) := by
    decide +kernel
  obtain ⟨x, hrun, hx⟩ := Option.map_eq_some_iff.1 hstate
  obtain ⟨t, ht, -⟩ := (cancelsOnlyOverdue_at rfl).1 (hall.last hrun) 30000 (congrArg Prod.fst hx)
  rw [show x.unanswered = [] from congrArg Prod.snd hx] at ht
  cases ht

/-- With the timeout enabled, the arm completes for every overdue request throughout just the runs
    whose reads are all guarded. -/
theorem cancelsOverdue_iff {cfg : RelayConfig} {conn : ManagedConnection}
    {events : List (Nat × Arrival)} (henabled : cfg.queryTimeoutEnabled = true)
    (hrun : (Trace.exec (step cfg) (start cfg conn) events).isSome = true) :
    Trace.Always (step cfg) (CancelsOverdue cfg) (start cfg conn) events ↔
      Trace.Admits (step cfg) (Guarded cfg) (start cfg conn) events := by
  have hkeep : ∀ x event x', Inv cfg x → step cfg x event = some x' → Inv cfg x' :=
    fun _ _ _ => inv_step henabled
  refine Trace.always_iff_admits hkeep (fun _ _ _ => cancelsOverdue_step henabled) (inv_start cfg conn)
    ?_ hrun
  rw [cancelsOverdue_at henabled]
  intro t ht
  cases ht

/-- A query, its answer in two reads, and a batch on the unnamed portal. -/
theorem cancelsOverdue_query_batch :
    Trace.Always (step ⟨.transaction, 30, 100⟩) (CancelsOverdue ⟨.transaction, 30, 100⟩)
      (start ⟨.transaction, 30, 100⟩ ⟨⟨0, none⟩, 0, false⟩)
      [(0, .client (queryFrame "SELECT 1").encode),
        (10, .backend (Frame.encode ⟨'T'.toUInt8, [0, 0]⟩) none),
        (20, .backend (encodeAll (answerFrames "SELECT 1" .idle)) none),
        (50000, .client (encodeAll (batchOf "SELECT 2")))] :=
  (cancelsOverdue_iff rfl (by decide +kernel)).2 (by decide +kernel)

/-- The answer to the first statement of a Query disarms the deadline, and the second can run for
    ever. -/
theorem second_statement_unbounded :
    ¬ Trace.Always (step ⟨.transaction, 30, 100⟩) (CancelsOverdue ⟨.transaction, 30, 100⟩)
      (start ⟨.transaction, 30, 100⟩ ⟨⟨0, none⟩, 0, false⟩)
      [(0, .client (queryFrame "SELECT 1; SELECT pg_sleep(3600)").encode),
        (5, .backend (Frame.encode ⟨msgCommandComplete, asciiBytes "SELECT 1" ++ [0]⟩) none)] := by
  intro hall
  have hstate : (Trace.exec (step ⟨.transaction, 30, 100⟩)
      (start ⟨.transaction, 30, 100⟩ ⟨⟨0, none⟩, 0, false⟩)
      [(0, .client (queryFrame "SELECT 1; SELECT pg_sleep(3600)").encode),
        (5, .backend (Frame.encode ⟨msgCommandComplete, asciiBytes "SELECT 1" ++ [0]⟩) none)]).map
      (fun x => (x.relay.queryDeadline, x.unanswered)) = some (none, [0]) := by
    decide +kernel
  obtain ⟨x, hrun, hx⟩ := Option.map_eq_some_iff.1 hstate
  have hdue : 0 ∈ x.unanswered := by
    rw [show x.unanswered = [0] from congrArg Prod.snd hx]
    exact List.mem_singleton_self 0
  obtain ⟨d, hd, -⟩ := (cancelsOverdue_at rfl).1 (hall.last hrun) 0 hdue
  rw [show x.relay.queryDeadline = none from congrArg Prod.fst hx] at hd
  cases hd

end Clocked

end ScryProxy
