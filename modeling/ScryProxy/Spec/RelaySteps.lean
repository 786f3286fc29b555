import ScryProxy.Native.Relay

/-!
# What one iteration of the relay can do

Inversion lemmas for the arms of the loop, from which the properties of whole runs are
derived: `clientRead_cases` and `backendRead_cases` list every outcome of a read.  The
transaction tracker, the held connection and the reassembly buffer change only where
`SameLink` does not hold.
-/

namespace ScryProxy

/-- The scans take a backend read for the end of a query. -/
def showsCompletion (data : List UInt8) : Bool :=
  match extractError .wrapping data with
  | .ok (some _) => true
  | _ => decide (isQueryComplete .wrapping data = .ok true)

namespace Relay

/-- Tracker, held connection and reassembly buffer are the same. -/
structure SameLink (r r' : Relay) : Prop where
  txnTracker : r'.txnTracker = r.txnTracker
  managedConn : r'.managedConn = r.managedConn
  frontendBuffer : r'.frontendBuffer = r.frontendBuffer

variable {r : Relay}

theorem SameLink.rfl : SameLink r r := ⟨Eq.refl _, Eq.refl _, Eq.refl _⟩

theorem SameLink.trans {r₁ r₂ r₃ : Relay} (h : SameLink r₁ r₂) (h' : SameLink r₂ r₃) :
    SameLink r₁ r₃ :=
  ⟨h'.txnTracker.trans h.txnTracker, h'.managedConn.trans h.managedConn,
    h'.frontendBuffer.trans h.frontendBuffer⟩

theorem armDeadline_sameLink (cfg : RelayConfig) (r : Relay) (now : Nat) :
    SameLink r (armDeadline cfg r now) := by
  unfold armDeadline
  split <;> exact ⟨rfl, rfl, rfl⟩

theorem disarmDeadline_sameLink (cfg : RelayConfig) (r : Relay) :
    SameLink r (disarmDeadline cfg r) := by
  unfold disarmDeadline
  split <;> exact ⟨rfl, rfl, rfl⟩

/-! ## Client reads -/

variable {cfg : RelayConfig} {r' : Relay} {effects : List Effect}

/-- A message leaves the link alone; its only effect is to apply its text. -/
theorem handleMessage_sameLink {i : Nat} {msg : Message} {v : Verdict}
    (h : handleMessage cfg r i msg = .ok (r', effects, v)) :
    SameLink r r' ∧ ∀ e ∈ effects, ∃ sql, e = .applied sql := by
  cases msg with
  | parse | query =>
    -- validation comes first; a rejected text changes nothing
    obtain ⟨error, -, h⟩ := Rust.bind_returns.1 h
    cases error with
    | some error => cases h; exact ⟨.rfl, by simp⟩
    | none =>
      obtain ⟨s, -, h⟩ := Rust.bind_returns.1 h
      cases h
      exact ⟨⟨rfl, rfl, rfl⟩, by simp⟩
  | close kind name =>
    simp only [handleMessage] at h
    split at h
    · cases h; exact ⟨⟨rfl, rfl, rfl⟩, by simp⟩
    · split at h <;> cases h <;> exact ⟨⟨rfl, rfl, rfl⟩, by simp⟩
  | bind =>
    obtain ⟨cache, -, h⟩ := Rust.map_returns.1 h
    cases h
    exact ⟨⟨rfl, rfl, rfl⟩, by simp⟩
  | execute | sync | terminate => cases h; exact ⟨⟨rfl, rfl, rfl⟩, by simp⟩

theorem handleMessages_sameLink {i : Nat} {msgs : List Message} {v : Verdict}
    (h : handleMessages cfg r i msgs = .ok (r', effects, v)) :
    SameLink r r' ∧ ∀ e ∈ effects, ∃ sql, e = .applied sql := by
  induction msgs generalizing r r' i effects v with
  | nil => cases h; exact ⟨.rfl, by simp⟩
  | cons msg msgs ih =>
    obtain ⟨⟨r₁, effects₁, v₁⟩, hmsg, h⟩ := Rust.bind_returns.1 h
    obtain ⟨hlink, heff⟩ := handleMessage_sameLink hmsg
    cases v₁ with
    | forward =>
      obtain ⟨⟨r₂, effects₂, v₂⟩, hrest, h⟩ := Rust.bind_returns.1 h
      obtain ⟨hlink₂, heff₂⟩ := ih hrest
      cases h
      refine ⟨hlink.trans hlink₂, fun e he => ?_⟩
      exact (List.mem_append.1 he).elim (heff e) (heff₂ e)
    -- anything but `forward` ends the loop here
    | reject error => cases h; exact ⟨hlink, heff⟩
    | terminate => cases h; exact ⟨hlink, heff⟩

variable {data : List UInt8}

/-- The outcomes of a client read: forwarded whole, rejected whole, intercepted, or a failed write. -/
theorem clientRead_cases {now : Nat} {writes : Writes} {outcome : Outcome}
    (h : clientRead cfg r data now writes = .ok (effects, outcome)) :
    ∃ messages frontendBuffer r₁ applied verdict,
      extractMessages r.frontendBuffer data = .ok (messages, frontendBuffer) ∧
      handleMessages cfg { r with frontendBuffer } 0 messages = .ok (r₁, applied, verdict) ∧
      ((verdict = .forward ∧ effects = applied ++ [.toBackend data] ∧
          outcome = .next (armDeadline cfg r₁ now)) ∨
        ((∃ error, verdict = .reject error ∧ effects = applied ++
            [.toClient (buildErrorResponse "ERROR" "0A000" error),
              .toClient (buildReadyForQuery r₁.txnTracker)]) ∧
          outcome = .next (armDeadline cfg r₁ now)) ∨
        (effects = applied ∧ ∃ how, outcome = .exit how ∧
          (how = .dropped r₁.managedConn ∨ verdict = .terminate ∧ how = .release r₁.managedConn))) := by
  obtain ⟨⟨messages, frontendBuffer⟩, hext, h⟩ := Rust.bind_returns.1 h
  obtain ⟨⟨r₁, applied, verdict⟩, hmsgs, h⟩ := Rust.bind_returns.1 h
  refine ⟨messages, frontendBuffer, r₁, applied, verdict, hext, hmsgs, ?_⟩
  cases verdict with
  | forward =>
    simp only at h
    split at h <;> cases h
    · exact .inl ⟨rfl, rfl, rfl⟩
    · exact .inr (.inr ⟨rfl, _, rfl, .inl rfl⟩)
  | reject error =>
    simp only at h
    split at h <;> cases h
    · exact .inr (.inl ⟨⟨error, rfl, rfl⟩, rfl⟩)
    · exact .inr (.inr ⟨rfl, _, rfl, .inl rfl⟩)
  | terminate =>
    cases h
    exact .inr (.inr ⟨rfl, _, rfl, .inr ⟨rfl, rfl⟩⟩)

/-! ## Backend reads -/

/-- The execution pending on the unnamed portal is taken and reported by `e`, or there is none. -/
theorem takePending_cases {e : PendingExecution → Effect}
    (h : (match r.stmtCache.takePending [] with
      | (some pending, cache) => pure ({ r with stmtCache := cache }, [e pending])
      | (none, _) => pure (r, []) : Rust (Relay × List Effect)) = .ok (r', effects)) :
    (∃ pending, (r.stmtCache.takePending []).1 = some pending ∧
        r' = { r with stmtCache := (r.stmtCache.takePending []).2 } ∧ effects = [e pending]) ∨
      ((r.stmtCache.takePending []).1 = none ∧ r' = r ∧ effects = []) := by
  split at h
  · next pending cache htake =>
    cases h
    rw [htake]
    exact .inl ⟨pending, rfl, rfl, rfl⟩
  · next cache htake =>
    cases h
    rw [htake]
    exact .inr ⟨rfl, rfl, rfl⟩

/-- A read that ends a query takes its entry, and any other leaves all as it was. -/
theorem settlePending_cases (h : settlePending r data = .ok (r', effects)) :
    (showsCompletion data = true ∧ ∃ pending, (r.stmtCache.takePending []).1 = some pending ∧
        r' = { r with stmtCache := (r.stmtCache.takePending []).2 } ∧
        ((∃ error, effects = [.queryFailed pending data error]) ∨
          effects = [.queryCompleted pending])) ∨
      (r' = r ∧ effects = [] ∧
        (showsCompletion data = true → (r.stmtCache.takePending []).1 = none)) := by
  obtain ⟨error, herror, h⟩ := Rust.bind_returns.1 h
  cases error with
  | some error =>
    have hshown : showsCompletion data = true := by simp only [showsCompletion, herror]
    rcases takePending_cases (e := (.queryFailed · data error)) h with
      ⟨pending, htake, rfl, rfl⟩ | ⟨htake, rfl, rfl⟩
    · exact .inl ⟨hshown, pending, htake, rfl, .inl ⟨error, rfl⟩⟩
    · exact .inr ⟨rfl, rfl, fun _ => htake⟩
  | none =>
    obtain ⟨done, hdone, h⟩ := Rust.bind_returns.1 h
    have hshown : showsCompletion data = done := by simp [showsCompletion, herror, hdone]
    cases done with
    | false =>
      cases h
      rw [hshown]
      exact .inr ⟨rfl, rfl, nofun⟩
    | true =>
      rcases takePending_cases (e := .queryCompleted) h with
        ⟨pending, htake, rfl, rfl⟩ | ⟨htake, rfl, rfl⟩
      · exact .inl ⟨hshown, pending, htake, rfl, .inr rfl⟩
      · exact .inr ⟨rfl, rfl, fun _ => htake⟩

/-- Bookkeeping of a pending execution emits at most its completion. -/
theorem settlePending_sameLink (h : settlePending r data = .ok (r', effects)) :
    SameLink r r' ∧ r'.connState = r.connState ∧
      ∀ e ∈ effects, (∃ p d err, e = .queryFailed p d err) ∨ ∃ p, e = .queryCompleted p := by
  rcases settlePending_cases h with ⟨-, pending, -, rfl, ⟨error, rfl⟩ | rfl⟩ | ⟨rfl, rfl, -⟩
  · exact ⟨⟨rfl, rfl, rfl⟩, rfl, by simp⟩
  · exact ⟨⟨rfl, rfl, rfl⟩, rfl, by simp⟩
  · exact ⟨.rfl, rfl, by simp⟩

/-- The tracker after a read in which `status` was found. -/
def afterReady (t : TransactionState) : Option UInt8 → TransactionState
  | some status => t.updateFromReadyForQuery status
  | none => t

/-- The transaction-end branch is taken: the tracker leaves a transaction and the connection is not
    kept by its mode or a pin. -/
def endsTransaction (cfg : RelayConfig) (r : Relay) (status : Option UInt8) : Bool :=
  status.isSome && r.txnTracker.isInTransaction && (afterReady r.txnTracker status).isIdle &&
    shouldReleaseConnection cfg.strategy r.connState

/-- What the rest of a backend read does, once its scans are done. -/
def relayRead (cfg : RelayConfig) (r : Relay) (settled : List Effect) (status : Option UInt8)
    (data : List UInt8) (writes : Writes) (reacquired : Option ManagedConnection) :
    List Effect × Outcome :=
  if !writes.client then (settled, .exit (.dropped r.managedConn))
  else if endsTransaction cfg r status then
    reacquired.elim
      (settled ++ [.toClient data, .released r.managedConn], .exit .withoutConnection)
      fun conn => (settled ++ [.toClient data, .released r.managedConn, .reacquired conn],
        .next { r with txnTracker := afterReady r.txnTracker status, managedConn := conn })
  else (settled ++ [.toClient data],
    .next { r with txnTracker := afterReady r.txnTracker status })

/-- A backend read is its scans and what follows from them. -/
theorem backendRead_eq (cfg : RelayConfig) (r : Relay) (data : List UInt8) (writes : Writes)
    (reacquired : Option ManagedConnection) :
    backendRead cfg r data writes reacquired = (do
      let (r, settled) ← settlePending r data
      let status ← extractReadyForQuery .wrapping data
      return relayRead cfg (disarmDeadline cfg r) settled status data writes reacquired) := by
  unfold backendRead
  cases settlePending r data with
  | error e => rfl
  | ok p =>
    obtain ⟨r, settled⟩ := p
    simp only [Rust.ok_bind]
    generalize disarmDeadline cfg r = r
    cases extractReadyForQuery .wrapping data with
    | error e => rfl
    | ok status =>
      -- the tracker update in one piece for both results of the scan
      have h : (if !writes.client then .ok (settled, .exit (.dropped r.managedConn))
          else if endsTransaction cfg r status then
            reacquired.elim
              (.ok (settled ++ [.toClient data, .released r.managedConn], .exit .withoutConnection))
              fun conn => .ok (settled ++ [.toClient data, .released r.managedConn] ++
                [.reacquired conn], .next { r with
                  txnTracker := afterReady r.txnTracker status, managedConn := conn })
          else .ok (settled ++ [.toClient data], .next { r with
            txnTracker := afterReady r.txnTracker status })) =
          (.ok (relayRead cfg r settled status data writes reacquired) :
            Rust (List Effect × Outcome)) := by
        unfold relayRead
        split
        · rfl
        · split
          · cases reacquired with
            | none => rfl
            | some conn => simp
          · rfl
      cases status <;> cases reacquired <;> exact h

/-- The outcomes of a backend read: relayed, relayed and then released, or a failed write. -/
theorem backendRead_cases {writes : Writes} {reacquired : Option ManagedConnection}
    {outcome : Outcome} (h : backendRead cfg r data writes reacquired = .ok (effects, outcome)) :
    ∃ r₁ settled status,
      SameLink r r₁ ∧ r₁.connState = r.connState ∧
      (∀ e ∈ settled, (∃ p d err, e = .queryFailed p d err) ∨ ∃ p, e = .queryCompleted p) ∧
      extractReadyForQuery .wrapping data = .ok status ∧
      ((endsTransaction cfg r status = false ∧ effects = settled ++ [.toClient data] ∧
          outcome = .next { r₁ with txnTracker := afterReady r.txnTracker status }) ∨
        (endsTransaction cfg r status = true ∧
          ((∃ conn, reacquired = some conn ∧
              effects = settled ++ [.toClient data, .released r.managedConn, .reacquired conn] ∧
              outcome = .next { r₁ with
                txnTracker := afterReady r.txnTracker status, managedConn := conn }) ∨
            (reacquired = none ∧
              effects = settled ++ [.toClient data, .released r.managedConn] ∧
              outcome = .exit .withoutConnection))) ∨
        (effects = settled ∧ outcome = .exit (.dropped r.managedConn) ∧
          writes.client = false)) := by
  rw [backendRead_eq] at h
  obtain ⟨⟨r₀, settled⟩, hsettle, h⟩ := Rust.bind_returns.1 h
  obtain ⟨status, hstatus, h⟩ := Rust.bind_returns.1 h
  obtain ⟨hlink₀, hstate₀, hsettled⟩ := settlePending_sameLink hsettle
  have hlink : SameLink r (disarmDeadline cfg r₀) :=
    hlink₀.trans (disarmDeadline_sameLink cfg r₀)
  have hstate : (disarmDeadline cfg r₀).connState = r.connState := by
    rw [← hstate₀]
    unfold disarmDeadline
    split <;> rfl
  refine ⟨disarmDeadline cfg r₀, settled, status, hlink, hstate, hsettled, hstatus, ?_⟩
  generalize disarmDeadline cfg r₀ = r₁ at h hlink hstate ⊢
  -- nothing before the scan has touched what decides about the release
  have hends : endsTransaction cfg r₁ status = endsTransaction cfg r status := by
    rw [endsTransaction, hlink.txnTracker, hstate, endsTransaction]
  have h := Except.ok.inj h
  simp only [relayRead, hends, hlink.txnTracker, hlink.managedConn] at h
  split at h
  · next hwrite =>
    cases h
    exact .inr (.inr ⟨rfl, rfl, by simpa using hwrite⟩)
  · split at h
    · next hend =>
      refine .inr (.inl ⟨hend, ?_⟩)
      cases reacquired with
      | none => cases h; exact .inr ⟨rfl, rfl, rfl⟩
      | some conn => cases h; exact .inl ⟨conn, rfl, rfl, rfl⟩
    · next hend =>
      cases h
      exact .inl ⟨by simpa using hend, rfl, by rw [← hlink.managedConn]⟩

/-! ## Runs -/

/-- A run that stays in the loop is a step that stays, and a run from there. -/
theorem run_cons_next {input : Input} {inputs : List Input}
    (h : run cfg r (input :: inputs) = .ok (effects, .next r')) :
    ∃ effects₁ effects₂ r₁, step cfg r input = .ok (effects₁, .next r₁) ∧
      run cfg r₁ inputs = .ok (effects₂, .next r') ∧ effects = effects₁ ++ effects₂ := by
  obtain ⟨⟨effects₁, outcome⟩, hstep, h⟩ := Rust.bind_returns.1 h
  cases outcome with
  | exit how => cases h
  | next r₁ =>
    obtain ⟨⟨effects₂, outcome⟩, hrun, h⟩ := Rust.bind_returns.1 h
    cases h
    exact ⟨effects₁, effects₂, r₁, hstep, hrun, rfl⟩

end Relay

end ScryProxy
