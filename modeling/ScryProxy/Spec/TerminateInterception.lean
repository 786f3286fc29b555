import ScryProxy.Spec.Forwarding

/-!
# Intercepting Terminate

When Terminate is the first message that `extract_messages` yields for a read, the relay
keeps the whole read back and leaves its loop.  The index counts parsed messages and the
action is on bytes, so what is kept back is just the Terminate frame only if the read
holds nothing else: no end of an earlier frame, and no message that is not parsed.

In a mode that never rejects, the backend gets the client's bytes, with or without the
Terminate frame, exactly if the read that is intercepted is that frame
(`terminateOnly_iff`).  CopyDone and Terminate in one read are both lost
(`copyDone_lost`).
-/

namespace ScryProxy

open ConnectionState (readQuery)
open Frame (encodeAll)

/-- Writes to the backend succeed, no read is empty, and no arm but that of the client's reads ends
    the loop. -/
def Undisturbed (cfg : RelayConfig) : Relay → List Input → Prop
  | _, [] => True
  | r, .clientRead data now writes :: inputs =>
    data ≠ [] ∧ writes = {} ∧ ∀ effects r', Relay.step cfg r (.clientRead data now writes) =
      .ok (effects, .next r') → Undisturbed cfg r' inputs
  | r, input :: inputs =>
    ∃ effects r', Relay.step cfg r input = .ok (effects, .next r') ∧ Undisturbed cfg r' inputs

/-- The relay gets through the reads, and the backend gets all bytes or all but the Terminate frame
    at their end. -/
def TerminateOnly (cfg : RelayConfig) (r : Relay) (inputs : List Input) : Prop :=
  ∃ effects outcome, Relay.run cfg r inputs = .ok (effects, outcome) ∧
    (backendBytes effects = clientBytes inputs ∨
      backendBytes effects ++ terminateFrame.encode = clientBytes inputs)

/-- The tracker can read the text of each message. -/
def Tracked (msgs : List Message) : Prop :=
  ∀ msg ∈ msgs, ∀ sql, msg.sql? = some sql → ∃ cs, readQuery sql = .ok cs

/-- Until a read yields Terminate as its first message, the tracker can read every text and the
    parameters of every Bind can be decoded with the statements cached then; if a read does, the
    Terminate frame is all that is left of the stream. -/
def Heard : PreparedStatementCache → List UInt8 → List (List UInt8) → Prop
  | _, _, [] => True
  | cache, buffer, data :: reads =>
    match extractMessages buffer data with
    | .error _ => False
    | .ok (msgs, buffer) =>
      if msgs.head? = some .terminate then data ++ reads.flatten = terminateFrame.encode
      else Tracked msgs ∧ cache.Decodes msgs ∧
        ∀ cache', msgs.foldlM PreparedStatementCache.observe cache = .ok cache' →
          Heard cache' buffer reads

theorem heard_nil (cache : PreparedStatementCache) (buffer : List UInt8) : Heard cache buffer [] :=
  trivial

variable {cache : PreparedStatementCache} {buffer data : List UInt8}

theorem not_heard_of_error {e : Failure} (h : extractMessages buffer data = .error e)
    (reads : List (List UInt8)) : ¬ Heard cache buffer (data :: reads) := by
  rw [Heard, h]
  exact id

variable {msgs : List Message}

theorem heard_cons {buffer' : List UInt8} (h : extractMessages buffer data = .ok (msgs, buffer'))
    (reads : List (List UInt8)) :
    Heard cache buffer (data :: reads) ↔
      if msgs.head? = some .terminate then data ++ reads.flatten = terminateFrame.encode
      else Tracked msgs ∧ cache.Decodes msgs ∧
        ∀ cache', msgs.foldlM PreparedStatementCache.observe cache = .ok cache' →
          Heard cache' buffer' reads := by
  rw [Heard, h]

/-- What the backend answers meanwhile plays no part. -/
theorem heard_withPending (pending : AList fun _ : Str => PendingExecution)
    {reads : List (List UInt8)} :
    Heard (cache.withPending pending) buffer reads ↔ Heard cache buffer reads := by
  induction reads generalizing cache pending buffer with
  | nil => exact Iff.rfl
  | cons data reads ih =>
    cases hext : extractMessages buffer data with
    | error e => exact iff_of_false (not_heard_of_error hext _) (not_heard_of_error hext _)
    | ok extracted =>
      obtain ⟨msgs, buffer'⟩ := extracted
      rw [heard_cons hext, heard_cons hext]
      obtain ⟨pending', hobserved⟩ :=
        PreparedStatementCache.foldlM_observe_withPending cache pending msgs
      rw [hobserved, PreparedStatementCache.decodes_withPending]
      cases msgs.foldlM PreparedStatementCache.observe cache with
      | error e => simp [Except.map]
      | ok cache₁ => simp [Except.map, ih]

-- on fixed reads it would be evaluated wherever it stands
attribute [irreducible] Heard

/-! ## A mode that never rejects -/

section NeverRejects

variable {cfg : RelayConfig} (hmode : cfg.strategy.poolingMode ≠ .transaction)

include hmode

theorem validate_eq_none (sql : Str) (inTransaction : Bool) :
    cfg.strategy.poolingMode.validate sql inTransaction = .ok none := if_pos hmode

theorem tracked_iff (msgs : List Message) (inTransaction : Bool) :
    (∀ msg ∈ msgs, Relay.Legible cfg inTransaction msg) ↔ Tracked msgs := by
  refine forall₂_congr fun msg _ => ?_
  constructor
  · intro h sql hsql
    obtain ⟨error, hvalid, hread⟩ := h sql hsql
    rw [validate_eq_none hmode] at hvalid
    exact hread (Except.ok.inj hvalid).symm
  · intro h sql hsql
    exact ⟨none, validate_eq_none hmode sql inTransaction, fun _ => h sql hsql⟩

theorem rejection_eq_none (msg : Message) (inTransaction : Bool) :
    Relay.rejection cfg inTransaction msg = none := by
  unfold Relay.rejection
  split
  · rfl
  · rw [validate_eq_none hmode]

/-- Behind the first message every verdict is `forward`. -/
theorem verdictOf_succ (msgs : List Message) (inTransaction : Bool) (i : Nat) :
    Relay.verdictOf cfg inTransaction (i + 1) msgs = .forward := by
  induction msgs generalizing i with
  | nil => rfl
  | cons msg msgs ih =>
    simp only [Relay.verdictOf, Relay.verdictOn, rejection_eq_none hmode, Nat.succ_ne_zero,
      and_false, if_false]
    exact ih (i + 1)

theorem passed_succ (msgs : List Message) (inTransaction : Bool) (i : Nat) :
    Relay.passed cfg inTransaction (i + 1) msgs = msgs := by
  induction msgs generalizing i with
  | nil => rfl
  | cons msg msgs ih =>
    rw [Relay.passed_of_forward, ih (i + 1)]
    simp [Relay.verdictOn, rejection_eq_none hmode]

/-- A read that is not intercepted is looked at as a whole. -/
theorem passed_zero {msgs : List Message} (hhead : msgs.head? ≠ some .terminate)
    (inTransaction : Bool) : Relay.passed cfg inTransaction 0 msgs = msgs := by
  cases msgs with
  | nil => rfl
  | cons msg msgs =>
    have hmsg : msg ≠ .terminate := fun heq => hhead (by rw [heq]; rfl)
    rw [Relay.passed_of_forward, passed_succ hmode]
    simp [Relay.verdictOn, rejection_eq_none hmode, hmsg]

theorem verdictOf_zero (msgs : List Message) (inTransaction : Bool) :
    Relay.verdictOf cfg inTransaction 0 msgs =
      if msgs.head? = some .terminate then .terminate else .forward := by
  cases msgs with
  | nil => rfl
  | cons msg msgs =>
    simp only [Relay.verdictOf, Relay.verdictOn, rejection_eq_none hmode, List.head?_cons,
      Option.some.injEq, and_true]
    by_cases hmsg : msg = .terminate
    · rw [if_pos hmsg]
    · rw [if_neg hmsg]
      exact verdictOf_succ hmode msgs inTransaction 0

end NeverRejects

/-! ## Runs -/

variable {cfg : RelayConfig} {r : Relay}

/-- A read that yields Terminate first is kept back, and the loop is left: nothing after the first
    message is looked at. -/
theorem clientRead_terminate {now : Nat}
    (hext : extractMessages r.frontendBuffer data = .ok (.terminate :: msgs, buffer)) :
    Relay.clientRead cfg r data now {} = .ok ([], .exit (.release r.managedConn)) := by
  simp only [Relay.clientRead, hext, Rust.ok_bind]
  rfl

variable {effects₁ : List Effect}

theorem run_cons_of_next {r₁ : Relay} {input : Input}
    (hstep : Relay.step cfg r input = .ok (effects₁, .next r₁)) (inputs : List Input) :
    Relay.run cfg r (input :: inputs) =
      (Relay.run cfg r₁ inputs).map fun x => (effects₁ ++ x.1, x.2) := by
  rw [Relay.run, hstep, Rust.ok_bind]
  show (Relay.run cfg r₁ inputs >>= fun x => pure (effects₁ ++ x.1, x.2)) = _
  cases Relay.run cfg r₁ inputs <;> rfl

/-- One iteration that stays in the loop and writes what it read changes nothing about the rest. -/
theorem terminateOnly_cons {r₁ : Relay} {input : Input}
    (hstep : Relay.step cfg r input = .ok (effects₁, .next r₁))
    (hwritten : backendBytes effects₁ = clientBytes [input]) (inputs : List Input) :
    TerminateOnly cfg r (input :: inputs) ↔ TerminateOnly cfg r₁ inputs := by
  have hbytes : clientBytes (input :: inputs) = clientBytes [input] ++ clientBytes inputs :=
    clientBytes_append [input] inputs
  unfold TerminateOnly
  rw [run_cons_of_next hstep, hbytes]
  constructor
  · rintro ⟨effects, outcome, hrun, hall⟩
    obtain ⟨⟨effects₂, outcome₂⟩, hrest, heq⟩ := Rust.map_returns.1 hrun
    cases heq
    refine ⟨effects₂, outcome₂, hrest, ?_⟩
    rw [backendBytes_append, hwritten, List.append_assoc] at hall
    exact hall.imp List.append_cancel_left List.append_cancel_left
  · rintro ⟨effects₂, outcome, hrun, hall⟩
    refine ⟨effects₁ ++ effects₂, outcome, Rust.map_returns.2 ⟨_, hrun, rfl⟩, ?_⟩
    rw [backendBytes_append, hwritten, List.append_assoc]
    exact hall.imp (congrArg _) (congrArg _)

/-- An iteration without a read leaves the buffer, the cached statements and the backend alone. -/
theorem terminateOnly_other {r₁ : Relay} {input : Input} (hread : clientReads [input] = [])
    (hstep : Relay.step cfg r input = .ok (effects₁, .next r₁)) (inputs : List Input) :
    r₁.frontendBuffer = r.frontendBuffer ∧
      (∃ pending, r₁.stmtCache = r.stmtCache.withPending pending) ∧
      clientReads (input :: inputs) = clientReads inputs ∧
      (TerminateOnly cfg r (input :: inputs) ↔ TerminateOnly cfg r₁ inputs) := by
  obtain ⟨hnone, hbuffer⟩ := Relay.step_other hread hstep
  have hbytes : clientBytes [input] = [] := by
    rw [← flatten_clientReads, hread]
    rfl
  have hreads : clientReads (input :: inputs) = clientReads inputs := by
    rw [← List.singleton_append, clientReads, List.filterMap_append, ← clientReads, hread,
      List.nil_append, clientReads]
  exact ⟨hbuffer r₁ rfl, Relay.step_other_cache hread hstep, hreads,
    terminateOnly_cons hstep (hnone.trans hbytes.symm) inputs⟩

/-- After an intercepted read nothing that is left of the stream is written. -/
theorem terminateOnly_intercepted {now : Nat} (hne : data ≠ [])
    (hext : extractMessages r.frontendBuffer data = .ok (.terminate :: msgs, buffer))
    (inputs : List Input) :
    TerminateOnly cfg r (.clientRead data now {} :: inputs) ↔
      data ++ (clientReads inputs).flatten = terminateFrame.encode := by
  have hrun : Relay.run cfg r (.clientRead data now {} :: inputs) =
      .ok ([], .exit (.release r.managedConn)) :=
    Rust.bind_returns.2 ⟨_, clientRead_terminate hext, rfl⟩
  have hbytes : clientBytes (.clientRead data now {} :: inputs) = data ++ clientBytes inputs := rfl
  rw [TerminateOnly, hrun, hbytes, ← flatten_clientReads]
  constructor
  · rintro ⟨effects, outcome, heq, hall⟩
    cases heq
    rcases hall with hall | hall
    · exact absurd (List.append_eq_nil_iff.1 hall.symm).1 hne
    · exact hall.symm
  · intro hall
    exact ⟨_, _, rfl, .inr hall.symm⟩

section

variable {cfg : RelayConfig} (hmode : cfg.strategy.poolingMode ≠ .transaction) {r : Relay}
  {data : List UInt8} {now : Nat}

include hmode

/-- The relay gets through a read only if the read can be cut into messages and, unless it is
    intercepted, the detector and the decoder return on them. -/
theorem tracked_of_terminateOnly {inputs : List Input}
    (h : TerminateOnly cfg r (.clientRead data now {} :: inputs)) :
    ∃ msgs buffer, extractMessages r.frontendBuffer data = .ok (msgs, buffer) ∧
      (msgs.head? ≠ some .terminate → Tracked msgs ∧ r.stmtCache.Decodes msgs) := by
  obtain ⟨effects, outcome, hrun, -⟩ := h
  obtain ⟨x, hstep, -⟩ := Rust.bind_returns.1 hrun
  obtain ⟨⟨msgs, buffer⟩, hext, hstep⟩ := Rust.bind_returns.1 hstep
  obtain ⟨⟨r₁, applied, v⟩, hmsgs, -⟩ := Rust.bind_returns.1 hstep
  have hlegible := (Relay.handleMessages_verdict hmsgs).2
  have hcache := Relay.handleMessages_cache hmsgs
  refine ⟨msgs, buffer, hext, fun hhead => ?_⟩
  rw [Relay.lookedAt_of_forward (by rw [verdictOf_zero hmode, if_neg hhead])] at hlegible
  rw [passed_zero hmode hhead] at hcache
  exact ⟨(tracked_iff hmode msgs _).1 hlegible,
    PreparedStatementCache.decodes_iff.2 ⟨_, hcache⟩⟩

/-- Any other read on which detector and decoder return is forwarded as it came. -/
theorem terminateOnly_forwarded {buffer : List UInt8} {msgs : List Message}
    (hext : extractMessages r.frontendBuffer data = .ok (msgs, buffer))
    (hhead : msgs.head? ≠ some .terminate) (htracked : Tracked msgs)
    (hdecodes : r.stmtCache.Decodes msgs) (inputs : List Input) :
    ∃ effects r', Relay.step cfg r (.clientRead data now {}) = .ok (effects, .next r') ∧
      r'.frontendBuffer = buffer ∧
      msgs.foldlM PreparedStatementCache.observe r.stmtCache = .ok r'.stmtCache ∧
      (TerminateOnly cfg r (.clientRead data now {} :: inputs) ↔ TerminateOnly cfg r' inputs) := by
  have hpassed := passed_zero hmode hhead r.txnTracker.isInTransaction
  obtain ⟨r', applied, hlink, hcache, happlied, hread⟩ := Relay.clientRead_returns now hext
    ((tracked_iff hmode msgs r.txnTracker.isInTransaction).2 htracked) (by rw [hpassed]; exact hdecodes)
  rw [verdictOf_zero hmode, if_neg hhead] at hread
  rw [hpassed] at hcache
  have hstep : Relay.step cfg r (.clientRead data now {}) =
      .ok (applied ++ [.toBackend data], .next r') := hread
  have hwritten : backendBytes (applied ++ [.toBackend data]) =
      clientBytes [.clientRead data now {}] := by
    rw [backendBytes_append, backendBytes_applied happlied]
    rfl
  exact ⟨_, r', hstep, hlink.frontendBuffer, hcache, terminateOnly_cons hstep hwritten inputs⟩

end

/-- The iff for a run from any state of the loop, by induction on the iterations. -/
theorem terminateOnly_iff_heard (hmode : cfg.strategy.poolingMode ≠ .transaction)
    {inputs : List Input} (hrun : Undisturbed cfg r inputs) :
    TerminateOnly cfg r inputs ↔ Heard r.stmtCache r.frontendBuffer (clientReads inputs) := by
  induction inputs generalizing r with
  | nil => exact ⟨fun _ => heard_nil _ _, fun _ => ⟨[], .next r, rfl, .inl rfl⟩⟩
  | cons input inputs ih =>
    have hother (hread : clientReads [input] = []) (h : ∃ effects r', Relay.step cfg r input =
        .ok (effects, .next r') ∧ Undisturbed cfg r' inputs) :
        TerminateOnly cfg r (input :: inputs) ↔
          Heard r.stmtCache r.frontendBuffer (clientReads (input :: inputs)) := by
      obtain ⟨effects, r', hstep, hrest⟩ := h
      obtain ⟨hbuffer, ⟨pending, hcache⟩, hreads, hiff⟩ := terminateOnly_other hread hstep inputs
      rw [hiff, ih hrest, hbuffer, hcache, heard_withPending, hreads]
    cases input with
    | clientClosed => exact hother rfl hrun
    | backendRead data writes reacquired => exact hother rfl hrun
    | backendClosed => exact hother rfl hrun
    | deadline now => exact hother rfl hrun
    | clientRead data now writes =>
      obtain ⟨hne, rfl, hrest⟩ := hrun
      have hreads : clientReads (.clientRead data now {} :: inputs) = data :: clientReads inputs := rfl
      rw [hreads]
      cases hext : extractMessages r.frontendBuffer data with
      | error e =>
        refine iff_of_false (fun h => ?_) (not_heard_of_error hext _)
        obtain ⟨msgs, buffer, hok, -⟩ := tracked_of_terminateOnly hmode h
        cases hext.symm.trans hok
      | ok extracted =>
        obtain ⟨msgs, buffer⟩ := extracted
        rw [heard_cons hext]
        by_cases hhead : msgs.head? = some .terminate
        · obtain ⟨tail, rfl⟩ := List.head?_eq_some_iff.1 hhead
          rw [if_pos hhead, terminateOnly_intercepted hne hext]
        · rw [if_neg hhead]
          by_cases hlooks : Tracked msgs ∧ r.stmtCache.Decodes msgs
          · obtain ⟨effects, r', hstep, hbuffer, hcache, hiff⟩ :=
              terminateOnly_forwarded hmode hext hhead hlooks.1 hlooks.2 inputs
            rw [hiff, ih (hrest _ _ hstep), hbuffer, hcache, and_iff_right hlooks.1,
              and_iff_right hlooks.2]
            simp only [Except.ok.injEq, forall_eq']
          · -- the detector or the decoder does not return, and neither does the run
            refine iff_of_false (fun h => ?_) (fun h => hlooks ⟨h.1, h.2.1⟩)
            obtain ⟨msgs', buffer', hok, hall⟩ := tracked_of_terminateOnly hmode h
            cases hext.symm.trans hok
            exact hlooks (hall hhead)

/-- In Session and Hybrid mode, for a client that sends the messages `fs` and then Terminate: the
    backend gets all its bytes or all but the Terminate frame exactly if a read that yields
    Terminate first is the Terminate frame, and before it the tracker can read the texts and the
    parameters can be decoded. -/
theorem terminateOnly_iff (cfg : RelayConfig) (conn : ManagedConnection) (inputs : List Input)
    (fs : List Frame) (hmode : cfg.strategy = .session ∨ cfg.strategy = .hybrid)
    (hrun : Undisturbed cfg (.start cfg conn) inputs)
    (hbytes : clientBytes inputs = encodeAll (fs ++ [terminateFrame])) :
    (∃ effects outcome, Relay.run cfg (.start cfg conn) inputs = .ok (effects, outcome) ∧
      (backendBytes effects = encodeAll (fs ++ [terminateFrame]) ∨
        backendBytes effects = encodeAll fs)) ↔
      Heard (.new cfg.maxPreparedStatements) [] (clientReads inputs) := by
  have hmode : cfg.strategy.poolingMode ≠ .transaction := by
    rcases hmode with h | h <;> rw [h] <;> decide
  have hlast : encodeAll (fs ++ [terminateFrame]) = encodeAll fs ++ terminateFrame.encode := by
    rw [Frame.encodeAll_append, Frame.encodeAll_cons, Frame.encodeAll_nil, List.append_nil]
  rw [← show (Relay.start cfg conn).frontendBuffer = [] from rfl,
    ← show (Relay.start cfg conn).stmtCache = .new cfg.maxPreparedStatements from rfl,
    ← terminateOnly_iff_heard hmode hrun, TerminateOnly, hbytes, hlast]
  simp only [List.append_cancel_right_eq]

theorem undisturbed_reads (cfg : RelayConfig) (r : Relay) (reads : List (List UInt8))
    (h : ∀ data ∈ reads, data ≠ []) : Undisturbed cfg r (reads.map (.clientRead · 0 {})) := by
  induction reads generalizing r with
  | nil => trivial
  | cons data reads ih =>
    obtain ⟨hdata, hreads⟩ := List.forall_mem_cons.1 h
    exact ⟨hdata, rfl, fun _ r' _ => ih r' hreads⟩

/-- A query that the tracker can read, and then Terminate in a read of its own. -/
theorem heard_query (cache : PreparedStatementCache) {sql : Str} {cs : List CommandClass}
    (h : extractMessages [] data = .ok ([.query sql], [])) (hread : readQuery sql = .ok cs) :
    Heard cache [] [data, terminateFrame.encode] := by
  have hterm : extractMessages [] terminateFrame.encode = .ok ([.terminate], []) := by
    decide +kernel
  have htracked : Tracked [.query sql] := by
    intro msg hmsg sql' hsql
    rw [List.mem_singleton.1 hmsg] at hsql
    cases hsql
    exact ⟨cs, hread⟩
  rw [heard_cons h, if_neg (by simp)]
  refine ⟨htracked, ⟨trivial, fun _ _ => trivial⟩, fun cache' _ => ?_⟩
  rw [heard_cons hterm, if_pos (List.head?_cons ..)]
  exact List.append_nil _

/-- `SELECT 1` and Terminate in reads of their own. -/
theorem terminateOnly_select :
    ∃ effects outcome, Relay.run ⟨.hybrid, 0, 100⟩ (.start ⟨.hybrid, 0, 100⟩ ⟨⟨0, none⟩, 0, false⟩)
        [.clientRead (Frame.encode ⟨msgQuery, asciiBytes "SELECT 1" ++ [0]⟩) 0 {},
          .clientRead terminateFrame.encode 0 {}] = .ok (effects, outcome) ∧
      (backendBytes effects =
          encodeAll ([⟨msgQuery, asciiBytes "SELECT 1" ++ [0]⟩] ++ [terminateFrame]) ∨
        backendBytes effects = encodeAll [⟨msgQuery, asciiBytes "SELECT 1" ++ [0]⟩]) := by
  have hquery : extractMessages [] (Frame.encode ⟨msgQuery, asciiBytes "SELECT 1" ++ [0]⟩) =
      .ok ([.query "SELECT 1".toList], []) := by decide +kernel
  have hread : readQuery "SELECT 1".toList = .ok [.clean] := by decide +kernel
  have hrun : Undisturbed ⟨.hybrid, 0, 100⟩ (.start ⟨.hybrid, 0, 100⟩ ⟨⟨0, none⟩, 0, false⟩)
      [.clientRead (Frame.encode ⟨msgQuery, asciiBytes "SELECT 1" ++ [0]⟩) 0 {},
        .clientRead terminateFrame.encode 0 {}] :=
    undisturbed_reads _ _ [_, _] (by decide)
  exact (terminateOnly_iff _ _ _ [⟨msgQuery, asciiBytes "SELECT 1" ++ [0]⟩] (.inr rfl) hrun
    (by decide)).2 (heard_query _ hquery hread)

/-- CopyDone is not a message that the relay parses: sent with Terminate in one read, it is kept
    back with it. -/
theorem copyDone_lost :
    ¬ ∃ effects outcome,
      Relay.run ⟨.session, 0, 100⟩ (.start ⟨.session, 0, 100⟩ ⟨⟨0, none⟩, 0, false⟩)
        [.clientRead (encodeAll [⟨'c'.toUInt8, []⟩, terminateFrame]) 0 {}] = .ok (effects, outcome) ∧
      (backendBytes effects = encodeAll ([⟨'c'.toUInt8, []⟩] ++ [terminateFrame]) ∨
        backendBytes effects = encodeAll [⟨'c'.toUInt8, []⟩]) := by
  have hrun : (Relay.run ⟨.session, 0, 100⟩ (.start ⟨.session, 0, 100⟩ ⟨⟨0, none⟩, 0, false⟩)
      [.clientRead (encodeAll [⟨'c'.toUInt8, []⟩, terminateFrame]) 0 {}]).map
      (fun x => backendBytes x.1) = .ok [] := by decide +kernel
  rintro ⟨effects, outcome, heq, hall⟩
  rw [heq] at hrun
  have hnone : backendBytes effects = [] := Except.ok.inj hrun
  rw [hnone] at hall
  exact absurd hall (by decide)

end ScryProxy
