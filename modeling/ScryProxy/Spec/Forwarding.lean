import ScryProxy.Spec.BindDecoding
import ScryProxy.Spec.FailClosed
import ScryProxy.Spec.Pins

/-!
# What becomes of a client read

A read is forwarded, rejected or intercepted as a whole; which of these is decided by the
messages it completes.  `verdictOf` is that decision without the bookkeeping around it:
`clientRead_returns` says what the relay does with a read on whose texts the command
detector returns, and `handleMessages_verdict` that nothing else ever happens.
-/

namespace ScryProxy

open ConnectionState (readQuery)
open Frame (encodeAll)

/-- The bytes written to the backend, in order. -/
def backendBytes (effects : List Effect) : List UInt8 :=
  effects.flatMap fun
    | .toBackend data => data
    | _ => []

/-- The reads of a run. -/
def clientReads (inputs : List Input) : List (List UInt8) :=
  inputs.filterMap fun
    | .clientRead data _ _ => some data
    | _ => none

/-- The Terminate message. -/
def terminateFrame : Frame := ⟨msgTerminate, []⟩

@[simp] theorem backendBytes_append (es es' : List Effect) :
    backendBytes (es ++ es') = backendBytes es ++ backendBytes es' := List.flatMap_append

theorem backendBytes_eq_nil {es : List Effect} (h : ∀ e ∈ es, ∀ data, e ≠ .toBackend data) :
    backendBytes es = [] := by
  refine List.flatMap_eq_nil_iff.2 fun e he => ?_
  cases e with
  | toBackend data => exact absurd rfl (h _ he data)
  | toClient | applied | queryFailed | queryCompleted | released | reacquired => rfl

theorem backendBytes_applied {es : List Effect} (h : ∀ e ∈ es, ∃ sql, e = .applied sql) :
    backendBytes es = [] := by
  refine backendBytes_eq_nil fun e he data heq => ?_
  obtain ⟨sql, rfl⟩ := h e he
  exact nomatch heq

theorem flatten_clientReads (inputs : List Input) :
    (clientReads inputs).flatten = clientBytes inputs := by
  induction inputs with
  | nil => rfl
  | cons input inputs ih =>
    rw [← List.singleton_append, clientBytes_append, ← ih]
    cases input <;> simp [clientReads, clientBytes]

namespace Relay

/-! ## The decision on a read -/

/-- The error with which the pooling mode rejects a message. -/
def rejection (cfg : RelayConfig) (inTransaction : Bool) (msg : Message) : Option String :=
  match msg.sql? with
  | none => none
  | some sql =>
    match cfg.strategy.poolingMode.validate sql inTransaction with
    | .ok error => error
    | .error _ => none

/-- The command detector returns on the text of the message, wherever the relay applies it. -/
def Legible (cfg : RelayConfig) (inTransaction : Bool) (msg : Message) : Prop :=
  ∀ sql, msg.sql? = some sql → ∃ error, cfg.strategy.poolingMode.validate sql inTransaction = .ok error ∧
    (error = none → ∃ cs, readQuery sql = .ok cs)

def verdictOn (cfg : RelayConfig) (inTransaction : Bool) (index : Nat) (msg : Message) : Verdict :=
  match rejection cfg inTransaction msg with
  | some error => .reject error
  | none => if msg = .terminate ∧ index = 0 then .terminate else .forward

/-- The first message that is not let through decides. -/
def verdictOf (cfg : RelayConfig) (inTransaction : Bool) : Nat → List Message → Verdict
  | _, [] => .forward
  | index, msg :: msgs =>
    match verdictOn cfg inTransaction index msg with
    | .forward => verdictOf cfg inTransaction (index + 1) msgs
    | verdict => verdict

/-- The messages before the one that decides. -/
def passed (cfg : RelayConfig) (inTransaction : Bool) : Nat → List Message → List Message
  | _, [] => []
  | index, msg :: msgs =>
    match verdictOn cfg inTransaction index msg with
    | .forward => msg :: passed cfg inTransaction (index + 1) msgs
    | _ => []

/-- The messages up to the one that decides. -/
def lookedAt (cfg : RelayConfig) (inTransaction : Bool) : Nat → List Message → List Message
  | _, [] => []
  | index, msg :: msgs =>
    msg :: match verdictOn cfg inTransaction index msg with
    | .forward => lookedAt cfg inTransaction (index + 1) msgs
    | _ => []

variable {cfg : RelayConfig} {r r' : Relay} {i : Nat} {msg : Message} {msgs : List Message}
  {effects : List Effect} {v : Verdict}

variable {inTransaction : Bool}

theorem lookedAt_of_forward (h : verdictOf cfg inTransaction i msgs = .forward) :
    lookedAt cfg inTransaction i msgs = msgs := by
  induction msgs generalizing i with
  | nil => rfl
  | cons msg msgs ih =>
    rw [verdictOf] at h
    rw [lookedAt]
    split at h
    · next hmsg => rw [ih h]
    · next hmsg => exact absurd h hmsg

theorem mem_of_mem_lookedAt (h : msg ∈ lookedAt cfg inTransaction i msgs) : msg ∈ msgs := by
  induction msgs generalizing i with
  | nil => exact h
  | cons m msgs ih =>
    rcases List.mem_cons.1 h with rfl | h
    · exact List.mem_cons_self
    · split at h
      · exact List.mem_cons_of_mem m (ih h)
      · cases h

/-- A text is applied exactly if the detector returns on its parts. -/
theorem applyQuery_isOk_iff (s : ConnectionState) (sql : Str) :
    (∃ s', s.applyQuery sql = .ok s') ↔ ∃ cs, readQuery sql = .ok cs := by
  rw [ConnectionState.applyQuery_eq]
  cases readQuery sql with
  | error e => exact ⟨nofun, nofun⟩
  | ok cs => exact ⟨fun _ => ⟨cs, rfl⟩, fun _ => ⟨_, rfl⟩⟩

theorem applyParseState_isOk_iff (s : ConnectionState) (name sql : Str) (oids : List Nat) :
    (∃ s', s.applyParseState name sql oids = .ok s') ↔ ∃ cs, readQuery sql = .ok cs := by
  rw [← applyQuery_isOk_iff s, ConnectionState.applyParseState]
  constructor
  · rintro ⟨s', h⟩
    obtain ⟨s₁, h₁, -⟩ := Rust.bind_returns.1 h
    exact ⟨s₁, h₁⟩
  · rintro ⟨s₁, h₁⟩
    exact ⟨_, Rust.bind_returns.2 ⟨s₁, h₁, rfl⟩⟩

theorem legible_of_no_text (hsql : msg.sql? = none) : Legible cfg inTransaction msg := by
  intro sql h
  rw [hsql] at h
  cases h

/-- A message with a text: the mode is asked first, then the text is applied. -/
theorem legible_iff {sql : Str} (hsql : msg.sql? = some sql) :
    Legible cfg inTransaction msg ↔
      (∃ error, cfg.strategy.poolingMode.validate sql inTransaction = .ok (some error)) ∨
      (cfg.strategy.poolingMode.validate sql inTransaction = .ok none ∧
        ∃ cs, readQuery sql = .ok cs) := by
  constructor
  · intro h
    obtain ⟨error, hvalid, hread⟩ := h sql hsql
    cases error with
    | some error => exact .inl ⟨error, hvalid⟩
    | none => exact .inr ⟨hvalid, hread rfl⟩
  · intro h sql' hsql'
    obtain rfl : sql = sql' := Option.some.inj (hsql.symm.trans hsql')
    rcases h with ⟨error, hvalid⟩ | ⟨hvalid, hread⟩
    · exact ⟨some error, hvalid, nofun⟩
    · exact ⟨none, hvalid, fun _ => hread⟩

theorem handleMessage_verdict (h : handleMessage cfg r i msg = .ok (r', effects, v)) :
    v = verdictOn cfg r.txnTracker.isInTransaction i msg ∧
      Legible cfg r.txnTracker.isInTransaction msg := by
  cases msg with
  | parse name sql oids =>
    obtain ⟨error, hvalid, h⟩ := Rust.bind_returns.1 h
    rw [legible_iff rfl]
    cases error with
    | some error =>
      cases h
      exact ⟨by simp [verdictOn, rejection, Message.sql?, hvalid], .inl ⟨error, hvalid⟩⟩
    | none =>
      obtain ⟨s, hs, h⟩ := Rust.bind_returns.1 h
      cases h
      exact ⟨by simp [verdictOn, rejection, Message.sql?, hvalid],
        .inr ⟨hvalid, (applyParseState_isOk_iff _ _ _ _).1 ⟨s, hs⟩⟩⟩
  | query sql =>
    obtain ⟨error, hvalid, h⟩ := Rust.bind_returns.1 h
    rw [legible_iff rfl]
    cases error with
    | some error =>
      cases h
      exact ⟨by simp [verdictOn, rejection, Message.sql?, hvalid], .inl ⟨error, hvalid⟩⟩
    | none =>
      obtain ⟨s, hs, h⟩ := Rust.bind_returns.1 h
      cases h
      exact ⟨by simp [verdictOn, rejection, Message.sql?, hvalid],
        .inr ⟨hvalid, (applyQuery_isOk_iff _ _).1 ⟨s, hs⟩⟩⟩
  | close kind name =>
    simp only [handleMessage] at h
    split at h
    · cases h; exact ⟨rfl, legible_of_no_text rfl⟩
    · split at h <;> cases h <;> exact ⟨rfl, legible_of_no_text rfl⟩
  | terminate =>
    cases h
    refine ⟨?_, legible_of_no_text rfl⟩
    by_cases hi : i = 0 <;>
      simp [verdictOn, rejection, Message.sql?, shouldInterceptTerminate, hi]
  | bind =>
    obtain ⟨cache, -, h⟩ := Rust.map_returns.1 h
    cases h
    exact ⟨rfl, legible_of_no_text rfl⟩
  | execute | sync => cases h; exact ⟨rfl, legible_of_no_text rfl⟩

/-- A message that is forwarded has gone through the cache. -/
theorem handleMessage_cache (h : handleMessage cfg r i msg = .ok (r', effects, .forward)) :
    r.stmtCache.observe msg = .ok r'.stmtCache := by
  cases msg with
  | parse name query paramOids | query query =>
    obtain ⟨error, -, h⟩ := Rust.bind_returns.1 h
    cases error with
    | some error => cases h
    | none =>
      obtain ⟨s, -, h⟩ := Rust.bind_returns.1 h
      cases h
      rfl
  | bind portal statement formatCodes paramsRaw =>
    obtain ⟨cache, hcache, h⟩ := Rust.map_returns.1 h
    cases h
    exact hcache
  | close kind name =>
    simp only [handleMessage] at h
    split at h
    · next hkind => cases h; simp [PreparedStatementCache.observe, hkind]
    · next hkind =>
      split at h
      · next hkind' => cases h; simp [PreparedStatementCache.observe, hkind']
      · next hkind' => cases h; simp [PreparedStatementCache.observe, hkind, hkind']
  | terminate =>
    simp only [handleMessage] at h
    split at h
    · cases h
    · cases h; rfl
  | execute portal | sync => cases h; rfl

/-- A message that is not forwarded changes nothing. -/
theorem handleMessage_kept (h : handleMessage cfg r i msg = .ok (r', effects, v))
    (hv : v ≠ .forward) : r' = r := by
  cases msg with
  | parse | query =>
    obtain ⟨error, -, h⟩ := Rust.bind_returns.1 h
    cases error with
    | some error => cases h; rfl
    | none =>
      obtain ⟨s, -, h⟩ := Rust.bind_returns.1 h
      cases h
      exact absurd rfl hv
  | bind =>
    obtain ⟨cache, -, h⟩ := Rust.map_returns.1 h
    cases h
    exact absurd rfl hv
  | close kind name =>
    simp only [handleMessage] at h
    split at h
    · cases h; exact absurd rfl hv
    · split at h <;> cases h <;> exact absurd rfl hv
  | execute | sync => cases h; exact absurd rfl hv
  | terminate => cases h; rfl

theorem bindable_of_not_forward {cache : PreparedStatementCache}
    (h : verdictOn cfg inTransaction i msg ≠ .forward) : cache.Bindable msg := by
  cases msg with
  | bind => exact absurd rfl h
  | parse | query | close | execute | sync | terminate => trivial

theorem handleMessage_returns (h : Legible cfg r.txnTracker.isInTransaction msg)
    (hbind : r.stmtCache.Bindable msg) : ∃ x, handleMessage cfg r i msg = .ok x := by
  cases msg with
  | parse name sql oids =>
    rcases (legible_iff rfl).1 h with ⟨error, hvalid⟩ | ⟨hvalid, hread⟩
    · exact ⟨_, Rust.bind_returns.2 ⟨_, hvalid, rfl⟩⟩
    · obtain ⟨s, hs⟩ := (applyParseState_isOk_iff r.connState name sql oids).2 hread
      exact ⟨_, Rust.bind_returns.2 ⟨_, hvalid, Rust.bind_returns.2 ⟨_, hs, rfl⟩⟩⟩
  | query sql =>
    rcases (legible_iff rfl).1 h with ⟨error, hvalid⟩ | ⟨hvalid, hread⟩
    · exact ⟨_, Rust.bind_returns.2 ⟨_, hvalid, rfl⟩⟩
    · obtain ⟨s, hs⟩ := (applyQuery_isOk_iff r.connState sql).2 hread
      exact ⟨_, Rust.bind_returns.2 ⟨_, hvalid, Rust.bind_returns.2 ⟨_, hs, rfl⟩⟩⟩
  | close kind name =>
    simp only [handleMessage]
    split
    · exact ⟨_, rfl⟩
    · split <;> exact ⟨_, rfl⟩
  | bind =>
    exact Rust.map_returns_iff.2 (PreparedStatementCache.bindPortal_returns_iff.2 hbind)
  | execute | sync | terminate => exact ⟨_, rfl⟩

/-- The decision on the messages of a read, whatever the bookkeeping; the detector has returned on
    every text that was looked at. -/
theorem handleMessages_verdict (h : handleMessages cfg r i msgs = .ok (r', effects, v)) :
    v = verdictOf cfg r.txnTracker.isInTransaction i msgs ∧
      ∀ msg ∈ lookedAt cfg r.txnTracker.isInTransaction i msgs,
        Legible cfg r.txnTracker.isInTransaction msg := by
  induction msgs generalizing r r' i effects v with
  | nil => cases h; exact ⟨rfl, nofun⟩
  | cons msg msgs ih =>
    obtain ⟨⟨r₁, effects₁, v₁⟩, hmsg, h⟩ := Rust.bind_returns.1 h
    obtain ⟨hv, hleg⟩ := handleMessage_verdict hmsg
    have htracker := (handleMessage_sameLink hmsg).1.txnTracker
    rw [verdictOf, lookedAt, ← hv, List.forall_mem_cons]
    cases v₁ with
    | forward =>
      obtain ⟨⟨r₂, effects₂, v₂⟩, hrest, h⟩ := Rust.bind_returns.1 h
      obtain ⟨hv₂, hleg₂⟩ := ih hrest
      rw [htracker] at hv₂ hleg₂
      cases h
      exact ⟨hv₂, hleg, hleg₂⟩
    -- anything but `forward` ends the loop here
    | reject error => cases h; exact ⟨rfl, hleg, nofun⟩
    | terminate => cases h; exact ⟨rfl, hleg, nofun⟩

theorem passed_of_forward (h : verdictOn cfg inTransaction i msg = .forward) (msgs : List Message) :
    passed cfg inTransaction i (msg :: msgs) = msg :: passed cfg inTransaction (i + 1) msgs := by
  rw [passed, h]

theorem passed_of_not_forward (h : verdictOn cfg inTransaction i msg ≠ .forward)
    (msgs : List Message) : passed cfg inTransaction i (msg :: msgs) = [] := by
  rw [passed]
  split
  · next hforward => exact absurd hforward h
  · rfl

/-- The messages that are passed have gone through the cache. -/
theorem handleMessages_cache (h : handleMessages cfg r i msgs = .ok (r', effects, v)) :
    (passed cfg r.txnTracker.isInTransaction i msgs).foldlM PreparedStatementCache.observe
      r.stmtCache = .ok r'.stmtCache := by
  induction msgs generalizing r i effects with
  | nil => cases h; rfl
  | cons msg msgs ih =>
    obtain ⟨⟨r₁, effects₁, v₁⟩, hmsg, h⟩ := Rust.bind_returns.1 h
    have hv := (handleMessage_verdict hmsg).1
    have htracker := (handleMessage_sameLink hmsg).1.txnTracker
    cases v₁ with
    | forward =>
      obtain ⟨⟨r₂, effects₂, v₂⟩, hrest, h⟩ := Rust.bind_returns.1 h
      cases h
      rw [passed_of_forward hv.symm, List.foldlM_cons, handleMessage_cache hmsg, ← htracker]
      exact ih hrest
    -- neither changes the cache
    | reject error =>
      cases h
      rw [passed_of_not_forward (by rw [← hv]; simp), handleMessage_kept hmsg (by simp)]
      rfl
    | terminate =>
      cases h
      rw [passed_of_not_forward (by rw [← hv]; simp), handleMessage_kept hmsg (by simp)]
      rfl

theorem handleMessages_returns
    (h : ∀ msg ∈ lookedAt cfg r.txnTracker.isInTransaction i msgs,
      Legible cfg r.txnTracker.isInTransaction msg)
    (hdecodes : r.stmtCache.Decodes (passed cfg r.txnTracker.isInTransaction i msgs)) :
    ∃ x, handleMessages cfg r i msgs = .ok x := by
  induction msgs generalizing r i with
  | nil => exact ⟨_, rfl⟩
  | cons msg msgs ih =>
    rw [lookedAt, List.forall_mem_cons] at h
    by_cases hforward : verdictOn cfg r.txnTracker.isInTransaction i msg = .forward
    · rw [passed_of_forward hforward] at hdecodes
      obtain ⟨⟨r₁, effects₁, v₁⟩, hmsg⟩ := handleMessage_returns (i := i) h.1 hdecodes.1
      have htracker := (handleMessage_sameLink hmsg).1.txnTracker
      obtain rfl : v₁ = .forward := (handleMessage_verdict hmsg).1.trans hforward
      have hlegible := h.2
      have hrest := hdecodes.2 _ (handleMessage_cache hmsg)
      rw [hforward, ← htracker] at hlegible
      rw [← htracker] at hrest
      obtain ⟨x, hrest⟩ := ih hlegible hrest
      exact ⟨_, Rust.bind_returns.2 ⟨_, hmsg, Rust.bind_returns.2 ⟨_, hrest, rfl⟩⟩⟩
    · obtain ⟨⟨r₁, effects₁, v₁⟩, hmsg⟩ := handleMessage_returns (i := i) h.1
        (bindable_of_not_forward hforward)
      have hv := (handleMessage_verdict hmsg).1
      cases v₁ with
      | forward => exact absurd hv.symm hforward
      | reject error => exact ⟨_, Rust.bind_returns.2 ⟨_, hmsg, rfl⟩⟩
      | terminate => exact ⟨_, Rust.bind_returns.2 ⟨_, hmsg, rfl⟩⟩

variable {data : List UInt8}

/-- What the relay does with a read for each decision on its messages. -/
theorem clientRead_returns {buffer : List UInt8} (now : Nat)
    (hext : extractMessages r.frontendBuffer data = .ok (msgs, buffer))
    (hleg : ∀ msg ∈ msgs, Legible cfg r.txnTracker.isInTransaction msg)
    (hdecodes : r.stmtCache.Decodes (passed cfg r.txnTracker.isInTransaction 0 msgs)) :
    ∃ r' applied, SameLink { r with frontendBuffer := buffer } r' ∧
      (passed cfg r.txnTracker.isInTransaction 0 msgs).foldlM PreparedStatementCache.observe
        r.stmtCache = .ok r'.stmtCache ∧
      (∀ e ∈ applied, ∃ sql, e = .applied sql) ∧
      clientRead cfg r data now {} = .ok
        (match verdictOf cfg r.txnTracker.isInTransaction 0 msgs with
        | .forward => (applied ++ [.toBackend data], .next r')
        | .reject error => (applied ++ [.toClient (buildErrorResponse "ERROR" "0A000" error),
            .toClient (buildReadyForQuery r.txnTracker)], .next r')
        | .terminate => (applied, .exit (.release r.managedConn))) := by
  obtain ⟨⟨r₁, applied, v⟩, hmsgs⟩ :=
    handleMessages_returns (r := { r with frontendBuffer := buffer }) (i := 0)
      (fun msg hmsg => hleg msg (mem_of_mem_lookedAt hmsg)) hdecodes
  obtain ⟨hlink, happlied⟩ := handleMessages_sameLink hmsgs
  obtain ⟨hv, -⟩ := handleMessages_verdict hmsgs
  have hv : v = verdictOf cfg r.txnTracker.isInTransaction 0 msgs := hv
  have htracker : r₁.txnTracker = r.txnTracker := hlink.txnTracker
  have hconn : r₁.managedConn = r.managedConn := hlink.managedConn
  have hcache : (armDeadline cfg r₁ now).stmtCache = r₁.stmtCache := by
    unfold armDeadline
    split <;> rfl
  refine ⟨armDeadline cfg r₁ now, applied, hlink.trans (armDeadline_sameLink cfg r₁ now), ?_,
    happlied, ?_⟩
  · rw [hcache]
    exact handleMessages_cache (r := { r with frontendBuffer := buffer }) hmsgs
  rw [← hv]
  simp only [clientRead, hext, Rust.ok_bind, hmsgs]
  cases v with
  | forward => rfl
  | reject error => simp only [htracker]; rfl
  | terminate => simp only [hconn]; rfl

/-! ## Framed reads -/

/-- The pooling mode rejects the message in the frame. -/
def rejects (cfg : RelayConfig) (inTransaction : Bool) (f : Frame) : Bool :=
  match parsePayload f.tag f.payload with
  | .ok (some msg) => (rejection cfg inTransaction msg).isSome
  | _ => false

/-- The read completes `frames` and leaves `rest` of the next one; the lengths are accepted, and the
    parsers, the command detector and the decoder of parameters return. -/
structure ReadOf (cfg : RelayConfig) (r : Relay) (data : List UInt8) (frames : List Frame)
    (rest : List UInt8) : Prop where
  bytes : r.frontendBuffer ++ data = encodeAll frames ++ rest
  fits : ∃ todo, Frame.Partial rest todo ∧ ∀ f ∈ frames ++ todo, Fits f
  legible : ∀ f ∈ frames, ∃ parsed, parsePayload f.tag f.payload = .ok parsed ∧
    ∀ msg, parsed = some msg → Legible cfg r.txnTracker.isInTransaction msg
  decodable : ∀ msgs, messagesOf frames = .ok msgs →
    r.stmtCache.Decodes (passed cfg r.txnTracker.isInTransaction 0 msgs)

variable {rest : List UInt8} {frames : List Frame}

/-- The frames of the read are those that the reader of a stream finds in it. -/
theorem ReadOf.split (h : ReadOf cfg r data frames rest) :
    Frame.split (r.frontendBuffer ++ data) = (frames, rest) := by
  obtain ⟨todo, hpart, hfits⟩ := h.fits
  rw [h.bytes]
  exact Frame.split_encodeAll (fun f hf => (hfits f hf).short) hpart

theorem verdictOf_forward (h : verdictOf cfg inTransaction i msgs = .forward) :
    ∀ msg ∈ msgs, rejection cfg inTransaction msg = none := by
  induction msgs generalizing i with
  | nil => exact nofun
  | cons m msgs ih =>
    rw [verdictOf] at h
    split at h
    · next hm =>
      intro msg hmsg
      rcases List.mem_cons.1 hmsg with rfl | hmsg
      · unfold verdictOn at hm
        split at hm
        · exact nomatch hm
        · assumption
      · exact ih h msg hmsg
    · next hm => exact absurd h hm

theorem verdictOf_reject {error : String} (h : verdictOf cfg inTransaction i msgs = .reject error) :
    ∃ msg ∈ msgs, rejection cfg inTransaction msg = some error := by
  induction msgs generalizing i with
  | nil => exact nomatch h
  | cons m msgs ih =>
    rw [verdictOf] at h
    split at h
    · obtain ⟨msg, hmsg, hrejected⟩ := ih h
      exact ⟨msg, List.mem_cons_of_mem m hmsg, hrejected⟩
    · refine ⟨m, List.mem_cons_self, ?_⟩
      unfold verdictOn at h
      split at h
      · next hm =>
        cases h
        exact hm
      · split at h <;> exact nomatch h

/-- Only the first message of a read can be intercepted. -/
theorem verdictOf_terminate (h : verdictOf cfg inTransaction i msgs = .terminate) :
    i = 0 ∧ ∃ tail, msgs = .terminate :: tail := by
  induction msgs generalizing i with
  | nil => exact nomatch h
  | cons m msgs ih =>
    rw [verdictOf] at h
    split at h
    · exact absurd (ih h).1 (Nat.succ_ne_zero i)
    · unfold verdictOn at h
      split at h
      · exact nomatch h
      · split at h
        · next hm => exact ⟨hm.2, msgs, by rw [hm.1]⟩
        · exact nomatch h

/-- What `extract_messages` yields comes from the frames. -/
theorem exists_frame (h : messagesOf frames = .ok msgs) (hmsg : msg ∈ msgs) :
    ∃ f ∈ frames, parsePayload f.tag f.payload = .ok (some msg) := by
  obtain ⟨parsed, hparsed, rfl⟩ := Rust.map_returns.1 h
  obtain ⟨p, hp, hmem⟩ := List.mem_flatMap.1 hmsg
  obtain ⟨f, hf, hfp⟩ := (Rust.mem_mapM hparsed).2 p hp
  cases p with
  | none => simp at hmem
  | some m => exact ⟨f, hf, by rw [hfp, List.mem_singleton.1 hmem]⟩

/-- The parsers return, so the extractor yields the messages of the frames. -/
theorem ReadOf.extracts (h : ReadOf cfg r data frames rest) :
    ∃ msgs, messagesOf frames = .ok msgs ∧
      extractMessages r.frontendBuffer data = .ok (msgs, rest) ∧
      ∀ msg ∈ msgs, Legible cfg r.txnTracker.isInTransaction msg := by
  obtain ⟨todo, hpart, hfits⟩ := h.fits
  obtain ⟨parsed, hparsed⟩ := Rust.mapM_returns
    (f := fun f : Frame => parsePayload f.tag f.payload) (l := frames) fun f hf =>
      (h.legible f hf).imp fun _ hf => hf.1
  have hmsgs : messagesOf frames = .ok (parsed.flatMap Option.toList) := by
    rw [messagesOf, hparsed]
    rfl
  refine ⟨_, hmsgs, ?_, fun msg hmsg => ?_⟩
  · rw [extractMessages_encodeAll hfits hpart h.bytes, hmsgs]
    rfl
  · obtain ⟨f, hf, hfm⟩ := exists_frame hmsgs hmsg
    obtain ⟨p, hp, hlegible⟩ := h.legible f hf
    rw [hfm] at hp
    exact hlegible msg (Except.ok.inj hp).symm

/-- What becomes of a framed read: forwarded if none of its messages is rejected, kept back with an
    error cycle if one is, intercepted if Terminate is the first that it yields. -/
theorem clientRead_framed (h : ReadOf cfg r data frames rest) (now : Nat) :
    ∃ r' applied, SameLink { r with frontendBuffer := rest } r' ∧
      (∀ e ∈ applied, ∃ sql, e = .applied sql) ∧
      (((∀ f ∈ frames, rejects cfg r.txnTracker.isInTransaction f = false) ∧
          clientRead cfg r data now {} = .ok (applied ++ [.toBackend data], .next r')) ∨
        ((∃ f ∈ frames, rejects cfg r.txnTracker.isInTransaction f = true) ∧
          ∃ msg error, rejection cfg r.txnTracker.isInTransaction msg = some error ∧
            clientRead cfg r data now {} =
              .ok (applied ++ [.toClient (buildErrorResponse "ERROR" "0A000" error),
                .toClient (buildReadyForQuery r.txnTracker)], .next r')) ∨
        ((∃ ms, messagesOf frames = .ok (.terminate :: ms)) ∧
          clientRead cfg r data now {} = .ok (applied, .exit (.release r.managedConn)))) := by
  obtain ⟨msgs, hmsgs, hext, hlegible⟩ := h.extracts
  obtain ⟨r', applied, hlink, -, happlied, hread⟩ :=
    clientRead_returns now hext hlegible (h.decodable msgs hmsgs)
  refine ⟨r', applied, hlink, happlied, ?_⟩
  cases hv : verdictOf cfg r.txnTracker.isInTransaction 0 msgs with
  | forward =>
    rw [hv] at hread
    refine .inl ⟨fun f hf => ?_, hread⟩
    unfold rejects
    split
    · next msg hfm =>
      rw [verdictOf_forward hv msg (mem_messagesOf hmsgs hf hfm)]
      rfl
    · rfl
  | reject error =>
    rw [hv] at hread
    obtain ⟨msg, hmsg, hrejected⟩ := verdictOf_reject hv
    obtain ⟨f, hf, hfm⟩ := exists_frame hmsgs hmsg
    refine .inr (.inl ⟨⟨f, hf, ?_⟩, msg, error, hrejected, hread⟩)
    rw [rejects, hfm]
    exact Option.isSome_of_eq_some hrejected
  | terminate =>
    rw [hv] at hread
    obtain ⟨-, tail, rfl⟩ := verdictOf_terminate hv
    exact .inr (.inr ⟨⟨tail, hmsgs⟩, hread⟩)

/-- The length of the frame is accepted, and the parsers and the command detector return on it. -/
def readable (cfg : RelayConfig) (inTransaction : Bool) (f : Frame) : Bool :=
  decide (f.len ≤ maxFrontendMessageSize) &&
    match parsePayload f.tag f.payload with
    | .error _ => false
    | .ok none => true
    | .ok (some msg) =>
      match msg.sql?.map fun sql => (cfg.strategy.poolingMode.validate sql inTransaction, readQuery sql) with
      | none => true
      | some (.ok (some _), _) => true
      | some (.ok none, .ok _) => true
      | _ => false

theorem legible_of_readable {f : Frame} (h : readable cfg inTransaction f = true) :
    Fits f ∧ ∃ parsed, parsePayload f.tag f.payload = .ok parsed ∧
      ∀ msg, parsed = some msg → Legible cfg inTransaction msg := by
  obtain ⟨hfits, h⟩ := (Bool.and_eq_true _ _).mp h
  refine ⟨of_decide_eq_true (p := f.len ≤ maxFrontendMessageSize) hfits, ?_⟩
  split at h
  · exact nomatch h
  · next hnone => exact ⟨none, hnone, nofun⟩
  · next msg hmsg =>
    refine ⟨some msg, hmsg, fun msg' heq sql hsql => ?_⟩
    cases heq
    rw [hsql, Option.map_some] at h
    split at h
    · next heq => cases heq
    · next error _ heq =>
      obtain ⟨hvalid, -⟩ := Prod.mk.inj (Option.some.inj heq)
      exact ⟨_, hvalid, nofun⟩
    · next cs heq =>
      obtain ⟨hvalid, hread⟩ := Prod.mk.inj (Option.some.inj heq)
      exact ⟨_, hvalid, fun _ => ⟨cs, hread⟩⟩
    · exact nomatch h

/-- No Bind is looked at. -/
def unbound (cfg : RelayConfig) (inTransaction : Bool) (frames : List Frame) : Bool :=
  (messagesOf frames).toOption.all fun msgs =>
    (passed cfg inTransaction 0 msgs).all fun
      | .bind _ _ _ _ => false
      | _ => true

/-- A read of whole messages by a relay that has none unfinished. -/
theorem readOf_encodeAll (hbuffer : r.frontendBuffer = [])
    (h : frames.all (readable cfg r.txnTracker.isInTransaction) = true)
    (hunbound : unbound cfg r.txnTracker.isInTransaction frames = true) :
    ReadOf cfg r (encodeAll frames) frames [] where
  bytes := by rw [hbuffer, List.nil_append, List.append_nil]
  fits := by
    refine ⟨[], rfl, fun f hf => ?_⟩
    rw [List.append_nil] at hf
    exact (legible_of_readable (List.all_eq_true.1 h f hf)).1
  legible := fun f hf => (legible_of_readable (List.all_eq_true.1 h f hf)).2
  decodable := by
    intro msgs hmsgs
    rw [unbound, hmsgs] at hunbound
    refine PreparedStatementCache.decodes_of_no_bind fun msg hmsg portal statement codes raw heq => ?_
    have hmsg := List.all_eq_true.1 hunbound msg hmsg
    rw [heq] at hmsg
    cases hmsg

/-! ## The other arms -/

/-- Only a client read writes to the backend or touches the reassembly buffer. -/
theorem step_other {input : Input} {outcome : Outcome} (hread : clientReads [input] = [])
    (h : step cfg r input = .ok (effects, outcome)) :
    backendBytes effects = [] ∧ ∀ r', outcome = .next r' → r'.frontendBuffer = r.frontendBuffer := by
  cases input with
  | clientRead data now writes => cases hread
  | clientClosed | backendClosed => cases h; exact ⟨rfl, fun _ hr' => by cases hr'⟩
  | deadline now =>
    simp only [step] at h
    split at h <;> cases h
    · exact ⟨rfl, fun _ hr' => by cases hr'⟩
    · exact ⟨rfl, fun r' hr' => by cases hr'; rfl⟩
  | backendRead data writes reacquired =>
    obtain ⟨r₁, settled, status, hlink, -, hsettled, -, hcases⟩ := backendRead_cases h
    have hnone : backendBytes settled = [] := by
      refine backendBytes_eq_nil fun e he bytes heq => ?_
      rcases hsettled e he with ⟨p, d, err, rfl⟩ | ⟨p, rfl⟩ <;> cases heq
    rcases hcases with ⟨-, rfl, rfl⟩ | ⟨-, ⟨conn, -, rfl, rfl⟩ | ⟨-, rfl, rfl⟩⟩ | ⟨rfl, rfl, -⟩
    · exact ⟨by rw [backendBytes_append, hnone]; rfl,
        fun r' hr' => by cases hr'; exact hlink.frontendBuffer⟩
    · exact ⟨by rw [backendBytes_append, hnone]; rfl,
        fun r' hr' => by cases hr'; exact hlink.frontendBuffer⟩
    · exact ⟨by rw [backendBytes_append, hnone]; rfl, fun _ hr' => by cases hr'⟩
    · exact ⟨hnone, fun _ hr' => by cases hr'⟩

/-- Only a client read changes the cached statements. -/
theorem step_other_cache {input : Input} (hread : clientReads [input] = [])
    (h : step cfg r input = .ok (effects, .next r')) :
    ∃ pending, r'.stmtCache = r.stmtCache.withPending pending := by
  cases input with
  | clientRead data now writes => cases hread
  | clientClosed | backendClosed => cases h
  | deadline now =>
    simp only [step] at h
    split at h <;> cases h
    exact ⟨_, rfl⟩
  | backendRead data writes reacquired =>
    simp only [step, backendRead_eq] at h
    obtain ⟨⟨r₁, settled⟩, hsettle, h⟩ := Rust.bind_returns.1 h
    obtain ⟨status, -, h⟩ := Rust.bind_returns.1 h
    have hsettled : ∃ pending, r₁.stmtCache = r.stmtCache.withPending pending := by
      rcases settlePending_cases hsettle with ⟨-, -, -, rfl, -⟩ | ⟨rfl, -⟩
      · exact ⟨_, rfl⟩
      · exact ⟨_, rfl⟩
    have hdisarm : (disarmDeadline cfg r₁).stmtCache = r₁.stmtCache := by
      unfold disarmDeadline
      split <;> rfl
    rw [← hdisarm] at hsettled
    -- what follows does not touch the cache
    generalize disarmDeadline cfg r₁ = r₂ at h hsettled
    have h := Except.ok.inj h
    unfold relayRead at h
    split at h
    · cases h
    · split at h
      · cases reacquired with
        | none => cases h
        | some conn => cases h; exact hsettled
      · cases h; exact hsettled

end Relay

end ScryProxy
