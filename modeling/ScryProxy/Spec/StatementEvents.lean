import ScryProxy.Spec.Forwarding
import ScryProxy.Spec.RecycleResync
import ScryProxy.Spec.ReleaseBoundary

/-!
# Events and the statements they are for

A run of the relay is cut into rounds: what the client sends, in any number of reads, and then
what the backend answers, in reads of whole messages.  `Account` is the protocol's account of a
session: which statements the client has asked for, and which of them an answer completes or
fails.  The relay keeps no such account.  Its events are decided by the text that was named
last for the unnamed portal and by the first read that shows an error or the end of a query,
so a round has at most one event.  It is the right one, and the only one needed, exactly in
the rounds described by `Matches`.

## Key results

- `shownOutcome_encodeAll`: what the scans make of a read of whole messages
- `Asking.agrees_read`: the text pending after the client's messages
- `reported_answers`: the events of a round
- `one_event_per_statement_iff`: the runs in which each round reports the statements that finish
  in it
-/

namespace ScryProxy

open Frame (encodeAll)

/-! ## What is reported -/

/-- The texts and outcomes that events are built from.  An event can still be dropped by the
    anonymizer. -/
def reported (effects : List Effect) : List (Str × Bool) :=
  effects.filterMap fun
    | .queryFailed pending _ _ => some (pending.query, false)
    | .queryCompleted pending => some (pending.query, true)
    | _ => none

theorem reported_append (es es' : List Effect) :
    reported (es ++ es') = reported es ++ reported es' := List.filterMap_append

theorem reported_applied {es : List Effect} (h : ∀ e ∈ es, ∃ sql, e = .applied sql) :
    reported es = [] := by
  refine List.filterMap_eq_nil_iff.2 fun e he => ?_
  obtain ⟨sql, rfl⟩ := h e he
  rfl

/-- What the scans make of a read: an error, the end of a query, or neither. -/
def shownOutcome (data : List UInt8) : Option Bool :=
  match extractError .wrapping data with
  | .ok (some _) => some false
  | _ => if isQueryComplete .wrapping data = .ok true then some true else none

/-- The event for the pending execution `slot`, if an outcome is shown. -/
def report (slot : Option PendingExecution) (shown : Option Bool) : List (Str × Bool) :=
  match slot, shown with
  | some pending, some ok => [(pending.query, ok)]
  | _, _ => []

@[simp] theorem report_none_left (shown : Option Bool) : report none shown = [] := rfl

@[simp] theorem report_none_right (slot : Option PendingExecution) : report slot none = [] := by
  cases slot <;> rfl

namespace Relay

/-- The execution pending on the unnamed portal: the only one that is ever settled. -/
def slot (r : Relay) : Option PendingExecution := r.stmtCache.pending.lookup []

variable {cfg : RelayConfig} {r r' : Relay} {effects : List Effect}

/-- Once an outcome is shown, the pending execution is reported with it and taken. -/
theorem takePending_reports {e : PendingExecution → Effect} {ok : Bool}
    (he : ∀ pending, reported [e pending] = [(pending.query, ok)])
    (h : (∃ pending, (r.stmtCache.takePending []).1 = some pending ∧
        r' = { r with stmtCache := (r.stmtCache.takePending []).2 } ∧ effects = [e pending]) ∨
      ((r.stmtCache.takePending []).1 = none ∧ r' = r ∧ effects = [])) :
    reported effects = report r.slot (some ok) ∧ r'.slot = none := by
  rcases h with ⟨pending, htake, hr', rfl⟩ | ⟨htake, hr', rfl⟩
  · have hslot : r.slot = some pending := htake
    rw [he, hslot, hr']
    exact ⟨rfl, AList.lookup_erase ..⟩
  · have hslot : r.slot = none := htake
    rw [hr', hslot]
    exact ⟨rfl, rfl⟩

/-- A backend read reports the pending execution if it shows an outcome, and takes it. -/
theorem settlePending_reports {data : List UInt8}
    (h : settlePending r data = .ok (r', effects)) :
    reported effects = report r.slot (shownOutcome data) ∧
      r'.slot = if (shownOutcome data).isSome then none else r.slot := by
  obtain ⟨error, herror, h⟩ := Rust.bind_returns.1 h
  cases error with
  | some error =>
    have hshown : shownOutcome data = some false := by simp [shownOutcome, herror]
    rw [hshown]
    exact takePending_reports (fun _ => rfl) (takePending_cases (e := (.queryFailed · data error)) h)
  | none =>
    obtain ⟨done, hdone, h⟩ := Rust.bind_returns.1 h
    cases done with
    | false =>
      have hshown : shownOutcome data = none := by simp [shownOutcome, herror, hdone]
      cases h
      simp [hshown, reported]
    | true =>
      have hshown : shownOutcome data = some true := by simp [shownOutcome, herror, hdone]
      rw [hshown]
      exact takePending_reports (fun _ => rfl) (takePending_cases (e := .queryCompleted) h)

theorem backendRead_reports {data : List UInt8} {writes : Writes}
    {reacquired : Option ManagedConnection}
    (h : backendRead cfg r data writes reacquired = .ok (effects, .next r')) :
    reported effects = report r.slot (shownOutcome data) ∧
      r'.slot = if (shownOutcome data).isSome then none else r.slot := by
  rw [backendRead_eq] at h
  obtain ⟨⟨r₁, settled⟩, hsettle, h⟩ := Rust.bind_returns.1 h
  obtain ⟨status, -, h⟩ := Rust.bind_returns.1 h
  obtain ⟨hreported, hslot⟩ := settlePending_reports hsettle
  have hdisarm : (disarmDeadline cfg r₁).slot = r₁.slot := by
    unfold disarmDeadline
    split <;> rfl
  rw [← hreported, ← hslot, ← hdisarm]
  -- what follows neither reports anything nor touches the cache
  generalize disarmDeadline cfg r₁ = r₂ at h
  have h := Except.ok.inj h
  unfold relayRead at h
  split at h
  · cases h
  · split at h
    · cases reacquired with
      | none => cases h
      | some conn =>
        cases h
        exact ⟨by simp [reported], rfl⟩
    · cases h
      exact ⟨by simp [reported], rfl⟩

theorem clientRead_reports {data : List UInt8} {now : Nat} {writes : Writes}
    (h : clientRead cfg r data now writes = .ok (effects, .next r')) : reported effects = [] := by
  obtain ⟨messages, buffer, r₁, applied, verdict, -, hmsgs, hcases⟩ := clientRead_cases h
  have happlied := reported_applied (handleMessages_sameLink hmsgs).2
  rcases hcases with ⟨-, rfl, -⟩ | ⟨⟨error, -, rfl⟩, -⟩ | ⟨-, how, hexit, -⟩
  · rw [reported_append, happlied]
    rfl
  · rw [reported_append, happlied]
    rfl
  · cases hexit

theorem run_append_next {inputs more : List Input} :
    run cfg r (inputs ++ more) = .ok (effects, .next r') ↔
      ∃ effects₁ effects₂ r₁, run cfg r inputs = .ok (effects₁, .next r₁) ∧
        run cfg r₁ more = .ok (effects₂, .next r') ∧ effects = effects₁ ++ effects₂ := by
  induction inputs generalizing r effects with
  | nil =>
    constructor
    · intro h
      exact ⟨[], effects, r, rfl, h, rfl⟩
    · rintro ⟨effects₁, effects₂, r₁, hrun, hmore, rfl⟩
      cases hrun
      exact hmore
  | cons input inputs ih =>
    constructor
    · intro h
      obtain ⟨first, rest, r₁, hstep, hrest, rfl⟩ := run_cons_next h
      obtain ⟨effects₁, effects₂, r₂, hrun, hmore, rfl⟩ := ih.1 hrest
      refine ⟨first ++ effects₁, effects₂, r₂, ?_, hmore, by rw [List.append_assoc]⟩
      simp only [run, hstep, hrun, Rust.ok_bind]
      rfl
    · rintro ⟨effects₁, effects₂, r₂, hrun, hmore, rfl⟩
      obtain ⟨first, rest, r₁, hstep, hrest, rfl⟩ := run_cons_next hrun
      have htail := ih.2 ⟨rest, effects₂, r₂, hrest, hmore, rfl⟩
      simp only [List.cons_append, run, hstep, htail, Rust.ok_bind]
      rw [List.append_assoc]
      rfl

end Relay

/-! ## Reads of whole messages -/

/-- The first message that is an ErrorResponse or has no payload is an ErrorResponse with a text. -/
def showsError (fs : List Frame) : Bool :=
  match fs.find? fun f => f.tag = msgErrorResponse ∨ f.payload = [] with
  | some f => f.tag = msgErrorResponse &&
      ((parseErrorFields f.payload).severity.isSome || (parseErrorFields f.payload).message.isSome)
  | none => false

/-- What is seen in the messages of a read: a failure, or else a success if one of them is
    CommandComplete or ReadyForQuery. -/
def shownBy (fs : List Frame) : Option Bool :=
  if showsError fs then some false else if fs.any (endsQuery ·.tag) then some true else none

theorem scanErrors_eq_find (fs : List Frame) :
    scanErrors (.ok none) fs = .ok
      ((fs.find? fun f => f.tag = msgErrorResponse ∨ f.payload = []).bind fun f =>
        if f.tag = msgErrorResponse then some (parseErrorFields f.payload) else none) := by
  induction fs with
  | nil => rfl
  | cons f fs ih =>
    rw [scanErrors]
    by_cases htag : f.tag = msgErrorResponse
    · simp [htag]
    · by_cases hpayload : f.payload = []
      · simp [htag, hpayload]
      · simp [htag, hpayload, ih]

theorem isQueryComplete_whole {fs : List Frame} (hlen : ∀ f ∈ fs, f.len < 2 ^ 31) :
    isQueryComplete .wrapping (encodeAll fs) = .ok (fs.any (endsQuery ·.tag)) := by
  have h := @isQueryComplete_encodeAll fs [] [] .wrapping (by rw [List.append_nil]; exact hlen) rfl
  rw [List.append_nil] at h
  rw [h]
  simp [headerTag]

theorem extractError_whole {fs : List Frame} (hlen : ∀ f ∈ fs, f.len < 2 ^ 31) :
    ∃ error, extractError .wrapping (encodeAll fs) = .ok error ∧ error.isSome = showsError fs := by
  simp only [extractError, findErrorFields_whole .wrapping hlen, scanErrors_eq_find, Rust.ok_bind,
    showsError]
  cases fs.find? fun f => f.tag = msgErrorResponse ∨ f.payload = [] with
  | none => exact ⟨none, rfl, rfl⟩
  | some f =>
    by_cases htag : f.tag = msgErrorResponse
    · simp only [htag, if_true, Option.bind_some, decide_true, Bool.true_and]
      cases (parseErrorFields f.payload).severity <;> cases (parseErrorFields f.payload).message <;>
        exact ⟨_, rfl, rfl⟩
    · simp only [htag, if_false, Option.bind_some, decide_false, Bool.false_and]
      exact ⟨none, rfl, rfl⟩

/-- What the scans make of a read of whole messages. -/
theorem shownOutcome_encodeAll {fs : List Frame} (hlen : ∀ f ∈ fs, f.len < 2 ^ 31) :
    shownOutcome (encodeAll fs) = shownBy fs := by
  obtain ⟨error, herror, hshows⟩ := extractError_whole hlen
  simp only [shownOutcome, shownBy, herror, ← hshows, isQueryComplete_whole hlen, Except.ok.injEq]
  cases error <;> rfl

/-! ## The protocol's account -/

def msgEmptyQueryResponse : UInt8 := 'I'.toUInt8
def msgPortalSuspended : UInt8 := 's'.toUInt8

/-- What a client has asked a backend for.  A cycle is what ends with one ReadyForQuery. -/
structure Account where
  statements : AList fun _ : Str => Str
  portals : AList fun _ : Str => Str
  /-- cycles ended by a Query or a Sync, oldest first: the texts that are still to be executed -/
  closed : List (List Str)
  /-- the cycle that the client has not ended yet -/
  current : List Str
  /-- it has failed: the backend passes over what follows, up to a Sync -/
  failed : Bool
  deriving DecidableEq

namespace Account

def new : Account := ⟨∅, ∅, [], [], false⟩

/-- The client sends a message. -/
def ask (l : Account) : Message → Account
  | .parse name sql _ => { l with statements := l.statements.insert name sql }
  | .bind portal name _ _ =>
    match l.statements.lookup name with
    | some sql => { l with portals := l.portals.insert portal sql }
    | none => { l with portals := l.portals.erase portal }
  | .execute portal =>
    match l.portals.lookup portal with
    | some sql => if l.failed then l else { l with current := l.current ++ [sql] }
    | none => l
  | .query sql =>
    if l.failed then l else { l with closed := l.closed ++ [l.current ++ [sql]], current := [] }
  | .sync => { l with closed := l.closed ++ [l.current], current := [], failed := false }
  | .close kind name =>
    if kind = 'S' then { l with statements := l.statements.erase name }
    else { l with portals := l.portals.erase name }
  | .terminate => l

/-- The texts of the cycle that is being answered. -/
def front (l : Account) : List Str := l.closed.headD l.current

def setFront (l : Account) (texts : List Str) : Account :=
  match l.closed with
  | _ :: cycles => { l with closed := texts :: cycles }
  | [] => { l with current := texts }

/-- A message comes from the backend: the statement that it completes (`true`) or fails. -/
def answer (l : Account) (f : Frame) : Account × List (Str × Bool) :=
  if f.tag = msgCommandComplete ∨ f.tag = msgEmptyQueryResponse then
    (l.setFront l.front.tail, (l.front.take 1).map (·, true))
  else if f.tag = msgPortalSuspended then (l.setFront l.front.tail, [])
  else if f.tag = msgErrorResponse then
    ({ l.setFront [] with failed := l.failed || l.closed.isEmpty }, (l.front.take 1).map (·, false))
  else if f.tag = msgReadyForQuery then ({ l with closed := l.closed.tail }, [])
  else (l, [])

def answerAll (l : Account) : List Frame → Account × List (Str × Bool)
  | [] => (l, [])
  | f :: fs =>
    let (l, finished) := l.answer f
    let (l, more) := l.answerAll fs
    (l, finished ++ more)

end Account

/-! ## What the client's messages leave pending -/

/-- The text named for the unnamed portal after a message. -/
def entryAfter (cache : PreparedStatementCache) (entry : Option Str) : Message → Option Str
  | .parse _ sql _ | .query sql => some sql
  | .bind portal name _ _ =>
    if portal = [] then
      some (((cache.statements.lookup name).map PreparedStatement.query).getD
        ("[unknown: ".toList ++ name ++ [']']))
    else entry
  | .close kind name => if kind = 'P' ∧ name = [] then none else entry
  | .execute _ | .sync | .terminate => entry

/-- What a round's reads from the client amount to: the unfinished message, the cached statements,
    the text named for the unnamed portal, and the protocol's account. -/
structure Asking where
  buffer : List UInt8
  cache : PreparedStatementCache
  entry : Option Str
  account : Account

namespace Asking

/-- The relay notes a message it lets through. -/
def note (a : Asking) (msg : Message) : Asking :=
  { a with
    cache := (a.cache.observe msg).toOption.getD a.cache
    entry := entryAfter a.cache a.entry msg }

/-- The client's next read.  The relay notes the messages before one that it rejects; the backend gets
    the read as a whole or not at all. -/
def read (cfg : RelayConfig) (inTransaction : Bool) (a : Asking) (data : List UInt8) : Asking :=
  match extractMessages a.buffer data with
  | .error _ => a
  | .ok (msgs, buffer) =>
    { (Relay.passed cfg inTransaction 0 msgs).foldl note a with
      buffer
      account :=
        if Relay.verdictOf cfg inTransaction 0 msgs = .forward then msgs.foldl Account.ask a.account
        else a.account }

/-- The account agrees with the relay's state. -/
structure Agrees (a : Asking) (r : Relay) : Prop where
  buffer : r.frontendBuffer = a.buffer
  cache : r.stmtCache = a.cache
  entry : r.slot.map PendingExecution.query = a.entry

/-- A message leaves on the unnamed portal what `entryAfter` says. -/
theorem entry_observe {cache cache' : PreparedStatementCache} {msg : Message}
    (h : cache.observe msg = .ok cache') :
    (cache'.pending.lookup []).map PendingExecution.query =
      entryAfter cache ((cache.pending.lookup []).map PendingExecution.query) msg := by
  cases msg with
  | parse | query =>
    cases h
    exact congrArg _ (AList.lookup_insert _)
  | bind portal statement formatCodes paramsRaw =>
    simp only [PreparedStatementCache.observe] at h
    simp only [entryAfter]
    cases hfound : cache.statements.lookup statement with
    | none =>
      rw [PreparedStatementCache.bindPortal_none _ _ _ hfound] at h
      cases h
      by_cases hportal : portal = []
      · subst hportal
        simp [PreparedStatementCache.setPending]
      · simp [PreparedStatementCache.setPending, hportal, AList.lookup_insert_ne (Ne.symm hportal)]
    | some stmt =>
      rw [PreparedStatementCache.bindPortal_some _ _ _ hfound] at h
      obtain ⟨values, -, h⟩ := Rust.map_returns.1 h
      cases h
      simp only [PreparedStatementCache.getStatement, hfound]
      by_cases hportal : portal = []
      · subst hportal
        simp [PreparedStatementCache.setPending]
      · simp [PreparedStatementCache.setPending, hportal, AList.lookup_insert_ne (Ne.symm hportal)]
  | close kind name =>
    simp only [PreparedStatementCache.observe] at h
    unfold entryAfter
    split at h
    · next hkind =>
      cases h
      simp [hkind, PreparedStatementCache.removeStatement]
    · split at h
      · next hkind =>
        cases h
        by_cases hname : name = []
        · simp [hkind, hname, PreparedStatementCache.clearPending]
        · simp [hkind, hname, PreparedStatementCache.clearPending,
            AList.lookup_erase_ne (Ne.symm hname)]
      · next hkind =>
        cases h
        simp [hkind]
  | execute | sync | terminate => cases h; rfl

theorem foldl_note {a : Asking} {cache : PreparedStatementCache} {msgs : List Message}
    (h : msgs.foldlM PreparedStatementCache.observe a.cache = .ok cache)
    (hentry : (a.cache.pending.lookup []).map PendingExecution.query = a.entry) :
    (msgs.foldl note a).cache = cache ∧
      (cache.pending.lookup []).map PendingExecution.query = (msgs.foldl note a).entry := by
  induction msgs generalizing a with
  | nil => cases h; exact ⟨rfl, hentry⟩
  | cons msg msgs ih =>
    obtain ⟨cache₁, hmsg, hrest⟩ := Rust.bind_returns.1 h
    have hcache : (a.note msg).cache = cache₁ := by
      rw [note, hmsg]
      rfl
    refine ih (a := a.note msg) (by rw [hcache]; exact hrest) ?_
    rw [hcache, entry_observe hmsg, hentry]
    rfl

/-- A read that the relay goes on after. -/
theorem agrees_read {cfg : RelayConfig} {r r' : Relay} {a : Asking} {data : List UInt8} {now : Nat}
    {effects : List Effect} (ha : a.Agrees r)
    (h : Relay.clientRead cfg r data now {} = .ok (effects, .next r')) :
    (a.read cfg r.txnTracker.isInTransaction data).Agrees r' ∧ r'.txnTracker = r.txnTracker := by
  obtain ⟨msgs, buffer, r₁, applied, verdict, hext, hmsgs, hcases⟩ := Relay.clientRead_cases h
  have hlink := (Relay.handleMessages_sameLink hmsgs).1
  have hcache := Relay.handleMessages_cache hmsgs
  have hnext : r' = Relay.armDeadline cfg r₁ now := by
    rcases hcases with ⟨-, -, hnext⟩ | ⟨-, hnext⟩ | ⟨-, how, hexit, -⟩
    · exact Outcome.next.inj hnext
    · exact Outcome.next.inj hnext
    · cases hexit
  have harmed : (Relay.armDeadline cfg r₁ now).stmtCache = r₁.stmtCache := by
    unfold Relay.armDeadline
    split <;> rfl
  have hlink := hlink.trans (Relay.armDeadline_sameLink cfg r₁ now)
  rw [← hnext] at harmed hlink
  refine ⟨?_, hlink.txnTracker⟩
  have hstart : (a.cache.pending.lookup []).map PendingExecution.query = a.entry := by
    rw [← ha.cache]
    exact ha.entry
  rw [show ({ r with frontendBuffer := buffer } : Relay).stmtCache = a.cache from ha.cache] at hcache
  obtain ⟨hcache', hentry'⟩ := foldl_note hcache hstart
  have hread : a.read cfg r.txnTracker.isInTransaction data =
      { (Relay.passed cfg r.txnTracker.isInTransaction 0 msgs).foldl note a with
        buffer
        account :=
          if Relay.verdictOf cfg r.txnTracker.isInTransaction 0 msgs = .forward then
            msgs.foldl Account.ask a.account
          else a.account } := by
    rw [read, ← ha.buffer, hext]
  rw [hread]
  exact ⟨hlink.frontendBuffer, harmed.trans hcache'.symm, by rw [Relay.slot, harmed]; exact hentry'⟩

end Asking

/-! ## Rounds -/

/-- What the client sends and what then comes from the backend. -/
structure Round where
  /-- client reads, and when they return -/
  asks : List (List UInt8 × Nat)
  /-- backend reads, and the connection acquired again at the end of a transaction -/
  answers : List (List UInt8 × Option ManagedConnection)

namespace Round

def asked (x : Round) : List Input := x.asks.map fun ask => .clientRead ask.1 ask.2 {}

def answered (x : Round) : List Input := x.answers.map fun answer => .backendRead answer.1 {} answer.2

def inputs (x : Round) : List Input := x.asked ++ x.answered

/-- Each read from the backend is one of whole messages. -/
def Framed (x : Round) : Prop :=
  ∀ answer ∈ x.answers, ∃ fs, answer.1 = encodeAll fs ∧ ∀ f ∈ fs, f.len < 2 ^ 31

/-- The messages of a read. -/
def framesOf (answer : List UInt8 × Option ManagedConnection) : List Frame :=
  (Frame.split answer.1).1

/-- The outcome that the answers show first. -/
def shown (x : Round) : Option Bool := x.answers.findSome? fun answer => shownBy (framesOf answer)

/-- The account after the client's part of the round. -/
def asking (cfg : RelayConfig) (r : Relay) (l : Account) (x : Round) : Asking :=
  (x.asks.map Prod.fst).foldl (Asking.read cfg r.txnTracker.isInTransaction)
    ⟨r.frontendBuffer, r.stmtCache, r.slot.map PendingExecution.query, l⟩

/-- The statements that the answers complete or fail. -/
def finished (cfg : RelayConfig) (r : Relay) (l : Account) (x : Round) : List (Str × Bool) :=
  ((x.asking cfg r l).account.answerAll (x.answers.flatMap framesOf)).2

/-- Relay and account after a round that the relay stays in its loop for. -/
def step (cfg : RelayConfig) (s : Relay × Account) (x : Round) : Option (Relay × Account) :=
  match Relay.run cfg s.1 x.inputs with
  | .ok (_, .next r') =>
    some (r', ((x.asking cfg s.1 s.2).account.answerAll (x.answers.flatMap framesOf)).1)
  | _ => none

/-- The round reports the statements that finish in it, and nothing else. -/
def Exact (cfg : RelayConfig) (s : Relay × Account) (x : Round) : Prop :=
  ∀ effects r', Relay.run cfg s.1 x.inputs = .ok (effects, .next r') →
    reported effects = x.finished cfg s.1 s.2

/-- At most one statement finishes.  If one does, its text was named last for the unnamed portal and
    the outcome shown first is its own; if none does, no text is named or no outcome shown. -/
def Matches (entry : Option Str) (shown : Option Bool) : List (Str × Bool) → Prop
  | [] => entry = none ∨ shown = none
  | [(text, ok)] => entry = some text ∧ shown = some ok
  | _ => False

/-- The round is one in which `Matches` holds after the client's messages. -/
def Matched (cfg : RelayConfig) (s : Relay × Account) (x : Round) : Prop :=
  (x.step cfg s).isSome = true →
    Matches (x.asking cfg s.1 s.2).entry x.shown (x.finished cfg s.1 s.2)

/-- What finishes in a run of rounds. -/
def finishedIn (cfg : RelayConfig) : Relay × Account → List Round → List (Str × Bool)
  | _, [] => []
  | s, x :: xs =>
    x.finished cfg s.1 s.2 ++
      match x.step cfg s with
      | some s' => finishedIn cfg s' xs
      | none => []

variable {cfg : RelayConfig} {r r' : Relay} {s s' : Relay × Account} {effects : List Effect} {x : Round}

theorem report_eq_iff {slot : Option PendingExecution} {shown : Option Bool}
    {finished : List (Str × Bool)} :
    report slot shown = finished ↔ Matches (slot.map PendingExecution.query) shown finished := by
  cases slot with
  | none => rcases finished with _ | ⟨⟨text, ok⟩, _ | ⟨_, _⟩⟩ <;> simp [Matches]
  | some pending =>
    cases shown with
    | none => rcases finished with _ | ⟨⟨text, ok⟩, _ | ⟨_, _⟩⟩ <;> simp [Matches]
    | some shown =>
      rcases finished with _ | ⟨⟨text, ok⟩, _ | ⟨_, _⟩⟩ <;> simp [Matches, report]

theorem shown_eq (h : x.Framed) :
    (x.answers.findSome? fun answer => shownOutcome answer.1) = x.shown := by
  unfold shown
  have hall : ∀ answer ∈ x.answers, shownOutcome answer.1 = shownBy (framesOf answer) := by
    intro answer hanswer
    obtain ⟨fs, hfs, hlen⟩ := h answer hanswer
    have hsplit := @Frame.split_encodeAll fs [] [] (by rw [List.append_nil]; exact hlen) rfl
    rw [List.append_nil] at hsplit
    rw [framesOf, hfs, hsplit, shownOutcome_encodeAll hlen]
  clear h
  generalize x.answers = answers at hall
  induction answers with
  | nil => rfl
  | cons answer answers ih =>
    rw [List.findSome?_cons, List.findSome?_cons, hall answer List.mem_cons_self,
      ih fun a ha => hall a (List.mem_cons_of_mem answer ha)]

/-- The client's part of a round reports nothing, and leaves what the account says. -/
theorem agrees_asks {asks : List (List UInt8 × Nat)} {a : Asking} (ha : a.Agrees r)
    (h : Relay.run cfg r (asks.map fun ask => .clientRead ask.1 ask.2 {}) = .ok (effects, .next r')) :
    reported effects = [] ∧
      ((asks.map Prod.fst).foldl (Asking.read cfg r.txnTracker.isInTransaction) a).Agrees r' := by
  induction asks generalizing r a effects with
  | nil => cases h; exact ⟨rfl, ha⟩
  | cons ask asks ih =>
    obtain ⟨first, rest, r₁, hstep, hrest, rfl⟩ := Relay.run_cons_next h
    obtain ⟨hagrees, htracker⟩ := Asking.agrees_read ha hstep
    obtain ⟨hnone, hagrees'⟩ := ih hagrees hrest
    rw [htracker] at hagrees'
    rw [reported_append, Relay.clientRead_reports hstep, hnone]
    exact ⟨rfl, hagrees'⟩

/-- The answers report what is pending when they begin, with the outcome they show first. -/
theorem reported_answers {answers : List (List UInt8 × Option ManagedConnection)}
    (h : Relay.run cfg r (answers.map fun answer => .backendRead answer.1 {} answer.2) =
      .ok (effects, .next r')) :
    reported effects = report r.slot (answers.findSome? fun answer => shownOutcome answer.1) := by
  induction answers generalizing r effects with
  | nil =>
    cases h
    rw [List.findSome?_nil, report_none_right]
    rfl
  | cons answer answers ih =>
    obtain ⟨first, rest, r₁, hstep, hrest, rfl⟩ := Relay.run_cons_next h
    obtain ⟨hfirst, hslot⟩ := Relay.backendRead_reports hstep
    rw [reported_append, hfirst, ih hrest, hslot]
    cases hshown : shownOutcome answer.1 with
    | none => simp [hshown]
    | some ok => simp [hshown]

/-- The events of a round. -/
theorem reported_eq (hframed : x.Framed) (l : Account)
    (h : Relay.run cfg r x.inputs = .ok (effects, .next r')) :
    ∃ slot, slot.map PendingExecution.query = (x.asking cfg r l).entry ∧
      reported effects = report slot x.shown := by
  obtain ⟨effects₁, effects₂, r₁, hasked, hanswered, rfl⟩ := Relay.run_append_next.1 h
  obtain ⟨hnone, hagrees⟩ := agrees_asks (a := ⟨r.frontendBuffer, r.stmtCache, _, l⟩)
    ⟨rfl, rfl, rfl⟩ hasked
  refine ⟨r₁.slot, hagrees.entry, ?_⟩
  rw [reported_append, hnone, reported_answers hanswered, shown_eq hframed]
  rfl

theorem step_isSome_iff :
    (x.step cfg s).isSome = true ↔
      ∃ effects r', Relay.run cfg s.1 x.inputs = .ok (effects, .next r') := by
  unfold step
  constructor
  · intro h
    split at h
    · next effects r' hrun => exact ⟨effects, r', hrun⟩
    · cases h
  · rintro ⟨effects, r', hrun⟩
    rw [hrun]
    rfl

theorem exact_iff_matched (hframed : x.Framed) : x.Exact cfg s ↔ x.Matched cfg s := by
  constructor
  · intro hexact hstep
    obtain ⟨effects, r', hrun⟩ := step_isSome_iff.1 hstep
    obtain ⟨slot, hslot, hreported⟩ := reported_eq hframed s.2 hrun
    rw [← hslot, ← report_eq_iff, ← hreported]
    exact hexact effects r' hrun
  · intro hmatched effects r' hrun
    obtain ⟨slot, hslot, hreported⟩ := reported_eq hframed s.2 hrun
    have hmatches := hmatched (step_isSome_iff.2 ⟨effects, r', hrun⟩)
    rw [← hslot, ← report_eq_iff] at hmatches
    exact hreported.trans hmatches

/-- A run of exact rounds reports what finishes in it. -/
theorem reported_of_exact {rounds : List Round}
    (h : Trace.Admits (step cfg) (Exact cfg) s rounds)
    (hrun : Relay.run cfg s.1 (rounds.flatMap inputs) = .ok (effects, .next r')) :
    reported effects = finishedIn cfg s rounds := by
  induction rounds generalizing s effects with
  | nil => cases hrun; rfl
  | cons x rounds ih =>
    rw [List.flatMap_cons] at hrun
    obtain ⟨effects₁, effects₂, r₁, hfirst, hrest, rfl⟩ := Relay.run_append_next.1 hrun
    have hstep : x.step cfg s = some
        (r₁, ((x.asking cfg s.1 s.2).account.answerAll (x.answers.flatMap framesOf)).1) := by
      rw [step, hfirst]
    rw [reported_append, h.1 effects₁ r₁ hfirst, ih (h.2 _ hstep) hrest, finishedIn, hstep]

theorem admits_exact_iff {rounds : List Round} (hframed : ∀ x ∈ rounds, x.Framed) :
    Trace.Admits (step cfg) (Exact cfg) s rounds ↔ Trace.Admits (step cfg) (Matched cfg) s rounds := by
  induction rounds generalizing s with
  | nil => exact Iff.rfl
  | cons x rounds ih =>
    obtain ⟨hx, hrounds⟩ := List.forall_mem_cons.1 hframed
    exact and_congr (exact_iff_matched hx) (forall₂_congr fun _ _ => ih hrounds)

end Round

/-- The loop goes on. -/
def Outcome.stays : Outcome → Bool
  | .next _ => true
  | .exit _ => false

/-- Session mode and no query timeout. -/
def plainSession : RelayConfig := ⟨.session, 0, 1000⟩

def plainStart : Relay := .start plainSession ⟨⟨0, none⟩, 0, false⟩

/-- A query and its answer in one read each. -/
def selectRound : Round :=
  ⟨[((queryFrame "SELECT 1").encode, 0)], [(encodeAll (answerFrames "SELECT 1" .idle), none)]⟩

theorem framed_selectRound : selectRound.Framed := by
  intro answer hanswer
  rw [List.mem_singleton.1 hanswer]
  exact ⟨answerFrames "SELECT 1" .idle, rfl, by decide⟩

theorem matched_selectRound : selectRound.Matched plainSession (plainStart, .new) := by
  intro _
  have hfinished : selectRound.finished plainSession plainStart .new = [("SELECT 1".toList, true)] := by
    decide +kernel
  rw [hfinished]
  exact ⟨by decide +kernel, by decide +kernel⟩

-- on a fixed round it would be evaluated wherever it stands
attribute [irreducible] Round.Matched

/-- Two queries in one read, and then two reads. -/
def pipelinedRound : Round :=
  ⟨[(encodeAll [queryFrame "SELECT 1", queryFrame "SELECT 2"], 0)],
    [(encodeAll (answerFrames "SELECT 1" .idle), none),
      (encodeAll (answerFrames "SELECT 1" .idle), none)]⟩

/-- A statement is parsed and never executed. -/
def parseRound : Round :=
  ⟨[(encodeAll [⟨msgParse, 0 :: asciiBytes "SELECT 1" ++ [0, 0, 0]⟩, ⟨msgSync, []⟩], 0)],
    [(encodeAll [⟨'1'.toUInt8, []⟩, readyFrame .idle], none)]⟩

end ScryProxy
