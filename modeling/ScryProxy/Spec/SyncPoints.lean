import ScryProxy.Spec.ModeRejection
import ScryProxy.Spec.ReleaseBoundary

/-!
# One ReadyForQuery for each Query and Sync

A ledger of the requests of a client and the ReadyForQuery messages it gets.  Requests are
numbered as the client sends them.  The backend answers each request it receives with one
ReadyForQuery; the relay answers a rejected read with one of its own, which the client
takes for the answer to its next request.

If a rejected read is a whole number of messages with just one request, and comes when no
answer is due, and a backend is only released when it has answered everything, then the
client gets one ReadyForQuery for each request, in order (`inStep_of_steady`).  A rejected
Parse whose Sync comes in a later read is answered twice (`late_sync_answered_twice`).
-/

namespace ScryProxy

open Frame (encodeAll)
open Relay (rejects ReadOf endsTransaction)

def isReady (f : Frame) : Bool := f.tag = msgReadyForQuery

/-- The bytes written to the client, in order. -/
def shownBytes (effects : List Effect) : List UInt8 :=
  effects.flatMap fun
    | .toClient data => data
    | _ => []

/-- A session with both ends. -/
structure Ledger where
  /-- `none` once the loop has been left -/
  relay : Option Relay
  /-- bytes of a client message that is not complete -/
  unfinished : List UInt8
  /-- the client's messages -/
  sent : List Frame
  /-- bytes that the backend has of a message that is not complete -/
  inbox : List UInt8
  /-- numbers of the requests that the backend has received and not answered -/
  owed : List Nat
  /-- bytes of a backend message of which the rest was not read yet -/
  outbox : List UInt8
  /-- for each ReadyForQuery on its way to the client, the number of the request it answers -/
  emitted : List Nat
  /-- bytes that the client has of a message that is not complete -/
  incoming : List UInt8
  /-- how many ReadyForQuery messages the client has got -/
  received : Nat

namespace Ledger

def start (cfg : RelayConfig) (conn : ManagedConnection) : Ledger :=
  ⟨some (.start cfg conn), [], [], [], [], [], [], [], 0⟩

/-- How many requests the client has sent. -/
def asked (x : Ledger) : Nat := x.sent.countP isRequest

/-- The client reads what is written to it. -/
def receive (x : Ledger) (bytes : List UInt8) : Ledger :=
  let (frames, rest) := Frame.split (x.incoming ++ bytes)
  { x with incoming := rest, received := x.received + frames.countP isReady }

/-- The backend reads what is written to it, and the relay's own answers go to the client. -/
def exchange (x : Ledger) (number : Nat) (effects : List Effect) (outcome : Outcome) : Ledger :=
  let (taken, inbox) := Frame.split (x.inbox ++ backendBytes effects)
  let cycles := (Frame.split (shownBytes effects)).1.countP isReady
  { x with
    relay := outcome.relay?
    inbox
    owed := x.owed ++ List.range' number (taken.countP isRequest)
    emitted := x.emitted ++ List.replicate cycles number }.receive (shownBytes effects)

/-- The relay passes answers on, and may give the backend back. -/
def deliver (x : Ledger) (data : List UInt8) (effects : List Effect) (outcome : Outcome) : Ledger :=
  let (frames, outbox) := Frame.split (x.outbox ++ data)
  let answered := frames.countP isReady
  let x := { x with
    relay := outcome.relay?
    outbox
    emitted := x.emitted ++ x.owed.take answered
    owed := x.owed.drop answered }.receive (shownBytes effects)
  if effects.any Effect.isRelease then { x with inbox := [], owed := [], outbox := [] } else x

/-- One iteration in which the writes of the relay succeed and a released backend is replaced.  The
    client sends Query messages and batches, the backend no ReadyForQuery that is not an answer.  A
    panic ends the session. -/
def step (cfg : RelayConfig) (x : Ledger) : Input → Option Ledger
  | .clientRead data now writes => do
    let r ← x.relay
    let (frames, rest) := Frame.split (x.unfinished ++ data)
    if writes ≠ {} ∨ ¬ (∀ f ∈ frames, f.tag = msgQuery ∨ inBatch f = true) then none
    else
      let y := { x with unfinished := rest, sent := x.sent ++ frames }
      match Relay.clientRead cfg r data now writes with
      | .error _ => some { y with relay := none }
      | .ok (effects, outcome) => some (y.exchange x.asked effects outcome)
  | .backendRead data writes (some conn) => do
    let r ← x.relay
    if writes ≠ {} ∨ x.owed.length < (Frame.split (x.outbox ++ data)).1.countP isReady then none
    else
      match Relay.backendRead cfg r data writes (some conn) with
      | .error _ => some { x with relay := none }
      | .ok (effects, outcome) => some (x.deliver data effects outcome)
  | _ => none

end Ledger

/-- When the client has sent whole requests and no answer is due any more, it has got one
    ReadyForQuery for each request, in order. -/
def InStep (x : Ledger) : Prop :=
  x.unfinished = [] → x.sent.getLast?.all isRequest = true → (x.relay.isSome = true → x.owed = []) →
    x.received = x.asked ∧ x.emitted = List.range x.asked

/-- The scans of a backend read return. -/
def Scanned (data : List UInt8) : Prop :=
  (∃ error, extractError .wrapping data = .ok error) ∧
    (∃ done, isQueryComplete .wrapping data = .ok done) ∧
    ∃ status, extractReadyForQuery .wrapping data = .ok status

/-- A read with a rejected message is a whole number of messages with one request, and comes when
    nothing is owed and the client is at a message boundary.  A backend read that lets the relay
    give the backend back answers all that is owed and ends at a message boundary, and no message
    to the backend is unfinished. -/
def Steady (cfg : RelayConfig) (x : Ledger) : Input → Prop
  | .clientRead data _ _ => ∀ r, x.relay = some r → ∃ frames rest, ReadOf cfg r data frames rest ∧
      ((∃ f ∈ frames, rejects cfg r.txnTracker.isInTransaction f = true) →
        x.unfinished = [] ∧ rest = [] ∧ frames.countP isRequest = 1 ∧ x.owed = [] ∧
          x.incoming = [])
  | .backendRead data _ _ => Scanned data ∧ ∀ r status, x.relay = some r →
      extractReadyForQuery .wrapping data = .ok status → endsTransaction cfg r status = true →
        (Frame.split (x.outbox ++ data)).1.countP isReady = x.owed.length ∧
          (Frame.split (x.outbox ++ data)).2 = [] ∧ x.unfinished = []
  | _ => True

/-! ## The client's messages -/

/-- Query messages and batches do not start with Terminate. -/
theorem not_terminate {frames : List Frame}
    (h : ∀ f ∈ frames, f.tag = msgQuery ∨ inBatch f = true) (ms : List Message) :
    messagesOf frames ≠ .ok (.terminate :: ms) := by
  intro hms
  obtain ⟨f, hf, hparse⟩ := Relay.exists_frame hms List.mem_cons_self
  have htag : f.tag = msgTerminate := (parsePayload_tag hparse).symm
  rcases h f hf with hquery | hbatch
  · rw [htag] at hquery
    exact absurd hquery (by decide)
  · rw [inBatch, htag] at hbatch
    exact absurd hbatch (by decide)

/-! ## The relay's own answers -/

theorem shownBytes_append (es es' : List Effect) :
    shownBytes (es ++ es') = shownBytes es ++ shownBytes es' := List.flatMap_append

/-- The texts of rejections are short. -/
theorem rejection_length {cfg : RelayConfig} {inTransaction : Bool} {msg : Message} {error : String}
    (h : Relay.rejection cfg inTransaction msg = some error) : error.toList.length ≤ 100 := by
  unfold Relay.rejection at h
  split at h
  · exact nomatch h
  · next sql _ =>
    split at h
    · next error' hvalid =>
      obtain rfl : error' = some error := h
      unfold PoolingMode.validate at hvalid
      split at hvalid
      · exact nomatch hvalid
      · obtain ⟨cmd, -, hvalid⟩ := Rust.bind_returns.1 hvalid
        split at hvalid
        · split at hvalid <;> cases hvalid
          decide +kernel
        · cases hvalid; decide +kernel
        · cases hvalid; decide +kernel
        · cases hvalid; decide +kernel
        · exact nomatch hvalid
    · exact nomatch h

/-- The error cycle is an ErrorResponse and a ReadyForQuery. -/
theorem split_errorCycle {error : String} (herror : error.toList.length ≤ 100)
    (t : TransactionState) :
    ∃ e : Frame, isReady e = false ∧
      Frame.split (buildErrorResponse "ERROR" "0A000" error ++ buildReadyForQuery t) =
        ([e, readyFrame t], []) := by
  let payload : List UInt8 := 'S'.toUInt8 :: asciiBytes "ERROR" ++ [0] ++ 'C'.toUInt8 ::
    asciiBytes "0A000" ++ [0] ++ 'M'.toUInt8 :: asciiBytes error ++ [0] ++ [0]
  have hcycle : buildErrorResponse "ERROR" "0A000" error ++ buildReadyForQuery t =
      encodeAll [⟨'E'.toUInt8, payload⟩, readyFrame t] ++ [] := by
    have hready : buildReadyForQuery t = (readyFrame t).encode := by cases t <;> decide
    rw [List.append_nil, hready, Frame.encodeAll_cons, Frame.encodeAll_cons, Frame.encodeAll_nil,
      List.append_nil]
    rfl
  refine ⟨⟨'E'.toUInt8, payload⟩, rfl, ?_⟩
  rw [hcycle]
  refine @Frame.split_encodeAll _ [] [] (fun f hf => ?_) rfl
  simp only [List.append_nil, List.mem_cons, List.not_mem_nil, or_false] at hf
  rcases hf with rfl | rfl
  · simp only [payload, Frame.len, asciiBytes, List.length_append, List.length_cons, List.length_map,
      List.length_nil]
    have h₁ : "ERROR".toList.length = 5 := by decide
    have h₂ : "0A000".toList.length = 5 := by decide
    omega
  · simp [Frame.len, readyFrame]

theorem shownBytes_applied {es : List Effect} (h : ∀ e ∈ es, ∃ sql, e = .applied sql) :
    shownBytes es = [] := by
  refine List.flatMap_eq_nil_iff.2 fun e he => ?_
  obtain ⟨sql, rfl⟩ := h e he
  rfl

/-! ## Runs -/

namespace Ledger

/-- All ends agree on where messages end, and the answers are those to the requests so far. -/
structure Inv (x : Ledger) : Prop where
  running : ∃ r, x.relay = some r ∧ r.frontendBuffer = x.unfinished
  inbox : x.inbox = x.unfinished
  outbox : x.outbox = x.incoming
  incoming : Frame.split x.incoming = ([], x.incoming)
  received : x.received = x.emitted.length
  order : x.emitted ++ x.owed = List.range x.asked

theorem inv_start (cfg : RelayConfig) (conn : ManagedConnection) : (start cfg conn).Inv :=
  ⟨⟨_, rfl, rfl⟩, rfl, rfl, rfl, rfl, rfl⟩

theorem Inv.buffer {x : Ledger} (h : x.Inv) {r : Relay} (hr : x.relay = some r) :
    r.frontendBuffer = x.unfinished := by
  obtain ⟨r₀, hr₀, hbuffer⟩ := h.running
  rw [hr] at hr₀
  exact Option.some.inj hr₀ ▸ hbuffer

/-- After `n` more answers the client has got as many as were sent to it. -/
theorem Inv.received_add {x : Ledger} (h : x.Inv) {n : Nat} (hn : n ≤ x.owed.length) :
    x.received + n = (x.emitted ++ x.owed.take n).length := by
  rw [h.received, List.length_append, List.length_take, Nat.min_eq_left hn]

/-- With nothing owed, the answers are complete. -/
theorem Inv.inStep {x : Ledger} (h : x.Inv) : InStep x := by
  intro _ _ howed
  obtain ⟨r, hrelay, -⟩ := h.running
  have horder := h.order
  rw [howed (by rw [hrelay]; rfl), List.append_nil] at horder
  exact ⟨by rw [h.received, horder, List.length_range], horder⟩

/-- A forwarded read: the backend receives the requests that the client has sent. -/
theorem inv_forward {x : Ledger} (hinv : x.Inv) {data rest : List UInt8} {frames : List Frame}
    {applied : List Effect} {r' : Relay}
    (hsplit : Frame.split (x.unfinished ++ data) = (frames, rest))
    (happlied : ∀ e ∈ applied, ∃ sql, e = .applied sql) (hbuffer : r'.frontendBuffer = rest) :
    (exchange { x with unfinished := rest, sent := x.sent ++ frames } x.asked
      (applied ++ [.toBackend data]) (.next r')).Inv := by
  have hback : backendBytes (applied ++ [.toBackend data]) = data := by
    rw [backendBytes_append, backendBytes_applied happlied]
    exact List.append_nil data
  have hshown : shownBytes (applied ++ [.toBackend data]) = [] := by
    rw [shownBytes_append, shownBytes_applied happlied]
    rfl
  have hnone : Frame.split ([] : List UInt8) = ([], []) := rfl
  simp only [exchange, receive, hback, hshown, hinv.inbox, hsplit, List.append_nil, hinv.incoming,
    hnone, List.countP_nil, List.replicate_zero, Nat.add_zero]
  refine ⟨⟨r', rfl, hbuffer⟩, rfl, hinv.outbox, hinv.incoming, hinv.received, ?_⟩
  show x.emitted ++ (x.owed ++ List.range' x.asked (frames.countP isRequest)) =
    List.range ((x.sent ++ frames).countP isRequest)
  rw [← List.append_assoc, hinv.order, List.countP_append, List.range_eq_range',
    List.range_eq_range', ← List.range'_append_1, Nat.zero_add]
  rfl

/-- A rejected read with one request: the relay answers it. -/
theorem inv_reject {x : Ledger} (hinv : x.Inv) {frames : List Frame} {applied : List Effect}
    {r' : Relay} {error : String} {t : TransactionState}
    (happlied : ∀ e ∈ applied, ∃ sql, e = .applied sql) (hbuffer : r'.frontendBuffer = [])
    (herror : error.toList.length ≤ 100) (hstart : x.unfinished = []) (howed : x.owed = [])
    (hincoming : x.incoming = []) (hone : frames.countP isRequest = 1) :
    (exchange { x with unfinished := [], sent := x.sent ++ frames } x.asked
      (applied ++ [.toClient (buildErrorResponse "ERROR" "0A000" error),
        .toClient (buildReadyForQuery t)]) (.next r')).Inv := by
  have hback : backendBytes (applied ++ [.toClient (buildErrorResponse "ERROR" "0A000" error),
      .toClient (buildReadyForQuery t)]) = [] := by
    rw [backendBytes_append, backendBytes_applied happlied]
    rfl
  have hshown : shownBytes (applied ++ [.toClient (buildErrorResponse "ERROR" "0A000" error),
      .toClient (buildReadyForQuery t)]) =
      buildErrorResponse "ERROR" "0A000" error ++ buildReadyForQuery t := by
    rw [shownBytes_append, shownBytes_applied happlied]
    simp [shownBytes]
  obtain ⟨e, he, hcycle⟩ := split_errorCycle herror t
  have hready : [e, readyFrame t].countP isReady = 1 := by
    rw [List.countP_cons, List.countP_cons, List.countP_nil, he]
    rfl
  have hnone : Frame.split ([] : List UInt8) = ([], []) := rfl
  simp only [exchange, receive, hback, hshown, hinv.inbox, hstart, hincoming, List.nil_append,
    hcycle, hready, hnone, List.countP_nil, List.range'_zero, howed, List.append_nil]
  refine ⟨⟨r', rfl, hbuffer⟩, rfl, hinv.outbox.trans hincoming, rfl, ?_, ?_⟩
  · show x.received + 1 = (x.emitted ++ List.replicate 1 x.asked).length
    rw [hinv.received, List.length_append, List.length_replicate]
  · have horder := hinv.order
    rw [howed, List.append_nil] at horder
    show x.emitted ++ List.replicate 1 x.asked ++ [] =
      List.range ((x.sent ++ frames).countP isRequest)
    rw [List.append_nil, List.countP_append, hone, List.range_succ, horder]
    rfl

/-- A client read that meets the condition. -/
theorem inv_clientRead {cfg : RelayConfig} {x x' : Ledger} {data : List UInt8} {now : Nat}
    {writes : Writes} (hinv : x.Inv) (hsteady : Steady cfg x (.clientRead data now writes))
    (h : x.step cfg (.clientRead data now writes) = some x') : x'.Inv := by
  obtain ⟨r, hrelay, h⟩ := Option.bind_eq_some_iff.1 h
  obtain ⟨frames, rest, hread, hreject⟩ := hsteady r hrelay
  have hsplit : Frame.split (x.unfinished ++ data) = (frames, rest) :=
    hinv.buffer hrelay ▸ hread.split
  simp only [hsplit] at h
  split at h
  · exact nomatch h
  · next hdomain =>
    obtain ⟨hwrites, htags⟩ := not_or.1 hdomain
    obtain rfl : writes = {} := not_not.1 hwrites
    have htags := not_not.1 htags
    obtain ⟨r', applied, hlink, happlied, hcases⟩ := Relay.clientRead_framed hread now
    rcases hcases with ⟨-, hout⟩ | ⟨hrej, msg, error, herror, hout⟩ | ⟨⟨ms, hms⟩, -⟩
    · rw [hout] at h
      cases h
      exact inv_forward hinv hsplit happlied hlink.frontendBuffer
    · obtain ⟨hstart, rfl, hone, howed, hincoming⟩ := hreject hrej
      rw [hout] at h
      cases h
      exact inv_reject hinv happlied hlink.frontendBuffer (rejection_length herror) hstart howed
        hincoming hone
    · exact absurd hms (not_terminate htags ms)

/-- The scans of a read return, and so does the backend arm. -/
theorem backendRead_returns (cfg : RelayConfig) (r : Relay) (conn : ManagedConnection)
    {data : List UInt8} (h : Scanned data) :
    ∃ y, Relay.backendRead cfg r data {} (some conn) = .ok y := by
  obtain ⟨⟨error, herror⟩, ⟨done, hdone⟩, ⟨status, hstatus⟩⟩ := h
  have hsettle : ∃ y, Relay.settlePending r data = .ok y := by
    unfold Relay.settlePending
    rw [herror, Rust.ok_bind]
    cases error with
    | some error => cases r.stmtCache.takePending [] with | mk found cache => cases found <;> exact ⟨_, rfl⟩
    | none =>
      simp only [hdone, Rust.ok_bind]
      cases done with
      | true =>
        cases r.stmtCache.takePending [] with | mk found cache => cases found <;> exact ⟨_, rfl⟩
      | false => exact ⟨_, rfl⟩
  obtain ⟨⟨r₁, settled⟩, hsettle⟩ := hsettle
  unfold Relay.backendRead
  rw [hsettle, Rust.ok_bind]
  simp only [hstatus, Rust.ok_bind]
  cases status with
  | none => exact ⟨_, rfl⟩
  | some status =>
    simp only [Bool.not_true, Bool.false_eq_true, if_false]
    split <;> exact ⟨_, rfl⟩

/-- What was settled before shows the client nothing and gives nothing back. -/
theorem shownBytes_settled_append {es : List Effect}
    (h : ∀ e ∈ es, (∃ p d err, e = .queryFailed p d err) ∨ ∃ p, e = .queryCompleted p)
    (es' : List Effect) :
    shownBytes (es ++ es') = shownBytes es' ∧
      (es ++ es').any Effect.isRelease = es'.any Effect.isRelease := by
  have hshown : shownBytes es = [] := by
    refine List.flatMap_eq_nil_iff.2 fun e he => ?_
    rcases h e he with ⟨p, d, err, rfl⟩ | ⟨p, rfl⟩ <;> rfl
  have hkept : es.any Effect.isRelease = false := by
    refine List.any_eq_false.2 fun e he => ?_
    rcases h e he with ⟨p, d, err, rfl⟩ | ⟨p, rfl⟩ <;> exact Bool.false_ne_true
  rw [shownBytes_append, hshown, List.any_append, hkept]
  exact ⟨rfl, rfl⟩

section Deliver

variable {x : Ledger} {data : List UInt8} {effects : List Effect} {r' : Relay} (hinv : x.Inv)
  (hshown : shownBytes effects = data) (hbuffer : r'.frontendBuffer = x.unfinished)

include hinv hshown hbuffer

/-- The answers in a read are passed on in order. -/
theorem inv_passOn (hkept : effects.any Effect.isRelease = false)
    (hanswers : (Frame.split (x.outbox ++ data)).1.countP isReady ≤ x.owed.length) :
    (x.deliver data effects (.next r')).Inv := by
  simp only [deliver, hkept, hshown, Bool.false_eq_true, if_false]
  rw [hinv.outbox] at hanswers ⊢
  refine ⟨⟨r', rfl, hbuffer⟩, hinv.inbox, rfl, Frame.split_split_snd _,
    hinv.received_add hanswers, ?_⟩
  show x.emitted ++ x.owed.take _ ++ x.owed.drop _ = List.range x.asked
  rw [List.append_assoc, List.take_append_drop, hinv.order]

/-- The backend is given back when everything owed is answered and no message is cut. -/
theorem inv_giveBack (hreleased : effects.any Effect.isRelease = true)
    (hall : (Frame.split (x.outbox ++ data)).1.countP isReady = x.owed.length)
    (hcut : (Frame.split (x.outbox ++ data)).2 = []) (hfinished : x.unfinished = []) :
    (x.deliver data effects (.next r')).Inv := by
  simp only [deliver, hreleased, hshown, if_true]
  rw [hinv.outbox] at hall hcut ⊢
  refine ⟨⟨r', rfl, hbuffer⟩, hfinished.symm, hcut.symm, Frame.split_split_snd _,
    hinv.received_add hall.le, ?_⟩
  show x.emitted ++ x.owed.take _ ++ [] = List.range x.asked
  rw [hall, List.take_length, List.append_nil, hinv.order]

end Deliver

/-- A backend read that meets the condition. -/
theorem inv_backendRead {cfg : RelayConfig} {x x' : Ledger} {data : List UInt8} {writes : Writes}
    {reacquired : Option ManagedConnection} (hinv : x.Inv)
    (hsteady : Steady cfg x (.backendRead data writes reacquired))
    (h : x.step cfg (.backendRead data writes reacquired) = some x') : x'.Inv := by
  cases reacquired with
  | none => exact nomatch h
  | some conn =>
    obtain ⟨r, hrelay, h⟩ := Option.bind_eq_some_iff.1 h
    split at h
    · exact nomatch h
    · next hdomain =>
      obtain ⟨hwrites, hanswers⟩ := not_or.1 hdomain
      obtain rfl : writes = {} := not_not.1 hwrites
      obtain ⟨hscanned, hrelease⟩ := hsteady
      obtain ⟨⟨effects, outcome⟩, hread⟩ := backendRead_returns cfg r conn hscanned
      rw [hread] at h
      cases h
      obtain ⟨r₁, settled, status, hlink, -, hsettled, hstatus, hcases⟩ :=
        Relay.backendRead_cases hread
      have hbuffer : r₁.frontendBuffer = x.unfinished :=
        hlink.frontendBuffer.trans (hinv.buffer hrelay)
      rcases hcases with ⟨-, rfl, rfl⟩ | ⟨hend, ⟨conn', -, rfl, rfl⟩ | ⟨hnone, -⟩⟩ | ⟨-, -, hwrite⟩
      · obtain ⟨hshown, hkept⟩ := shownBytes_settled_append hsettled [.toClient data]
        exact inv_passOn hinv (hshown.trans (List.append_nil data)) hbuffer hkept
          (Nat.not_lt.1 hanswers)
      · obtain ⟨hshown, hreleased⟩ := shownBytes_settled_append hsettled
          [.toClient data, .released r.managedConn, .reacquired conn']
        obtain ⟨hall, hcut, hfinished⟩ := hrelease r status hrelay hstatus hend
        exact inv_giveBack hinv (hshown.trans (List.append_nil data)) hbuffer hreleased hall hcut
          hfinished
      · exact nomatch hnone
      · exact nomatch hwrite

end Ledger

/-- In every session whose reads meet the condition, the client gets one ReadyForQuery for each of
    its requests, in order. -/
theorem inStep_of_steady (cfg : RelayConfig) (conn : ManagedConnection) (inputs : List Input)
    (hadm : Trace.Admits (Ledger.step cfg) (Steady cfg) (.start cfg conn) inputs) :
    ∀ x, Trace.exec (Ledger.step cfg) (.start cfg conn) inputs = some x → InStep x := by
  intro x hrun
  refine (Trace.exec_invariant (fun y input y' hinv hsteady hstep => ?_)
    (Ledger.inv_start cfg conn) hadm hrun).inStep
  cases input with
  | clientRead data now writes => exact Ledger.inv_clientRead hinv hsteady hstep
  | backendRead data writes reacquired => exact Ledger.inv_backendRead hinv hsteady hstep
  | clientClosed | backendClosed | deadline => exact nomatch hstep

/-- A rejected batch in one read: one Sync, one ReadyForQuery. -/
theorem inStep_set_batch :
    ∃ x, Trace.exec (Ledger.step ⟨.transaction, 0, 100⟩)
        (.start ⟨.transaction, 0, 100⟩ ⟨⟨0, none⟩, 0, false⟩)
        [.clientRead (encodeAll (batchOf "SET a = 1")) 0 {}] = some x ∧ InStep x := by
  have hruns : (Trace.exec (Ledger.step ⟨.transaction, 0, 100⟩)
      (.start ⟨.transaction, 0, 100⟩ ⟨⟨0, none⟩, 0, false⟩)
      [.clientRead (encodeAll (batchOf "SET a = 1")) 0 {}]).isSome = true := by decide +kernel
  obtain ⟨x, hx⟩ := Option.isSome_iff_exists.1 hruns
  refine ⟨x, hx, inStep_of_steady _ _ _ ?_ x hx⟩
  refine ⟨fun r hr => ?_, fun _ _ => trivial⟩
  cases hr
  exact ⟨batchOf "SET a = 1", [], Relay.readOf_encodeAll rfl (by decide +kernel)
    (by decide +kernel),
    fun _ => ⟨rfl, rfl, by decide, rfl, rfl⟩⟩

/-- The Sync of a rejected Parse comes in a later read: the relay has answered at the Parse, and the
    backend answers the Sync. -/
theorem late_sync_answered_twice :
    ¬ ∀ x, Trace.exec (Ledger.step ⟨.transaction, 0, 100⟩)
        (.start ⟨.transaction, 0, 100⟩ ⟨⟨0, none⟩, 0, false⟩)
        [.clientRead (encodeAll ((batchOf "SET a = 1").take 1)) 0 {},
          .clientRead (encodeAll ((batchOf "SET a = 1").drop 1)) 0 {},
          .backendRead (encodeAll [⟨msgErrorResponse, [0]⟩, readyFrame .idle]) {}
            (some ⟨⟨1, none⟩, 0, false⟩)] = some x → InStep x := by
  have hend : (Trace.exec (Ledger.step ⟨.transaction, 0, 100⟩)
      (.start ⟨.transaction, 0, 100⟩ ⟨⟨0, none⟩, 0, false⟩)
      [.clientRead (encodeAll ((batchOf "SET a = 1").take 1)) 0 {},
        .clientRead (encodeAll ((batchOf "SET a = 1").drop 1)) 0 {},
        .backendRead (encodeAll [⟨msgErrorResponse, [0]⟩, readyFrame .idle]) {}
          (some ⟨⟨1, none⟩, 0, false⟩)]).map
      (fun x => (x.unfinished, x.sent.getLast?.all isRequest, x.owed, x.received, x.asked)) =
      some ([], true, [], 2, 1) := by
    decide +kernel
  obtain ⟨x, hrun, hx⟩ := Option.map_eq_some_iff.1 hend
  obtain ⟨hdone, hlast, howed, hreceived, hasked⟩ : x.unfinished = [] ∧
      x.sent.getLast?.all isRequest = true ∧ x.owed = [] ∧ x.received = 2 ∧ x.asked = 1 := by
    simpa using hx
  intro h
  have hcount := (h x hrun hdone hlast fun _ => howed).1
  rw [hreceived, hasked] at hcount
  exact absurd hcount (by decide)

end ScryProxy
