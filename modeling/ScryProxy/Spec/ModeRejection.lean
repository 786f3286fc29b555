import ScryProxy.Spec.Forwarding

/-!
# What a rejection keeps from the backend

A message that the pooling mode rejects keeps the whole read back in which it comes: the
messages before it, those after it, and the parts of messages at both ends of the read.
If every read that brings a rejected message starts and ends at a message boundary and
holds that Query alone, or a Parse and messages of its batch, the backend gets whole
messages and misses only what was rejected (`dropsOnlyRejected_of_tidy`).  A query sent
together with a rejected one is lost (`select_lost_with_set`).
-/

namespace ScryProxy

open Frame (encodeAll)
open Relay (rejects ReadOf)

/-- The loop state, while the loop goes on. -/
def Outcome.relay? : Outcome → Option Relay
  | .next r => some r
  | .exit _ => none

/-- Parse, Bind, Describe, Execute, Close, Flush and Sync: the messages of a batch. -/
def inBatch (f : Frame) : Bool :=
  f.tag ∈ [msgParse, msgBind, 'D'.toUInt8, msgExecute, msgClose, 'H'.toUInt8, msgSync]

/-- A session, with what the client sent and what was written to the backend. -/
structure Carried where
  /-- `none` once the loop has been left -/
  relay : Option Relay
  /-- bytes of a client frame that is not complete -/
  unfinished : List UInt8
  /-- the client's messages, each with the tracked state when it was complete -/
  sent : List (Frame × Bool)
  written : List UInt8

namespace Carried

def start (cfg : RelayConfig) (conn : ManagedConnection) : Carried :=
  ⟨some (.start cfg conn), [], [], []⟩

/-- One iteration in which the writes of the relay succeed.  A panic ends the session. -/
def step (cfg : RelayConfig) (x : Carried) (input : Input) : Option Carried := do
  let r ← x.relay
  match input with
  | .clientRead data now writes =>
    if writes ≠ {} then none
    else
      let (frames, rest) := Frame.split (x.unfinished ++ data)
      let sent := x.sent ++ frames.map (·, r.txnTracker.isInTransaction)
      match Relay.clientRead cfg r data now writes with
      | .error _ => some ⟨none, rest, sent, x.written⟩
      | .ok (effects, outcome) =>
        some ⟨outcome.relay?, rest, sent, x.written ++ backendBytes effects⟩
  | input =>
    match Relay.step cfg r input with
    | .error _ => some { x with relay := none }
    | .ok (effects, outcome) =>
      some { x with relay := outcome.relay?, written := x.written ++ backendBytes effects }

end Carried

/-! ## What may be missing -/

/-- A message of the client, the tracked state when it was complete, and whether the backend got
    it. -/
structure Delivery where
  frame : Frame
  inTransaction : Bool
  delivered : Bool

def Delivery.rejected (cfg : RelayConfig) (d : Delivery) : Bool :=
  rejects cfg d.inTransaction d.frame

/-- The message was rejected, or it belongs to the batch of a Parse that was. -/
def Excused (cfg : RelayConfig) (past : List Delivery) (d : Delivery) : Prop :=
  d.rejected cfg = true ∨
    ∃ before p between, past = before ++ p :: between ∧
      p.frame.tag = msgParse ∧ p.rejected cfg = true ∧ p.delivered = false ∧
      (∀ b ∈ between, inBatch b.frame = true ∧ b.frame.tag ≠ msgSync) ∧ inBatch d.frame = true

/-- Nothing rejected is delivered, and what is not delivered is excused by what came before. -/
def Justified (cfg : RelayConfig) : List Delivery → List Delivery → Prop
  | _, [] => True
  | past, d :: ds =>
    (d.rejected cfg = true → d.delivered = false) ∧ (d.delivered = false → Excused cfg past d) ∧
      Justified cfg (past ++ [d]) ds

/-- The frames that the backend got. -/
def delivered (ds : List Delivery) : List Frame :=
  (ds.filter Delivery.delivered).map Delivery.frame

/-- At the end of a message, the backend has got whole messages of the client in order; missing are
    a final Terminate and what is excused. -/
def DropsOnlyRejected (cfg : RelayConfig) (x : Carried) : Prop :=
  x.unfinished = [] → ∃ ds : List Delivery,
    (x.sent = ds.map (fun d => (d.frame, d.inTransaction)) ∨
      ∃ t, x.sent = ds.map (fun d => (d.frame, d.inTransaction)) ++ [(terminateFrame, t)]) ∧
    x.written = encodeAll (delivered ds) ∧ Justified cfg [] ds

/-! ## The condition -/

/-- One rejected message, or a rejected Parse and messages of its batch up to the Sync. -/
def OneRequest (cfg : RelayConfig) (inTransaction : Bool) : List Frame → Prop
  | [] => False
  | f :: fs => rejects cfg inTransaction f = true ∧ (fs = [] ∨ f.tag = msgParse ∧
      (∀ g ∈ fs, inBatch g = true) ∧ ∀ g ∈ fs.dropLast, g.tag ≠ msgSync)

/-- A read with a rejected message starts and ends at a message boundary and holds one request; a
    read that yields Terminate first is the Terminate frame. -/
def Tidy (cfg : RelayConfig) (x : Carried) : Input → Prop
  | .clientRead data _ _ => ∀ r, x.relay = some r → ∃ frames rest, ReadOf cfg r data frames rest ∧
      ((∃ f ∈ frames, rejects cfg r.txnTracker.isInTransaction f = true) → x.unfinished = [] ∧
        rest = [] ∧ OneRequest cfg r.txnTracker.isInTransaction frames) ∧
      ∀ ms, messagesOf frames = .ok (.terminate :: ms) →
        x.unfinished = [] ∧ frames = [terminateFrame] ∧ rest = []
  | _ => True

/-! ## Runs -/

variable {cfg : RelayConfig} {past : List Delivery}

theorem justified_append {ds es : List Delivery} :
    Justified cfg past (ds ++ es) ↔ Justified cfg past ds ∧ Justified cfg (past ++ ds) es := by
  induction ds generalizing past with
  | nil => simp [Justified]
  | cons d ds ih => simp only [List.cons_append, Justified, ih, List.append_assoc, and_assoc,
      List.nil_append]

theorem delivered_append (ds es : List Delivery) :
    delivered (ds ++ es) = delivered ds ++ delivered es := by
  simp [delivered]

/-- The messages of a read, all delivered or all kept back. -/
def deliveries (inTransaction deliver : Bool) (frames : List Frame) : List Delivery :=
  frames.map fun f => ⟨f, inTransaction, deliver⟩

variable {frames : List Frame}

theorem justified_forwarded {t : Bool} (h : ∀ f ∈ frames, rejects cfg t f = false) :
    Justified cfg past (deliveries t true frames) := by
  induction frames generalizing past with
  | nil => trivial
  | cons f frames ih =>
    obtain ⟨hf, hframes⟩ := List.forall_mem_cons.1 h
    refine ⟨fun hrej => ?_, nofun, ih hframes⟩
    rw [show Delivery.rejected cfg ⟨f, t, true⟩ = rejects cfg t f from rfl, hf] at hrej
    exact nomatch hrej

/-- Messages of the batch of a Parse that was rejected. -/
theorem justified_batch {t : Bool} {before : List Delivery} (between : List Delivery) {p : Delivery}
    (hpast : past = before ++ p :: between)
    (hp : p.frame.tag = msgParse ∧ p.rejected cfg = true ∧ p.delivered = false)
    (hbetween : ∀ b ∈ between, inBatch b.frame = true ∧ b.frame.tag ≠ msgSync)
    (hframes : ∀ g ∈ frames, inBatch g = true) (hsync : ∀ g ∈ frames.dropLast, g.tag ≠ msgSync) :
    Justified cfg past (deliveries t false frames) := by
  induction frames generalizing past between with
  | nil => trivial
  | cons f frames ih =>
    obtain ⟨hf, hrest⟩ := List.forall_mem_cons.1 hframes
    refine ⟨fun _ => rfl, fun _ => .inr ⟨before, p, between, hpast, hp.1, hp.2.1, hp.2.2, hbetween,
      hf⟩, ?_⟩
    cases frames with
    | nil => trivial
    | cons g frames =>
      -- the Sync can only be the last of them
      rw [List.dropLast_cons_of_ne_nil (List.cons_ne_nil g frames)] at hsync
      obtain ⟨hfsync, hsync⟩ := List.forall_mem_cons.1 hsync
      refine ih (between ++ [⟨f, t, false⟩]) (by simp [hpast]) ?_ hrest hsync
      intro b hb
      rcases List.mem_append.1 hb with hb | hb
      · exact hbetween b hb
      · rw [List.mem_singleton.1 hb]
        exact ⟨hf, hfsync⟩

theorem justified_rejected {t : Bool} (h : OneRequest cfg t frames) :
    Justified cfg past (deliveries t false frames) := by
  cases frames with
  | nil => exact h.elim
  | cons f frames =>
    obtain ⟨hrej, hrest⟩ := h
    refine ⟨fun _ => rfl, fun _ => .inl hrej, ?_⟩
    rcases hrest with rfl | ⟨htag, hbatch, hsync⟩
    · trivial
    · exact justified_batch [] rfl ⟨htag, hrej, rfl⟩ nofun hbatch hsync

theorem delivered_deliveries_true (t : Bool) (frames : List Frame) :
    delivered (deliveries t true frames) = frames := by
  simp [delivered, deliveries, List.filter_map, Function.comp_def]

theorem delivered_deliveries_false (t : Bool) (frames : List Frame) :
    delivered (deliveries t false frames) = [] := by
  simp [delivered, deliveries, List.filter_map, Function.comp_def]

/-- While the loop goes on, what was written is the delivered messages and the start of the next
    one, and the relay has that start in its buffer. -/
structure Carried.Inv (cfg : RelayConfig) (x : Carried) : Prop where
  buffer : ∀ r, x.relay = some r → r.frontendBuffer = x.unfinished
  running : x.relay.isSome = true → ∃ ds : List Delivery,
    x.sent = ds.map (fun d => (d.frame, d.inTransaction)) ∧
    x.written = encodeAll (delivered ds) ++ x.unfinished ∧ Justified cfg [] ds
  drops : DropsOnlyRejected cfg x

variable {x : Carried}

theorem Carried.inv_of_running (ds : List Delivery)
    (hbuffer : ∀ r, x.relay = some r → r.frontendBuffer = x.unfinished)
    (hsent : x.sent = ds.map fun d => (d.frame, d.inTransaction))
    (hwritten : x.written = encodeAll (delivered ds) ++ x.unfinished) (hds : Justified cfg [] ds) :
    x.Inv cfg where
  buffer := hbuffer
  running := fun _ => ⟨ds, hsent, hwritten, hds⟩
  drops := fun hdone => ⟨ds, .inl hsent, by rw [hwritten, hdone, List.append_nil], hds⟩

theorem Carried.inv_start (cfg : RelayConfig) (conn : ManagedConnection) :
    (start cfg conn).Inv cfg :=
  inv_of_running [] (fun r hr => by cases hr; rfl) rfl rfl trivial

/-- A client read that meets the condition. -/
theorem Carried.inv_clientRead {x' : Carried} {data : List UInt8} {now : Nat} {writes : Writes}
    (hinv : x.Inv cfg) (htidy : Tidy cfg x (.clientRead data now writes))
    (h : x.step cfg (.clientRead data now writes) = some x') : x'.Inv cfg := by
  obtain ⟨r, hrelay, h⟩ := Option.bind_eq_some_iff.1 h
  obtain ⟨frames, rest, hread, hreject, hterminate⟩ := htidy r hrelay
  obtain ⟨ds, hsent, hwritten, hds⟩ := hinv.running (Option.isSome_of_eq_some hrelay)
  have hbuffer := hinv.buffer r hrelay
  -- the relay and the client agree on where the messages end
  have hsplit : Frame.split (x.unfinished ++ data) = (frames, rest) := hbuffer ▸ hread.split
  have hbytes : x.unfinished ++ data = encodeAll frames ++ rest := by rw [← hbuffer, hread.bytes]
  simp only [hsplit] at h
  split at h
  · exact nomatch h
  · next hwrites =>
    obtain rfl : writes = {} := not_not.1 hwrites
    obtain ⟨r', applied, hlink, happlied, hcases⟩ := Relay.clientRead_framed hread now
    have hnone := backendBytes_applied happlied
    have hmap : ∀ deliver, x.sent ++ frames.map (·, r.txnTracker.isInTransaction) =
        (ds ++ deliveries r.txnTracker.isInTransaction deliver frames).map
          fun d => (d.frame, d.inTransaction) := by
      intro deliver
      rw [hsent, List.map_append, deliveries, List.map_map]
      rfl
    rcases hcases with ⟨hclean, hout⟩ | ⟨hrej, msg, error, -, hout⟩ | ⟨⟨ms, hms⟩, hout⟩
    · -- forwarded: the bytes continue what was written
      rw [hout] at h
      cases h
      refine inv_of_running _ (fun r'' hr'' => ?_) (hmap true) ?_
        (justified_append.2 ⟨hds, justified_forwarded hclean⟩)
      · cases hr''
        exact hlink.frontendBuffer
      · rw [backendBytes_append, hnone, hwritten, delivered_append, delivered_deliveries_true,
          Frame.encodeAll_append, List.nil_append, List.append_assoc, List.append_assoc, ← hbytes]
        simp [backendBytes]
    · -- kept back: it starts and ends at a boundary
      obtain ⟨hstart, rfl, hone⟩ := hreject hrej
      rw [hout] at h
      cases h
      refine inv_of_running _ (fun r'' hr'' => ?_) (hmap false) ?_
        (justified_append.2 ⟨hds, justified_rejected hone⟩)
      · cases hr''
        exact hlink.frontendBuffer
      · rw [backendBytes_append, hnone, hwritten, hstart, delivered_append, delivered_deliveries_false]
        simp [backendBytes]
    · -- intercepted: the loop is left
      obtain ⟨hstart, rfl, rfl⟩ := hterminate ms hms
      rw [hout] at h
      cases h
      refine ⟨nofun, nofun, fun _ => ⟨ds, .inr ⟨r.txnTracker.isInTransaction, ?_⟩, ?_, hds⟩⟩
      · rw [hsent]
        rfl
      · rw [hnone, hwritten, hstart, List.append_nil, List.append_nil]

/-- Any other arm leaves what was sent and written alone. -/
theorem Carried.inv_other {x' : Carried} {input : Input} (hinv : x.Inv cfg)
    (hother : clientReads [input] = []) (h : x.step cfg input = some x') : x'.Inv cfg := by
  obtain ⟨r, hrelay, h⟩ := Option.bind_eq_some_iff.1 h
  obtain ⟨ds, hsent, hwritten, hds⟩ := hinv.running (Option.isSome_of_eq_some hrelay)
  have h : (match Relay.step cfg r input with
      | .error _ => some { x with relay := none }
      | .ok (effects, outcome) => some { x with
          relay := outcome.relay?, written := x.written ++ backendBytes effects }) = some x' := by
    cases input with
    | clientRead data now writes => exact nomatch hother
    | clientClosed | backendRead | backendClosed | deadline => exact h
  split at h
  · cases h
    exact inv_of_running ds nofun hsent hwritten hds
  · next effects outcome hstep =>
    cases h
    obtain ⟨hnone, hbuffer⟩ := Relay.step_other hother hstep
    refine inv_of_running ds (fun r' hr' => ?_) hsent ?_ hds
    · cases outcome with
      | exit how => exact nomatch hr'
      | next r'' =>
        cases hr'
        exact (hbuffer _ rfl).trans (hinv.buffer r hrelay)
    · rw [hnone, List.append_nil, hwritten]

/-- In every session whose reads meet the condition, the backend misses only what was rejected. -/
theorem dropsOnlyRejected_of_tidy (cfg : RelayConfig) (conn : ManagedConnection)
    (inputs : List Input)
    (hadm : Trace.Admits (Carried.step cfg) (Tidy cfg) (.start cfg conn) inputs) :
    ∀ x, Trace.exec (Carried.step cfg) (.start cfg conn) inputs = some x →
      DropsOnlyRejected cfg x := by
  intro x hrun
  refine (Trace.exec_invariant (fun y input y' hinv htidy hstep => ?_)
    (Carried.inv_start cfg conn) hadm hrun).drops
  cases input with
  | clientRead data now writes => exact Carried.inv_clientRead hinv htidy hstep
  | clientClosed | backendRead | backendClosed | deadline =>
    exact Carried.inv_other hinv rfl hstep

/-- A simple query. -/
def simpleQuery (sql : String) : Frame := ⟨msgQuery, asciiBytes sql ++ [0]⟩

/-- A batch that prepares, binds and executes the unnamed statement. -/
def batchOf (sql : String) : List Frame :=
  [⟨msgParse, [0] ++ asciiBytes sql ++ [0, 0, 0]⟩, ⟨msgBind, [0, 0, 0, 0, 0, 0, 0, 0]⟩,
    ⟨msgExecute, [0, 0, 0, 0, 0]⟩, ⟨msgSync, []⟩]

/-- A whole batch with a rejected Parse in one read. -/
theorem dropsOnlyRejected_set_batch :
    ∃ x, Trace.exec (Carried.step ⟨.transaction, 0, 100⟩)
        (.start ⟨.transaction, 0, 100⟩ ⟨⟨0, none⟩, 0, false⟩)
        [.clientRead (encodeAll (batchOf "SET a = 1")) 0 {}] = some x ∧
      DropsOnlyRejected ⟨.transaction, 0, 100⟩ x := by
  have hruns : (Trace.exec (Carried.step ⟨.transaction, 0, 100⟩)
      (.start ⟨.transaction, 0, 100⟩ ⟨⟨0, none⟩, 0, false⟩)
      [.clientRead (encodeAll (batchOf "SET a = 1")) 0 {}]).isSome = true := by decide +kernel
  obtain ⟨x, hx⟩ := Option.isSome_iff_exists.1 hruns
  refine ⟨x, hx, dropsOnlyRejected_of_tidy _ _ _ ?_ x hx⟩
  refine ⟨fun r hr => ?_, fun _ _ => trivial⟩
  cases hr
  refine ⟨batchOf "SET a = 1", [], Relay.readOf_encodeAll rfl (by decide +kernel)
    (by decide +kernel), fun _ => ?_, ?_⟩
  · exact ⟨rfl, rfl, by decide +kernel, .inr (by decide +kernel)⟩
  · intro ms hms
    have hfirst : (messagesOf (batchOf "SET a = 1")).map (fun ms => ms.head? == some .terminate) =
        .ok false := by decide +kernel
    rw [hms] at hfirst
    cases hfirst

/-- When nothing was written of several messages, the first was rejected. -/
theorem DropsOnlyRejected.first_rejected (h : DropsOnlyRejected cfg x) (hdone : x.unfinished = [])
    (hwritten : x.written = []) {f g : Frame} {t u : Bool} {rest : List (Frame × Bool)}
    (hsent : x.sent = (f, t) :: (g, u) :: rest) : rejects cfg t f = true := by
  obtain ⟨ds, hds, hbytes, hjust⟩ := h hdone
  have hnone : delivered ds = [] := by
    have hlen := Frame.length_le_encodeAll (delivered ds)
    rw [← hbytes, hwritten, List.length_nil] at hlen
    exact List.length_eq_zero_iff.1 (by omega)
  cases ds with
  | nil =>
    -- a Terminate alone is one message
    rw [hsent] at hds
    rcases hds with hds | ⟨v, hds⟩
    · cases hds
    · cases hds
  | cons d ds =>
    have hd : (d.frame, d.inTransaction) = (f, t) := by
      rw [hsent] at hds
      rcases hds with hds | ⟨v, hds⟩
      · exact (List.cons.inj hds).1.symm
      · exact (List.cons.inj hds).1.symm
    have hmissing : d.delivered = false := by
      cases hdel : d.delivered with
      | false => rfl
      | true => simp [delivered, hdel] at hnone
    rcases hjust.2.1 hmissing with hrej | ⟨before, p, between, hpast, -⟩
    · cases hd
      exact hrej
    · simp at hpast

/-- `SELECT 1` in front of a rejected SET is kept back with it. -/
theorem select_lost_with_set :
    ¬ ∀ x, Trace.exec (Carried.step ⟨.transaction, 0, 100⟩)
        (.start ⟨.transaction, 0, 100⟩ ⟨⟨0, none⟩, 0, false⟩)
        [.clientRead (encodeAll [simpleQuery "SELECT 1", simpleQuery "SET a = 1"]) 0 {}] = some x →
      DropsOnlyRejected ⟨.transaction, 0, 100⟩ x := by
  have hend : (Trace.exec (Carried.step ⟨.transaction, 0, 100⟩)
      (.start ⟨.transaction, 0, 100⟩ ⟨⟨0, none⟩, 0, false⟩)
      [.clientRead (encodeAll [simpleQuery "SELECT 1", simpleQuery "SET a = 1"]) 0 {}]).map
      (fun x => (x.unfinished, x.sent, x.written)) =
      some ([], [(simpleQuery "SELECT 1", false), (simpleQuery "SET a = 1", false)], []) := by
    decide +kernel
  obtain ⟨x, hrun, hx⟩ := Option.map_eq_some_iff.1 hend
  obtain ⟨hdone, hsent, hwritten⟩ : x.unfinished = [] ∧
      x.sent = [(simpleQuery "SELECT 1", false), (simpleQuery "SET a = 1", false)] ∧
      x.written = [] := by simpa using hx
  intro h
  have hrej := (h x hrun).first_rejected hdone hwritten hsent
  exact absurd hrej (by decide +kernel)

end ScryProxy
