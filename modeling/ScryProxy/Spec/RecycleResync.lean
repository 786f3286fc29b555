import ScryProxy.Native.Recycle
import ScryProxy.Spec.BackendStream

/-!
# Resynchronisation by recycling

`health_check` and `reset_connection` each read until the first buffer that holds a
ReadyForQuery.  A backend that owes nothing is left with nothing unread, whatever the
timing.  A backend that still owes a response cycle can be left with the answer to
`DISCARD ALL` unread: each of the two reads may stop after one of the earlier cycles
(`resyncs_iff_nothing_owed`).
-/

namespace ScryProxy

open Frame (encodeAll)

/-- One response cycle of an idle backend: messages, then ReadyForQuery with status idle. -/
structure Cycle (c : List Frame) : Prop where
  shape : ∃ body, c = body ++ [readyFrame .idle] ∧
    ∀ f ∈ body, WellFormed f ∧ f.tag ≠ msgReadyForQuery

variable {c : List Frame}

theorem Cycle.wellFormed (hc : Cycle c) : ∀ f ∈ c, WellFormed f := by
  obtain ⟨body, rfl, hbody⟩ := hc.shape
  intro f hf
  rcases List.mem_append.1 hf with hf | hf
  · exact (hbody f hf).1
  · rw [List.mem_singleton.1 hf]
    exact wellFormed_readyFrame .idle

theorem lastReady_of_ne {body : List Frame} (h : ∀ f ∈ body, f.tag ≠ msgReadyForQuery) :
    lastReady body = none := by
  induction body with
  | nil => rfl
  | cons f body ih =>
    rw [lastReady, ih fun g hg => h g (List.mem_cons_of_mem f hg), readyStatus,
      if_neg (h f List.mem_cons_self)]
    rfl

/-- Where only the last message is a ReadyForQuery, a proper part holds none. -/
theorem lastReady_front {body done todo : List Frame} {last : Frame}
    (hne : ∀ f ∈ body, f.tag ≠ msgReadyForQuery) (h : done ++ todo = body ++ [last])
    (htodo : todo ≠ []) : lastReady done = none := by
  obtain ⟨front, last, rfl⟩ := (List.eq_nil_or_concat' todo).resolve_left htodo
  rw [← List.append_assoc] at h
  obtain ⟨rfl, -⟩ := List.append_inj' h rfl
  exact lastReady_of_ne fun f hf => hne f (List.mem_append_left front hf)

theorem Cycle.lastReady_front {done todo : List Frame} (hc : Cycle (done ++ todo))
    (htodo : todo ≠ []) : lastReady done = none := by
  obtain ⟨body, hbody, hne⟩ := hc.shape
  exact ScryProxy.lastReady_front (fun f hf => (hne f hf).2) hbody htodo

theorem Cycle.lastReady (hc : Cycle c) : lastReady c = some TransactionState.idle.status := by
  obtain ⟨body, rfl, -⟩ := hc.shape
  rw [lastReady_append]
  rfl

theorem Cycle.encodeAll_ne_nil (hc : Cycle c) : encodeAll c ≠ [] := by
  obtain ⟨body, rfl, -⟩ := hc.shape
  simp [Frame.encode_ne_nil]

variable {buffer : List UInt8}

/-- What the scan makes of the first bytes of a cycle: nothing until all of it is there. -/
theorem Cycle.scan_front (hc : Cycle c) (h : buffer <+: encodeAll c) :
    extractReadyForQuery .wrapping buffer =
      .ok (if buffer = encodeAll c then some TransactionState.idle.status else none) := by
  obtain ⟨done, todo, rest, rfl, rfl, hrest⟩ := Frame.prefix_encodeAll h
  rw [extractReadyForQuery_encodeAll .wrapping hc.wellFormed hrest]
  cases todo with
  | nil =>
    cases hrest
    rw [List.append_nil] at hc
    simp [hc.lastReady]
  | cons f todo =>
    -- some of the cycle is missing
    have hne : encodeAll done ++ rest ≠ encodeAll (done ++ f :: todo) := by
      intro heq
      have hlen := congrArg List.length heq
      simp only [List.length_append, Frame.encodeAll_append, Frame.encodeAll_cons] at hlen
      have hlt := hrest.2
      omega
    rw [if_neg hne, hc.lastReady_front (List.cons_ne_nil f todo)]

/-! ## Reading one cycle -/

/-- The bytes a list of reads brings. -/
def received (events : List ReadEvent) : List UInt8 :=
  events.flatMap fun
    | .data bytes => bytes
    | _ => []

/-- Scanning for an error never fails in a release build. -/
theorem findErrorLoop_returns (fuel : Nat) (buf : List UInt8) :
    ∃ fields, findErrorLoop .wrapping fuel buf = .ok fields := by
  induction fuel generalizing buf with
  | zero => exact ⟨none, by unfold findErrorLoop; rfl⟩
  | succ fuel ih =>
    rcases buf with _ | ⟨t, _ | ⟨b₀, _ | ⟨b₁, _ | ⟨b₂, _ | ⟨b₃, rest⟩⟩⟩⟩⟩
    case cons.cons.cons.cons.cons =>
      -- the only failing branch is that of checked arithmetic
      simp only [findErrorLoop, reduceCtorEq, and_false, if_false]
      split
      · split
        · exact ⟨_, rfl⟩
        · exact ih _
      · split
        · exact ih _
        · exact ⟨_, rfl⟩
    -- too short for a header
    all_goals exact ⟨none, by unfold findErrorLoop; rfl⟩

theorem extractError_returns (data : List UInt8) : ∃ e, extractError .wrapping data = .ok e := by
  obtain ⟨fields, hfields⟩ := findErrorLoop_returns data.length data
  simp only [extractError, findErrorFields, hfields, Rust.ok_bind]
  split
  · exact ⟨_, rfl⟩
  · split <;> exact ⟨_, rfl⟩

/-- While only one cycle can arrive, the reader stops with all of it or without success. -/
theorem readUntil_one_cycle (hc : Cycle c) {taken : List UInt8} {events : List ReadEvent}
    (hfront : buffer ++ received events <+: encodeAll c)
    (h : readUntilReadyForQuery .wrapping buffer events = .ok (true, taken)) :
    taken = encodeAll c := by
  induction events generalizing buffer with
  | nil => cases h
  | cons event events ih =>
    cases event with
    | eof => cases h
    | ioError => cases h
    | data bytes =>
      -- what is buffered by now is a part of the cycle
      have hbuf : buffer ++ bytes <+: encodeAll c := by
        refine List.IsPrefix.trans ?_ hfront
        rw [received, List.flatMap_cons, ← List.append_assoc]
        exact List.prefix_append _ _
      obtain ⟨status, hstatus, h⟩ := Rust.bind_returns.1 h
      rw [hc.scan_front hbuf] at hstatus
      split at hstatus
      · next hall =>
        cases hstatus
        cases h
        exact hall
      · cases hstatus
        obtain ⟨e, -, h⟩ := Rust.bind_returns.1 h
        split at h
        · cases h
        · refine ih ?_ h
          rwa [received, List.flatMap_cons, ← List.append_assoc] at hfront

/-- Reads of one byte each. -/
def bytewise (bytes : List UInt8) : List ReadEvent := bytes.map fun b => .data [b]

@[simp] theorem received_bytewise (bytes : List UInt8) : received (bytewise bytes) = bytes := by
  induction bytes with
  | nil => rfl
  | cons b bytes ih => simpa [received, bytewise] using ih

/-- A cycle that fits the response bound can be read to its last byte and no further. -/
theorem readUntil_bytewise (hc : Cycle c) (hfit : (encodeAll c).length ≤ maxResponseBuffer)
    {bytes : List UInt8} (hall : buffer ++ bytes = encodeAll c) (hbytes : bytes ≠ []) :
    readUntilReadyForQuery .wrapping buffer (bytewise bytes) = .ok (true, encodeAll c) := by
  induction bytes generalizing buffer with
  | nil => exact absurd rfl hbytes
  | cons b bytes ih =>
    have hall' : buffer ++ [b] ++ bytes = encodeAll c := by simpa using hall
    have hfront : buffer ++ [b] <+: encodeAll c := ⟨bytes, hall'⟩
    show readUntilReadyForQuery .wrapping buffer (.data [b] :: bytewise bytes) = _
    rw [readUntilReadyForQuery, hc.scan_front hfront, Rust.ok_bind]
    -- the last byte completes the ReadyForQuery, the ones before it do not
    by_cases hlast : bytes = []
    · have hbuf : buffer ++ [b] = encodeAll c := by simpa [hlast] using hall'
      rw [if_pos hbuf, hbuf]
      rfl
    · have hne : buffer ++ [b] ≠ encodeAll c := by
        intro heq
        rw [← heq] at hall'
        exact hlast (List.append_right_eq_self.1 hall')
      obtain ⟨e, he⟩ := extractError_returns (buffer ++ [b])
      have hlen : ¬ maxResponseBuffer < (buffer ++ [b]).length := by
        have := hfront.length_le
        omega
      simp only [hne, if_false, he, Rust.ok_bind, hlen]
      exact ih hall' hlast

/-! ## Recycling a backend that owes cycles -/

/-- Reads bring at least one byte and at most a buffer. -/
def Chunked (events : List ReadEvent) : Prop :=
  ∀ bytes, .data bytes ∈ events → bytes ≠ [] ∧ bytes.length ≤ readBufferSize

theorem chunked_bytewise (bytes : List UInt8) : Chunked (bytewise bytes) := by
  intro chunk h
  obtain ⟨b, -, hb⟩ := List.mem_map.1 h
  cases hb
  exact ⟨by simp, by simp [readBufferSize]⟩

/-- A timing of the backend's answers.  `cs` are the cycles owed, `e` answers the health check and
    `d` answers DISCARD ALL; neither arrives before its request is sent.  `taken` is what the health
    check has read. -/
structure Schedule (cs : List (List Frame)) (e d : List Frame) (env : RecycleEnv)
    (taken : List UInt8) : Prop where
  healthChunks : Chunked env.health.reads
  resetChunks : Chunked env.reset.reads
  health : received env.health.reads <+: encodeAll (cs.flatten ++ e)
  reset : taken ++ received env.reset.reads <+: encodeAll (cs.flatten ++ e ++ d)

/-- Under every timing, a successful health check and reset leave no answer unread. -/
def Resyncs (cs : List (List Frame)) (e d : List Frame) : Prop :=
  ∀ env health reset, healthCheck .wrapping env.health = .ok health →
    resetConnection .wrapping env.reset = .ok reset → Schedule cs e d env health.taken →
      health.ok = true → reset.ok = true →
        health.taken ++ reset.taken = encodeAll (cs.flatten ++ e ++ d)

theorem exchange_ok {message : List UInt8} {x : Exchange} {a : Answer}
    (h : exchange .wrapping message x = .ok a) (hok : a.ok = true) :
    readUntilReadyForQuery .wrapping [] x.reads = .ok (true, a.taken) := by
  unfold exchange at h
  split at h
  · obtain ⟨⟨ok, taken⟩, hread, h⟩ := Rust.bind_returns.1 h
    cases h
    rw [hread, show ok = true from hok]
  · cases h
    cases hok

/-- A backend that owes nothing is in step after recycling. -/
theorem resyncs_nil {e d : List Frame} (he : Cycle e) (hd : Cycle d) : Resyncs [] e d := by
  intro env health reset hhealth hreset hsched hok hok'
  -- the health check can only have read its own answer
  have htaken : health.taken = encodeAll e :=
    readUntil_one_cycle he hsched.health (exchange_ok hhealth hok)
  have hrest : received env.reset.reads <+: encodeAll d := by
    have h := hsched.reset
    rw [htaken, List.flatten_nil, List.nil_append, Frame.encodeAll_append] at h
    exact (List.prefix_append_right_inj _).1 h
  have htaken' : reset.taken = encodeAll d :=
    readUntil_one_cycle hd hrest (exchange_ok hreset hok')
  simp [htaken, htaken']

/-- A backend that owes a cycle can be left out of step: the health check reads that cycle and the
    reset reads the next one. -/
theorem not_resyncs_cons {cs : List (List Frame)} {e d : List Frame} (hcs : ∀ x ∈ c :: cs, Cycle x)
    (he : Cycle e) (hd : Cycle d)
    (hfit : ∀ x ∈ c :: cs ++ [e], (encodeAll x).length ≤ maxResponseBuffer) :
    ¬ Resyncs (c :: cs) e d := by
  intro h
  have hc := hcs c List.mem_cons_self
  -- the cycle after the first is another one owed, or the answer to the health check
  obtain ⟨next, later, hnext, hcycle, hfits⟩ : ∃ next later, cs.flatten ++ e = next ++ later ∧
      Cycle next ∧ (encodeAll next).length ≤ maxResponseBuffer := by
    cases cs with
    | nil => exact ⟨e, [], by simp, he, hfit e (by simp)⟩
    | cons c' cs => exact ⟨c', cs.flatten ++ e, by simp, hcs c' (by simp), hfit c' (by simp)⟩
  have hread := readUntil_bytewise hc (hfit c (by simp)) (List.nil_append _) hc.encodeAll_ne_nil
  have hread' := readUntil_bytewise hcycle hfits (List.nil_append _) hcycle.encodeAll_ne_nil
  -- the stream is the first cycle, the next, and at least the answer to the reset
  have hwhole : encodeAll ((c :: cs).flatten ++ e ++ d) =
      encodeAll c ++ (encodeAll next ++ (encodeAll later ++ encodeAll d)) := by
    rw [List.flatten_cons, List.append_assoc, List.append_assoc, ← List.append_assoc cs.flatten,
      hnext]
    simp
  have hsched : Schedule (c :: cs) e d
      ⟨⟨true, bytewise (encodeAll c)⟩, ⟨true, bytewise (encodeAll next)⟩⟩ (encodeAll c) := by
    refine ⟨chunked_bytewise _, chunked_bytewise _, by simp, ?_⟩
    rw [hwhole, received_bytewise]
    exact (List.prefix_append_right_inj _).2 (List.prefix_append _ _)
  have hall := h _ ⟨healthCheckMessage, true, encodeAll c⟩ ⟨resetMessage, true, encodeAll next⟩
    (by simp [healthCheck, exchange, hread]) (by simp [resetConnection, exchange, hread'])
    hsched rfl rfl
  -- the answer to DISCARD ALL is still unread
  rw [hwhole] at hall
  have hlen := congrArg List.length hall
  have hpos := List.length_pos_of_ne_nil hd.encodeAll_ne_nil
  simp only [List.length_append] at hlen
  omega

/-- Of the backlogs whose cycles fit the response bound, only the empty one is safe under every
    timing. -/
theorem resyncs_iff_of_fits {cs : List (List Frame)} {e d : List Frame} (hcs : ∀ c ∈ cs, Cycle c)
    (he : Cycle e) (hd : Cycle d)
    (hfit : ∀ c ∈ cs ++ [e], (encodeAll c).length ≤ maxResponseBuffer) :
    Resyncs cs e d ↔ cs = [] := by
  refine ⟨fun h => ?_, fun hnil => hnil ▸ resyncs_nil he hd⟩
  cases cs with
  | nil => rfl
  | cons c cs => exact absurd h (not_resyncs_cons hcs he hd hfit)

/-- Recycling resynchronises exactly the backends that owe nothing: for every number `k` of cycles
    owed, and for each backlog of `k` cycles that fit the response bound. -/
theorem resyncs_iff_nothing_owed (k : Nat) :
    ((∀ cs e d, cs.length = k → (∀ c ∈ cs, Cycle c) → Cycle e → Cycle d → Resyncs cs e d) ↔
      k = 0) ∧
    ∀ cs e d, cs.length = k → (∀ c ∈ cs, Cycle c) → Cycle e → Cycle d →
      (∀ c ∈ cs ++ [e], (encodeAll c).length ≤ maxResponseBuffer) → (Resyncs cs e d ↔ k = 0) := by
  refine ⟨⟨fun h => ?_, fun hk cs e d hlen _ he hd => ?_⟩, fun cs e d hlen hcs he hd hfit => ?_⟩
  · -- the shortest cycles there are
    have hcycle : Cycle [readyFrame .idle] := ⟨[], rfl, by simp⟩
    have hcs : ∀ c ∈ List.replicate k [readyFrame .idle], Cycle c := fun c hc =>
      (List.mem_replicate.1 hc).2 ▸ hcycle
    have hsync := h (List.replicate k [readyFrame .idle]) [readyFrame .idle] [readyFrame .idle]
      (List.length_replicate) hcs hcycle hcycle
    have hnil := (resyncs_iff_of_fits hcs hcycle hcycle fun c hc => ?_).1 hsync
    · simpa using hnil
    · rcases List.mem_append.1 hc with hc | hc
      · rw [(List.mem_replicate.1 hc).2]
        decide
      · rw [List.mem_singleton.1 hc]
        decide
  · subst hk
    rw [List.length_eq_zero_iff.1 hlen]
    exact resyncs_nil he hd
  · rw [resyncs_iff_of_fits hcs he hd hfit, ← hlen, List.length_eq_zero_iff]

/-- A single message and the ReadyForQuery after it. -/
theorem cycle_pair {f : Frame} (hlen : f.len < 2 ^ 31) (htag : f.tag ≠ msgReadyForQuery) :
    Cycle [f, readyFrame .idle] :=
  ⟨[f], rfl, by simp [htag, WellFormed.mk hlen (absurd · htag)]⟩

/-- In step: the health check is answered by an empty-query response, and nothing is owed. -/
theorem resyncs_in_step :
    Resyncs [] [⟨'I'.toUInt8, []⟩, readyFrame .idle]
      [⟨msgCommandComplete, asciiBytes "DISCARD ALL" ++ [0]⟩, readyFrame .idle] := by
  have he : Cycle [⟨'I'.toUInt8, []⟩, readyFrame .idle] := cycle_pair (by decide) (by decide)
  have hd : Cycle [⟨msgCommandComplete, asciiBytes "DISCARD ALL" ++ [0]⟩, readyFrame .idle] :=
    cycle_pair (by decide) (by decide)
  exact (resyncs_iff_nothing_owed 0).1.2 rfl [] _ _ rfl (by simp) he hd

/-- One owed cycle, a lone ReadyForQuery: the health check reads it, the reset reads the answer to
    the health check, and the answer to DISCARD ALL waits for the next client. -/
theorem owed_cycle_desyncs :
    ¬ Resyncs [[readyFrame .idle]] [⟨'I'.toUInt8, []⟩, readyFrame .idle]
      [⟨msgCommandComplete, asciiBytes "DISCARD ALL" ++ [0]⟩, readyFrame .idle] := by
  have he : Cycle [⟨'I'.toUInt8, []⟩, readyFrame .idle] := cycle_pair (by decide) (by decide)
  have hd : Cycle [⟨msgCommandComplete, asciiBytes "DISCARD ALL" ++ [0]⟩, readyFrame .idle] :=
    cycle_pair (by decide) (by decide)
  refine not_resyncs_cons (fun x hx => ?_) he hd (by decide)
  rw [List.mem_singleton.1 hx]
  exact ⟨[], rfl, by simp⟩

end ScryProxy
