import ScryProxy.Native.Healthcheck
import ScryProxy.Spec.PoolLife
import ScryProxy.Spec.ResetOutcome

/-!
# Probes of a backend that has not been started

A Postgres server takes the first bytes of a connection for a startup packet.  The empty query
of `health_check` is not one: its tag and length read as a packet of more than a gigabyte, and
the server closes the connection.  So an active check, which probes a connection of its own,
fails on every healthy server, and after `failure_threshold` of them the breaker opens
(`neverUnhealthy_iff`).  For the same reason a connection made by `warmup` does not survive
its first `recycle` (`warmUsable_iff`).
-/

namespace ScryProxy

open Frame (encodeAll)

/-! ## The server before startup -/

/-- Largest startup packet that a server reads. -/
def maxStartupPacket : Nat := 10000

/-- Protocol version 3.0, and the codes of cancel, SSL and GSS encryption requests. -/
def requestCodes : List Nat := [196608, 80877102, 80877103, 80877104]

/-- What a server makes of the first bytes of a connection. -/
inductive FirstPacket where
  | incomplete
  | invalid
  | valid
  deriving DecidableEq, Repr

def firstPacket : List UInt8 → FirstPacket
  | b₀ :: b₁ :: b₂ :: b₃ :: rest =>
    let length := BigEndian.u32 b₀ b₁ b₂ b₃
    if length < 8 || maxStartupPacket < length then .invalid
    else if rest.length + 4 < length then .incomplete
    else match rest with
      | c₀ :: c₁ :: c₂ :: c₃ :: _ =>
        if requestCodes.contains (BigEndian.u32 c₀ c₁ c₂ c₃) then .valid else .invalid
      | _ => .incomplete
  | _ => .incomplete

/-- The server closes the connection; it may say why, but is never ready for a query. -/
def Refused (events : List ReadEvent) : Prop :=
  ∃ fs reads last, Cut fs reads ∧ (∀ f ∈ fs, f.tag ≠ msgReadyForQuery) ∧
    (last = .eof ∨ last = .ioError) ∧ events = reads.map .data ++ [last]

/-- A healthy server, as a new connection meets it: what its reads return after the first bytes. -/
structure PostgresBackend where
  reads : List UInt8 → List ReadEvent
  refuses : ∀ sent, firstPacket sent = .invalid → Refused (reads sent)
  answers : ∀ sent, firstPacket sent = .valid → ∃ fs chunks, fs ≠ [] ∧ Cut fs chunks ∧
    reads sent = chunks.map .data

/-- `health_check` as the first thing on a connection. -/
def PostgresBackend.probe (b : PostgresBackend) : Exchange := ⟨true, b.reads healthCheckMessage⟩

theorem firstPacket_healthCheckMessage : firstPacket healthCheckMessage = .invalid := by
  decide

/-- Without a ReadyForQuery in what comes, the wait for one ends with `false`. -/
theorem readUntil_refused {fs : List Frame} (hwf : ∀ f ∈ fs, WellFormed f)
    (hne : ∀ f ∈ fs, f.tag ≠ msgReadyForQuery) {buffer : List UInt8} {reads : List (List UInt8)}
    {last : ReadEvent} (hlast : last = .eof ∨ last = .ioError)
    (h : buffer ++ reads.flatten <+: encodeAll fs) :
    ∃ taken, readUntilReadyForQuery .wrapping buffer (reads.map .data ++ [last]) =
      .ok (false, taken) := by
  induction reads generalizing buffer with
  | nil => rcases hlast with rfl | rfl <;> exact ⟨buffer, rfl⟩
  | cons read reads ih =>
    have hrest : buffer ++ read ++ reads.flatten <+: encodeAll fs := by simpa using h
    obtain ⟨e, he⟩ := extractError_returns (buffer ++ read)
    rw [List.map_cons, List.cons_append, readUntilReadyForQuery,
      scan_front hwf ((List.prefix_append _ _).trans hrest),
      shownStatus_none hwf hne ((List.prefix_append _ _).trans hrest)]
    simp only [Rust.ok_bind, he]
    by_cases hlong : maxResponseBuffer < (buffer ++ read).length
    · exact ⟨buffer ++ read, by rw [if_pos hlong]; rfl⟩
    · rw [if_neg hlong]
      exact ih hrest

/-- The health check fails on every connection that has not been started. -/
theorem PostgresBackend.probe_fails (b : PostgresBackend) :
    ∃ taken, healthCheck .wrapping b.probe = .ok ⟨healthCheckMessage, false, taken⟩ := by
  obtain ⟨fs, reads, last, hcut, hne, hlast, hevents⟩ :=
    b.refuses _ firstPacket_healthCheckMessage
  have hall : [] ++ reads.flatten <+: encodeAll fs := by simp [hcut.flatten]
  obtain ⟨taken, hread⟩ := readUntil_refused hcut.wellFormed hne hlast hall
  exact ⟨taken, by simp [healthCheck, exchange, probe, hevents, hread]⟩

/-- A server that closes without a word. -/
def closingBackend : PostgresBackend where
  reads sent := match firstPacket sent with
    | .invalid => [.eof]
    | .valid => [.data (encodeAll [readyFrame .idle])]
    | .incomplete => []
  refuses sent h := by
    rw [h]
    exact ⟨[], [], .eof, ⟨by simp, by simp, rfl⟩, by simp, .inl rfl, rfl⟩
  answers sent h := by
    rw [h]
    refine ⟨[readyFrame .idle], [encodeAll [readyFrame .idle]], by simp, ⟨?_, by decide, by simp⟩, rfl⟩
    intro f hf
    rw [List.mem_singleton.1 hf]
    exact wellFormed_readyFrame .idle

/-! ## Active checks -/

namespace HealthLoop

/-- Number of checks in a run. -/
def ticks (events : List HealthEvent) : Nat := events.countP HealthEvent.isTick

/-- Every check probes the backend `b`. -/
def Probes (b : PostgresBackend) (events : List HealthEvent) : Prop :=
  ∀ probe now, .tick probe now ∈ events → probe = .connected b.probe

/-- If the event is a tick, the check returns `true` and the breaker does not open. -/
def Quiet (l : HealthLoop) (e : HealthEvent) : Prop :=
  ∀ probe now, e = .tick probe now → ∃ l', l.tick .wrapping probe now = .ok (true, l') ∧
    ∀ cb' ∈ l'.breaker, cb'.state = .opened → ∃ cb ∈ l.breaker, cb.state = .opened

/-- No check of the run reports the backend unhealthy or opens the breaker. -/
def NeverUnhealthy (l : HealthLoop) (events : List HealthEvent) : Prop :=
  Trace.Admits (step .wrapping) Quiet l events

theorem ticks_cons (e : HealthEvent) (events : List HealthEvent) :
    ticks (e :: events) = ticks [e] + ticks events := by
  rw [← List.singleton_append]
  exact List.countP_append

theorem probes_cons {b : PostgresBackend} {e : HealthEvent} {events : List HealthEvent} :
    Probes b (e :: events) ↔ Probes b [e] ∧ Probes b events := by
  simp only [Probes, List.mem_cons, List.not_mem_nil, or_false]
  exact ⟨fun h => ⟨fun p n he => h p n (.inl he), fun p n he => h p n (.inr he)⟩,
    fun h p n he => he.elim (h.1 p n) (h.2 p n)⟩

theorem useBreaker_returns {use : CircuitBreaker → Rust CircuitBreaker}
    (huse : ∀ cb, ∃ cb', use cb = .ok cb') (l : HealthLoop) :
    ∃ l', l.useBreaker use = some l' ∧ l'.healthcheck = l.healthcheck := by
  cases hbreaker : l.breaker with
  | none => exact ⟨l, by simp [useBreaker, hbreaker], rfl⟩
  | some cb =>
    obtain ⟨cb', hcb'⟩ := huse cb
    exact ⟨{ l with breaker := some cb' }, by simp [useBreaker, hbreaker, hcb', Except.toOption], rfl⟩

/-- What is not a tick leaves the health check alone. -/
theorem step_other {l : HealthLoop} {e : HealthEvent} (he : e.isTick = false) :
    ∃ l', step .wrapping l e = some l' ∧ l'.healthcheck = l.healthcheck := by
  cases e with
  | tick probe now => cases he
  | register config now => exact ⟨_, rfl, rfl⟩
  | allowRequest now =>
    refine useBreaker_returns (fun cb => ?_) l
    obtain ⟨answer, cb', hcb'⟩ := cb.allowRequest_returns now
    exact ⟨cb', by simp [hcb', Except.map]⟩
  | recordSuccess now => exact useBreaker_returns (fun cb => cb.recordSuccess_returns now) l
  | recordFailure now unhealthy =>
    exact useBreaker_returns (fun cb => cb.recordFailure_returns now unhealthy) l

/-- A healthy report does not open the breaker. -/
theorem reported_true_quiet (l : HealthLoop) (healthcheck : ActiveHealthcheck) (now : UInt64) :
    ∀ cb' ∈ (HealthLoop.mk healthcheck (l.breaker.map fun cb => cb.reportHealth now true)).breaker,
      cb'.state = .opened → ∃ cb ∈ l.breaker, cb.state = .opened := by
  intro cb' hcb' hopened
  obtain ⟨cb, hcb, rfl⟩ := Option.mem_map.1 hcb'
  exact ⟨cb, hcb, cb.opened_of_reportHealth_true hopened⟩

section Enabled

variable {b : PostgresBackend} {config : HealthcheckConfig} {l : HealthLoop} {k : Nat}

/-- After `k` failed checks, fewer than the threshold. -/
def Failed (config : HealthcheckConfig) (k : Nat) (l : HealthLoop) : Prop :=
  l.healthcheck = ⟨config, UInt32.ofNat k, true⟩

/-- The next check fails; it is reported once the threshold is reached. -/
theorem Failed.tick (hl : Failed config k l) (hon : config.activeEnabled = true)
    (hk : k < config.failureThreshold.toNat) (now : UInt64) :
    l.tick .wrapping (.connected b.probe) now =
      .ok (decide (k + 1 < config.failureThreshold.toNat),
        ⟨⟨config, UInt32.ofNat (k + 1), decide (k + 1 < config.failureThreshold.toNat)⟩,
          l.breaker.map fun cb =>
            cb.reportHealth now (decide (k + 1 < config.failureThreshold.toNat))⟩) := by
  obtain ⟨taken, hprobe⟩ := b.probe_fails
  have hbound := config.failureThreshold.toNat_lt
  have hsucc : UInt32.ofNat k + 1 = UInt32.ofNat (k + 1) := by
    rw [UInt32.ofNat_add]
    rfl
  have hsize : k + 1 < UInt32.size := show k + 1 < 4294967296 by omega
  have hle : config.failureThreshold ≤ UInt32.ofNat (k + 1) ↔
      ¬ k + 1 < config.failureThreshold.toNat := by
    rw [UInt32.le_iff_toNat_le, UInt32.toNat_ofNat_of_lt' hsize, Nat.not_lt]
  rw [Failed] at hl
  simp only [HealthLoop.tick, hl, ActiveHealthcheck.check, hon, Probe.passes, hprobe, Rust.ok_bind,
    Rust.pure_eq_ok, Rust.u32Succ_wrapping, hsucc, hle]
  by_cases hlast : k + 1 < config.failureThreshold.toNat
  · simp [hlast]
  · simp [hlast]

/-- Before the threshold an event does not report, and only adds to the count. -/
theorem Failed.step {e : HealthEvent} (hl : Failed config k l) (hon : config.activeEnabled = true)
    (hprobe : Probes b [e]) (hk : k + ticks [e] < config.failureThreshold.toNat) :
    Quiet l e ∧ ∃ l', HealthLoop.step .wrapping l e = some l' ∧ Failed config (k + ticks [e]) l' := by
  cases htick : e.isTick with
  | false =>
    obtain ⟨l', hstep, hcheck⟩ := step_other (l := l) htick
    have hnone : ticks [e] = 0 := by simp [ticks, htick]
    refine ⟨?_, l', hstep, ?_⟩
    · rintro probe now rfl
      cases htick
    · rw [hnone]
      exact hcheck.trans hl
  | true =>
    cases e with
    | tick probe now =>
      obtain rfl := hprobe probe now (List.mem_singleton.2 rfl)
      have hone : ticks [.tick (.connected b.probe) now] = 1 := rfl
      rw [hone] at hk ⊢
      have hrun := hl.tick (b := b) hon (by omega) now
      simp only [hk, decide_true] at hrun
      refine ⟨?_, _, by rw [HealthLoop.step, hrun]; rfl, by rw [Failed]⟩
      rintro probe' now' ⟨⟩
      exact ⟨_, hrun, reported_true_quiet l _ now⟩
    | register | allowRequest | recordSuccess | recordFailure => cases htick

theorem Failed.exec (hl : Failed config k l) (hon : config.activeEnabled = true)
    {events : List HealthEvent} (hprobes : Probes b events)
    (hk : k + ticks events < config.failureThreshold.toNat) {l' : HealthLoop}
    (hrun : Trace.exec (HealthLoop.step .wrapping) l events = some l') :
    Failed config (k + ticks events) l' := by
  induction events generalizing l k with
  | nil =>
    cases hrun
    exact hl
  | cons e events ih =>
    rw [ticks_cons, ← Nat.add_assoc] at hk ⊢
    obtain ⟨hprobe, hrest⟩ := probes_cons.1 hprobes
    obtain ⟨-, l₁, hstep, hl₁⟩ := hl.step hon hprobe (by omega)
    obtain ⟨l₁', hstep', hrun⟩ := Trace.exec_cons_eq_some.1 hrun
    rw [hstep] at hstep'
    cases hstep'
    exact ih hl₁ hrest hk hrun

/-- A run from there is quiet exactly if it does not reach the threshold. -/
theorem Failed.quiet_iff (hl : Failed config k l) (hon : config.activeEnabled = true)
    (hk : k < config.failureThreshold.toNat) {events : List HealthEvent}
    (hprobes : Probes b events) :
    NeverUnhealthy l events ↔ k + ticks events < config.failureThreshold.toNat := by
  induction events generalizing l k with
  | nil => exact ⟨fun _ => hk, fun _ => trivial⟩
  | cons e events ih =>
    rw [ticks_cons, ← Nat.add_assoc]
    obtain ⟨hprobe, hrest⟩ := probes_cons.1 hprobes
    by_cases hearly : k + ticks [e] < config.failureThreshold.toNat
    · obtain ⟨hquiet, l₁, hstep, hl₁⟩ := hl.step hon hprobe hearly
      rw [← ih hl₁ hearly hrest]
      refine ⟨fun h => h.2 l₁ hstep, fun h => ⟨hquiet, fun l₁' hstep' => ?_⟩⟩
      rw [hstep] at hstep'
      cases hstep'
      exact h
    · -- the event is the check that reaches the threshold, and is reported
      refine ⟨fun h => ?_, fun h => by omega⟩
      cases e with
      | tick probe now =>
        obtain rfl := hprobe probe now (List.mem_singleton.2 rfl)
        obtain ⟨l', hquiet, -⟩ := h.1 _ _ rfl
        have hlast : ¬ k + 1 < config.failureThreshold.toNat := hearly
        rw [hl.tick hon hk now] at hquiet
        simp [hlast] at hquiet
      | register | allowRequest | recordSuccess | recordFailure => exact absurd hk hearly

end Enabled

/-- A check that is switched off reports nothing. -/
theorem neverUnhealthy_of_disabled {l : HealthLoop}
    (hoff : l.healthcheck.config.activeEnabled = false) (events : List HealthEvent) :
    NeverUnhealthy l events := by
  induction events generalizing l with
  | nil => trivial
  | cons e events ih =>
    have htick : ∀ probe now, l.tick .wrapping probe now = .ok (true,
        ⟨l.healthcheck, l.breaker.map fun cb => cb.reportHealth now true⟩) := by
      intro probe now
      simp [HealthLoop.tick, ActiveHealthcheck.check, hoff]
    refine ⟨fun probe now _ => ⟨_, htick probe now, reported_true_quiet l _ now⟩, fun l' hstep => ?_⟩
    refine ih ?_
    cases hkind : e.isTick with
    | false =>
      obtain ⟨l'', hstep', hcheck⟩ := step_other (l := l) hkind
      rw [hstep] at hstep'
      cases hstep'
      rw [hcheck, hoff]
    | true =>
      cases e with
      | tick probe now =>
        rw [HealthLoop.step, htick] at hstep
        cases hstep
        exact hoff
      | register | allowRequest | recordSuccess | recordFailure => cases hkind

/-- The checks of a healthy backend stay silent exactly if they are off or fewer than the
    threshold.  The one that reaches it reports the backend unhealthy and opens the breaker. -/
theorem neverUnhealthy_iff {b : PostgresBackend} {config : HealthcheckConfig}
    {events : List HealthEvent} (hthreshold : 1 ≤ config.failureThreshold)
    (hprobes : Probes b events) :
    (NeverUnhealthy ⟨.new config, none⟩ events ↔
      config.activeEnabled = false ∨ ticks events < config.failureThreshold.toNat) ∧
    (config.activeEnabled = true → ∀ before probe now after l,
      events = before ++ .tick probe now :: after →
      ticks before + 1 = config.failureThreshold.toNat →
      Trace.exec (HealthLoop.step .wrapping) ⟨.new config, none⟩ before = some l →
      ∃ l', l.tick .wrapping probe now = .ok (false, l') ∧
        ∀ cb ∈ l'.breaker, cb.state = .opened) := by
  have hpos : 0 < config.failureThreshold.toNat := UInt32.le_iff_toNat_le.1 hthreshold
  have hnew : Failed config 0 ⟨.new config, none⟩ := rfl
  refine ⟨?_, ?_⟩
  · cases hon : config.activeEnabled with
    | false =>
      exact ⟨fun _ => .inl rfl, fun _ => neverUnhealthy_of_disabled hon events⟩
    | true =>
      rw [hnew.quiet_iff hon hpos hprobes, Nat.zero_add]
      simp
  · intro hon before probe now after l hevents hcount hrun
    subst hevents
    obtain rfl := hprobes probe now (by simp)
    have hbefore : Probes b before := fun p n hp => hprobes p n (List.mem_append_left _ hp)
    have hl := hnew.exec hon hbefore (by omega) hrun
    have htick := hl.tick (b := b) hon (by omega) now
    have hlast : ¬ 0 + ticks before + 1 < config.failureThreshold.toNat := by omega
    simp only [hlast, decide_false] at htick
    refine ⟨_, htick, fun cb' hcb' => ?_⟩
    obtain ⟨cb, -, rfl⟩ := Option.mem_map.1 hcb'
    exact cb.reportHealth_false now

/-- Two checks with a threshold of three. -/
theorem neverUnhealthy_two_checks :
    NeverUnhealthy ⟨.new ⟨true, 3⟩, none⟩
      [.tick (.connected closingBackend.probe) 0, .tick (.connected closingBackend.probe) 30] := by
  refine (neverUnhealthy_iff (b := closingBackend) (by decide) ?_).1.2 (.inr (by decide))
  rintro probe now (_ | ⟨_, _ | ⟨_, ⟨⟩⟩⟩) <;> rfl

/-- The third check of a healthy backend opens its breaker. -/
theorem healthy_backend_shed :
    ¬ NeverUnhealthy ⟨.new ⟨true, 3⟩, none⟩
      [.register ⟨true, 5, 2, 30, 60, true⟩ 0, .tick (.connected closingBackend.probe) 0,
        .tick (.connected closingBackend.probe) 30, .tick (.connected closingBackend.probe) 60] ∧
    ((Trace.exec (HealthLoop.step .wrapping) ⟨.new ⟨true, 3⟩, none⟩
      [.register ⟨true, 5, 2, 30, 60, true⟩ 0, .tick (.connected closingBackend.probe) 0,
        .tick (.connected closingBackend.probe) 30,
        .tick (.connected closingBackend.probe) 60]).bind HealthLoop.breaker).map
      CircuitBreaker.state = some .opened := by
  refine ⟨fun h => ?_, by decide⟩
  have hnew : Failed ⟨true, 3⟩ 0 ⟨.new ⟨true, 3⟩, none⟩ := rfl
  have hfew := (hnew.quiet_iff (b := closingBackend) rfl (by decide) ?_).1 h
  · exact absurd hfew (by decide)
  · rintro probe now (_ | ⟨_, _ | ⟨_, _ | ⟨_, _ | ⟨_, ⟨⟩⟩⟩⟩⟩) <;> rfl

end HealthLoop

/-! ## Warmed connections -/

/-- Every connection tried is one that has not been started, on the backend `b`. -/
def Checkout.Unstarted (b : PostgresBackend) (uses : List PoolUse) : Prop :=
  ∀ attempts connects, .get attempts connects ∈ uses → ∀ a ∈ attempts, a.env.health = b.probe

namespace Checkout

variable {b : PostgresBackend} {maxSize : Nat} {c c' : Checkout} {attempts : List Attempt}

theorem recycle_fails {env : RecycleEnv} (h : env.health = b.probe) :
    recycle .wrapping env = .ok false := by
  obtain ⟨taken, hprobe⟩ := b.probe_fails
  simp [recycle, h, hprobe]

/-- A `get` that tries connections that have not been started ends with a new one. -/
theorem get_fresh (h : ∀ a ∈ attempts, a.env.health = b.probe) (fresh : Option PooledBackend)
    (p : Pool) : ∃ p', p.get .wrapping fresh attempts = .ok (fresh, p') := by
  induction attempts generalizing p with
  | nil => exact ⟨p, rfl⟩
  | cons a attempts ih =>
    have hrest : ∀ a' ∈ attempts, a'.env.health = b.probe := fun a' ha' =>
      h a' (List.mem_cons_of_mem a ha')
    by_cases hidle : a.object ∈ p.idle
    · simp only [Pool.get, hidle, if_true, recycle_fails (h a (List.mem_cons_self ..)), Rust.ok_bind,
        Bool.false_eq_true, if_false]
      exact ih hrest _
    · simp only [Pool.get, hidle, if_false]
      exact ih hrest p

/-- A `get` that returns has made no use of the connections there were. -/
theorem step_get {connects : Bool} (h : ∀ a ∈ attempts, a.env.health = b.probe)
    (hstep : step .wrapping maxSize c (.get attempts connects) = some c') :
    c'.created = c.created + 1 ∧ ∀ x ∈ c'.out, x ∈ c.out ∨ x = c.create := by
  obtain ⟨pool, hget⟩ := get_fresh h (if connects then some c.create else none) c.pool
  simp only [step, hget] at hstep
  split at hstep
  · cases connects with
    | false =>
      cases hstep
      exact ⟨rfl, fun x hx => .inl hx⟩
    | true =>
      cases hstep
      exact ⟨rfl, fun x hx => (List.mem_cons.1 hx).symm⟩
  · cases hstep

theorem Unstarted.of_cons {use : PoolUse} {uses : List PoolUse} (h : Unstarted b (use :: uses)) :
    Unstarted b uses :=
  fun attempts connects huse => h attempts connects (List.mem_cons_of_mem use huse)

/-- Calls of `get` return new connections only. -/
theorem exec_gets_fresh {gets : List PoolUse} (hgets : ∀ use ∈ gets, use.isGet = true)
    (hunstarted : Unstarted b gets)
    (hrun : Trace.exec (step .wrapping maxSize) c gets = some c') {k : Nat} (hk : k ≤ c.created)
    (hout : ∀ x ∈ c.out, k ≤ x.id) : ∀ x ∈ c'.out, k ≤ x.id := by
  induction gets generalizing c with
  | nil =>
    cases hrun
    exact hout
  | cons use gets ih =>
    obtain ⟨c₁, hstep, hrun₁⟩ := Trace.exec_cons_eq_some.1 hrun
    have hrest : ∀ use' ∈ gets, use'.isGet = true := fun use' h =>
      hgets use' (List.mem_cons_of_mem use h)
    cases use with
    | drop x => exact absurd (hgets _ (List.mem_cons_self ..)) (by simp [PoolUse.isGet])
    | get attempts connects =>
      obtain ⟨hcreated, hnew⟩ := step_get (hunstarted _ _ (List.mem_cons_self ..)) hstep
      refine ih hrest hunstarted.of_cons hrun₁ (by omega) fun x hx => ?_
      rcases hnew x hx with hx | rfl
      · exact hout x hx
      · exact hk

/-- Calls of `get` that can connect and find a free slot all return a connection. -/
theorem exec_gets (tries : List (List Attempt))
    (h : ∀ attempts ∈ tries, ∀ a ∈ attempts, a.env.health = b.probe) (c : Checkout)
    (hsize : c.out.length + tries.length ≤ maxSize) :
    ∃ c', Trace.exec (step .wrapping maxSize) c (tries.map (.get · true)) = some c' ∧
      c'.out.length = c.out.length + tries.length ∧ c'.served = c.served + tries.length := by
  induction tries generalizing c with
  | nil => exact ⟨c, rfl, rfl, rfl⟩
  | cons attempts tries ih =>
    obtain ⟨pool, hget⟩ := get_fresh (h attempts (List.mem_cons_self ..)) (some c.create) c.pool
    rw [List.length_cons] at hsize ⊢
    let c₁ : Checkout := ⟨pool, c.create :: c.out, c.created + 1, c.served + 1⟩
    have hstep : step .wrapping maxSize c (.get attempts true) = some c₁ := by
      simp only [step, if_true, hget]
      rw [if_pos (by omega)]
    have hsize₁ : c₁.out.length + tries.length ≤ maxSize := by
      show (c.create :: c.out).length + tries.length ≤ maxSize
      rw [List.length_cons]
      omega
    obtain ⟨c', hrun, hout, hserved⟩ :=
      ih (fun a ha => h a (List.mem_cons_of_mem attempts ha)) c₁ hsize₁
    refine ⟨c', Trace.exec_cons_eq_some.2 ⟨c₁, hstep, hrun⟩, ?_, ?_⟩
    · rw [hout, show c₁.out.length = c.out.length + 1 from List.length_cons]
      omega
    · rw [hserved, show c₁.served = c.served + 1 from rfl]
      omega

theorem isGet_gets (tries : List (List Attempt)) :
    ∀ use ∈ tries.map (PoolUse.get · true), use.isGet = true := by
  intro use huse
  obtain ⟨attempts, -, rfl⟩ := List.mem_map.1 huse
  rfl

theorem unstarted_gets {tries : List (List Attempt)}
    (h : ∀ attempts ∈ tries, ∀ a ∈ attempts, a.env.health = b.probe) :
    Unstarted b (tries.map (PoolUse.get · true)) := by
  intro attempts connects huse
  obtain ⟨attempts', hmem, heq⟩ := List.mem_map.1 huse
  cases heq
  exact h attempts hmem

/-- What is held can be dropped. -/
theorem exec_drops (maxSize : Nat) (out : List PooledBackend) (hout : c.out = out) :
    ∃ c', Trace.exec (step .wrapping maxSize) c (out.map .drop) = some c' ∧ c'.out = [] ∧
      c'.served = c.served := by
  induction out generalizing c with
  | nil => exact ⟨c, rfl, hout, rfl⟩
  | cons x out ih =>
    have hstep : step .wrapping maxSize c (.drop x) =
        some { c with pool := c.pool.put x, out := out } := by
      simp [step, hout]
    obtain ⟨c', hrun, hnil, hserved⟩ :=
      ih (c := { c with pool := c.pool.put x, out := out }) rfl
    exact ⟨c', Trace.exec_cons_eq_some.2 ⟨_, hstep, hrun⟩, hnil, hserved⟩

end Checkout

/-- A warm-up ends with nothing checked out. -/
theorem Warmup.out_run {n k maxSize : Nat} {c : Checkout} (w : Warmup n)
    (h : w.run .wrapping maxSize = some (k, c)) : c.out = [] := by
  rw [Warmup.run] at h
  split at h
  · split at h
    · next hnil =>
      cases h
      exact hnil
    · cases h
  · cases h

/-- After a `warmup(n)` that returned `n`, each of the next `n` calls of `get` returns one of the
    connections it created. -/
def WarmUsable (b : PostgresBackend) (maxSize n : Nat) : Prop :=
  ∀ (w : Warmup n) c, Checkout.Unstarted b w.uses → w.run .wrapping maxSize = some (n, c) →
  ∀ gets c', (∀ use ∈ gets, use.isGet = true) → gets.length = n → Checkout.Unstarted b gets →
    Trace.exec (Checkout.step .wrapping maxSize) c gets = some c' →
    c'.out.length = n ∧ ∀ x ∈ c'.out, x.id < c.created

/-- A warm-up of a backend that can be reached returns. -/
theorem exists_warmup (b : PostgresBackend) {maxSize n : Nat} (hn : n ≤ maxSize) :
    ∃ (w : Warmup n) (c : Checkout), Checkout.Unstarted b w.uses ∧
      w.run .wrapping maxSize = some (n, c) := by
  have hroom : Checkout.new.out.length + (List.replicate n ([] : List Attempt)).length ≤ maxSize := by
    simpa [Checkout.new] using hn
  obtain ⟨c₁, hgets, -, hserved⟩ := Checkout.exec_gets (b := b) _ (by simp) .new hroom
  obtain ⟨c, hdrops, hnil, hserved'⟩ := Checkout.exec_drops maxSize c₁.out rfl
  let uses : List PoolUse := (List.replicate n []).map (.get · true) ++ c₁.out.map .drop
  have hcount : uses.countP PoolUse.isGet = n := by
    have hget : PoolUse.isGet ∘ (.get · true) = fun _ => true := rfl
    have hdrop : PoolUse.isGet ∘ .drop = fun _ => false := rfl
    simp only [uses, List.countP_append, List.countP_map, hget, hdrop]
    simp
  have hunstarted : Checkout.Unstarted b uses := by
    intro attempts connects huse
    rcases List.mem_append.1 huse with huse | huse
    · exact Checkout.unstarted_gets (by simp) attempts connects huse
    · obtain ⟨x, -, heq⟩ := List.mem_map.1 huse
      cases heq
  have hrun : Trace.exec (Checkout.step .wrapping maxSize) .new uses = some c := by
    rw [Trace.exec_append, hgets]
    exact hdrops
  refine ⟨⟨uses, hcount⟩, c, hunstarted, ?_⟩
  have hall : c.served = n := by
    rw [hserved', hserved]
    simp [Checkout.new]
  simp only [Warmup.run, hrun, hnil, if_true, hall]

section Warmed

variable {b : PostgresBackend} {maxSize n : Nat}

/-- The calls of `get` after a warm-up return none of the connections it created. -/
theorem Warmup.gets_fresh {c c' : Checkout} (w : Warmup n)
    (hwarm : w.run .wrapping maxSize = some (n, c)) {gets : List PoolUse}
    (hgets : ∀ use ∈ gets, use.isGet = true) (hunstarted : Checkout.Unstarted b gets)
    (hrun : Trace.exec (Checkout.step .wrapping maxSize) c gets = some c') :
    ∀ x ∈ c'.out, c.created ≤ x.id := by
  refine Checkout.exec_gets_fresh hgets hunstarted hrun (Nat.le_refl _) fun x hx => ?_
  rw [w.out_run hwarm] at hx
  cases hx

theorem not_warmUsable (hn : n ≤ maxSize) (hpos : 0 < n) : ¬ WarmUsable b maxSize n := by
  intro husable
  obtain ⟨w, c, hw, hwarm⟩ := exists_warmup b hn
  -- the first call tries every idle connection, the others find none
  let first : List Attempt := c.pool.idle.map fun x => ⟨x, b.probe, ⟨true, []⟩⟩
  let tries : List (List Attempt) := first :: List.replicate (n - 1) []
  have hlen : tries.length = n := by
    simp only [tries, List.length_cons, List.length_replicate]
    omega
  have hprobe : ∀ attempts ∈ tries, ∀ a ∈ attempts, a.env.health = b.probe := by
    intro attempts hmem a ha
    rcases List.mem_cons.1 hmem with rfl | hmem
    · obtain ⟨x, -, rfl⟩ := List.mem_map.1 ha
      rfl
    · rw [(List.mem_replicate.1 hmem).2] at ha
      cases ha
  have hroom : c.out.length + tries.length ≤ maxSize := by
    rw [w.out_run hwarm, hlen]
    simpa using hn
  obtain ⟨c', hrun, -, -⟩ := Checkout.exec_gets tries hprobe c hroom
  have hgets := Checkout.isGet_gets tries
  have hunstarted := Checkout.unstarted_gets hprobe
  obtain ⟨hcount, hold⟩ :=
    husable w c hw hwarm _ c' hgets (by rw [List.length_map, hlen]) hunstarted hrun
  obtain ⟨x, hx⟩ := List.exists_mem_of_length_pos (hcount ▸ hpos)
  exact absurd (hold x hx) (Nat.not_lt.2 (w.gets_fresh hwarm hgets hunstarted hrun x hx))

/-- Warmed connections are of use only if there are none: the calls of `get` that follow return
    new ones. -/
theorem warmUsable_iff (hn : n ≤ maxSize) :
    (WarmUsable b maxSize n ↔ n = 0) ∧
    ∀ (w : Warmup n) c, w.run .wrapping maxSize = some (n, c) →
      ∀ gets c', (∀ use ∈ gets, use.isGet = true) → Checkout.Unstarted b gets →
        Trace.exec (Checkout.step .wrapping maxSize) c gets = some c' →
        ∀ x ∈ c'.out, c.created ≤ x.id := by
  refine ⟨⟨fun husable => ?_, ?_⟩, ?_⟩
  · by_contra hpos
    exact not_warmUsable hn (Nat.pos_of_ne_zero hpos) husable
  · rintro rfl w c - hwarm gets c' - hlength - hrun
    rw [List.length_eq_zero_iff.1 hlength] at hrun
    cases hrun
    simp [w.out_run hwarm]
  · intro w c hwarm gets c' hgets hunstarted hrun
    exact w.gets_fresh hwarm hgets hunstarted hrun

end Warmed

theorem warmUsable_none : WarmUsable closingBackend 4 0 :=
  (warmUsable_iff (Nat.zero_le 4)).1.2 rfl

/-- One warmed connection, in a pool of one: the next call closes it and returns another. -/
theorem warmed_connection_closed :
    ¬ WarmUsable closingBackend 1 1 ∧
    ((⟨[.get [] true, .drop ⟨0, none⟩], rfl⟩ : Warmup 1).run .wrapping 1).map
      (fun r => (r.1, r.2.pool.idle)) = some (1, [⟨0, none⟩]) ∧
    (Trace.exec (Checkout.step .wrapping 1) ⟨⟨[⟨0, none⟩], []⟩, [], 1, 1⟩
      [.get [⟨⟨0, none⟩, closingBackend.probe, ⟨true, []⟩⟩] true]).map
      (fun c => (c.out, c.pool.closed)) = some ([⟨1, none⟩], [⟨0, none⟩]) :=
  ⟨not_warmUsable (Nat.le_refl 1) Nat.one_pos, by decide, by decide⟩

end ScryProxy
