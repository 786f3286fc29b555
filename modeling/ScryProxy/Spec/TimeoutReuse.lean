import ScryProxy.Spec.PoolLife

/-!
# The connection of a query that timed out

On a query timeout the handler leaves its loop and releases the connection like any
other.  Its mark is on the client's connection state, which is gone with the handler, so
the connection is idle and the pool tries it again.  It is closed and never handed out
exactly if the first of these tries finds a backend that does not answer the health check
and DISCARD ALL as an idle one (`retired_iff_first_try_refused`).  A backend that finished
the query in the meantime passes and goes to another client (`timed_out_backend_reused`).
-/

namespace ScryProxy

open Rust (Overflow)
open PoolLife (step)

/-- The first ReadyForQuery that shows in the growing response is an idle one. -/
def ShowsIdle (ov : Overflow) (buffer : List UInt8) : List ReadEvent → Prop
  | .data bytes :: events =>
    extractReadyForQuery ov (buffer ++ bytes) = .ok (some 'I'.toUInt8) ∨
    extractReadyForQuery ov (buffer ++ bytes) = .ok none ∧
      (buffer ++ bytes).length ≤ maxResponseBuffer ∧ ShowsIdle ov (buffer ++ bytes) events
  | _ => False

/-- The backend takes a request and answers it as an idle one. -/
def AnswersIdle (ov : Overflow) (e : Exchange) : Prop :=
  e.writeOk = true ∧ ShowsIdle ov [] e.reads

/-- The backend answers the health check and DISCARD ALL as an idle one. -/
def Revived (ov : Overflow) (env : RecycleEnv) : Prop :=
  AnswersIdle ov env.health ∧ AnswersIdle ov env.reset

/-- The first time the pool tries a connection. -/
def firstTry (b : PooledBackend) (events : List PoolEvent) : Option Attempt :=
  (events.flatMap PoolEvent.attempts).find? fun a => a.object = b

/-- Over the events, the connection is never in a client's hands and is closed in the end. -/
structure Retired (ov : Overflow) (b : PooledBackend) (ℓ : PoolLife) (events : List PoolEvent) :
    Prop where
  closed : ∀ ℓ', Trace.exec (step ov) ℓ events = some ℓ' → b ∈ ℓ'.manager.pool.closed
  unused : ∀ n ℓ', Trace.exec (step ov) ℓ (events.take n) = some ℓ' →
    ∀ c ∈ ℓ'.held, c.connection ≠ b

/-- The handler gives its connection back in the way it leaves its loop. -/
def PoolLife.leave (ov : Overflow) (ℓ : PoolLife) (now : Nat) : Exit → Option PoolLife
  | .release conn => ℓ.step ov (.release conn now)
  | .dropped conn =>
    if conn ∈ ℓ.held then
      some { ℓ with
        manager := { ℓ.manager with pool := ℓ.manager.pool.put conn.connection }
        held := ℓ.held.erase conn }
    else none
  | .withoutConnection => some ℓ

/-- A relay runs over `inputs` and leaves at time `t` through its deadline arm: the connection it
    held, and the pool after the handler is gone. -/
def leaveByTimeout (ov : Overflow) (cfg : RelayConfig) (conn : ManagedConnection)
    (inputs : List Input) (t : Nat) (ℓ : PoolLife) : Option (PooledBackend × PoolLife) :=
  match Relay.run cfg (.start cfg conn) inputs with
  | .ok (_, .next r) =>
    match Relay.step cfg r (.deadline t) with
    | .ok (_, .exit how) => (ℓ.leave ov t how).map fun ℓ' => (r.managedConn.connection, ℓ')
    | _ => none
  | _ => none

/-! ## When `recycle` accepts -/

theorem readUntilReadyForQuery_iff {ov : Overflow} {buffer taken : List UInt8}
    {events : List ReadEvent} {ok : Bool}
    (h : readUntilReadyForQuery ov buffer events = .ok (ok, taken)) :
    ok = true ↔ ShowsIdle ov buffer events := by
  induction events generalizing buffer with
  | nil => cases h; simp [ShowsIdle]
  | cons event events ih =>
    cases event with
    | data bytes =>
      obtain ⟨status, hstatus, h⟩ := Rust.bind_returns.1 h
      rw [ShowsIdle, hstatus]
      cases status with
      -- the first status seen decides
      | some status =>
        cases h
        simp
      | none =>
        obtain ⟨-, -, h⟩ := Rust.bind_returns.1 h
        split at h
        -- too much without a ReadyForQuery
        · next hlong =>
          cases h
          simp only [Except.ok.injEq, reduceCtorEq, true_and, false_or, Bool.false_eq_true, false_iff]
          omega
        · next hshort =>
          rw [ih h]
          simp only [Except.ok.injEq, reduceCtorEq, true_and, false_or, Nat.not_lt.1 hshort]
    | eof | ioError => cases h; simp [ShowsIdle]

theorem exchange_iff {ov : Overflow} {message : List UInt8} {e : Exchange} {answer : Answer}
    (h : exchange ov message e = .ok answer) : answer.ok = true ↔ AnswersIdle ov e := by
  unfold exchange at h
  split at h
  · next hwrite =>
    obtain ⟨⟨ok, taken⟩, hread, h⟩ := Rust.bind_returns.1 h
    cases h
    simp only [AnswersIdle, hwrite, true_and]
    exact readUntilReadyForQuery_iff hread
  · next hwrite =>
    cases h
    simp [AnswersIdle, hwrite]

/-- A recycle that returns accepts the connection if and only if the backend answers both requests
    as an idle one. -/
theorem recycle_iff {ov : Overflow} {env : RecycleEnv} {ok : Bool}
    (h : recycle ov env = .ok ok) : ok = true ↔ Revived ov env := by
  obtain ⟨health, hhealth, h⟩ := Rust.bind_returns.1 h
  have hiff := exchange_iff hhealth
  split at h
  · next hok =>
    obtain ⟨reset, hreset, h⟩ := Rust.bind_returns.1 h
    cases h
    rw [Revived, ← hiff, exchange_iff hreset]
    simp [hok]
  · next hok =>
    cases h
    simp [Revived, ← hiff, hok]

/-! ## What becomes of an idle connection -/

section Fate

variable {ov : Overflow} {ℓ ℓ' : PoolLife} {b : PooledBackend} {events : List PoolEvent}

theorem firstTry_cons (b : PooledBackend) (e : PoolEvent) (events : List PoolEvent) :
    firstTry b (e :: events) =
      (e.attempts.find? fun a => a.object = b).or (firstTry b events) := by
  rw [firstTry, List.flatMap_cons, List.find?_append]
  rfl

theorem closed_exec (hvalid : ℓ.Valid) (hb : b ∈ ℓ.manager.pool.closed)
    (h : Trace.exec (step ov) ℓ events = some ℓ') : b ∈ ℓ'.manager.pool.closed := by
  have hkeep := @Trace.exec_keeps _ _ (step ov) (fun ℓ => ℓ.Valid ∧ b ∈ ℓ.manager.pool.closed)
    fun s e s' hs hstep => ⟨PoolLife.valid_step hs.1 hstep, PoolLife.closed_step hs.1 hstep hs.2⟩
  exact (hkeep ⟨hvalid, hb⟩ h).2

/-- The first try decides: untried it stays idle, refused it ends closed, accepted it is held by a
    client at some point. -/
theorem fate (hvalid : ℓ.Valid) (hb : b ∈ ℓ.manager.pool.idle)
    (h : Trace.exec (step ov) ℓ events = some ℓ') :
    (firstTry b events = none ∧ b ∈ ℓ'.manager.pool.idle) ∨
    ∃ a, firstTry b events = some a ∧
      ((¬ Revived ov a.env ∧ b ∈ ℓ'.manager.pool.closed) ∨
        (Revived ov a.env ∧ ∃ n ℓ₁, Trace.exec (step ov) ℓ (events.take n) = some ℓ₁ ∧
          ∃ c ∈ ℓ₁.held, c.connection = b)) := by
  induction events generalizing ℓ with
  | nil =>
    cases h
    exact .inl ⟨rfl, hb⟩
  | cons e events ih =>
    obtain ⟨ℓ₁, hstep, h⟩ := Trace.exec_cons_eq_some.1 h
    have hvalid₁ := PoolLife.valid_step hvalid hstep
    rw [firstTry_cons]
    cases hfind : e.attempts.find? fun a => a.object = b with
    | some a =>
      refine .inr ⟨a, rfl, ?_⟩
      -- this event makes the first try
      obtain ⟨ok, hok, hfate⟩ := PoolLife.tried_step hvalid hstep hfind
      have hiff := recycle_iff hok
      cases ok with
      | true =>
        have hrun : Trace.exec (step ov) ℓ ((e :: events).take 1) = some ℓ₁ :=
          Trace.exec_cons_eq_some.2 ⟨ℓ₁, hstep, rfl⟩
        exact .inr ⟨hiff.1 rfl, 1, ℓ₁, hrun, hfate⟩
      | false =>
        have hrefused : ¬ Revived ov a.env := by
          intro hrevived
          cases hiff.2 hrevived
        exact .inl ⟨hrefused, closed_exec hvalid₁ hfate h⟩
    | none =>
      -- this event leaves it idle, so the first try is among the later ones
      have hnone : ∀ a ∈ e.attempts, a.object ≠ b := by simpa using hfind
      rw [Option.none_or]
      rcases ih hvalid₁ (PoolLife.untried_step hvalid hstep hb hnone) h with hidle | ⟨a, ha, hfate⟩
      · exact .inl hidle
      · refine .inr ⟨a, ha, hfate.imp_right fun ⟨hrevived, n, ℓ₂, hrun, hheld⟩ => ?_⟩
        exact ⟨hrevived, n + 1, ℓ₂, Trace.exec_cons_eq_some.2 ⟨ℓ₁, hstep, hrun⟩, hheld⟩

/-- The first try of a part of the events is none, or that of all of them. -/
theorem firstTry_take (b : PooledBackend) (events : List PoolEvent) (n : Nat) :
    firstTry b (events.take n) = none ∨ firstTry b (events.take n) = firstTry b events := by
  have hsplit : firstTry b events = (firstTry b (events.take n)).or (firstTry b (events.drop n)) := by
    rw [firstTry, firstTry, firstTry, ← List.find?_append, ← List.flatMap_append,
      List.take_append_drop]
  cases htake : firstTry b (events.take n) with
  | none => exact .inl rfl
  | some a => exact .inr (by rw [hsplit, htake]; rfl)

/-- An idle connection is retired by the events if and only if its first try is refused. -/
theorem retired_iff_of_idle (hvalid : ℓ.Valid) (hb : b ∈ ℓ.manager.pool.idle)
    (hlater : (Trace.exec (step ov) ℓ events).isSome) :
    Retired ov b ℓ events ↔ ∃ a, firstTry b events = some a ∧ ¬ Revived ov a.env := by
  obtain ⟨ℓ', hrun⟩ := Option.isSome_iff_exists.1 hlater
  constructor
  · intro h
    rcases fate hvalid hb hrun with ⟨-, hidle⟩ | ⟨a, ha, ⟨hrefused, -⟩ | ⟨-, n, ℓ₁, hrun₁, c, hc, rfl⟩⟩
    · exact absurd (h.closed ℓ' hrun) ((PoolLife.valid_exec hvalid hrun).not_closed hidle)
    · exact ⟨a, ha, hrefused⟩
    · exact absurd rfl (h.unused n ℓ₁ hrun₁ c hc)
  · rintro ⟨a, ha, hrefused⟩
    -- in every state on the way the connection is idle or closed
    have hshelved : ∀ n ℓ₁, Trace.exec (step ov) ℓ (events.take n) = some ℓ₁ →
        (firstTry b (events.take n) = none ∧ b ∈ ℓ₁.manager.pool.idle) ∨
          b ∈ ℓ₁.manager.pool.closed := by
      intro n ℓ₁ hrun₁
      rcases fate hvalid hb hrun₁ with hidle | ⟨a', ha', ⟨-, hclosed⟩ | ⟨hrevived, -⟩⟩
      · exact .inl hidle
      · exact .inr hclosed
      · rcases firstTry_take b events n with hnone | hall
        · cases hnone.symm.trans ha'
        · rw [hall, ha] at ha'
          cases ha'
          exact absurd hrevived hrefused
    refine ⟨fun ℓ₁ hrun₁ => ?_, fun n ℓ₁ hrun₁ c hc => ?_⟩
    · rcases hshelved events.length ℓ₁ (by rwa [List.take_length]) with ⟨hnone, -⟩ | hclosed
      · rw [List.take_length, ha] at hnone
        cases hnone
      · exact hclosed
    · refine (PoolLife.valid_exec hvalid hrun₁).not_held ?_ hc
      rcases hshelved n ℓ₁ hrun₁ with ⟨-, hidle⟩ | hclosed
      · exact List.mem_append_left _ hidle
      · exact List.mem_append_right _ hclosed

end Fate

/-! ## After a timeout -/

/-- The connection of a handler that left through the deadline arm is idle again. -/
theorem idle_of_leaveByTimeout {ov : Overflow} {cfg : RelayConfig} {conn : ManagedConnection}
    {inputs : List Input} {t : Nat} {ℓ ℓ' : PoolLife} {b : PooledBackend} (hvalid : ℓ.Valid)
    (h : leaveByTimeout ov cfg conn inputs t ℓ = some (b, ℓ')) :
    ℓ'.Valid ∧ b ∈ ℓ'.manager.pool.idle := by
  unfold leaveByTimeout at h
  split at h
  · next r hrun =>
    split at h
    · next effects how hstep =>
      -- the arm leaves the loop in one way only: through the ordinary release
      simp only [Relay.step] at hstep
      split at hstep <;> cases hstep
      obtain ⟨ℓ₁, hleave, heq⟩ := Option.map_eq_some_iff.1 h
      cases heq
      have hrelease : ℓ.step ov (.release r.managedConn t) = some ℓ' := hleave
      refine ⟨PoolLife.valid_step hvalid hrelease, ?_⟩
      rw [(PoolLife.release_eq hvalid hrelease).2]
      exact List.mem_cons_self
    · cases h
  · cases h

/-- A handler leaves through the deadline arm.  In whatever then happens to the pool, its connection
    is closed and never handed out if and only if the first try finds a backend that does not answer
    as an idle one. -/
theorem retired_iff_first_try_refused {ov : Overflow} {cfg : RelayConfig}
    {conn : ManagedConnection} {inputs : List Input} {t : Nat} {before events : List PoolEvent}
    {ℓ ℓ' : PoolLife} {b : PooledBackend} (hlife : Trace.exec (step ov) .new before = some ℓ)
    (hleave : leaveByTimeout ov cfg conn inputs t ℓ = some (b, ℓ'))
    (hlater : (Trace.exec (step ov) ℓ' events).isSome) :
    Retired ov b ℓ' events ↔ ∃ a, firstTry b events = some a ∧ ¬ Revived ov a.env := by
  obtain ⟨hvalid, hidle⟩ :=
    idle_of_leaveByTimeout (PoolLife.valid_exec PoolLife.valid_new hlife) hleave
  exact retired_iff_of_idle hvalid hidle hlater

/-- A backend that takes both requests of a recycle and sends nothing. -/
def silentBackend : RecycleEnv := ⟨⟨true, []⟩, ⟨true, []⟩⟩

/-- A backend that has finished its query: the health check reads the answer to the query, and the
    reset reads the answer to the health check. -/
def finishedBackend : RecycleEnv :=
  ⟨⟨true, [.data (Frame.encodeAll [⟨msgCommandComplete, asciiBytes "SELECT 1" ++ [0]⟩] ++
      buildReadyForQuery .idle)]⟩,
    ⟨true, [.data ([73, 0, 0, 0, 4] ++ buildReadyForQuery .idle)]⟩⟩

/-- A pool is used, a handler times out, and the pool is used on: the connection of the handler, and
    the pool after the timeout and in the end. -/
def timeoutRun (ov : Overflow) (before : List PoolEvent) (cfg : RelayConfig)
    (conn : ManagedConnection) (inputs : List Input) (t : Nat) (events : List PoolEvent) :
    Option (PooledBackend × PoolLife × PoolLife) :=
  (Trace.exec (step ov) .new before).bind fun ℓ =>
    (leaveByTimeout ov cfg conn inputs t ℓ).bind fun (b, ℓ') =>
      (Trace.exec (step ov) ℓ' events).map fun ℓ'' => (b, ℓ', ℓ'')

theorem timeoutRun_eq_some {ov : Overflow} {before : List PoolEvent} {cfg : RelayConfig}
    {conn : ManagedConnection} {inputs : List Input} {t : Nat} {events : List PoolEvent}
    {b : PooledBackend} {ℓ' ℓ'' : PoolLife}
    (h : timeoutRun ov before cfg conn inputs t events = some (b, ℓ', ℓ'')) :
    ∃ ℓ, Trace.exec (step ov) .new before = some ℓ ∧
      leaveByTimeout ov cfg conn inputs t ℓ = some (b, ℓ') ∧
      Trace.exec (step ov) ℓ' events = some ℓ'' := by
  obtain ⟨ℓ, hlife, h⟩ := Option.bind_eq_some_iff.1 h
  obtain ⟨⟨b, ℓ₁⟩, hleave, h⟩ := Option.bind_eq_some_iff.1 h
  obtain ⟨ℓ₂, hlater, h⟩ := Option.map_eq_some_iff.1 h
  cases h
  exact ⟨ℓ, hlife, hleave, hlater⟩

/-- Client 8 asks for a connection, and the pool tries that of client 7. -/
def nextClient (env : RecycleEnv) : List PoolEvent :=
  [.acquire 8 false [⟨⟨0, some []⟩, env⟩] (some (some []))]

/-- Client 7 sends a query that times out after a second, and then comes the next client. -/
def sleepRun (env : RecycleEnv) : Option (PooledBackend × PoolLife × PoolLife) :=
  timeoutRun .wrapping [.acquire 7 false [] (some (some []))] ⟨.transaction, 1, 100⟩
    ⟨⟨0, some []⟩, 7, false⟩ [.clientRead (queryMessage "SELECT pg_sleep(60)") 0 {}] 1000
    (nextClient env)

/-- If the backend is still silent when client 8 comes, its connection is closed. -/
theorem retired_silent_backend :
    ∃ b ℓ' ℓ'', sleepRun silentBackend = some (b, ℓ', ℓ'') ∧
      Retired .wrapping b ℓ' (nextClient silentBackend) := by
  have hend : (sleepRun silentBackend).map Prod.fst = some ⟨0, some []⟩ := by decide +kernel
  obtain ⟨⟨b, ℓ', ℓ''⟩, hrun, rfl⟩ := Option.map_eq_some_iff.1 hend
  refine ⟨_, ℓ', ℓ'', hrun, ?_⟩
  obtain ⟨ℓ, hlife, hleave, hlater⟩ := timeoutRun_eq_some hrun
  have hfirst : firstTry ⟨0, some []⟩ (nextClient silentBackend) =
      some ⟨⟨0, some []⟩, silentBackend⟩ := by decide
  exact (retired_iff_first_try_refused hlife hleave (Option.isSome_of_eq_some hlater)).2
    ⟨_, hfirst, fun hrevived => hrevived.1.2⟩

/-- If the backend has finished the query by then, client 8 gets its connection. -/
theorem timed_out_backend_reused :
    ∃ b ℓ' ℓ'', sleepRun finishedBackend = some (b, ℓ', ℓ'') ∧
      ¬ Retired .wrapping b ℓ' (nextClient finishedBackend) := by
  have hend : (sleepRun finishedBackend).map (fun (b, _, ℓ'') => (b, ℓ''.held)) =
      some (⟨0, some []⟩, [⟨⟨0, some []⟩, 8, false⟩]) := by decide +kernel
  obtain ⟨⟨b, ℓ', ℓ''⟩, hrun, heq⟩ := Option.map_eq_some_iff.1 hend
  obtain ⟨rfl, hheld⟩ := Prod.mk.inj heq
  refine ⟨_, ℓ', ℓ'', hrun, fun h => ?_⟩
  obtain ⟨ℓ, -, -, hlater⟩ := timeoutRun_eq_some hrun
  exact h.unused 1 ℓ'' hlater ⟨⟨0, some []⟩, 8, false⟩ (by rw [hheld]; simp) rfl

end ScryProxy
