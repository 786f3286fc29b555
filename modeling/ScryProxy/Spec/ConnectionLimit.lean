import ScryProxy.Native.AcceptLoop

/-!
# The connection limit

Only the accept loop counts up, and it does so right after it has compared the counter with
the limit; the tasks only count down.  A value that the loop reads is therefore never too
small, and the limit is exact (`connection_limit_exact`).

The loop never joins its tasks.  The entries of ended connections stay in the set until the
server is shut down, so their number is bounded by the open connections and a constant just
over runs in which boundedly many connections end (`entries_bounded_iff`).

## Key results

- `ServerRun.step_cases`: what each event finds and leaves behind
- `ServerRun.LimitInv.keep`: the invariant of the counter
-/

namespace ScryProxy

open Trace (exec)

namespace ServerRun

/-! ## One event -/

/-- What each event finds and leaves behind. -/
inductive Moves (s : ServerRun) : ServerEvent → ServerRun → Prop
  | reject {current : UInt64} (listener : Listener) {age : Nat} (hphase : s.phase = .selecting)
    (hread : s.readable[age]? = some current) (hlimit : s.maxConnections ≤ current) :
    Moves s (.accept listener age)
      { s with readable := s.readable.take (age + 1), phase := .rejecting listener }
  | letIn {current : UInt64} (listener : Listener) {age : Nat} (hphase : s.phase = .selecting)
    (hread : s.readable[age]? = some current) (hlimit : ¬ s.maxConnections ≤ current) :
    Moves s (.accept listener age)
      { s with readable := s.readable.take (age + 1), phase := .admitting listener }
  | acceptError (listener : Listener) (hphase : s.phase = .selecting) : Moves s (.acceptError listener) s
  | reload (hphase : s.phase = .selecting) : Moves s .reload s
  | closeRejected {listener : Listener} (hphase : s.phase = .rejecting listener) :
    Moves s .closeRejected { s with phase := .selecting }
  | count {listener : Listener} (hphase : s.phase = .admitting listener) :
    Moves s .count { s with
      activeConnections := s.activeConnections + 1
      readable := [s.activeConnections + 1]
      phase := .spawning listener }
  | spawn {listener : Listener} (hphase : s.phase = .spawning listener) :
    Moves s .spawn
      { s with connectionTasks := s.connectionTasks ++ [.spawned], phase := .selecting }
  | start {slot : Nat} (htask : s.connectionTasks[slot]? = some .spawned) :
    Moves s (.start slot) { s with connectionTasks := s.connectionTasks.set slot .running }
  | finish {slot : Nat} (how : ConnEnd) (htask : s.connectionTasks[slot]? = some .running) :
    Moves s (.finish slot how) { s with
      activeConnections := s.activeConnections - 1
      readable := (s.activeConnections - 1) :: s.readable
      connectionTasks := s.connectionTasks.set slot .ended }
  | shutdown (hphase : s.phase = .selecting) :
    Moves s .shutdown
      { s with phase := if s.connectionTasks.isEmpty then .drained else .draining }
  | join {slot : Nat} (hphase : s.phase = .draining ∨ s.phase = .aborting)
    (htask : s.connectionTasks[slot]? = some .ended) :
    Moves s (.join slot) { s with connectionTasks := s.connectionTasks.eraseIdx slot }
  | drained (hphase : s.phase = .draining ∨ s.phase = .aborting) :
    Moves s .drained { s with phase := .drained }
  | timeout (hphase : s.phase = .draining) : Moves s .timeout { s with phase := .aborting }
  | cancel {slot : Nat} (hphase : s.phase = .aborting)
    (htask : s.connectionTasks[slot]? = some .spawned) :
    Moves s (.cancel slot) { s with connectionTasks := s.connectionTasks.set slot .ended }

theorem step_cases {s s' : ServerRun} {e : ServerEvent} (hstep : s.step e = some s') :
    Moves s e s' := by
  cases e with
  | accept listener age =>
    simp only [step] at hstep
    split at hstep
    · next current hphase hread =>
      split at hstep
      · next hlimit => cases hstep; exact .reject listener hphase hread hlimit
      · next hlimit => cases hstep; exact .letIn listener hphase hread hlimit
    · cases hstep
  | acceptError listener =>
    simp only [step] at hstep
    split at hstep
    · next hphase => cases hstep; exact .acceptError listener hphase
    · cases hstep
  | reload =>
    simp only [step] at hstep
    split at hstep
    · next hphase => cases hstep; exact .reload hphase
    · cases hstep
  | closeRejected =>
    simp only [step] at hstep
    split at hstep
    · next listener hphase => cases hstep; exact .closeRejected hphase
    · cases hstep
  | count =>
    simp only [step] at hstep
    split at hstep
    · next listener hphase => cases hstep; exact .count hphase
    · cases hstep
  | spawn =>
    simp only [step] at hstep
    split at hstep
    · next listener hphase => cases hstep; exact .spawn hphase
    · cases hstep
  | start slot =>
    simp only [step] at hstep
    split at hstep
    · next htask => cases hstep; exact .start htask
    · cases hstep
  | finish slot how =>
    simp only [step] at hstep
    split at hstep
    · next htask => cases hstep; exact .finish how htask
    · cases hstep
  | shutdown =>
    simp only [step] at hstep
    split at hstep
    · next hphase => cases hstep; exact .shutdown hphase
    · cases hstep
  | join slot =>
    simp only [step] at hstep
    split at hstep
    · next hok => cases hstep; exact .join hok.1 hok.2
    · cases hstep
  | drained =>
    simp only [step] at hstep
    split at hstep
    · next hok => cases hstep; exact .drained hok.1
    · cases hstep
  | timeout =>
    simp only [step] at hstep
    split at hstep
    · next hphase => cases hstep; exact .timeout hphase
    · cases hstep
  | cancel slot =>
    simp only [step] at hstep
    split at hstep
    · next hok => cases hstep; exact .cancel hok.1 hok.2
    · cases hstep

/-! ## The counter -/

/-- Tasks that have not ended. -/
def live (s : ServerRun) : Nat := s.connectionTasks.countP (· != .ended)

/-- A connection that is counted but has no task yet. -/
def pending (s : ServerRun) : Nat :=
  match s.phase with
  | .spawning _ => 1
  | _ => 0

theorem openConnections_eq (s : ServerRun) : s.openConnections = s.live + s.pending := rfl

/-- A task that does not end changes no number. -/
theorem countP_set_running {l : List ConnPhase} {slot : Nat} (h : l[slot]? = some .spawned) :
    (l.set slot .running).countP (· != .ended) = l.countP (· != .ended) := by
  obtain ⟨hlt, hold⟩ := List.getElem?_eq_some_iff.1 h
  have hpos : 0 < l.countP (· != .ended) :=
    List.countP_pos_iff.2 ⟨.spawned, hold ▸ List.getElem_mem hlt, rfl⟩
  rw [List.countP_set hlt, hold]
  simp only [show (ConnPhase.spawned != .ended) = true from rfl,
    show (ConnPhase.running != .ended) = true from rfl, if_true]
  omega

/-- A task that ends is one less. -/
theorem countP_set_ended {l : List ConnPhase} {slot : Nat} (h : l[slot]? = some .running) :
    (l.set slot .ended).countP (· != .ended) + 1 = l.countP (· != .ended) := by
  obtain ⟨hlt, hold⟩ := List.getElem?_eq_some_iff.1 h
  have hpos : 0 < l.countP (· != .ended) :=
    List.countP_pos_iff.2 ⟨.running, hold ▸ List.getElem_mem hlt, rfl⟩
  rw [List.countP_set hlt, hold]
  simp only [show (ConnPhase.running != .ended) = true from rfl,
    show (ConnPhase.ended != .ended) = false from rfl, if_true, Bool.false_eq_true, if_false]
  omega

theorem countP_eraseIdx_ended {l : List ConnPhase} {slot : Nat} (h : l[slot]? = some .ended) :
    (l.eraseIdx slot).countP (· != .ended) = l.countP (· != .ended) := by
  obtain ⟨hlt, hold⟩ := List.getElem?_eq_some_iff.1 h
  have hsplit : l = l.take slot ++ .ended :: l.drop (slot + 1) := by
    rw [← hold, ← List.drop_eq_getElem_cons hlt, List.take_append_drop]
  rw [List.eraseIdx_eq_take_drop_succ]
  conv_rhs => rw [hsplit]
  simp

/-- What holds of the counter in every state. -/
structure LimitInv (s : ServerRun) : Prop where
  counted : s.activeConnections.toNat = s.openConnections
  limit : s.activeConnections ≤ s.maxConnections
  /-- there is room for the connection that the loop has let in -/
  room : ∀ listener, s.phase = .admitting listener → s.activeConnections < s.maxConnections
  /-- what the loop can read is no less than the counter -/
  readable : ∀ v ∈ s.readable, s.activeConnections ≤ v

theorem LimitInv.begin (maxConnections : UInt64) : LimitInv (begin maxConnections) where
  counted := rfl
  limit := UInt64.zero_le
  room listener h := nomatch h
  readable v h := by
    obtain rfl := List.mem_singleton.1 h
    exact UInt64.le_refl _

/-- A counter that is not 0 can be counted down. -/
theorem sub_one_le {a : UInt64} (h : 0 < a.toNat) :
    (a - 1).toNat = a.toNat - 1 ∧ a - 1 ≤ a := by
  have hone : 1 ≤ a := by
    rw [UInt64.le_iff_toNat_le]
    exact h
  have hsub : (a - 1).toNat = a.toNat - 1 := UInt64.toNat_sub_of_le a 1 hone
  refine ⟨hsub, ?_⟩
  rw [UInt64.le_iff_toNat_le, hsub]
  omega

/-- A running task is counted. -/
theorem LimitInv.pos {s : ServerRun} (hinv : LimitInv s) {slot : Nat}
    (htask : s.connectionTasks[slot]? = some .running) : 0 < s.activeConnections.toNat := by
  have := countP_set_ended htask
  rw [hinv.counted, openConnections_eq, live]
  omega

/-- A move of the loop that neither lets a connection in nor counts or spawns it. -/
theorem LimitInv.rephase {s : ServerRun} (hinv : LimitInv s) (hpending : s.pending = 0)
    {phase : LoopPhase} (hphase : ∀ listener, phase ≠ .admitting listener ∧ phase ≠ .spawning listener) :
    LimitInv { s with phase } where
  counted := by
    have hnone : ({ s with phase } : ServerRun).pending = 0 := by
      unfold pending
      split
      · next listener hspawning => exact absurd hspawning (hphase listener).2
      · rfl
    rw [openConnections_eq, hnone, ← hpending]
    exact hinv.counted
  limit := hinv.limit
  room listener h := absurd h (hphase listener).1
  readable := hinv.readable

/-- A read only forgets older values. -/
theorem LimitInv.read {s : ServerRun} (hinv : LimitInv s) (n : Nat) :
    LimitInv { s with readable := s.readable.take n } where
  counted := hinv.counted
  limit := hinv.limit
  room := hinv.room
  readable v h := hinv.readable v (List.mem_of_mem_take h)

/-- The tasks change, and as many are live. -/
theorem LimitInv.tasks {s : ServerRun} (hinv : LimitInv s) {tasks : List ConnPhase}
    (hlive : tasks.countP (· != .ended) = s.connectionTasks.countP (· != .ended)) :
    LimitInv { s with connectionTasks := tasks } where
  counted := by
    rw [openConnections_eq, live, hlive]
    exact hinv.counted
  limit := hinv.limit
  room := hinv.room
  readable := hinv.readable

theorem LimitInv.keep {s s' : ServerRun} {e : ServerEvent} (hinv : LimitInv s)
    (hstarted : ∀ slot, e ≠ .cancel slot) (hstep : s.step e = some s') : LimitInv s' := by
  cases step_cases hstep with
  | @reject current listener age hphase hread hmax =>
    exact (hinv.read (age + 1)).rephase (by simp [pending, hphase]) (by simp)
  | @letIn current listener age hphase hread hmax =>
    -- the value read is below the limit, and the counter is no larger
    have hle : s.activeConnections ≤ current := hinv.readable current (List.mem_of_getElem? hread)
    have hcounted := hinv.counted
    rw [openConnections_eq, pending, hphase] at hcounted
    exact ⟨hcounted, hinv.limit, fun _ _ => UInt64.lt_of_le_of_lt hle (UInt64.not_le.1 hmax),
      (hinv.read (age + 1)).readable⟩
  | acceptError listener hphase => exact hinv
  | reload hphase => exact hinv
  | closeRejected hphase => exact hinv.rephase (by simp [pending, hphase]) (by simp)
  | @count listener hphase =>
    have hroom := UInt64.lt_iff_toNat_lt.1 (hinv.room listener hphase)
    have hmax := s.maxConnections.toNat_lt
    have hadd : (s.activeConnections + 1).toNat = s.activeConnections.toNat + 1 := by
      rw [UInt64.toNat_add, UInt64.toNat_one]
      omega
    have hcounted := hinv.counted
    rw [openConnections_eq, pending, hphase] at hcounted
    refine ⟨?_, ?_, nofun, ?_⟩
    · rw [hadd, hcounted]
      rfl
    · rw [UInt64.le_iff_toNat_le, hadd]
      exact hroom
    · intro v hv
      rw [List.mem_singleton.1 hv]
      exact UInt64.le_refl _
  | spawn hphase =>
    -- the counted connection becomes a task
    have hcounted := hinv.counted
    rw [openConnections_eq, pending, hphase] at hcounted
    refine ⟨?_, hinv.limit, nofun, hinv.readable⟩
    rw [hcounted, openConnections_eq, live, live, pending, List.countP_append]
    rfl
  | start htask => exact hinv.tasks (countP_set_running htask)
  | @finish slot how htask =>
    obtain ⟨hsub, hle⟩ := sub_one_le (hinv.pos htask)
    have hcounted := hinv.counted
    have hset := countP_set_ended htask
    rw [openConnections_eq, live] at hcounted
    refine ⟨?_, UInt64.le_trans hle hinv.limit, fun listener h => ?_, fun v hv => ?_⟩
    · show (s.activeConnections - 1).toNat =
        (s.connectionTasks.set slot .ended).countP (· != .ended) + s.pending
      omega
    · exact UInt64.lt_of_le_of_lt hle (hinv.room listener h)
    · rcases List.mem_cons.1 hv with rfl | hv
      · exact UInt64.le_refl _
      · exact UInt64.le_trans hle (hinv.readable v hv)
  | shutdown hphase =>
    exact hinv.rephase (by simp [pending, hphase]) (by intro listener; split <;> simp)
  | join hphase htask => exact hinv.tasks (countP_eraseIdx_ended htask)
  | drained hphase =>
    refine hinv.rephase ?_ (by simp)
    rcases hphase with hphase | hphase <;> simp [pending, hphase]
  | timeout hphase => exact hinv.rephase (by simp [pending, hphase]) (by simp)
  | cancel hphase htask => exact absurd rfl (hstarted _)

theorem step_maxConnections {s s' : ServerRun} {e : ServerEvent} (hstep : s.step e = some s') :
    s'.maxConnections = s.maxConnections := by
  cases step_cases hstep <;> rfl

end ServerRun

/-- In every run whose tasks end only after they have started: the counter is the number of open
    connections and at most the limit, a guard never counts down from 0, and a client is turned away
    exactly when the value read for it is at least the limit. -/
theorem connection_limit_exact {maxConnections : UInt64} {events : List ServerEvent} {s : ServerRun}
    (hstarted : ∀ slot, .cancel slot ∉ events)
    (hrun : exec ServerRun.step (.begin maxConnections) events = some s) :
    s.activeConnections.toNat = s.openConnections ∧ s.activeConnections ≤ maxConnections ∧
      (∀ slot how s', s.step (.finish slot how) = some s' →
        s'.activeConnections.toNat + 1 = s.activeConnections.toNat) ∧
      ∀ listener age s', s.step (.accept listener age) = some s' →
        ∃ current, s.readable[age]? = some current ∧
          (s'.phase = .rejecting listener ↔ maxConnections ≤ current) := by
  have hkeep : ∀ (s : ServerRun) e s', s.maxConnections = maxConnections → s.step e = some s' →
      s'.maxConnections = maxConnections :=
    fun s e s' hs hstep => (ServerRun.step_maxConnections hstep).trans hs
  have hmax : s.maxConnections = maxConnections := Trace.exec_keeps hkeep rfl hrun
  have hadmits : Trace.Admits ServerRun.step (fun _ e => ∀ slot, e ≠ .cancel slot)
      (.begin maxConnections) events :=
    Trace.admits_of_forall (fun e he slot hcancel => hstarted slot (by rwa [hcancel] at he)) _
  have hinv : s.LimitInv :=
    Trace.exec_invariant (fun s e s' hs hok hstep => hs.keep hok hstep)
      (ServerRun.LimitInv.begin maxConnections) hadmits hrun
  refine ⟨hinv.counted, hmax ▸ hinv.limit, fun slot how s' hstep => ?_, fun listener age s' hstep => ?_⟩
  · cases ServerRun.step_cases hstep with
    | finish how htask =>
      have hpos := hinv.pos htask
      have hsub := (ServerRun.sub_one_le hpos).1
      show (s.activeConnections - 1).toNat + 1 = s.activeConnections.toNat
      omega
  · cases ServerRun.step_cases hstep with
    | @reject current listener age hphase hread hlimit =>
      exact ⟨current, hread, iff_of_true rfl (hmax ▸ hlimit)⟩
    | @letIn current listener age hphase hread hlimit =>
      exact ⟨current, hread, iff_of_false nofun (hmax ▸ hlimit)⟩

/-- With a limit of one: a second client is turned away while the first one is served. -/
theorem connection_limit_of_one :
    ∃ s, exec ServerRun.step (.begin 1)
        [.accept .tcp 0, .count, .spawn, .start 0, .accept .unix 0, .closeRejected] = some s ∧
      s.activeConnections.toNat = s.openConnections ∧ s.activeConnections ≤ 1 ∧
      (∀ slot how s', s.step (.finish slot how) = some s' →
        s'.activeConnections.toNat + 1 = s.activeConnections.toNat) ∧
      ∀ listener age s', s.step (.accept listener age) = some s' →
        ∃ current, s.readable[age]? = some current ∧
          (s'.phase = .rejecting listener ↔ 1 ≤ current) :=
  ⟨_, rfl, @connection_limit_exact 1 [.accept .tcp 0, .count, .spawn, .start 0, .accept .unix 0,
    .closeRejected] _ (by simp) rfl⟩

/-! ## The entries of the task set -/

namespace ServerRun

/-- Connections that have ended in a run. -/
def finished (events : List ServerEvent) : Nat :=
  events.countP fun e => match e with
    | .finish _ _ => true
    | _ => false

theorem serving_of_step {s s' : ServerRun} {e : ServerEvent} (hstep : s.step e = some s')
    (hserving : s'.serving = true) : s.serving = true := by
  cases step_cases hstep with
  | shutdown hphase => simp [serving, hphase]
  | drained hphase => cases hserving
  | timeout hphase => cases hserving
  | start htask => exact hserving
  | finish how htask => exact hserving
  | join hphase htask => exact hserving
  | cancel hphase htask => exact hserving
  | acceptError listener hphase | reload hphase => exact hserving
  | reject listener hphase hread hlimit | letIn listener hphase hread hlimit => simp [serving, hphase]
  | closeRejected hphase | count hphase | spawn hphase => simp [serving, hphase]

/-- An event of the accepting loop adds a live entry or turns one into an ended one. -/
theorem entries_step {s s' : ServerRun} {e : ServerEvent} (hstep : s.step e = some s')
    (hserving : s'.serving = true) :
    s'.connectionTasks.length + s.live = s'.live + s.connectionTasks.length + finished [e] := by
  unfold live
  cases step_cases hstep with
  | spawn hphase =>
    have hnone : finished [.spawn] = 0 := rfl
    have hspawned : [ConnPhase.spawned].countP (· != .ended) = 1 := rfl
    simp only [List.length_append, List.length_singleton, List.countP_append, hnone, hspawned]
    omega
  | start htask =>
    simp only [List.length_set, countP_set_running htask]
    exact Nat.add_comm _ _
  | finish how htask =>
    have hset := countP_set_ended htask
    have hone : ∀ slot, finished [.finish slot how] = 1 := fun _ => rfl
    simp only [List.length_set, hone]
    omega
  | join hphase htask => rcases hphase with hphase | hphase <;> simp [serving, hphase] at hserving
  | cancel hphase htask => simp [serving, hphase] at hserving
  | shutdown hphase | drained hphase | timeout hphase => exact Nat.add_comm _ _
  | acceptError listener hphase | reload hphase => exact Nat.add_comm _ _
  | reject listener hphase hread hlimit | letIn listener hphase hread hlimit => exact Nat.add_comm _ _
  | closeRejected hphase | count hphase => exact Nat.add_comm _ _

/-- While the loop accepts, the entries are the live tasks and all that have ended. -/
theorem entries_run {s t : ServerRun} {events : List ServerEvent} (hrun : exec step s events = some t)
    (hserving : t.serving = true) :
    s.serving = true ∧
      t.connectionTasks.length + s.live = t.live + s.connectionTasks.length + finished events := by
  induction events generalizing s with
  | nil =>
    cases hrun
    exact ⟨hserving, by simp [finished]; omega⟩
  | cons e events ih =>
    obtain ⟨s', hstep, hrun⟩ := Trace.exec_cons_eq_some.1 hrun
    obtain ⟨hserving', hrest⟩ := ih hrun
    have hfirst := entries_step hstep hserving'
    have hsum : finished (e :: events) = finished [e] + finished events := by
      rw [← List.singleton_append, finished, List.countP_append]
      rfl
    exact ⟨serving_of_step hstep hserving', by omega⟩

theorem pending_le_one (s : ServerRun) : s.pending ≤ 1 := by
  unfold pending
  split <;> omega

/-- Clients that come and go one after the other. -/
def serveOne (slot : Nat) : List ServerEvent :=
  [.accept .tcp 0, .count, .spawn, .start slot, .finish slot .returned]

theorem exec_serveOne {maxConnections : UInt64} (hmax : maxConnections ≠ 0) (readable : List UInt64)
    (n : Nat) :
    exec step ⟨maxConnections, 0, 0 :: readable, .selecting, List.replicate n .ended⟩ (serveOne n) =
      some ⟨maxConnections, 0, [0, 1], .selecting, List.replicate (n + 1) .ended⟩ := by
  have hroom : ¬ maxConnections ≤ 0 := fun h => hmax (UInt64.le_antisymm h UInt64.zero_le)
  simp [serveOne, exec, step, hroom, List.replicate_succ']

/-- Any number of clients that come and go one after the other. -/
theorem exists_served {maxConnections : UInt64} (hmax : maxConnections ≠ 0) (n : Nat) :
    ∃ events s, exec step (begin maxConnections) events = some s ∧ s.serving = true ∧
      s.openConnections = 0 ∧ s.connectionTasks.length = n := by
  have hruns : ∃ events readable, exec step (begin maxConnections) events =
      some ⟨maxConnections, 0, 0 :: readable, .selecting, List.replicate n .ended⟩ := by
    induction n with
    | zero => exact ⟨[], [], rfl⟩
    | succ n ih =>
      obtain ⟨events, readable, hrun⟩ := ih
      refine ⟨events ++ serveOne n, [1], ?_⟩
      rw [Trace.exec_append, hrun, Option.bind_some, exec_serveOne hmax]
  obtain ⟨events, readable, hrun⟩ := hruns
  exact ⟨events, _, hrun, rfl, by simp [openConnections], by simp⟩

/-- Over any runs of the accepting loop, the entries of the task set exceed the open connections by a
    bounded number exactly when boundedly many connections end in them. -/
theorem entries_bounded_iff (maxConnections : UInt64) (runs : Set (List ServerEvent)) :
    (∃ c, ∀ events ∈ runs, ∀ s, exec step (begin maxConnections) events = some s →
        s.serving = true → s.connectionTasks.length ≤ s.openConnections + c) ↔
      ∃ c, ∀ events ∈ runs, ∀ s, exec step (begin maxConnections) events = some s →
        s.serving = true → finished events ≤ c := by
  have hentries : ∀ events s, exec step (begin maxConnections) events = some s →
      s.serving = true → s.connectionTasks.length = s.live + finished events := by
    intro events s hrun hserving
    have hrun := (entries_run hrun hserving).2
    simpa [begin, live] using hrun
  constructor
  · rintro ⟨c, hc⟩
    refine ⟨c + 1, fun events hevents s hrun hserving => ?_⟩
    have hbound := hc events hevents s hrun hserving
    have hpending := s.pending_le_one
    rw [hentries events s hrun hserving, openConnections_eq] at hbound
    omega
  · rintro ⟨c, hc⟩
    refine ⟨c, fun events hevents s hrun hserving => ?_⟩
    have hbound := hc events hevents s hrun hserving
    rw [hentries events s hrun hserving, openConnections_eq]
    omega

/-- A server with the default limit: no constant bounds the entries that the open connections do not
    account for. -/
theorem entries_unbounded :
    ¬ ∃ c, ∀ events s, exec step (begin 100) events = some s → s.serving = true →
      s.connectionTasks.length ≤ s.openConnections + c := by
  rintro ⟨c, hc⟩
  obtain ⟨events, s, hrun, hserving, hopen, hlen⟩ :=
    exists_served (show (100 : UInt64) ≠ 0 by decide) (c + 1)
  have hbound := hc events s hrun hserving
  omega

end ServerRun

end ScryProxy
