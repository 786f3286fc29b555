import ScryProxy.Spec.AcquireSteps

/-!
# Waiting for a slot

What happens to a call that finds every slot taken, or the breaker open.  The wait queue
bounds only the calls that the breaker has turned away: a call that gets past the breaker
waits inside `deadpool`, which has no timeout of its own (`boundedWait_iff`).  A call that the
breaker turns away does not fail there and then: it goes to the wait queue
(`failsFast_iff_admitted`).
-/

namespace ScryProxy

namespace SharedPool

/-! ## The start of a call -/

variable {s : SharedPool}

theorem getFailed_full (h : s.queue.maxDepth ≤ s.queue.waiters.length) (cfg : PoolConfig) (c : Nat)
    (e : GetError) : getFailed cfg s c false e = s.finish c (.error .queueFull) := by
  simp [getFailed, WaitQueue.enqueue_eq_none.2 h]

theorem getFailed_queues (h : s.queue.waiters.length < s.queue.maxDepth) (cfg : PoolConfig)
    (c : Nat) (e : GetError) :
    getFailed cfg s c false e = ({ s with
      queue := { s.queue with waiters := s.queue.waiters ++ [c], depth := s.queue.depth + 1 } } :
        SharedPool).setStage c
          (.waiting (if 0 < cfg.waitTimeoutMs then some (s.now + cfg.waitTimeoutMs) else none)) := by
  simp [getFailed, WaitQueue.enqueue_eq_some.2 ⟨h, rfl⟩]

/-- The breaker turns a request away. -/
def rejects (s : SharedPool) (wall : UInt64) : Bool := s.breaker.any fun cb => cb.rejects wall

/-- The call is answered from the sticky map. -/
def sticks (s : SharedPool) (clientId : Nat) (needsSticky : Bool) : Bool :=
  needsSticky && s.manager.hasSticky clientId

variable {wall : UInt64}

theorem enterGet_rejects (h : s.rejects wall = true) (cfg : PoolConfig) (c : Nat) (again : Bool) :
    ∃ breaker, ({ s with breaker } : SharedPool).rejects wall = true ∧
      s.enterGet cfg c again wall =
        some (getFailed cfg { s with breaker } c again (.circuitBreaker .circuitOpen)) := by
  obtain ⟨cb, hcb, hrej⟩ := (Option.any_eq_true _ _).1 h
  refine ⟨some cb.countRejected, ?_, ?_⟩
  · simpa [rejects] using hrej
  · simp only [enterGet, hcb, CircuitBreaker.allowRequest_rejects hrej]

variable {c : Nat}

/-- Turned away by the breaker with the queue full. -/
theorem enterGet_full {old : Stage} (hc : s.stage c = some old) (hold : old.isOpening = false)
    (hrej : s.rejects wall = true) (hroom : s.queue.maxDepth ≤ s.queue.waiters.length)
    (cfg : PoolConfig) :
    ∃ s₁, s.enterGet cfg c false wall = some s₁ ∧ s₁.queue = s.queue ∧
      s₁.checkedOut = s.checkedOut ∧ s₁.stage c = some (.done (.error .queueFull) s.now) := by
  obtain ⟨breaker, -, hget⟩ := enterGet_rejects hrej cfg c false
  let turned : SharedPool := { s with breaker }
  have hst : turned.stage c = some old := hc
  have hfailed : getFailed cfg turned c false (.circuitBreaker .circuitOpen) =
      turned.setStage c (.done (.error .queueFull) s.now) := by
    have hroom' : turned.queue.maxDepth ≤ turned.queue.waiters.length := hroom
    exact getFailed_full hroom' cfg c _
  refine ⟨_, hget.trans (congrArg some hfailed), rfl, ?_, stage_setStage_self hst _⟩
  rw [checkedOut_setStage hst hold rfl]
  rfl

/-- Turned away by the breaker with room in the queue. -/
theorem enterGet_queues {old : Stage} (hc : s.stage c = some old) (hold : old.isOpening = false)
    (hrej : s.rejects wall = true) (hroom : s.queue.waiters.length < s.queue.maxDepth)
    (cfg : PoolConfig) :
    ∃ s₁, s.enterGet cfg c false wall = some s₁ ∧ s₁.queue.waiters = s.queue.waiters ++ [c] ∧
      s₁.checkedOut = s.checkedOut ∧ s₁.rejects wall = true ∧ s₁.stage c = some
        (.waiting (if 0 < cfg.waitTimeoutMs then some (s.now + cfg.waitTimeoutMs) else none)) := by
  obtain ⟨breaker, hrej', hget⟩ := enterGet_rejects hrej cfg c false
  let turned : SharedPool := { s with breaker }
  let queued : SharedPool := { s with
    breaker
    queue := { s.queue with waiters := s.queue.waiters ++ [c], depth := s.queue.depth + 1 } }
  have hst : queued.stage c = some old := hc
  have hfailed : getFailed cfg turned c false (.circuitBreaker .circuitOpen) =
      queued.setStage c (.waiting (if 0 < cfg.waitTimeoutMs then some (s.now + cfg.waitTimeoutMs)
        else none)) := by
    have hroom' : turned.queue.waiters.length < turned.queue.maxDepth := hroom
    exact getFailed_queues hroom' cfg c _
  refine ⟨_, hget.trans (congrArg some hfailed), rfl, ?_, hrej', stage_setStage_self hst _⟩
  rw [checkedOut_setStage hst hold rfl]
  rfl

theorem enterGet_admits {old : Stage} (hc : s.stage c = some old) (hold : old.isOpening = false)
    (hadm : s.rejects wall = false) (cfg : PoolConfig) (again : Bool) :
    ∃ s₁, s.enterGet cfg c again wall = some s₁ ∧ s₁.checkedOut = s.checkedOut ∧
      s₁.now = s.now ∧ s₁.stage c = some (.getting again 1) := by
  have hset : ∀ breaker, ({ s with breaker } : SharedPool).stage c = some old := fun _ => hc
  have hslots : ∀ breaker, (({ s with breaker } : SharedPool).setStage c
      (.getting again 1)).checkedOut = s.checkedOut := fun breaker => by
    rw [checkedOut_setStage (hset breaker) hold rfl]
    rfl
  cases hcb : s.breaker with
  | none =>
    refine ⟨s.setStage c (.getting again 1), by simp only [enterGet, hcb], ?_, rfl,
      stage_setStage_self hc _⟩
    exact checkedOut_setStage hc hold rfl
  | some cb =>
    have hadmits : cb.rejects wall = false := by simpa [rejects, hcb] using hadm
    obtain ⟨cb', hallow⟩ := CircuitBreaker.allowRequest_admits hadmits
    refine ⟨_, by simp only [enterGet, hcb, hallow], hslots (some cb'), rfl,
      stage_setStage_self (hset (some cb')) _⟩

/-- The pool once a call has been made and before it has done anything. -/
def begun (s : SharedPool) (clientId : Nat) : SharedPool :=
  { s with calls := s.calls ++ [AcquireCall.mk clientId (.getting false 1)] }

theorem stage_begun (s : SharedPool) (clientId : Nat) :
    (s.begun clientId).stage s.calls.length = some (.getting false 1) := by
  simp [begun, stage]

theorem checkedOut_begun (s : SharedPool) (clientId : Nat) :
    (s.begun clientId).checkedOut = s.checkedOut := by
  simp [begun, checkedOut, Stage.isOpening]

theorem call_eq (cfg : PoolConfig) (s : SharedPool) (clientId : Nat) (needsSticky : Bool)
    (wall : UInt64) :
    s.step cfg (.call clientId needsSticky wall) =
      if !s.manager.accepting then
        some ((s.begun clientId).finish s.calls.length (.error .paused))
      else match if needsSticky then s.manager.stickyMap.lookup clientId else none with
        | some (b, _) =>
          some ({ s.begun clientId with
            manager := { s.manager with stickyMap := s.manager.stickyMap.erase clientId }
            held := ⟨b, clientId, true⟩ :: s.held }.finish s.calls.length
              (.ok ⟨b, clientId, true⟩))
        | none => (s.begun clientId).enterGet cfg s.calls.length false wall := rfl

variable {clientId : Nat} {needsSticky : Bool}

theorem lookup_of_not_sticks (h : s.sticks clientId needsSticky = false) :
    (if needsSticky then s.manager.stickyMap.lookup clientId else none) = none := by
  cases needsSticky with
  | false => rfl
  | true =>
    rw [if_pos rfl, AList.lookup_eq_none]
    simpa [sticks, PoolManager.hasSticky] using h

section Call

variable (cfg : PoolConfig) {s : SharedPool} (clientId : Nat) (needsSticky : Bool) {wall : UInt64}

theorem call_paused (wall : UInt64) (h : s.manager.accepting = false) :
    ∃ s₁, s.step cfg (.call clientId needsSticky wall) = some s₁ ∧
      s₁.checkedOut = s.checkedOut ∧
      s₁.stage s.calls.length = some (.done (.error .paused) s.now) := by
  have hstage := s.stage_begun clientId
  refine ⟨(s.begun clientId).setStage s.calls.length (.done (.error .paused) s.now), ?_, ?_,
    stage_setStage_self hstage _⟩
  · rw [call_eq, h]
    rfl
  · rw [checkedOut_setStage hstage rfl rfl, checkedOut_begun]

theorem call_sticks (wall : UInt64) (haccepting : s.manager.accepting = true)
    (h : s.sticks clientId needsSticky = true) :
    ∃ s₁ conn, s.step cfg (.call clientId needsSticky wall) = some s₁ ∧
      s₁.checkedOut = s.checkedOut ∧
      s₁.stage s.calls.length = some (.done (.ok conn) s.now) := by
  simp only [sticks, PoolManager.hasSticky, Bool.and_eq_true, decide_eq_true_eq] at h
  obtain ⟨rfl, hmem⟩ := h
  obtain ⟨⟨b, info⟩, hlookup⟩ := Option.isSome_iff_exists.1 (AList.lookup_isSome.2 hmem)
  let conn : ManagedConnection := ⟨b, clientId, true⟩
  let taken : SharedPool := { s.begun clientId with
    manager := { s.manager with stickyMap := s.manager.stickyMap.erase clientId }
    held := conn :: s.held }
  have hstage : taken.stage s.calls.length = some (.getting false 1) := s.stage_begun clientId
  refine ⟨taken.setStage s.calls.length (.done (.ok conn) s.now), conn, ?_, ?_,
    stage_setStage_self hstage _⟩
  · rw [call_eq, haccepting, if_pos rfl, hlookup]
    rfl
  -- the connection moves from the sticky map to the caller
  · rw [checkedOut_setStage hstage rfl rfl, ← checkedOut_begun s clientId]
    have hkeys : (s.manager.stickyMap.erase clientId).keys.length + 1 =
        s.manager.stickyMap.keys.length := by
      rw [AList.keys_erase, List.length_erase_of_mem (AList.mem_keys.1 hmem)]
      exact Nat.sub_add_cancel (List.length_pos_of_mem (AList.mem_keys.1 hmem))
    simp only [checkedOut, taken, begun, List.length_cons]
    omega

theorem call_asks (wall : UInt64) (haccepting : s.manager.accepting = true)
    (hsticks : s.sticks clientId needsSticky = false) :
    s.step cfg (.call clientId needsSticky wall) =
      (s.begun clientId).enterGet cfg s.calls.length false wall := by
  rw [call_eq, haccepting, lookup_of_not_sticks hsticks]
  rfl

end Call

/-! ## Bounded waiting -/

/-- No slot becomes free, and time does not pass the timeout of call `c` while it waits. -/
def Stalled (cfg : PoolConfig) (c : Nat) (s : SharedPool) (e : SharedEvent) : Prop :=
  (∀ s', s.step cfg e = some s' → cfg.maxSize ≤ s'.checkedOut) ∧
    ∀ ms expires, e = .tick ms → s.stage c = some (.waiting (some expires)) → s.now + ms ≤ expires

/-- Whatever happens while no slot becomes free, the call is refused if `queue_depth` callers are
    waiting already, and otherwise can only return with a timeout that is not late; and with a
    timeout set it has returned once that has passed. -/
def BoundedWait (cfg : PoolConfig) (s : SharedPool) (clientId : Nat) (needsSticky : Bool)
    (wall : UInt64) : Prop :=
  ∀ s₁ events s₂, s.step cfg (.call clientId needsSticky wall) = some s₁ →
    Trace.Admits (step cfg) (Stalled cfg s.calls.length) s₁ events →
    Trace.exec (step cfg) s₁ events = some s₂ →
      (∀ result time, s₂.stage s.calls.length = some (.done result time) →
        result = .error .queueFull ∧ cfg.queueDepth ≤ s.blocked.card ∨
        result = .error .waitTimeout ∧ time ≤ s.now + cfg.waitTimeoutMs) ∧
      (cfg.queueDepth ≤ s.blocked.card →
        ∃ time, s₂.stage s.calls.length = some (.done (.error .queueFull) time)) ∧
      (cfg.waitTimeoutMs ≠ 0 → s.now + cfg.waitTimeoutMs < s₂.now →
        ∃ result time, s₂.stage s.calls.length = some (.done result time))

variable {cfg : PoolConfig}

theorem done_exec {s' : SharedPool} {events : List SharedEvent}
    {result : Except AcquireFailure ManagedConnection} {time : Nat}
    (hc : s.stage c = some (.done result time)) (h : Trace.exec (step cfg) s events = some s') :
    s'.stage c = some (.done result time) :=
  Trace.exec_keeps (fun _ _ _ hs hstep => done_step hstep hs) hc h

/-- Inside `deadpool` a call outlasts every run in which no slot becomes free. -/
theorem getting_exec {s' : SharedPool} {events : List SharedEvent} {again : Bool} {attempt : Nat}
    (hfull : cfg.maxSize ≤ s.checkedOut) (hc : s.stage c = some (.getting again attempt))
    (hadm : Trace.Admits (step cfg) (Stalled cfg c) s events)
    (h : Trace.exec (step cfg) s events = some s') :
    s'.stage c = some (.getting again attempt) := by
  have hkeep : ∀ s e s', (cfg.maxSize ≤ s.checkedOut ∧ s.stage c = some (.getting again attempt)) →
      Stalled cfg c s e → s.step cfg e = some s' →
      cfg.maxSize ≤ s'.checkedOut ∧ s'.stage c = some (.getting again attempt) :=
    fun s e s' hs hstalled hstep => ⟨hstalled.1 s' hstep, getting_step hstep hs.1 hs.2⟩
  exact (Trace.exec_invariant hkeep ⟨hfull, hc⟩ hadm h).2

/-- A resume wakes the call at the front of the queue and frees no slot. -/
theorem resume_step {front : Nat} {waiters : List Nat} (h : s.queue.waiters = front :: waiters)
    (cfg : PoolConfig) :
    ∃ s₁, s.step cfg .resume = some s₁ ∧ s₁.queue.waiters = waiters ∧ s₁.breaker = s.breaker ∧
      s₁.checkedOut = s.checkedOut ∧ ∀ c, s₁.stage c =
        if front = c ∧ (s.stage c).any Stage.isWaiting then some .notified else s.stage c := by
  let resumed : SharedPool :=
    { s with manager := s.manager.resume, queue := { s.queue with waiters } }
  have hstep : s.step cfg .resume = some (resumed.send front) := by
    have hwaiters : ({ s with manager := s.manager.resume } : SharedPool).queue.waiters =
        front :: waiters := h
    simp only [step, notifyOne_cons hwaiters, resumed]
  refine ⟨_, hstep, ?_, ?_, checkedOut_send resumed front, fun c => stage_send resumed front c⟩
  · rw [queue_send]
  · rw [breaker_send]

/-- A call that the breaker turns away after a notification returns the breaker's error. -/
theorem proceed_rejected (hst : s.stage c = some .notified) (hrej : s.rejects wall = true)
    (cfg : PoolConfig) :
    ∃ s₁, s.step cfg (.proceed c wall) = some s₁ ∧ s₁.checkedOut = s.checkedOut ∧
      s₁.stage c = some (.done (.error (.poolError (.circuitBreaker .circuitOpen))) s.now) := by
  obtain ⟨breaker, -, hget⟩ := enterGet_rejects hrej cfg c true
  have hst' : (({ s with breaker } : SharedPool).leaveQueue true).stage c = some .notified := by
    rw [stage_leaveQueue]
    exact hst
  refine ⟨_, by simp only [step, hst, if_true]; exact hget, ?_, stage_setStage_self hst' _⟩
  rw [checkedOut_setStage hst' rfl rfl, checkedOut_leaveQueue]
  rfl

/-- An event that leaves the slots alone and lets no time pass. -/
theorem stalled_of_step {s₁ : SharedPool} {e : SharedEvent} (hstep : s.step cfg e = some s₁)
    (hslots : s₁.checkedOut = s.checkedOut) (hfull : cfg.maxSize ≤ s.checkedOut)
    (hno : ∀ ms, e ≠ .tick ms) : Stalled cfg c s e := by
  constructor
  · intro s' h
    rw [hstep] at h
    cases h
    rw [hslots]
    exact hfull
  · intro ms _ h
    exact absurd h (hno ms)

/-- A call that the breaker has turned away can be woken while no slot is free.  It is then turned
    away again. -/
theorem woken_fails {front : List Nat} (hwaiters : s.queue.waiters = front ++ [c])
    (hst : (s.stage c).any Stage.isWaiting = true ∨ s.stage c = some .notified)
    (hrej : s.rejects wall = true) (hfull : cfg.maxSize ≤ s.checkedOut) :
    ∃ events s' e time, Trace.Admits (step cfg) (Stalled cfg c) s events ∧
      Trace.exec (step cfg) s events = some s' ∧
      s'.stage c = some (.done (.error (.poolError e)) time) := by
  induction front generalizing s with
  | nil =>
    -- it is the call's turn
    obtain ⟨s₁, hresume, -, hbreaker, hslots, hstages⟩ := resume_step hwaiters cfg
    have hnotified : s₁.stage c = some .notified := by
      rw [hstages c]
      rcases hst with hst | hst
      · simp [hst]
      · simp [hst]
    have hrej₁ : s₁.rejects wall = true := by
      rw [rejects, hbreaker]
      exact hrej
    obtain ⟨s₂, hproceed, hslots₂, hdone⟩ := proceed_rejected hnotified hrej₁ cfg
    refine ⟨[.resume, .proceed c wall], s₂, _, _, ?_, ?_, hdone⟩
    · rw [Trace.admits_cons_of_some hresume, Trace.admits_cons_of_some hproceed]
      exact ⟨stalled_of_step hresume hslots hfull (by simp),
        stalled_of_step hproceed hslots₂ (hslots ▸ hfull) (by simp), trivial⟩
    · simp only [Trace.exec, hresume, hproceed, Option.bind_some]
  | cons f front ih =>
    -- an earlier call is woken first
    obtain ⟨s₁, hresume, hqueue, hbreaker, hslots, hstages⟩ := resume_step hwaiters cfg
    have hst₁ : (s₁.stage c).any Stage.isWaiting = true ∨ s₁.stage c = some .notified := by
      rw [hstages c]
      split
      · exact .inr rfl
      · exact hst
    have hrej₁ : s₁.rejects wall = true := by
      rw [rejects, hbreaker]
      exact hrej
    obtain ⟨events, s', e, time, hadm, hrun, hdone⟩ := ih hqueue hst₁ hrej₁ (hslots ▸ hfull)
    refine ⟨.resume :: events, s', e, time, ?_, ?_, hdone⟩
    · rw [Trace.admits_cons_of_some hresume]
      exact ⟨stalled_of_step hresume hslots hfull (by simp), hadm⟩
    · rw [Trace.exec, hresume]
      exact hrun

/-- A call that the breaker turns away is bounded only by a queue without room, while as many callers
    wait. -/
theorem rejected_bounded (hdepth : s.queue.maxDepth = cfg.queueDepth)
    (hfull : cfg.maxSize ≤ s.checkedOut) (haccepting : s.manager.accepting = true)
    (hsticks : s.sticks clientId needsSticky = false) (hrej : s.rejects wall = true)
    (h : BoundedWait cfg s clientId needsSticky wall) :
    cfg.queueDepth ≤ s.queue.waiters.length ∧ cfg.queueDepth ≤ s.blocked.card := by
  have hcall := call_asks cfg clientId needsSticky wall haccepting hsticks
  have hstage := s.stage_begun clientId
  by_cases hroom : s.queue.maxDepth ≤ s.queue.waiters.length
  · -- refused at once: then the callers must really be waiting
    obtain ⟨s₁, hget, -, -, hdone⟩ :=
      enterGet_full (s := s.begun clientId) hstage rfl hrej hroom cfg
    rcases (h s₁ [] s₁ (hcall.trans hget) trivial rfl).1 _ _ hdone with ⟨-, hcard⟩ | ⟨hres, -⟩
    · exact ⟨hdepth ▸ hroom, hcard⟩
    · cases hres
  · -- queued: a resume wakes it, and it fails with the breaker's error
    obtain ⟨s₁, hget, hwaiters, hslots, hrej₁, hwait⟩ :=
      enterGet_queues (s := s.begun clientId) hstage rfl hrej (Nat.not_le.1 hroom) cfg
    have hfull₁ : cfg.maxSize ≤ s₁.checkedOut := by
      rw [hslots, checkedOut_begun]
      exact hfull
    obtain ⟨events, s', e, time, hadm, hrun, hdone⟩ :=
      woken_fails hwaiters (.inl (by rw [hwait]; rfl)) hrej₁ hfull₁
    rcases (h s₁ events s' (hcall.trans hget) hadm hrun).1 _ _ hdone with ⟨hres, -⟩ | ⟨hres, -⟩ <;>
      cases hres

/-- A call that gets past the breaker is bounded by nothing, however many callers wait. -/
theorem admitted_bounded (hfull : cfg.maxSize ≤ s.checkedOut)
    (haccepting : s.manager.accepting = true) (hsticks : s.sticks clientId needsSticky = false)
    (hadm : s.rejects wall = false) (h : BoundedWait cfg s clientId needsSticky wall) :
    s.blocked.card < cfg.queueDepth ∧ cfg.waitTimeoutMs = 0 := by
  obtain ⟨s₁, hget, hslots, hnow, hstage⟩ :=
    enterGet_admits (s := s.begun clientId) (s.stage_begun clientId) rfl hadm cfg false
  rw [checkedOut_begun] at hslots
  have hcall := (call_asks cfg clientId needsSticky wall haccepting hsticks).trans hget
  constructor
  · -- the queue is not asked, full or not
    by_contra hmany
    obtain ⟨time, hdone⟩ := (h s₁ [] s₁ hcall trivial rfl).2.1 (Nat.not_lt.1 hmany)
    rw [hstage] at hdone
    cases hdone
  · by_contra hset
    -- let the timeout pass
    let late : SharedPool := { s₁ with now := s₁.now + (cfg.waitTimeoutMs + 1) }
    have htick : s₁.step cfg (.tick (cfg.waitTimeoutMs + 1)) = some late := rfl
    have hstalled : Stalled cfg s.calls.length s₁ (.tick (cfg.waitTimeoutMs + 1)) := by
      refine ⟨fun s' hs' => ?_, fun _ _ _ hwait => ?_⟩
      · rw [htick] at hs'
        cases hs'
        exact hslots ▸ hfull
      · rw [hstage] at hwait
        cases hwait
    have hlate : s.now + cfg.waitTimeoutMs < late.now := by
      have hsame : s₁.now = s.now := hnow
      simp only [late, hsame]
      omega
    obtain ⟨result, time, hdone⟩ := (h s₁ [.tick (cfg.waitTimeoutMs + 1)] late hcall
      ⟨hstalled, fun _ _ => trivial⟩ (by rw [Trace.exec, htick]; rfl)).2.2 hset hlate
    have hstill : late.stage s.calls.length = some (.getting false 1) := hstage
    rw [hstill] at hdone
    cases hdone

/-- With every slot taken, waiting is bounded in two cases only: the breaker turns the call away, the
    queue has no room and as many callers wait; or the call gets past the breaker, fewer callers wait
    and no timeout is set. -/
theorem boundedWait_iff (cfg : PoolConfig) {s : SharedPool}
    (hdepth : s.queue.maxDepth = cfg.queueDepth) (hfull : cfg.maxSize ≤ s.checkedOut)
    (clientId : Nat) (needsSticky : Bool) (wall : UInt64) :
    BoundedWait cfg s clientId needsSticky wall ↔
      s.manager.accepting = true ∧ s.sticks clientId needsSticky = false ∧
        if s.rejects wall then
          cfg.queueDepth ≤ s.queue.waiters.length ∧ cfg.queueDepth ≤ s.blocked.card
        else s.blocked.card < cfg.queueDepth ∧ cfg.waitTimeoutMs = 0 := by
  constructor
  · intro h
    have haccepting : s.manager.accepting = true := by
      by_contra hpaused
      obtain ⟨s₁, hcall, -, hdone⟩ :=
        call_paused cfg clientId needsSticky wall (by simpa using hpaused)
      rcases (h s₁ [] s₁ hcall trivial rfl).1 _ _ hdone with ⟨hres, -⟩ | ⟨hres, -⟩ <;> cases hres
    have hsticks : s.sticks clientId needsSticky = false := by
      by_contra hsticks
      obtain ⟨s₁, conn, hcall, -, hdone⟩ :=
        call_sticks cfg clientId needsSticky wall haccepting (by simpa using hsticks)
      rcases (h s₁ [] s₁ hcall trivial rfl).1 _ _ hdone with ⟨hres, -⟩ | ⟨hres, -⟩ <;> cases hres
    refine ⟨haccepting, hsticks, ?_⟩
    split
    · next hrej =>
      exact rejected_bounded hdepth hfull haccepting hsticks hrej h
    · next hadm =>
      exact admitted_bounded hfull haccepting hsticks (by simpa using hadm) h
  · rintro ⟨haccepting, hsticks, hcase⟩ s₁ events s₂ hcall hadm hrun
    split at hcase
    · next hrej =>
      obtain ⟨s₁', hget, -, -, hdone⟩ := enterGet_full (s := s.begun clientId)
        (s.stage_begun clientId) rfl hrej (hdepth ▸ hcase.1) cfg
      rw [call_asks cfg clientId needsSticky wall haccepting hsticks, hget] at hcall
      cases hcall
      have hdone := done_exec hdone hrun
      refine ⟨fun result time hres => ?_, fun _ => ⟨_, hdone⟩, fun _ _ => ⟨_, _, hdone⟩⟩
      rw [hdone] at hres
      cases hres
      exact .inl ⟨rfl, hcase.2⟩
    · next hrej =>
      obtain ⟨s₁', hget, hslots, -, hstage⟩ := enterGet_admits (s := s.begun clientId)
        (s.stage_begun clientId) rfl (by simpa [rejects, begun] using hrej) cfg false
      rw [call_asks cfg clientId needsSticky wall haccepting hsticks, hget] at hcall
      cases hcall
      rw [checkedOut_begun] at hslots
      have hblocked := getting_exec (hslots ▸ hfull) hstage hadm hrun
      refine ⟨fun result time hres => ?_, fun hmany => ?_, fun hset => absurd hcase.2 hset⟩
      · rw [hblocked] at hres
        cases hres
      · exact absurd hcase.1 (Nat.not_lt.2 hmany)

/-- A pool of one connection, which client 7 has taken. -/
def oneOut (queueDepth : Nat) (breaker : Option CircuitBreaker) : SharedPool where
  manager := .new
  breaker := breaker
  queue := .new queueDepth
  held := [⟨⟨0, none⟩, 7, false⟩]
  calls := [⟨7, .done (.ok ⟨⟨0, none⟩, 7, false⟩) 0⟩]
  created := 1
  now := 0

/-- A breaker that opened at second 100, for a minute. -/
def openBreaker : CircuitBreaker where
  config := ⟨true, 5, 2, 30, 60, false⟩
  state := .opened
  consecutiveFailures := 5
  consecutiveSuccesses := 0
  failureCountInWindow := 5
  requestsAllowed := 5
  requestsRejected := 0
  windowStart := 90
  openTimestamp := 100
  lastStateChange := 100

/-- The breaker is open and client 9 fills a queue of one. -/
def oneQueued : SharedPool :=
  { oneOut 1 (some openBreaker.countRejected) with
    queue := ⟨1, 1, [1]⟩
    calls := [⟨7, .done (.ok ⟨⟨0, none⟩, 7, false⟩) 0⟩, ⟨9, .waiting (some 30000)⟩] }

/-- Client 8 is refused at once: the breaker turns it away and the queue is full. -/
theorem boundedWait_shedding : BoundedWait ⟨1, 1, 30000, none⟩ oneQueued 8 false 110 :=
  (boundedWait_iff ⟨1, 1, 30000, none⟩ rfl (by decide) 8 false 110).2
    ⟨rfl, rfl, by decide +kernel⟩

/-- With the default settings and no breaker, client 8 waits for client 7 without a bound. -/
theorem exhausted_pool_waits :
    Trace.exec (step ⟨1, 100, 30000, none⟩) (.new ⟨1, 100, 30000, none⟩ none)
        [.call 7 false 0, .slot 0, .opened 0 [] true 0] = some (oneOut 100 none) ∧
      ¬ BoundedWait ⟨1, 100, 30000, none⟩ (oneOut 100 none) 8 false 0 := by
  refine ⟨rfl, fun h => ?_⟩
  obtain ⟨-, hzero⟩ := admitted_bounded (by decide) rfl rfl rfl h
  cases hzero

/-! ## Failing fast -/

/-- The call fails at once with the breaker's rejection, which is counted once as shed. -/
def FailsFast (cfg : PoolConfig) (s : SharedPool) (clientId : Nat) (needsSticky : Bool)
    (wall : UInt64) (m : PoolMetrics) : Prop :=
  ∃ s₁ e, s.step cfg (.call clientId needsSticky wall) = some s₁ ∧ s₁.queue = s.queue ∧
    s₁.stage s.calls.length = some (.done (.error (.poolError (.circuitBreaker e))) s.now) ∧
    (m.handleAcquireError (.poolError (.circuitBreaker e))).requestsShed = m.requestsShed + 1

/-- The call returns without waiting. -/
def Immediate (cfg : PoolConfig) (s : SharedPool) (clientId : Nat) (needsSticky : Bool)
    (wall : UInt64) (result : Except AcquireFailure ManagedConnection) : Prop :=
  ∃ s₁, s.step cfg (.call clientId needsSticky wall) = some s₁ ∧
    s₁.stage s.calls.length = some (.done result s.now)

/-- What a call on a rejecting breaker can return without waiting. -/
theorem immediate_of_rejects {result : Except AcquireFailure ManagedConnection}
    (hrej : s.rejects wall = true) (h : Immediate cfg s clientId needsSticky wall result) :
    (s.manager.accepting = false ∧ result = .error .paused) ∨
    (s.sticks clientId needsSticky = true ∧ ∃ conn, result = .ok conn) ∨
    (s.queue.maxDepth ≤ s.queue.waiters.length ∧ result = .error .queueFull) := by
  obtain ⟨s₁, hcall, hdone⟩ := h
  cases haccepting : s.manager.accepting with
  | false =>
    obtain ⟨s₁', heq, -, hpaused⟩ := call_paused cfg clientId needsSticky wall haccepting
    rw [heq] at hcall
    cases hcall
    rw [hpaused] at hdone
    cases hdone
    exact .inl ⟨rfl, rfl⟩
  | true =>
    cases hsticks : s.sticks clientId needsSticky with
    | true =>
      obtain ⟨s₁', conn, heq, -, hok⟩ := call_sticks cfg clientId needsSticky wall haccepting hsticks
      rw [heq] at hcall
      cases hcall
      rw [hok] at hdone
      cases hdone
      exact .inr (.inl ⟨rfl, conn, rfl⟩)
    | false =>
      rw [call_asks cfg clientId needsSticky wall haccepting hsticks] at hcall
      have hstage := s.stage_begun clientId
      by_cases hroom : s.queue.maxDepth ≤ s.queue.waiters.length
      · obtain ⟨s₁', heq, -, -, hfull⟩ :=
          enterGet_full (s := s.begun clientId) hstage rfl hrej hroom cfg
        rw [heq] at hcall
        cases hcall
        rw [hfull] at hdone
        cases hdone
        exact .inr (.inr ⟨hroom, rfl⟩)
      · -- the call waits in the queue
        obtain ⟨s₁', heq, -, -, -, hwait⟩ :=
          enterGet_queues (s := s.begun clientId) hstage rfl hrej (Nat.not_le.1 hroom) cfg
        rw [heq] at hcall
        cases hcall
        rw [hwait] at hdone
        cases hdone

/-- A call never fails fast on the breaker: the property holds where the breaker admits the call and
    nowhere else.  Turned away by the breaker, a call that reaches the queue returns at once only if
    that is full, and then with another error. -/
theorem failsFast_iff_admitted (cfg : PoolConfig) (s : SharedPool) (clientId : Nat)
    (needsSticky : Bool) (wall : UInt64) (m : PoolMetrics) :
    ((s.rejects wall = true → FailsFast cfg s clientId needsSticky wall m) ↔
      s.rejects wall = false) ∧
    (s.rejects wall = true → s.manager.accepting = true → s.sticks clientId needsSticky = false →
      ∀ result, Immediate cfg s clientId needsSticky wall result ↔
        s.queue.maxDepth ≤ s.queue.waiters.length ∧ result = .error .queueFull) := by
  refine ⟨⟨fun h => ?_, fun hadm hrej => ?_⟩, fun hrej haccepting hsticks result => ⟨fun h => ?_, ?_⟩⟩
  · by_contra hrej
    have hrej : s.rejects wall = true := by simpa using hrej
    obtain ⟨s₁, e, hcall, -, hdone, -⟩ := h hrej
    rcases immediate_of_rejects hrej ⟨s₁, hcall, hdone⟩ with ⟨-, hres⟩ | ⟨-, _, hres⟩ | ⟨-, hres⟩ <;>
      cases hres
  · rw [hadm] at hrej
    cases hrej
  · rcases immediate_of_rejects hrej h with ⟨hpaused, -⟩ | ⟨hst, -⟩ | hfull
    · rw [haccepting] at hpaused
      cases hpaused
    · rw [hsticks] at hst
      cases hst
    · exact hfull
  · rintro ⟨hroom, rfl⟩
    obtain ⟨s₁, hget, -, -, hdone⟩ :=
      enterGet_full (s := s.begun clientId) (s.stage_begun clientId) rfl hrej hroom cfg
    exact ⟨s₁, (call_asks cfg clientId needsSticky wall haccepting hsticks).trans hget, hdone⟩

/-- The breaker is open and the queue has room: client 8 waits half a minute in it, times out, and
    is not counted as shed. -/
theorem rejected_call_queues :
    (oneOut 100 (some openBreaker)).rejects 110 = true ∧
      ¬ FailsFast ⟨10, 100, 30000, none⟩ (oneOut 100 (some openBreaker)) 8 false 110 ⟨0, 0, 0, 0⟩ ∧
      (Trace.exec (step ⟨10, 100, 30000, none⟩) (oneOut 100 (some openBreaker))
        [.call 8 false 110, .tick 30000, .expire 1]).map (fun s => s.stage 1) =
          some (some (.done (.error .waitTimeout) 30000)) ∧
      (PoolMetrics.handleAcquireError ⟨0, 0, 0, 0⟩ .waitTimeout).requestsShed = 0 := by
  refine ⟨by decide +kernel, ?_, by decide +kernel, rfl⟩
  rintro ⟨s₁, e, hcall, -, hdone, -⟩
  rcases immediate_of_rejects (by decide +kernel) ⟨s₁, hcall, hdone⟩ with ⟨-, hres⟩ | ⟨-, _, hres⟩ |
    ⟨-, hres⟩ <;> cases hres

end SharedPool

end ScryProxy
