import ScryProxy.Native.Acquire

/-!
# What one step of the shared pool can do

Each step changes the surroundings of the calls and then at most moves one call on, or sends
one notification (`step_shape`).  From this follow what becomes of a call that the step is not
about (`stage_step`), what a call must be at for a step to move it on (`actor_stage`), and what a
call that has returned or waits inside `deadpool` goes on as (`done_step`, `getting_step`).
-/

namespace ScryProxy

namespace SharedEvent

/-- The call that an event moves on. -/
def actor (s : SharedPool) : SharedEvent → Option Nat
  | .call _ _ _ => some s.calls.length
  | .slot c | .opened c _ _ _ | .openFailed c _ _ _ _ | .retry c | .proceed c _ | .expire c => some c
  | _ => none

/-- The entry that an event adds to the calls. -/
def entry : SharedEvent → List AcquireCall
  | .call clientId _ _ => [⟨clientId, .getting false 1⟩]
  | _ => []

/-- The time that an event takes. -/
def duration : SharedEvent → Nat
  | .tick ms => ms
  | _ => 0

end SharedEvent

/-- The caller waits. -/
def Stage.isBlocked : Stage → Bool
  | .getting _ _ | .backoff _ _ | .waiting _ | .notified => true
  | .opening _ _ | .done _ _ => false

namespace SharedPool

/-! ## Stages -/

theorem stage_setStage (s : SharedPool) (c c' : Nat) (st : Stage) :
    (s.setStage c st).stage c' = if c = c' then (s.stage c').map fun _ => st else s.stage c' := by
  simp only [stage, setStage, List.getElem?_modify]
  cases s.calls[c']? with
  | none => simp
  | some call => by_cases h : c = c' <;> simp [h]

variable {s : SharedPool} {c : Nat}

theorem stage_setStage_self {old : Stage} (h : s.stage c = some old) (st : Stage) :
    (s.setStage c st).stage c = some st := by
  simp [stage_setStage, h]

theorem stage_setStage_ne {c' : Nat} (h : c ≠ c') (s : SharedPool) (st : Stage) :
    (s.setStage c st).stage c' = s.stage c' := by
  simp [stage_setStage, h]

@[simp] theorem stage_leaveQueue (s : SharedPool) (again : Bool) (c : Nat) :
    (s.leaveQueue again).stage c = s.stage c := by
  unfold leaveQueue
  split <;> rfl

theorem stage_getFailed_ne {c' : Nat} (h : c ≠ c') (cfg : PoolConfig) (s : SharedPool)
    (again : Bool) (e : GetError) : (getFailed cfg s c again e).stage c' = s.stage c' := by
  unfold getFailed
  split
  · rw [finish, stage_setStage_ne h, stage_leaveQueue]
  · split
    · rw [finish, stage_setStage_ne h]
    · rw [stage_setStage_ne h]
      rfl

/-- A send reaches its call if that still waits, and no other. -/
theorem stage_send (s : SharedPool) (c c' : Nat) :
    (s.send c).stage c' =
      if c = c' ∧ (s.stage c').any Stage.isWaiting then some .notified else s.stage c' := by
  unfold send
  split
  · next expires hst =>
    rw [stage_setStage]
    by_cases hc : c = c'
    · subst hc
      simp [hst, Stage.isWaiting]
    · simp [hc]
  · next hnot =>
    by_cases hc : c = c'
    · subst hc
      cases hst : s.stage c with
      | none => simp
      | some st =>
        cases st with
        | waiting expires => exact absurd hst (hnot expires)
        | getting | opening | backoff | notified | done => simp [Stage.isWaiting]
    · simp [hc]

@[simp] theorem queue_send (s : SharedPool) (c : Nat) : (s.send c).queue = s.queue := by
  unfold send
  split <;> rfl

@[simp] theorem breaker_send (s : SharedPool) (c : Nat) : (s.send c).breaker = s.breaker := by
  unfold send
  split <;> rfl

theorem notifyOne_nil (h : s.queue.waiters = []) : s.notifyOne = s := by
  simp [notifyOne, WaitQueue.notifyOne, h]

theorem notifyOne_cons {waiters : List Nat} (h : s.queue.waiters = c :: waiters) :
    s.notifyOne = ({ s with queue := { s.queue with waiters } } : SharedPool).send c := by
  simp [notifyOne, WaitQueue.notifyOne, h]

/-- A notification reaches at most the call at the front of the queue, if that still waits. -/
theorem stage_notifyOne (s : SharedPool) (c : Nat) :
    s.notifyOne.stage c = s.stage c ∨
      ((∃ expires, s.stage c = some (.waiting expires)) ∧ s.notifyOne.stage c = some .notified) := by
  cases hw : s.queue.waiters with
  | nil => exact .inl (by rw [notifyOne_nil hw])
  | cons front waiters =>
    rw [notifyOne_cons hw, stage_send]
    split
    · next hreached =>
      obtain ⟨st, hst, hwait⟩ := (Option.any_eq_true _ _).1 hreached.2
      cases st with
      | waiting expires => exact .inr ⟨⟨expires, hst⟩, rfl⟩
      | getting | opening | backoff | notified | done => cases hwait
    · exact .inl rfl

theorem stage_lt {st : Stage} (h : s.stage c = some st) : c < s.calls.length := by
  obtain ⟨call, hcall, -⟩ := Option.map_eq_some_iff.1 h
  exact (List.getElem?_eq_some_iff.1 hcall).1

/-! ## The shape of a step -/

/-- Call `c` moves on: to a stage other than the queue, leaving the queue if it is in it, or to
    where a failed `get` leads. -/
inductive Move (cfg : PoolConfig) (t : SharedPool) (c : Nat) : SharedPool → Prop
  | goes (again : Bool) (st : Stage) (hst : st.isWaiting = false) :
    Move cfg t c ((t.leaveQueue again).setStage c st)
  | failed (again : Bool) (e : GetError) : Move cfg t c (getFailed cfg t c again e)

variable {cfg : PoolConfig} {s' : SharedPool}

theorem enterGet_move {again : Bool} {wall : UInt64} (h : s.enterGet cfg c again wall = some s') :
    ∃ t, t.queue = s.queue ∧ t.calls = s.calls ∧ t.now = s.now ∧ Move cfg t c s' := by
  unfold enterGet at h
  split at h
  · cases h
    exact ⟨s, rfl, rfl, rfl, .goes false (.getting again 1) rfl⟩
  · split at h
    · cases h
    · next cb' _ =>
      cases h
      exact ⟨{ s with breaker := some cb' }, rfl, rfl, rfl, .goes false (.getting again 1) rfl⟩
    · next e cb' _ =>
      cases h
      exact ⟨{ s with breaker := some cb' }, rfl, rfl, rfl, .failed again (.circuitBreaker e)⟩

variable {e : SharedEvent}

/-- A step changes the surroundings, and then moves one call on or sends at most one notification. -/
theorem step_shape (h : s.step cfg e = some s') :
    ∃ t : SharedPool, ((∃ c, e.actor s = some c ∧ Move cfg t c s') ∨
        (e.actor s = none ∧ (s' = t ∨ s' = t.notifyOne))) ∧
      t.queue = s.queue ∧ t.now = s.now + e.duration ∧ t.calls = s.calls ++ e.entry := by
  have hsame : s.calls = s.calls ++ [] := (List.append_nil _).symm
  cases e with
  | call clientId needsSticky wall =>
    simp only [step, call] at h
    split at h
    · cases h
      exact ⟨_, .inl ⟨_, rfl, .goes false _ rfl⟩, rfl, rfl, rfl⟩
    · split at h
      · cases h
        exact ⟨_, .inl ⟨_, rfl, .goes false _ rfl⟩, rfl, rfl, rfl⟩
      · obtain ⟨t, hqueue, hcalls, hnow, hmove⟩ := enterGet_move h
        exact ⟨t, .inl ⟨_, rfl, hmove⟩, hqueue, hnow, hcalls⟩
  | slot c =>
    simp only [step] at h
    split at h
    · split at h <;> cases h
      exact ⟨s, .inl ⟨c, rfl, .goes false _ rfl⟩, rfl, rfl, hsame⟩
    · cases h
  | opened c attempts creates wall =>
    simp only [step, opened] at h
    split at h
    · split at h <;> cases h
      exact ⟨_, .inl ⟨c, rfl, .goes _ _ rfl⟩, rfl, rfl, hsame⟩
    · cases h
  | openFailed c attempts e wall unhealthy =>
    simp only [step, openFailed] at h
    split at h
    · split at h
      · split at h <;> cases h
        · exact ⟨_, .inl ⟨c, rfl, .goes false _ rfl⟩, rfl, rfl, hsame⟩
        · exact ⟨_, .inl ⟨c, rfl, .failed _ _⟩, rfl, rfl, hsame⟩
      · cases h
    · cases h
  | retry c =>
    simp only [step] at h
    split at h <;> cases h
    exact ⟨s, .inl ⟨c, rfl, .goes false _ rfl⟩, rfl, rfl, hsame⟩
  | proceed c wall =>
    simp only [step] at h
    split at h
    · obtain ⟨t, hqueue, hcalls, hnow, hmove⟩ := enterGet_move h
      exact ⟨t, .inl ⟨c, rfl, hmove⟩, hqueue, hnow, hcalls.trans hsame⟩
    · cases h
  | expire c =>
    simp only [step] at h
    split at h
    · split at h <;> cases h
      exact ⟨s, .inl ⟨c, rfl, .goes true _ rfl⟩, rfl, rfl, hsame⟩
    · cases h
  | release conn =>
    simp only [step] at h
    split at h <;> cases h
    exact ⟨_, .inr ⟨rfl, .inr rfl⟩, rfl, rfl, hsame⟩
  | drop conn =>
    simp only [step] at h
    split at h <;> cases h
    exact ⟨_, .inr ⟨rfl, .inl rfl⟩, rfl, rfl, hsame⟩
  | resume => cases h; exact ⟨_, .inr ⟨rfl, .inr rfl⟩, rfl, rfl, hsame⟩
  | pause | health | tick => cases h; exact ⟨_, .inr ⟨rfl, .inl rfl⟩, rfl, rfl, hsame⟩

theorem Move.stage_ne {t : SharedPool} {c' : Nat} (h : Move cfg t c s') (hne : c ≠ c') :
    s'.stage c' = t.stage c' := by
  cases h with
  | goes again st hst => rw [stage_setStage_ne hne, stage_leaveQueue]
  | failed again e => exact stage_getFailed_ne hne cfg t again e

/-- A step that does not move a call on leaves it where it is, or notifies it. -/
theorem stage_step (h : s.step cfg e = some s') {st : Stage} (hc : s.stage c = some st)
    (hactor : e.actor s ≠ some c) :
    s'.stage c = some st ∨ ((∃ expires, st = .waiting expires) ∧ s'.stage c = some .notified) := by
  obtain ⟨t, hmove, -, -, hcalls⟩ := step_shape h
  have ht : t.stage c = some st := by
    rw [stage, hcalls, List.getElem?_append_left (stage_lt hc)]
    exact hc
  rcases hmove with ⟨c₀, hc₀, hmove⟩ | ⟨-, rfl | rfl⟩
  · refine .inl ((hmove.stage_ne fun heq => ?_).trans ht)
    rw [hc₀, heq] at hactor
    exact hactor rfl
  · exact .inl ht
  · rcases stage_notifyOne t c with hsame | ⟨⟨expires, hwait⟩, hnotified⟩
    · exact .inl (hsame.trans ht)
    · exact .inr ⟨⟨expires, Option.some.inj (ht.symm.trans hwait)⟩, hnotified⟩

/-- What a step needs of the call that it moves on. -/
theorem actor_stage (h : s.step cfg e = some s') (hactor : e.actor s = some c) {st : Stage}
    (hc : s.stage c = some st) :
    (∃ again attempt, s.stage c = some (.getting again attempt) ∧ s.checkedOut < cfg.maxSize ∧
      s' = s.setStage c (.opening again attempt)) ∨
    (∃ again attempt, s.stage c = some (.opening again attempt)) ∨
    (∃ again attempt, s.stage c = some (.backoff again attempt)) ∨
    (s.stage c = some .notified ∧ ∃ wall, e = .proceed c wall) ∨
    (∃ expires, s.stage c = some (.waiting (some expires)) ∧ expires ≤ s.now ∧
      s' = (s.leaveQueue true).finish c (.error .waitTimeout)) := by
  cases e <;> cases hactor <;> simp only [step] at h
  case call =>
    -- the call is only being made
    exact absurd (stage_lt hc) (Nat.lt_irrefl _)
  case slot =>
    split at h
    · next again attempt hst =>
      split at h
      · next hfree =>
        cases h
        exact .inl ⟨again, attempt, hst, hfree, rfl⟩
      · cases h
    · cases h
  case opened =>
    split at h
    · next hcall => exact .inr (.inl ⟨_, _, by rw [stage, hcall]; rfl⟩)
    · cases h
  case openFailed =>
    split at h
    · next hst => exact .inr (.inl ⟨_, _, hst⟩)
    · cases h
  case retry =>
    split at h
    · next hst => exact .inr (.inr (.inl ⟨_, _, hst⟩))
    · cases h
  case proceed wall =>
    split at h
    · next hst => exact .inr (.inr (.inr (.inl ⟨hst, wall, rfl⟩)))
    · cases h
  case expire =>
    split at h
    · next expires hst =>
      split at h
      · next hdue =>
        cases h
        exact .inr (.inr (.inr (.inr ⟨expires, hst, hdue, rfl⟩)))
      · cases h
    · cases h

/-- A call that has returned stays as it is. -/
theorem done_step (h : s.step cfg e = some s') {result : Except AcquireFailure ManagedConnection}
    {time : Nat} (hc : s.stage c = some (.done result time)) :
    s'.stage c = some (.done result time) := by
  by_cases hactor : e.actor s = some c
  · rcases actor_stage h hactor hc with ⟨_, _, hst, -⟩ | ⟨_, _, hst⟩ | ⟨_, _, hst⟩ | ⟨hst, -⟩ |
      ⟨_, hst, -⟩
    all_goals
      rw [hc] at hst
      cases hst
  · rcases stage_step h hc hactor with hsame | ⟨⟨_, hwait⟩, -⟩
    · exact hsame
    · cases hwait

/-- While no slot is free, a call inside `deadpool` stays there. -/
theorem getting_step (h : s.step cfg e = some s') (hfull : cfg.maxSize ≤ s.checkedOut)
    {again : Bool} {attempt : Nat} (hc : s.stage c = some (.getting again attempt)) :
    s'.stage c = some (.getting again attempt) := by
  by_cases hactor : e.actor s = some c
  · rcases actor_stage h hactor hc with ⟨_, _, -, hfree, -⟩ | ⟨_, _, hst⟩ | ⟨_, _, hst⟩ | ⟨hst, -⟩ |
      ⟨_, hst, -⟩
    · omega
    all_goals
      rw [hc] at hst
      cases hst
  · rcases stage_step h hc hactor with hsame | ⟨⟨_, hwait⟩, -⟩
    · exact hsame
    · cases hwait

/-! ## Slots -/

theorem countP_modify {α : Type} {p : α → Bool} {f : α → α} {l : List α} {i : Nat}
    (h : ∀ a, l[i]? = some a → p (f a) = p a) : (l.modify i f).countP p = l.countP p := by
  induction l generalizing i with
  | nil => simp
  | cons a l ih =>
    cases i with
    | zero => simp [List.modify_zero_cons, List.countP_cons, h a rfl]
    | succ i =>
      rw [List.modify_succ_cons, List.countP_cons, List.countP_cons, ih fun b hb => h b hb]

/-- A call that neither holds a slot nor gets one leaves the slots alone. -/
theorem checkedOut_setStage {old st : Stage} (hc : s.stage c = some old)
    (hold : old.isOpening = false) (hst : st.isOpening = false) :
    (s.setStage c st).checkedOut = s.checkedOut := by
  have hcount : (s.calls.modify c fun call => { call with stage := st }).countP
      (fun call => call.stage.isOpening) = s.calls.countP fun call => call.stage.isOpening := by
    refine countP_modify fun call hcall => ?_
    have hstage : call.stage = old := by
      rw [stage, hcall] at hc
      exact Option.some.inj hc
    simp only [hst, hstage, hold]
  simp only [checkedOut, setStage, hcount]

@[simp] theorem checkedOut_leaveQueue (s : SharedPool) (again : Bool) :
    (s.leaveQueue again).checkedOut = s.checkedOut := by
  unfold leaveQueue
  split <;> rfl

theorem checkedOut_send (s : SharedPool) (c : Nat) : (s.send c).checkedOut = s.checkedOut := by
  unfold send
  split
  · next hst => exact checkedOut_setStage hst rfl rfl
  · rfl

/-! ## Waiting callers -/

/-- The calls that wait: for a slot, for another attempt, or in the queue. -/
def blocked (s : SharedPool) : Finset Nat :=
  (Finset.range s.calls.length).filter fun c => (s.stage c).any Stage.isBlocked

end SharedPool

end ScryProxy
