import ScryProxy.ForStd.Trace
import ScryProxy.Native.EventBatcher

/-!
# No event is lost or published twice

At any time the events of the published batches, the current batch and the channel are, in
this order, the events that the channel took (`Conserves.conserved`).  Once the senders are
gone, every turn of the batcher that is not a tick of the timer brings it closer to its end
(`remaining_step`), and there all of them have been published.

## Key results

- `EventBatcher.Conserves.keep`: the invariant, event by event
- `EventBatcher.events_conserved_iff`: conservation, batch sizes, counters and the end of the task,
  for the configurations with which the task gets into its loop
-/

namespace ScryProxy

open Trace (exec)

namespace EventBatcher

variable {α : Type}

/-! ## One event -/

/-- What each event finds and leaves behind. -/
inductive Moves (s : EventBatcher α) : BatcherEvent α → EventBatcher α → Prop
  | start (hphase : s.phase = .starting) : Moves s .start s.enterLoop
  | refuse (event : α) (hopen : s.closed = false)
    (hphase : s.phase = .finished ∨ s.phase = .panicked) :
    Moves s (.trySend event) { s with calls := s.calls ++ [⟨event, .closed, false⟩] }
  | queue (event : α) (hopen : s.closed = false) :
    Moves s (.trySend event)
      { s with channel := s.channel ++ [event], calls := s.calls ++ [⟨event, .queued, false⟩] }
  | drop (event : α) (hopen : s.closed = false) :
    Moves s (.trySend event) { s with calls := s.calls ++ [⟨event, .full, false⟩] }
  | sendReturns {i : Nat} {event : α} {outcome : SendOutcome}
    (hcall : s.calls[i]? = some ⟨event, outcome, false⟩) :
    Moves s (.sendReturns i)
      { s.countOutcome outcome with calls := s.calls.set i ⟨event, outcome, true⟩ }
  | close (hcalls : ∀ c ∈ s.calls, c.returned = true) : Moves s .close { s with closed := true }
  | collect {event : α} {channel : List α} (hphase : s.phase = .selecting)
    (hchannel : s.channel = event :: channel) (hroom : s.batch.length + 1 < s.cfg.batchSize) :
    Moves s .recv { s with channel, batch := s.batch ++ [event] }
  | fill {event : α} {channel : List α} (hphase : s.phase = .selecting)
    (hchannel : s.channel = event :: channel) (hfull : s.cfg.batchSize ≤ s.batch.length + 1) :
    Moves s .recv { s with
      channel
      batch := []
      published := s.published ++ [s.batch ++ [event]]
      phase := .publishing }
  | recvNone (hphase : s.phase = .selecting) (hchannel : s.channel = []) (hclosed : s.closed = true) :
    Moves s .recvNone (s.flushBatch .lastPublishing .shuttingDown)
  | tick (hphase : s.phase = .selecting) : Moves s .tick (s.flushBatch .publishing .selecting)
  | published (success : Bool) (hphase : s.phase = .publishing) :
    Moves s (.published success) { s with phase := .selecting }
  | lastPublished (success : Bool) (hphase : s.phase = .lastPublishing) :
    Moves s (.published success) { s with phase := .shuttingDown }
  | shutDown (success : Bool) (hphase : s.phase = .shuttingDown) :
    Moves s (.shutDown success) { s with phase := .finished }

variable {s s' : EventBatcher α} {e : BatcherEvent α}

theorem step_cases (hstep : s.step e = some s') : Moves s e s' := by
  cases e with
  | start =>
    simp only [step] at hstep
    split at hstep
    · next hphase => cases hstep; exact .start hphase
    · cases hstep
  | trySend event =>
    simp only [step] at hstep
    split at hstep
    · cases hstep
    · next hopen =>
      have hopen : s.closed = false := by simpa using hopen
      cases hstep
      unfold trySend
      split
      · next hphase => exact .refuse event hopen hphase
      · split
        · exact .queue event hopen
        · exact .drop event hopen
  | sendReturns i =>
    simp only [step] at hstep
    split at hstep
    · next hcall => cases hstep; exact .sendReturns hcall
    · cases hstep
  | close =>
    simp only [step] at hstep
    split at hstep
    · next hcalls => cases hstep; exact .close (List.all_eq_true.1 hcalls)
    · cases hstep
  | recv =>
    simp only [step] at hstep
    split at hstep
    · next event channel hphase hchannel =>
      split at hstep
      · next hfull =>
        cases hstep
        rw [List.length_append, List.length_singleton] at hfull
        simpa [flushBatch] using Moves.fill hphase hchannel hfull
      · next hroom =>
        cases hstep
        rw [List.length_append, List.length_singleton] at hroom
        exact .collect hphase hchannel (Nat.not_le.1 hroom)
    · cases hstep
  | recvNone =>
    simp only [step] at hstep
    split at hstep
    · next hok => cases hstep; exact .recvNone hok.1 hok.2.1 hok.2.2
    · cases hstep
  | tick =>
    simp only [step] at hstep
    split at hstep
    · next hphase => cases hstep; exact .tick hphase
    · cases hstep
  | published success =>
    simp only [step] at hstep
    split at hstep
    · next hphase => cases hstep; exact .published success hphase
    · next hphase => cases hstep; exact .lastPublished success hphase
    · cases hstep
  | shutDown success =>
    simp only [step] at hstep
    split at hstep
    · next hphase => cases hstep; exact .shutDown success hphase
    · cases hstep

/-! ## What no event changes -/

theorem flushBatch_cfg (s : EventBatcher α) (waiting next : BatcherPhase) :
    (s.flushBatch waiting next).cfg = s.cfg := by
  unfold flushBatch
  split <;> rfl

theorem flushBatch_closed (s : EventBatcher α) (waiting next : BatcherPhase) :
    (s.flushBatch waiting next).closed = s.closed := by
  unfold flushBatch
  split <;> rfl

theorem cfg_step (hstep : s.step e = some s') : s'.cfg = s.cfg := by
  cases step_cases hstep with
  | start hphase => unfold enterLoop; split <;> rfl
  | @sendReturns i event outcome hcall => cases outcome <;> rfl
  | recvNone hphase hchannel hclosed => exact flushBatch_cfg s _ _
  | tick hphase => exact flushBatch_cfg s _ _
  | _ => rfl

/-- Nothing reopens the channel. -/
theorem closed_step (hclosed : s.closed = true) (hstep : s.step e = some s') :
    s'.closed = true := by
  cases step_cases hstep with
  | start hphase => unfold enterLoop; split <;> exact hclosed
  | @sendReturns i event outcome hcall => cases outcome <;> exact hclosed
  | close hcalls => rfl
  | recvNone hphase hchannel _ => exact (flushBatch_closed s _ _).trans hclosed
  | tick hphase => exact (flushBatch_closed s _ _).trans hclosed
  | _ => exact hclosed

/-! ## Conservation -/

end EventBatcher

/-- The batch can be allocated for, and the timer has an interval. -/
def BatcherConfig.Runs (cfg : BatcherConfig) : Prop :=
  cfg.batchSize * cfg.eventSize ≤ EventBatcher.maxAllocation ∧ cfg.flushIntervalMs ≠ 0

namespace EventBatcher

variable {α : Type}

variable {s : EventBatcher α}

theorem enterLoop_of_runs (h : s.cfg.Runs) : s.enterLoop = { s with phase := .selecting } :=
  if_neg (not_or.2 ⟨Nat.not_lt.2 h.1, h.2⟩)

/-- The batcher has seen the end of the channel. -/
def Over (s : EventBatcher α) : Prop :=
  s.phase = .lastPublishing ∨ s.phase = .shuttingDown ∨ s.phase = .finished

/-- The task is in its loop, or gets into it. -/
def Alive (s : EventBatcher α) : Prop := s.cfg.Runs ∧ s.phase ≠ .panicked

variable {s' : EventBatcher α} {e : BatcherEvent α}

theorem Alive.keep (h : s.Alive) (hstep : s.step e = some s') : s'.Alive := by
  refine ⟨(cfg_step hstep).symm ▸ h.1, ?_⟩
  have hflush {waiting next : BatcherPhase} (hwaiting : waiting ≠ .panicked)
      (hnext : next ≠ .panicked) : (s.flushBatch waiting next).phase ≠ .panicked := by
    unfold flushBatch
    split
    · exact hnext
    · exact hwaiting
  cases step_cases hstep with
  | start hphase =>
    rw [enterLoop_of_runs h.1]
    exact nofun
  | @sendReturns i event outcome hcall => cases outcome <;> exact h.2
  | recvNone hphase hchannel hclosed => exact hflush nofun nofun
  | tick hphase => exact hflush nofun nofun
  | fill hphase hchannel hfull => exact nofun
  | published success hphase => exact nofun
  | lastPublished success hphase => exact nofun
  | shutDown success hphase => exact nofun
  | _ => exact h.2

/-- What holds in every state of a batcher that gets into its loop. -/
structure Conserves (s : EventBatcher α) : Prop where
  conserved : s.published.flatten ++ s.batch ++ s.channel = s.accepted
  sizes : ∀ b ∈ s.published, b ≠ [] ∧ b.length ≤ s.cfg.batchSize
  short : s.batch.length < s.cfg.batchSize
  counted : s.eventsSent + s.eventsDropped = UInt64.ofNat s.returnedOk
  atEnd : s.Over → s.closed = true ∧ s.channel = [] ∧ s.batch = []
  quiet : s.closed = true → ∀ c ∈ s.calls, c.returned = true

/-- A new call is at the end of the history and has not returned. -/
theorem accepted_append (s : EventBatcher α) (event : α) (outcome : SendOutcome) :
    ({ s with calls := s.calls ++ [⟨event, outcome, false⟩] } : EventBatcher α).accepted =
      s.accepted ++ if outcome = .queued then [event] else [] := by
  cases outcome <;> simp [accepted]

theorem returnedOk_append (s : EventBatcher α) (event : α) (outcome : SendOutcome) :
    ({ s with calls := s.calls ++ [⟨event, outcome, false⟩] } : EventBatcher α).returnedOk =
      s.returnedOk := by
  simp [returnedOk]

/-- Its return does not change what a call has put into the channel. -/
theorem accepted_set {i : Nat} {event : α} {outcome : SendOutcome}
    (hcall : s.calls[i]? = some ⟨event, outcome, false⟩) :
    ({ s with calls := s.calls.set i ⟨event, outcome, true⟩ } : EventBatcher α).accepted =
      s.accepted := by
  obtain ⟨hlt, hget⟩ := List.getElem?_eq_some_iff.1 hcall
  have hsplit := (List.take_append_drop i s.calls).symm
  rw [List.drop_eq_getElem_cons hlt, hget] at hsplit
  simp only [accepted]
  rw [List.set_eq_take_append_cons_drop, if_pos hlt]
  conv_rhs => rw [hsplit]
  cases outcome <;> simp

theorem returnedOk_set {i : Nat} {event : α} {outcome : SendOutcome}
    (hcall : s.calls[i]? = some ⟨event, outcome, false⟩) :
    ({ s with calls := s.calls.set i ⟨event, outcome, true⟩ } : EventBatcher α).returnedOk =
      s.returnedOk + if outcome = .closed then 0 else 1 := by
  obtain ⟨hlt, hget⟩ := List.getElem?_eq_some_iff.1 hcall
  simp only [returnedOk]
  rw [List.countP_set hlt, hget]
  cases outcome <;> simp

theorem counted_countOutcome (hcounted : s.eventsSent + s.eventsDropped = UInt64.ofNat s.returnedOk)
    (outcome : SendOutcome) :
    (s.countOutcome outcome).eventsSent + (s.countOutcome outcome).eventsDropped =
      UInt64.ofNat (s.returnedOk + if outcome = .closed then 0 else 1) := by
  cases outcome with
  | queued =>
    simp only [countOutcome, reduceCtorEq, if_false, UInt64.ofNat_add, ← hcounted]
    show s.eventsSent + 1 + s.eventsDropped = s.eventsSent + s.eventsDropped + 1
    ac_rfl
  | full =>
    simp only [countOutcome, reduceCtorEq, if_false, UInt64.ofNat_add, ← hcounted]
    show s.eventsSent + (s.eventsDropped + 1) = s.eventsSent + s.eventsDropped + 1
    ac_rfl
  | closed => simpa [countOutcome] using hcounted

/-- A batch that is flushed goes behind the published ones. -/
theorem Conserves.flush (hinv : s.Conserves) {waiting next : BatcherPhase}
    (hphases : (waiting = .publishing ∧ next = .selecting) ∨ (s.closed = true ∧ s.channel = [])) :
    (s.flushBatch waiting next).Conserves := by
  obtain ⟨hconserved, hsizes, hshort, hcounted, -, hquiet⟩ := hinv
  unfold flushBatch
  split
  · next hempty =>
    refine ⟨hconserved, hsizes, hshort, hcounted, fun hover => ?_, hquiet⟩
    rcases hphases with ⟨-, rfl⟩ | ⟨hclosed, hchannel⟩
    · simp [Over] at hover
    · exact ⟨hclosed, hchannel, List.isEmpty_iff.1 hempty⟩
  · next hempty =>
    refine ⟨?_, ?_, Nat.zero_lt_of_lt hshort, hcounted, fun hover => ?_, hquiet⟩
    · rw [List.flatten_append, List.flatten_singleton, List.append_nil]
      exact hconserved
    · intro b hb
      rcases List.mem_append.1 hb with hb | hb
      · exact hsizes b hb
      · rw [List.mem_singleton.1 hb]
        exact ⟨by simpa using hempty, hshort.le⟩
    · rcases hphases with ⟨rfl, -⟩ | ⟨hclosed, hchannel⟩
      · simp [Over] at hover
      · exact ⟨hclosed, hchannel, rfl⟩

theorem Conserves.keep (hinv : s.Conserves) (halive : s.Alive) (hstep : s.step e = some s') :
    s'.Conserves := by
  have ⟨hconserved, hsizes, hshort, hcounted, hover, hquiet⟩ := hinv
  -- where there are senders, neither the channel nor the task is at its end
  have hopen : s.closed = false → ¬ s.Over ∧ ¬ s.closed = true := by
    intro hclosed
    have hne : ¬ s.closed = true := by rw [hclosed]; decide
    exact ⟨fun h => hne (hover h).1, hne⟩
  cases step_cases hstep with
  | start hphase =>
    rw [enterLoop_of_runs halive.1]
    exact ⟨hconserved, hsizes, hshort, hcounted, by simp [Over], hquiet⟩
  | refuse event hclosed hphase =>
    rcases hphase with hphase | hphase
    · exact absurd (.inr (.inr hphase)) (hopen hclosed).1
    · exact absurd hphase halive.2
  | queue event hclosed =>
    refine ⟨?_, hsizes, hshort, ?_, fun h => absurd h (hopen hclosed).1,
      fun h => absurd h (hopen hclosed).2⟩
    · have haccepted := accepted_append s event .queued
      rw [if_pos rfl, ← hconserved, List.append_assoc _ s.channel] at haccepted
      exact haccepted.symm
    · exact hcounted.trans (congrArg UInt64.ofNat (returnedOk_append s event .queued).symm)
  | drop event hclosed =>
    refine ⟨?_, hsizes, hshort, ?_, fun h => absurd h (hopen hclosed).1,
      fun h => absurd h (hopen hclosed).2⟩
    · have haccepted := accepted_append s event .full
      rw [if_neg (by decide), List.append_nil, ← hconserved] at haccepted
      exact haccepted.symm
    · exact hcounted.trans (congrArg UInt64.ofNat (returnedOk_append s event .full).symm)
  | @sendReturns i event outcome hcall =>
    -- the call stays in its place, and its outcome is counted
    have hkept : ∀ c ∈ s.calls.set i ⟨event, outcome, true⟩, c ∈ s.calls ∨ c.returned = true := by
      intro c hc
      rcases List.mem_or_eq_of_mem_set hc with hc | rfl
      · exact .inl hc
      · exact .inr rfl
    have hcount := (counted_countOutcome hcounted outcome).trans
      (congrArg UInt64.ofNat (returnedOk_set hcall).symm)
    have haccepted := hconserved.trans (accepted_set hcall).symm
    cases outcome <;>
    · refine ⟨haccepted, hsizes, hshort, hcount, hover, fun hclosed c hc => ?_⟩
      exact (hkept c hc).elim (hquiet hclosed c) id
  | close hcalls =>
    exact ⟨hconserved, hsizes, hshort, hcounted, fun h => ⟨rfl, (hover h).2⟩, fun _ => hcalls⟩
  | @collect event channel hphase hchannel hroom =>
    refine ⟨?_, hsizes, ?_, hcounted, fun h => ?_, hquiet⟩
    · show s.published.flatten ++ (s.batch ++ [event]) ++ channel = s.accepted
      rw [← hconserved, hchannel]
      simp
    · simpa using hroom
    · simp [Over, hphase] at h
  | @fill event channel hphase hchannel hfull =>
    refine ⟨?_, fun b hb => ?_, Nat.zero_lt_of_lt hshort, hcounted, fun h => ?_, hquiet⟩
    · show (s.published ++ [s.batch ++ [event]]).flatten ++ [] ++ channel = s.accepted
      rw [← hconserved, hchannel]
      simp
    · rcases List.mem_append.1 hb with hb | hb
      · exact hsizes b hb
      · rw [List.mem_singleton.1 hb]
        refine ⟨by simp, ?_⟩
        rw [List.length_append, List.length_singleton]
        exact hshort
    · simp [Over] at h
  | recvNone hphase hchannel hclosed => exact hinv.flush (.inr ⟨hclosed, hchannel⟩)
  | tick hphase => exact hinv.flush (.inl ⟨rfl, rfl⟩)
  | published success hphase =>
    refine ⟨hconserved, hsizes, hshort, hcounted, fun h => ?_, hquiet⟩
    simp [Over] at h
  | lastPublished success hphase =>
    exact ⟨hconserved, hsizes, hshort, hcounted, fun _ => hover (.inl hphase), hquiet⟩
  | shutDown success hphase =>
    exact ⟨hconserved, hsizes, hshort, hcounted, fun _ => hover (.inr (.inl hphase)), hquiet⟩

variable {cfg : BatcherConfig}

theorem conserves_start (hbatch : 1 ≤ cfg.batchSize) :
    (⟨cfg, false, [], [], [], .starting, 0, 0, []⟩ : EventBatcher α).Conserves where
  conserved := rfl
  sizes := by simp
  short := hbatch
  counted := rfl
  atEnd := by simp [Over]
  quiet := by simp

/-- Once all calls have returned, the callers know of each event in the channel. -/
theorem accepted_eq_returnedTrue (hcalls : ∀ c ∈ s.calls, c.returned = true) :
    s.accepted = s.returnedTrue := by
  unfold accepted returnedTrue
  rw [List.filter_congr fun c hc => ?_]
  rw [hcalls c hc, Bool.true_and]

/-! ## The end of the task -/

/-- The turns of the batcher but the timer's. -/
def isProgress : BatcherEvent α → Bool
  | .start | .recv | .recvNone | .published _ | .shutDown _ => true
  | _ => false

/-- The number of turns that are left after the last sender is gone: each event of the channel may
    fill a batch, which then has to be published. -/
def remaining (s : EventBatcher α) : Nat :=
  let phase := match s.phase with
    | .starting | .publishing => 4
    | .selecting => 3
    | .lastPublishing => 2
    | .shuttingDown => 1
    | .finished | .panicked => 0
  2 * s.channel.length + (if s.batch.isEmpty then 0 else 1) + phase

theorem remaining_flushBatch (hphase : s.phase = .selecting) :
    (s.flushBatch .publishing .selecting).remaining ≤ s.remaining ∧
      (s.flushBatch .lastPublishing .shuttingDown).remaining + 1 ≤ s.remaining := by
  by_cases hempty : s.batch.isEmpty = true <;> simp [flushBatch, remaining, hphase, hempty]

theorem remaining_step (hclosed : s.closed = true) (hstep : s.step e = some s') :
    s'.remaining + (if isProgress e then 1 else 0) ≤ s.remaining := by
  cases step_cases hstep with
  | start hphase =>
    unfold enterLoop
    split
    · simp only [remaining, hphase, isProgress, List.length_nil, if_true]
      omega
    · simp [remaining, hphase, isProgress]
  | refuse event hopen | queue event hopen | drop event hopen =>
    rw [hclosed] at hopen
    cases hopen
  | @sendReturns i event outcome hcall => cases outcome <;> exact Nat.le_refl _
  | close hcalls => exact Nat.le_refl _
  | collect hphase hchannel hroom =>
    -- two for the event, and one may come back for the batch
    simp only [remaining, hphase, hchannel, isProgress, List.length_cons]
    grind
  | fill hphase hchannel hfull =>
    simp only [remaining, hphase, hchannel, isProgress, List.length_cons]
    grind
  | recvNone hphase hchannel hclosed => exact (remaining_flushBatch hphase).2
  | tick hphase => exact (remaining_flushBatch hphase).1
  | published success hphase | lastPublished success hphase | shutDown success hphase =>
    simp [remaining, hphase, isProgress]

/-- A batcher that has not finished can always take its next turn. -/
theorem exists_progress (hclosed : s.closed = true) (hphase : s.phase ≠ .finished)
    (halive : s.Alive) : ∃ e, isProgress e = true ∧ (s.step e).isSome = true := by
  cases hnow : s.phase with
  | starting => exact ⟨.start, rfl, by simp [step, hnow]⟩
  | panicked => exact absurd hnow halive.2
  | selecting =>
    cases hchannel : s.channel with
    | nil => exact ⟨.recvNone, rfl, by simp [step, hnow, hchannel, hclosed]⟩
    | cons event channel =>
      refine ⟨.recv, rfl, ?_⟩
      simp only [step, hnow, hchannel]
      split <;> rfl
  | publishing => exact ⟨.published true, rfl, by simp [step, hnow]⟩
  | lastPublishing => exact ⟨.published true, rfl, by simp [step, hnow]⟩
  | shuttingDown => exact ⟨.shutDown true, rfl, by simp [step, hnow]⟩
  | finished => exact absurd hnow hphase

/-- In every state of every interleaving: the published batches, the current batch and the channel
    hold the events whose calls have put them there, in order, and those are the events for which
    `send_event` returned `Ok(true)` once no call is on its way back; the batches have at least one
    event and at most `batch_size`; the counters add up to the calls that returned `Ok`.  After the
    channel is closed the batcher can go on until it has finished, after at most `remaining` turns,
    and then everything has been published. -/
def EventsConserved (s₀ : EventBatcher α) : Prop :=
  ∀ events s, exec step s₀ events = some s →
    s.published.flatten ++ s.batch ++ s.channel = s.accepted ∧
    ((∀ c ∈ s.calls, c.returned = true) → s.accepted = s.returnedTrue) ∧
    (∀ b ∈ s.published, b ≠ [] ∧ b.length ≤ s₀.cfg.batchSize) ∧
    s.eventsSent + s.eventsDropped = UInt64.ofNat s.returnedOk ∧
    (s.closed = true →
      (s.phase = .finished → s.published.flatten = s.returnedTrue) ∧
      (s.phase ≠ .finished → ∃ e, isProgress e = true ∧ (s.step e).isSome = true) ∧
      ∀ more t, exec step s more = some t → more.countP isProgress + t.remaining ≤ s.remaining)

theorem eventsConserved_of_runs (hbatch : 1 ≤ cfg.batchSize) (hruns : cfg.Runs) :
    EventsConserved (⟨cfg, false, [], [], [], .starting, 0, 0, []⟩ : EventBatcher α) := by
  intro events s hrun
  have hkeep : ∀ (x : EventBatcher α) e x', (x.Conserves ∧ x.Alive) ∧ x.cfg = cfg →
      x.step e = some x' → (x'.Conserves ∧ x'.Alive) ∧ x'.cfg = cfg :=
    fun x e x' h hstep => ⟨⟨h.1.1.keep h.1.2 hstep, h.1.2.keep hstep⟩, (cfg_step hstep).trans h.2⟩
  obtain ⟨⟨⟨hconserved, hsizes, -, hcounted, hover, hquiet⟩, halive⟩, rfl⟩ :=
    Trace.exec_keeps hkeep ⟨⟨conserves_start hbatch, hruns, nofun⟩, rfl⟩ hrun
  refine ⟨hconserved, accepted_eq_returnedTrue, hsizes, hcounted, fun hclosed => ⟨fun hphase => ?_,
    fun hphase => exists_progress hclosed hphase halive, fun more t hmore => ?_⟩⟩
  · obtain ⟨-, hchannel, hnone⟩ := hover (.inr (.inr hphase))
    rw [hchannel, hnone, List.append_nil, List.append_nil] at hconserved
    exact hconserved.trans (accepted_eq_returnedTrue (hquiet hclosed))
  · exact Trace.countP_add_le (fun _ _ _ => closed_step) (fun _ _ _ => remaining_step) hclosed hmore

/-- An event that is taken before the task panics is lost. -/
theorem not_eventsConserved_of_panic (hqueue : 1 ≤ cfg.maxQueueSize) (hruns : ¬ cfg.Runs)
    (event : α) :
    ¬ EventsConserved (⟨cfg, false, [], [], [], .starting, 0, 0, []⟩ : EventBatcher α) := by
  have hpanics : EventBatcher.maxAllocation < cfg.batchSize * cfg.eventSize ∨
      cfg.flushIntervalMs = 0 := by
    rw [BatcherConfig.Runs, not_and_or, Nat.not_le, not_not] at hruns
    exact hruns
  intro hall
  have hrun : exec step (⟨cfg, false, [], [], [], .starting, 0, 0, []⟩ : EventBatcher α)
      [.trySend event, .start] =
        some ⟨cfg, false, [], [], [], .panicked, 0, 0, [⟨event, .queued, false⟩]⟩ := by
    have hroom : 0 < cfg.maxQueueSize := hqueue
    simp [exec, step, trySend, enterLoop, hroom, hpanics]
  have hconserved := (hall _ _ hrun).1
  simp [accepted] at hconserved

/-- A batcher conserves its events, whatever the interleaving, exactly if the batch can be allocated
    for and the timer has an interval. -/
theorem events_conserved_iff [Nonempty α] (cfg : BatcherConfig) (hbatch : 1 ≤ cfg.batchSize)
    (hqueue : 1 ≤ cfg.maxQueueSize) (hplaces : cfg.maxQueueSize ≤ maxPermits) :
    ∃ s₀ : EventBatcher α, new cfg = .ok s₀ ∧ (EventsConserved s₀ ↔ cfg.Runs) := by
  refine ⟨_, if_neg (by omega), ⟨fun hall => ?_, eventsConserved_of_runs hbatch⟩⟩
  obtain ⟨event⟩ := ‹Nonempty α›
  exact not_not.1 fun hruns => not_eventsConserved_of_panic hqueue hruns event hall

/-- Batches of two, a queue of two places, four calls: the third finds the queue full. -/
theorem events_conserved_of_two :
    ∃ s₀ s : EventBatcher Nat, new ⟨2, 1000, 2, 200⟩ = .ok s₀ ∧
      exec step s₀ [.trySend 7, .start, .trySend 7, .trySend 9, .sendReturns 1, .recv, .sendReturns 0,
        .recv, .sendReturns 2, .published false, .trySend 5, .tick, .sendReturns 3, .close, .recv,
        .recvNone, .published true, .shutDown true] = some s ∧
      s.published.flatten = s.returnedTrue ∧ s.published = [[7, 7], [5]] ∧
      s.eventsSent = 3 ∧ s.eventsDropped = 1 := by
  obtain ⟨s₀, hnew, hiff⟩ := events_conserved_iff (α := Nat) ⟨2, 1000, 2, 200⟩ (by decide) (by decide)
    (by decide)
  cases hnew
  let calls : List (SendCall Nat) :=
    [⟨7, .queued, true⟩, ⟨7, .queued, true⟩, ⟨9, .full, true⟩, ⟨5, .queued, true⟩]
  have hrun : exec step (⟨⟨2, 1000, 2, 200⟩, false, [], [], [], .starting, 0, 0, []⟩ : EventBatcher Nat)
      [.trySend 7, .start, .trySend 7, .trySend 9, .sendReturns 1, .recv, .sendReturns 0, .recv,
        .sendReturns 2, .published false, .trySend 5, .tick, .sendReturns 3, .close, .recv, .recvNone,
        .published true, .shutDown true] =
      some ⟨⟨2, 1000, 2, 200⟩, true, [], [], [[7, 7], [5]], .finished, 3, 1, calls⟩ := by
    decide +kernel
  obtain ⟨-, -, -, -, hclosed⟩ := hiff.2 ⟨by decide, by decide⟩ _ _ hrun
  exact ⟨_, _, rfl, hrun, (hclosed rfl).1 rfl, rfl, rfl, rfl⟩

/-- With `flush_interval_ms = 0` the task panics: of two events for which `send_event` returned
    `Ok(true)` neither is published, or is anywhere else, and the third call gets an error. -/
theorem zero_interval_loses_events :
    ∃ s₀ : EventBatcher Nat, new ⟨100, 0, 10000, 200⟩ = .ok s₀ ∧
      ((exec step s₀ [.trySend 7, .sendReturns 0, .trySend 8, .sendReturns 1, .start, .trySend 9]).map
        fun s => (s.returnedTrue, s.published, s.batch, s.channel, s.calls.map SendCall.outcome)) =
        some ([7, 8], [], [], [], [.queued, .queued, .closed]) :=
  ⟨_, rfl, by decide +kernel⟩

end EventBatcher

end ScryProxy
