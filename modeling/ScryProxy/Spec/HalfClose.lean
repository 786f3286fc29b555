import ScryProxy.Native.DirectRelay

/-!
# What the unpooled relay delivers

Whatever the two ends do and however the two copy loops are scheduled, what was written in a
direction is the first part of what was sent in it.  That all of it gets written is another
matter: the relay ends with the first loop, and a client that closes only its sending side ends
the loop towards the backend while the answers to what it has sent are still on their way.

## Key results

- `CopyLoop.Accounted`: the bytes of a direction are written, in hand or unread, in this order
- `half_close_delivers_iff`: the runs in which the client gets all that the backend sends
-/

namespace ScryProxy

/-! ## One step -/

namespace DirectRelay

@[simp] theorem loop_setLoop_self (s : DirectRelay) (d : Direction) (l : CopyLoop) :
    (s.setLoop d l).loop d = l := by
  cases d <;> rfl

theorem loop_setLoop_of_ne (s : DirectRelay) {d d' : Direction} (l : CopyLoop) (hne : d' ≠ d) :
    (s.setLoop d l).loop d' = s.loop d' := by
  cases d <;> cases d' <;> first | rfl | exact absurd rfl hne

@[simp] theorem stopped_setLoop (s : DirectRelay) (d : Direction) (l : CopyLoop) :
    (s.setLoop d l).stopped = s.stopped := by
  cases d <;> rfl

@[simp] theorem bufferSize_setLoop (s : DirectRelay) (d : Direction) (l : CopyLoop) :
    (s.setLoop d l).bufferSize = s.bufferSize := by
  cases d <;> rfl

@[simp] theorem loop_stop (s : DirectRelay) (d : Direction) : s.stop.loop d = s.loop d := by
  cases d <;> rfl

/-- A look changes neither loop. -/
theorem look_frame {s s' : DirectRelay} {d : Direction} {data : List UInt8}
    (h : s.look d data = .ok s') : (∀ d', s'.loop d' = s.loop d') ∧ s'.stopped = s.stopped := by
  cases d with
  | toBackend =>
    obtain ⟨p, _, h⟩ := Rust.bind_returns.1 h
    obtain ⟨cache, _, hs'⟩ := Rust.bind_returns.1 h
    cases hs'
    exact ⟨fun d' => by cases d' <;> rfl, rfl⟩
  | toClient =>
    obtain ⟨p, _, hs'⟩ := Rust.bind_returns.1 h
    cases hs'
    exact ⟨fun d' => by cases d' <;> rfl, rfl⟩

/-- The look at a read comes to an end. -/
def Looks (s : DirectRelay) (d : Direction) (n : Nat) : Prop :=
  ∃ s', (s.taken d n).look d ((s.loop d).unread.take n) = .ok s'

/-- What a step changes in the two loops, and when it can happen. -/
def Stepped (s : DirectRelay) (s' : DirectRelay) : DirectEvent → Prop
  | .send d bytes =>
    s' = s.setLoop d { s.loop d with
      sent := (s.loop d).sent ++ bytes
      unread := (s.loop d).unread ++ bytes }
  | .close d => s' = s.setLoop d { s.loop d with closed := true }
  | .read d n =>
    s.stopped = false ∧ (s.loop d).pending = [] ∧ 0 < n ∧ n ≤ (s.loop d).unread.length ∧
      (∀ d', s'.loop d' = (s.taken d n).loop d') ∧ (s'.stopped = false ↔ s.Looks d n)
  | .readEnd d =>
    s.stopped = false ∧ (s.loop d).pending = [] ∧
      (s.bufferSize = 0 ∨ (s.loop d).unread = []) ∧ s' = s.stop
  | .readError d => s.stopped = false ∧ (s.loop d).pending = [] ∧ s' = s.stop
  | .write d n =>
    s.stopped = false ∧ s' = s.setLoop d { s.loop d with
      pending := (s.loop d).pending.drop n
      written := (s.loop d).written ++ (s.loop d).pending.take n }
  | .writeError d => s.stopped = false ∧ (s.loop d).pending ≠ [] ∧ s' = s.stop

theorem stepped_of_step {s s' : DirectRelay} {e : DirectEvent} (h : s.step e = some s') :
    s.Stepped s' e := by
  cases e with
  | send d bytes =>
    simp only [step] at h
    split at h
    · cases h
    · exact (Option.some.inj h).symm
  | close d => exact (Option.some.inj h).symm
  | read d n =>
    simp only [step] at h
    split at h
    · rename_i hguard
      simp only [Bool.and_eq_true, Bool.not_eq_true', List.isEmpty_iff, decide_eq_true_eq] at hguard
      obtain ⟨⟨hrunning, hidle⟩, hn, hle⟩ := hguard
      refine ⟨hrunning, hidle, hn, by omega, ?_⟩
      have htaken : (s.taken d n).stopped = false := by
        rw [taken, stopped_setLoop]; exact hrunning
      cases hlook : (s.taken d n).look d ((s.loop d).unread.take n) with
      | ok looked =>
        rw [hlook] at h
        cases h
        obtain ⟨hloops, hstopped⟩ := look_frame hlook
        exact ⟨hloops, fun _ => ⟨_, hlook⟩, fun _ => hstopped.trans htaken⟩
      | error e =>
        rw [hlook] at h
        cases h
        refine ⟨loop_stop _, nofun, fun ⟨_, hok⟩ => ?_⟩
        rw [hlook] at hok
        cases hok
    · cases h
  | readEnd d =>
    simp only [step] at h
    split at h
    · rename_i hguard
      simp only [Bool.and_eq_true, Bool.or_eq_true, Bool.not_eq_true', List.isEmpty_iff,
        beq_iff_eq] at hguard
      exact ⟨hguard.1.1, hguard.1.2, hguard.2.imp_right And.left, (Option.some.inj h).symm⟩
    · cases h
  | readError d =>
    simp only [step] at h
    split at h
    · rename_i hguard
      simp only [Bool.and_eq_true, Bool.not_eq_true', List.isEmpty_iff] at hguard
      exact ⟨hguard.1, hguard.2, (Option.some.inj h).symm⟩
    · cases h
  | write d n =>
    simp only [step] at h
    split at h
    · rename_i hguard
      simp only [Bool.and_eq_true, Bool.not_eq_true'] at hguard
      exact ⟨hguard.1, (Option.some.inj h).symm⟩
    · cases h
  | writeError d =>
    simp only [step] at h
    split at h
    · rename_i hguard
      simp only [Bool.and_eq_true, Bool.not_eq_true', List.isEmpty_eq_false_iff] at hguard
      exact ⟨hguard.1, hguard.2, (Option.some.inj h).symm⟩
    · cases h

end DirectRelay

/-! ## No byte is lost, added or moved -/

/-- What was sent is written, in hand or unread, in this order. -/
def CopyLoop.Accounted (l : CopyLoop) : Prop := l.sent = l.written ++ l.pending ++ l.unread

theorem CopyLoop.Accounted.written_initial {l : CopyLoop} (h : l.Accounted) : l.written <+: l.sent := by
  rw [h, List.append_assoc]
  exact List.prefix_append _ _

theorem CopyLoop.Accounted.written_eq_iff {l : CopyLoop} (h : l.Accounted) :
    l.written = l.sent ↔ l.pending = [] ∧ l.unread = [] := by
  rw [h, List.append_assoc, List.self_eq_append_right, List.append_eq_nil_iff]

namespace DirectRelay

def Accounted (s : DirectRelay) : Prop := ∀ d, (s.loop d).Accounted

theorem accounted_start (bufferSize maxPreparedStatements : Nat) :
    (start bufferSize maxPreparedStatements).Accounted
  | .toBackend => rfl
  | .toClient => rfl

theorem Accounted.setLoop {s : DirectRelay} (h : s.Accounted) {d : Direction} {l : CopyLoop}
    (hl : l.Accounted) : (s.setLoop d l).Accounted := by
  intro d'
  by_cases hd : d' = d
  · rw [hd, loop_setLoop_self]
    exact hl
  · rw [loop_setLoop_of_ne s l hd]
    exact h d'

theorem Accounted.stop {s : DirectRelay} (h : s.Accounted) : s.stop.Accounted := by
  intro d
  rw [loop_stop]
  exact h d

/-- Taking the bytes of a read moves them from the source into the hand. -/
theorem Accounted.taken {s : DirectRelay} (h : s.Accounted) {d : Direction} {n : Nat}
    (hidle : (s.loop d).pending = []) : (s.taken d n).Accounted := by
  refine h.setLoop ?_
  have hd := h d
  unfold CopyLoop.Accounted at hd ⊢
  rw [hidle, List.append_nil] at hd
  show (s.loop d).sent = _
  rw [hd, List.append_assoc, List.take_append_drop]

theorem Accounted.keep (s : DirectRelay) (e : DirectEvent) (s' : DirectRelay) (h : s.Accounted)
    (hstep : s.step e = some s') : s'.Accounted := by
  have hstepped := stepped_of_step hstep
  cases e with
  | send d bytes =>
    cases hstepped
    refine h.setLoop ?_
    have hd := h d
    unfold CopyLoop.Accounted at hd ⊢
    rw [hd, List.append_assoc]
  | close d =>
    cases hstepped
    exact h.setLoop (h d)
  | read d n =>
    obtain ⟨-, hidle, -, -, hloops, -⟩ := hstepped
    intro d'
    rw [hloops d']
    exact h.taken hidle d'
  | readEnd d =>
    obtain ⟨-, -, -, rfl⟩ := hstepped
    exact h.stop
  | readError d =>
    obtain ⟨-, -, rfl⟩ := hstepped
    exact h.stop
  | write d n =>
    obtain ⟨-, rfl⟩ := hstepped
    refine h.setLoop ?_
    have hd := h d
    unfold CopyLoop.Accounted at hd ⊢
    show (s.loop d).sent = (s.loop d).written ++ (s.loop d).pending.take n ++
      (s.loop d).pending.drop n ++ (s.loop d).unread
    rw [hd, List.append_assoc (s.loop d).written (List.take _ _), List.take_append_drop]
  | writeError d =>
    obtain ⟨-, -, rfl⟩ := hstepped
    exact h.stop

/-! ## Delivery -/

/-- The client has got all that the backend has sent. -/
def Delivered (s : DirectRelay) : Prop := s.toClient.written = s.toClient.sent

/-- The event does not cut the client off from what the backend sends. -/
def Undisturbed (s : DirectRelay) : DirectEvent → Prop
  | .send .toClient bytes => s.stopped = true → bytes = []
  | .send .toBackend _ | .close _ | .write _ _ => True
  | .read d n => s.Looks d n ∨ (d = .toBackend ∧ s.Delivered)
  -- the backend's end of file is read when all before it was delivered
  | .readEnd .toClient => s.bufferSize = 0 → s.Delivered
  | .readEnd .toBackend | .readError _ | .writeError _ => s.Delivered

/-- If the relay is over, then nothing is missing. -/
def Complete (s : DirectRelay) : Prop := s.stopped = true → s.Delivered

theorem complete_of_running {s : DirectRelay} (h : s.stopped = false) : s.Complete :=
  fun hstopped => absurd hstopped (by simp [h])

theorem complete_stop {s : DirectRelay} : s.stop.Complete ↔ s.Delivered :=
  ⟨fun h => h rfl, fun h _ => h⟩

/-- A relay that has read is complete just if the look came to an end, or the other direction
    needed no more. -/
theorem complete_read {s s' : DirectRelay} {d : Direction} {n : Nat} (h : s.Accounted)
    (hstepped : s.Stepped s' (.read d n)) :
    s'.Complete ↔ s.Looks d n ∨ (d = .toBackend ∧ s.Delivered) := by
  obtain ⟨-, hidle, hn, hle, hloops, hlooks⟩ := hstepped
  by_cases hlook : s.Looks d n
  · exact ⟨fun _ => .inl hlook, fun _ => complete_of_running (hlooks.2 hlook)⟩
  have hstopped : s'.stopped = true := by
    rw [← hlooks, Bool.not_eq_false] at hlook
    exact hlook
  have hcomplete : s'.Complete ↔ s'.Delivered := ⟨fun hc => hc hstopped, fun hd _ => hd⟩
  have hclient : s'.toClient = (s.taken d n).toClient := hloops .toClient
  rw [hcomplete, Delivered, hclient]
  cases d with
  | toBackend =>
    show s.Delivered ↔ _
    simp [hlook]
  | toClient =>
    -- what was read is in hand
    have htaken := (h.taken (n := n) hidle .toClient).written_eq_iff
    have hpending : ((s.loop .toClient).unread.take n) ≠ [] := by
      intro hnil
      have hlength := congrArg List.length hnil
      rw [List.length_take, List.length_nil] at hlength
      omega
    have hmissing : ¬ (s.taken .toClient n).toClient.written = (s.taken .toClient n).toClient.sent :=
      fun heq => hpending (htaken.1 heq).1
    simp [hmissing, hlook]

theorem complete_step (s : DirectRelay) (e : DirectEvent) (s' : DirectRelay) (h : s.Accounted)
    (hs : s.Complete) (hstep : s.step e = some s') : s'.Complete ↔ s.Undisturbed e := by
  have hstepped := stepped_of_step hstep
  cases e with
  | send d bytes =>
    cases hstepped
    cases d with
    | toBackend => exact ⟨fun _ => trivial, fun _ => hs⟩
    | toClient =>
      refine forall_congr' fun hstopped => ?_
      have hdelivered : s.toClient.written = s.toClient.sent := hs hstopped
      show s.toClient.written = s.toClient.sent ++ bytes ↔ bytes = []
      rw [hdelivered, List.self_eq_append_right]
  | close d =>
    cases hstepped
    cases d <;> exact ⟨fun _ => trivial, fun _ => hs⟩
  | read d n => exact complete_read h hstepped
  | readEnd d =>
    obtain ⟨-, hidle, hend, rfl⟩ := hstepped
    rw [complete_stop]
    cases d with
    | toBackend => exact Iff.rfl
    | toClient =>
      refine ⟨fun hd _ => hd, fun hd => ?_⟩
      cases hend with
      | inl hsize => exact hd hsize
      | inr hunread => exact (h .toClient).written_eq_iff.2 ⟨hidle, hunread⟩
  | readError d =>
    obtain ⟨-, -, rfl⟩ := hstepped
    exact complete_stop
  | write d n =>
    obtain ⟨hrunning, rfl⟩ := hstepped
    exact ⟨fun _ => trivial, fun _ => complete_of_running (by rw [stopped_setLoop]; exact hrunning)⟩
  | writeError d =>
    obtain ⟨-, -, rfl⟩ := hstepped
    exact complete_stop

/-- Once the relay is over, what is missing stays missing. -/
theorem complete_back (s : DirectRelay) (e : DirectEvent) (s' : DirectRelay) (h : s.Accounted)
    (hstep : s.step e = some s') (hs' : s'.Complete) : s.Complete := by
  intro hstopped
  have hstepped := stepped_of_step hstep
  cases e with
  | send d bytes =>
    cases hstepped
    have hall := hs' (by rw [stopped_setLoop]; exact hstopped)
    cases d with
    | toBackend => exact hall
    | toClient =>
      -- nothing is written any more, so nothing was sent either
      have hlonger : s.toClient.written = s.toClient.sent ++ bytes := hall
      obtain ⟨rest, hrest⟩ := (h .toClient).written_initial
      have hrest : s.toClient.written ++ rest = s.toClient.sent := hrest
      rw [← hrest, List.append_assoc, List.self_eq_append_right, List.append_eq_nil_iff] at hlonger
      rw [Delivered, ← hrest, hlonger.1, List.append_nil]
  | close d =>
    cases hstepped
    have hall := hs' (by rw [stopped_setLoop]; exact hstopped)
    cases d <;> exact hall
  | read d n => exact absurd hstopped (by simp [hstepped.1])
  | readEnd d => exact absurd hstopped (by simp [hstepped.1])
  | readError d => exact absurd hstopped (by simp [hstepped.1])
  | write d n => exact absurd hstopped (by simp [hstepped.1])
  | writeError d => exact absurd hstopped (by simp [hstepped.1])

end DirectRelay

/-- In every run, what was written in each direction is the first part of what was sent in it.  A
    client has got everything when the relay is over just if nothing that ended the relay came
    before the delivery, and nothing was sent afterwards. -/
theorem half_close_delivers_iff (bufferSize maxPreparedStatements : Nat)
    (events : List DirectEvent) (s : DirectRelay)
    (hrun : Trace.exec DirectRelay.step (.start bufferSize maxPreparedStatements) events = some s) :
    (∀ d, (s.loop d).written <+: (s.loop d).sent) ∧
    (s.stopped = true →
      ((s.loop .toClient).written = (s.loop .toClient).sent ↔
        Trace.Admits DirectRelay.step DirectRelay.Undisturbed
          (.start bufferSize maxPreparedStatements) events)) := by
  have hstart := DirectRelay.accounted_start bufferSize maxPreparedStatements
  have hs : s.Accounted := Trace.exec_keeps DirectRelay.Accounted.keep hstart hrun
  refine ⟨fun d => (hs d).written_initial, fun hstopped => ?_⟩
  have hlast := Trace.always_iff_last DirectRelay.Accounted.keep DirectRelay.complete_back
    hstart hrun
  have hadmits := Trace.always_iff_admits DirectRelay.Accounted.keep DirectRelay.complete_step
    hstart (DirectRelay.complete_of_running rfl) (by rw [hrun]; rfl)
  rw [← hadmits, hlast]
  exact ⟨fun hd _ => hd, fun hc => hc hstopped⟩

/-- `SELECT 1` as a simple query, and the end of the answer to it. -/
def selectOne : List UInt8 := [81, 0, 0, 0, 13, 83, 69, 76, 69, 67, 84, 32, 49, 0]

def selectOneAnswer : List UInt8 :=
  [67, 0, 0, 0, 13, 83, 69, 76, 69, 67, 84, 32, 49, 0, 90, 0, 0, 0, 5, 73]

/-- The client asks, closes its sending side and waits for the answer. -/
def askAndClose : List DirectEvent :=
  [.send .toBackend selectOne, .close .toBackend, .read .toBackend 14, .write .toBackend 14,
   .send .toClient selectOneAnswer]

/-- The relay reads the answer before it looks at the client again. -/
theorem half_close_answer_first :
    ∃ s, Trace.exec DirectRelay.step (.start 8192 1000)
        (askAndClose ++ [.read .toClient 20, .write .toClient 20, .readEnd .toBackend]) = some s ∧
      s.stopped = true ∧ s.toClient.written = selectOneAnswer ∧
      Trace.Admits DirectRelay.step DirectRelay.Undisturbed (.start 8192 1000)
        (askAndClose ++ [.read .toClient 20, .write .toClient 20, .readEnd .toBackend]) := by
  have hview : ((Trace.exec DirectRelay.step (.start 8192 1000)
        (askAndClose ++ [.read .toClient 20, .write .toClient 20, .readEnd .toBackend])).map
      fun s => (s.stopped, s.toClient.sent, s.toClient.written)) =
        some (true, selectOneAnswer, selectOneAnswer) := by
    decide +kernel
  obtain ⟨s, hrun, hs⟩ := Option.map_eq_some_iff.1 hview
  obtain ⟨hstopped, hs⟩ := Prod.mk.inj hs
  obtain ⟨hsent, hwritten⟩ := Prod.mk.inj hs
  have hiff := (half_close_delivers_iff 8192 1000 _ s hrun).2 hstopped
  exact ⟨s, hrun, hstopped, hwritten, hiff.1 (hwritten.trans hsent.symm)⟩

/-- The relay reads the client's end of file first, and the answer stays with it. -/
theorem half_close_answer_lost :
    ((Trace.exec DirectRelay.step (.start 8192 1000)
        (askAndClose ++ [.readEnd .toBackend, .close .toClient])).map
      fun s => (s.stopped, s.toBackend.written, s.toClient.sent, s.toClient.written)) =
        some (true, selectOne, selectOneAnswer, []) := by
  decide +kernel

end ScryProxy
