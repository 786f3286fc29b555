import ScryProxy.Spec.PinnedObjects

/-!
# Pins against a transactional session

The tracker applies the effects of a text when it is sent; the backend applies them
when the statement succeeds, takes them back with the transaction, and runs a parsed
text only on Execute.  As long as each object that comes within the session's reach
finds a pin that stands for it, and a message that drops a pin of an object puts the
object out of the session's reach for good, unless another of its pins stays, whatever
the session holds pins the connection (`sessionPinSound_of_admits`).
`reset_rolled_back_unpinned` drops a pin for a RESET that is rolled back.
-/

namespace ScryProxy

open CommandDetector (classify)
open Pg (Session)

/-- The frontend message that the tracker sees. -/
def frontend : Session.Message → Message
  | .query sql _ => .query sql
  | .parse name sql paramOids _ => .parse name sql paramOids
  | .close name => .close 'S' name
  | .execute name _ => .execute name
  | .sync => .sync

/-! ## Pins under a message -/

namespace ConnectionState

/-- A Parse of `name` evicts nothing: the tracker is below its bound, or it has the name and the
    text does not drop it. -/
def RoomFor (s : ConnectionState) (name sql : Str) : Prop :=
  s.preparedStatements.entries.length < s.maxPreparedStatements ∨
  (name ∈ s.preparedStatements ∧ ¬ DropsPin sql (.prepared name))

/-- The message drops the pin: by the words of its text, as the statement it closes, or as one that
    may have to make room. -/
def Loses (s : ConnectionState) : Session.Message → Pin → Prop
  | .query sql _, p => DropsPin sql p
  | .parse name sql _ _, p => p ≠ .prepared name ∧
      (DropsPin sql p ∨ ((∃ n, p = .prepared n) ∧ ¬ s.RoomFor name sql))
  | .close name, p => p = .prepared name
  | .execute _ _, _ | .sync, _ => False

/-- The message leaves the pin, by the words of its text or as the statement it parses. -/
def Gains : Session.Message → Pin → Prop
  | .query sql _, p => LeavesPin sql p
  | .parse name sql _ _, p => p = .prepared name ∨ (LeavesPin sql p ∧ ∀ n, p ≠ .prepared n)
  | .close _, _ | .execute _ _, _ | .sync, _ => False

theorem survives_query {s : ConnectionState} {sql : Str} {p : Pin}
    (h : (s.Holds p ∧ ¬ DropsPin sql p) ∨ LeavesPin sql p) {cs : List CommandClass}
    (hread : readQuery sql = .ok cs) : s.Keeps cs p := by
  rw [readQuery_eq] at hread
  obtain ⟨hdrops, hleaves⟩ := parts_iff hread p
  refine h.imp (fun ⟨hp, hnot⟩ => ⟨hp, fun c hc hdrop => hnot ?_⟩) hleaves.2
  exact hdrops.1 ⟨c, hc, hdrop⟩

/-- A pin that the message leaves, or that was held and is not dropped, is held after it. -/
theorem holds_frontend {s s' : ConnectionState} {msg : Session.Message} {p : Pin}
    (h : s.observe (frontend msg) = .ok s') (hp : (s.Holds p ∧ ¬ s.Loses msg p) ∨ Gains msg p) :
    s'.Holds p := by
  refine holds_observe h ?_
  cases msg with
  | query sql results => exact fun cs hread => survives_query hp hread
  | close name => exact hp.elim (fun ⟨hp, hne⟩ => ⟨hp, fun ⟨_, hname⟩ => hne hname⟩) False.elim
  | execute name result => exact hp.elim And.left False.elim
  | sync => exact hp.elim And.left False.elim
  | parse name sql paramOids fails =>
    by_cases hname : p = .prepared name
    · exact .inl hname
    refine .inr fun cs hread => ?_
    rcases hp with ⟨hp, hkeep⟩ | hname' | ⟨hleft, hother⟩
    · simp only [Loses, not_and, not_or, not_not] at hkeep
      obtain ⟨hdrop, hroom⟩ := hkeep hname
      refine ⟨survives_query (.inl ⟨hp, hdrop⟩) hread, ?_⟩
      by_cases hprepared : ∃ n, p = .prepared n
      · refine .inr ((hroom hprepared).imp id fun ⟨hmem, hnot⟩ => ⟨hmem, fun c hc hdrop => hnot ?_⟩)
        rw [readQuery_eq] at hread
        exact (parts_iff hread _).1.1 ⟨c, hc, hdrop⟩
      · exact .inl (not_exists.1 hprepared)
    · exact absurd hname' hname
    · exact ⟨survives_query (.inr hleft) hread, .inl hother⟩

end ConnectionState

/-! ## Runs of messages -/

/-- Tracker and session under the client's messages. -/
def watchSession (j : ConnectionState × Session) (msg : Session.Message) :
    Option (ConnectionState × Session) :=
  (j.1.observe (frontend msg)).toOption.map fun s => (s, j.2.receive msg)

variable {j : ConnectionState × Session} {msg : Session.Message}

theorem watchSession_eq_some {j' : ConnectionState × Session} (h : watchSession j msg = some j') :
    j.1.observe (frontend msg) = .ok j'.1 ∧ j'.2 = j.2.receive msg := by
  obtain ⟨s, hs, rfl⟩ := Option.map_eq_some_iff.1 h
  refine ⟨?_, rfl⟩
  cases hobs : j.1.observe (frontend msg) with
  | error err => rw [hobs] at hs; cases hs
  | ok s₁ => rw [hobs] at hs; cases hs; rfl

/-- What a message must meet, in the state it finds.  An object counts as within reach while the
    session holds it or could roll back to it. -/
structure PinsByMessage (j : ConnectionState × Session) (msg : Session.Message) : Prop where
  /-- an object that comes within reach is left a pin by the text of a Query, and has one already
      when its statement was parsed before -/
  created : ∀ o, (j.2.receive msg).mayHold o = true → j.2.mayHold o = false →
    match msg with
    | .query sql _ => ∃ p : Pin, p.StandsFor o ∧ LeavesPin sql p
    | .execute _ _ => j.1.Covers o
    | _ => True
  /-- no pin is dropped of an object that stays within reach, unless another one stays -/
  dropped : ∀ o, j.2.mayHold o = true → (j.2.receive msg).mayHold o = true →
    ∀ p : Pin, p.StandsFor o → j.1.Holds p → j.1.Loses msg p →
      ∃ q : Pin, q.StandsFor o ∧ ((j.1.Holds q ∧ ¬ j.1.Loses msg q) ∨ ConnectionState.Gains msg q)

/-- A new object of a message finds a pin. -/
theorem PinsByMessage.gained (h : PinsByMessage j msg) {o : Pg.Obj}
    (ho : (j.2.receive msg).mayHold o = true) (hnew : j.2.mayHold o = false) :
    ∃ p : Pin, p.StandsFor o ∧
      ((j.1.Holds p ∧ ¬ j.1.Loses msg p) ∨ ConnectionState.Gains msg p) := by
  have hcreated := h.created o ho hnew
  have hold {P : Prop} (hmay : j.2.mayHold o = true) : P := by
    rw [hnew] at hmay
    cases hmay
  cases msg with
  | query sql results =>
    obtain ⟨p, hstands, hleft⟩ := hcreated
    exact ⟨p, hstands, .inr hleft⟩
  | execute name result =>
    obtain ⟨p, hstands, hp⟩ := hcreated
    exact ⟨p, hstands, .inl ⟨hp, id⟩⟩
  | parse name sql paramOids fails =>
    rcases Session.mayHold_receive_parse ho with hmay | rfl
    · exact hold hmay
    · exact ⟨.prepared name, rfl, .inr (.inl rfl)⟩
  -- Close and Sync bring nothing within reach
  | close name => exact hold (Session.mayHold_receive_close ho)
  | sync => exact hold (Session.mayHold_receive_sync ho)

theorem covers_receive {j' : ConnectionState × Session}
    (hcov : ∀ o, j.2.mayHold o = true → j.1.Covers o) (hok : PinsByMessage j msg)
    (h : watchSession j msg = some j') : ∀ o, j'.2.mayHold o = true → j'.1.Covers o := by
  obtain ⟨hobs, hworld⟩ := watchSession_eq_some h
  intro o ho
  rw [hworld] at ho
  cases hold : j.2.mayHold o with
  | false =>
    obtain ⟨p, hstands, hp⟩ := hok.gained ho hold
    exact ⟨p, hstands, ConnectionState.holds_frontend hobs hp⟩
  | true =>
    obtain ⟨p, hstands, hp⟩ := hcov o hold
    by_cases hloses : j.1.Loses msg p
    · obtain ⟨q, hstands', hq⟩ := hok.dropped o hold ho p hstands hp hloses
      exact ⟨q, hstands', ConnectionState.holds_frontend hobs hq⟩
    · exact ⟨p, hstands, ConnectionState.holds_frontend hobs (.inl ⟨hp, hloses⟩)⟩

/-- A Query of one part that drops nothing, where its pin stands for what comes within reach. -/
theorem PinsByMessage.of_adds {sql : Str} {results : List Session.Result} {c : CommandClass}
    {p : Pin} (hparts : queryParts sql = [sql]) (hclass : classify sql = .ok c) (hpin : c.pin = some p)
    (hdrops : ∀ q, c.drops q = false)
    (hmade : ∀ o, (j.2.receive (.query sql results)).mayHold o = true → j.2.mayHold o = false →
      p.StandsFor o) : PinsByMessage j (.query sql results) where
  created o ho hnew := ⟨p, hmade o ho hnew, leavesPin_of_pin hparts hclass hpin⟩
  dropped _ _ _ q _ _ hloses := absurd hloses (not_dropsPin hparts hclass (hdrops q))

/-- Whatever the session holds after the messages, the connection is pinned. -/
def SessionPinSound (maxPreparedStatements : Nat) (msgs : List Session.Message) : Prop :=
  ∀ j, Trace.exec watchSession (.new maxPreparedStatements, .start) msgs = some j →
    j.2.objs ≠ [] → j.1.isPinned = true

/-- In a run whose messages find pins for what they make and drop pins only of objects that are gone
    for good, whatever the session holds pins the connection. -/
theorem sessionPinSound_of_admits (maxPreparedStatements : Nat) (msgs : List Session.Message)
    (hadm : Trace.Admits watchSession PinsByMessage (.new maxPreparedStatements, .start) msgs) :
    SessionPinSound maxPreparedStatements msgs := by
  intro j hrun hne
  obtain ⟨o, ho⟩ := List.exists_mem_of_ne_nil _ hne
  have hcov : ∀ o, j.2.mayHold o = true → j.1.Covers o := by
    refine Trace.exec_invariant (fun _ _ _ hinv hok hstep => covers_receive hinv hok hstep) ?_
      hadm hrun
    -- a fresh session holds nothing and has nothing to roll back to
    intro o ho
    simp [Session.mayHold_iff, Session.start] at ho
  exact ConnectionState.isPinned_of_covers (hcov o (Session.mayHold_iff.2 (.inl ho)))

/-- A setting and a channel: both are in force, and the connection is pinned. -/
theorem sessionPinSound_set_listen :
    (Trace.exec watchSession (.new 100, .start)
      [.query "SET work_mem = '64MB'".toList [.done [] (.one 0) true],
        .query "LISTEN jobs".toList [.done [] (.one 0) true]]).map (fun j => j.2.objs) =
      some [.channel "jobs".toList, .setting "work_mem".toList] ∧
    SessionPinSound 100 [.query "SET work_mem = '64MB'".toList [.done [] (.one 0) true],
      .query "LISTEN jobs".toList [.done [] (.one 0) true]] := by
  have hset : classify "SET work_mem = '64MB'".toList =
      .ok (.stateful (.set "work_mem".toList "64MB".toList)) := by decide +kernel
  have hlisten : classify "LISTEN jobs".toList = .ok (.stateful (.listen "jobs".toList)) := by
    decide +kernel
  have hsetting : Pin.StandsFor (.sessionVariable "work_mem".toList)
      (.setting "work_mem".toList) :=
    ⟨"work_mem = '64MB'".toList, .set "work_mem".toList, by decide +kernel,
      List.mem_singleton.2 rfl, (ConnectionState.pin_iff_partPins hset _).1 rfl⟩
  have hchannel : Pin.StandsFor (.listen "jobs".toList) (.channel "jobs".toList) :=
    ⟨"jobs".toList, .listen "jobs".toList, by decide +kernel, List.mem_singleton.2 rfl,
      (ConnectionState.pin_iff_partPins hlisten _).1 rfl⟩
  -- the session after each message; no transaction is open
  have hafter₁ : Session.start.receive (.query "SET work_mem = '64MB'".toList
      [.done [] (.one 0) true]) = { Session.start with objs := [.setting "work_mem".toList] } := by
    decide +kernel
  have hafter₂ : Session.receive { Session.start with objs := [.setting "work_mem".toList] }
      (.query "LISTEN jobs".toList [.done [] (.one 0) true]) =
      { Session.start with objs := [.channel "jobs".toList, .setting "work_mem".toList] } := by
    decide +kernel
  have hreach {objs : List Pg.Obj} {o : Pg.Obj} :
      Session.mayHold { Session.start with objs := objs } o = true ↔ o ∈ objs := by
    simp [Session.mayHold_iff, Session.start]
  refine ⟨by decide +kernel, sessionPinSound_of_admits 100 _ ?_⟩
  refine ⟨.of_adds (by decide +kernel) hset rfl (fun _ => rfl) ?_, fun j₁ h₁ =>
    ⟨.of_adds (by decide +kernel) hlisten rfl (fun _ => rfl) ?_, fun _ _ => trivial⟩⟩
  · intro o ho hnew
    rw [hafter₁, hreach, List.mem_singleton] at ho
    exact ho ▸ hsetting
  · rw [(watchSession_eq_some h₁).2, hafter₁]
    intro o ho hnew
    rw [hafter₂, hreach, List.mem_cons] at ho
    rcases ho with rfl | ho
    · exact hchannel
    · rw [hreach.2 ho] at hnew
      cases hnew

/-- A RESET inside a block that is rolled back: the setting is still in force, and its pin is
    gone. -/
theorem reset_rolled_back_unpinned :
    ¬ SessionPinSound 100 [.query "SET work_mem = '64MB'".toList [.done [] (.one 0) true],
      .query "BEGIN".toList [.done [] (.one 0) true],
      .query "RESET work_mem".toList [.done [] (.one 0) true],
      .query "ROLLBACK".toList [.done [] (.one 0) true]] := by
  have hend : (Trace.exec watchSession (.new 100, .start)
      [.query "SET work_mem = '64MB'".toList [.done [] (.one 0) true],
        .query "BEGIN".toList [.done [] (.one 0) true],
        .query "RESET work_mem".toList [.done [] (.one 0) true],
        .query "ROLLBACK".toList [.done [] (.one 0) true]]).map
          (fun j => (j.2.objs, j.1.isPinned)) =
      some ([.setting "work_mem".toList], false) := by decide +kernel
  exact unpinned_of_run Session.objs hend (by decide)

end ScryProxy
