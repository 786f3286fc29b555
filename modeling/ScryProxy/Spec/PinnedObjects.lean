import ScryProxy.Spec.Pg.Session
import ScryProxy.Spec.TextReading

/-!
# Pins that stand for objects

The tracker names what it pins by a word that it cuts out of a text, the backend names
its objects by its identifier rules.  A pin stands for an object when some spelling of
the statement that makes the object is cut to the word of the pin; objects with such
spellings in common share a pin.

Tracker and objects are driven by the same texts.  `PinsByText` says, by the words of a
text, that an object it makes is left a pin of its own, and that it drops no pin of an
object that outlives it unless another pin of that object stays.  `pinned_of_admits`:
along every run of such texts an object that is left means a pinned connection.
-/

namespace ScryProxy

/-- Some statement that begins with these words makes the object and is read as the pin. -/
def MadeAs (words : String) (p : Pin) (o : Pg.Obj) : Prop :=
  ∃ rest st, Pg.parseSingle (words.toList ++ rest) = some st ∧
    .create o ∈ st.acts (.one 0) true ∧ PartPins (words.toList ++ rest) p

/-- The pin stands for the object.  Names go by how they may be spelled, a lock by its key whatever
    its mode; the pin of an unknown command stands for anything. -/
def Pin.StandsFor : Pin → Pg.Obj → Prop
  | .unknownCommand, _ => True
  | .prepared name, .prepared n => n = name
  | .advisoryLock key, .lock k _ => k = .one key
  | .sessionVariable w, .setting n => MadeAs "SET " (.sessionVariable w) (.setting n)
  | .tempTable w, .tempTable n => MadeAs "CREATE TEMP TABLE " (.tempTable w) (.tempTable n)
  | .cursor w, .cursor n hold => MadeAs "DECLARE " (.cursor w) (.cursor n hold)
  | .listen w, .channel n => MadeAs "LISTEN " (.listen w) (.channel n)
  | _, _ => False

/-- Some pin that is held stands for the object. -/
def ConnectionState.Covers (s : ConnectionState) (o : Pg.Obj) : Prop :=
  ∃ p, p.StandsFor o ∧ s.Holds p

theorem ConnectionState.isPinned_of_covers {s : ConnectionState} {o : Pg.Obj} (h : s.Covers o) :
    s.isPinned = true := by
  obtain ⟨p, -, hp⟩ := h
  exact (isPinned_iff s).2 ⟨p, hp⟩

/-! ## One text -/

/-- What the words of a text must say when it turns the objects `before` into `after`. -/
structure PinsByText (s : ConnectionState) (sql : Str) (before after : List Pg.Obj) : Prop where
  /-- the text leaves a pin that stands for what it makes -/
  created : ∀ o ∈ after, o ∉ before → ∃ p : Pin, p.StandsFor o ∧ LeavesPin sql p
  /-- it drops no pin of an object that outlives it, unless another one stays -/
  dropped : ∀ o ∈ after, o ∈ before → ∀ p : Pin, p.StandsFor o → s.Holds p → DropsPin sql p →
    ∃ q : Pin, q.StandsFor o ∧ ((s.Holds q ∧ ¬ DropsPin sql q) ∨ LeavesPin sql q)

theorem PinsByText.covers {s s' : ConnectionState} {sql : Str} {before after : List Pg.Obj}
    (h : PinsByText s sql before after) (happly : s.applyQuery sql = .ok s')
    (hcov : ∀ o ∈ before, s.Covers o) : ∀ o ∈ after, s'.Covers o := by
  intro o ho
  by_cases hold : o ∈ before
  · obtain ⟨p, hstands, hp⟩ := hcov o hold
    by_cases hdrop : DropsPin sql p
    · obtain ⟨q, hstands', hq⟩ := h.dropped o ho hold p hstands hp hdrop
      exact ⟨q, hstands', (ConnectionState.holds_applyQuery happly q).2 hq⟩
    · exact ⟨p, hstands, (ConnectionState.holds_applyQuery happly p).2 (.inl ⟨hp, hdrop⟩)⟩
  · obtain ⟨p, hstands, hleft⟩ := h.created o ho hold
    exact ⟨p, hstands, (ConnectionState.holds_applyQuery happly p).2 (.inr hleft)⟩

/-! A text that is one part. -/

section

variable {sql : Str} {c : CommandClass} (hparts : queryParts sql = [sql])
  (hclass : CommandDetector.classify sql = .ok c)

include hparts hclass

theorem leavesPin_of_pin {p : Pin} (hpin : c.pin = some p) : LeavesPin sql p := by
  rw [LeavesPin, hparts]
  exact ⟨[], sql, [], rfl, (ConnectionState.pin_iff_partPins hclass p).1 hpin, by simp⟩

theorem not_dropsPin {p : Pin} (hdrops : c.drops p = false) : ¬ DropsPin sql p := by
  rintro ⟨part, hpart, hdrop⟩
  rw [hparts, List.mem_singleton] at hpart
  subst hpart
  rw [← ConnectionState.drops_iff_partDrops hclass p, hdrops] at hdrop
  cases hdrop

variable {s : ConnectionState} {before after : List Pg.Obj}

/-- It drops nothing, and its pin stands for what it makes. -/
theorem PinsByText.of_adds {p : Pin} (hpin : c.pin = some p) (hdrops : ∀ q, c.drops q = false)
    (hmade : ∀ o ∈ after, o ∉ before → p.StandsFor o) : PinsByText s sql before after where
  created o ho hnew := ⟨p, hmade o ho hnew, leavesPin_of_pin hparts hclass hpin⟩
  dropped _ _ _ q _ _ hdrop := absurd hdrop (not_dropsPin hparts hclass (hdrops q))

/-- It makes nothing, and what the pins it drops stand for is gone. -/
theorem PinsByText.of_drops (hsub : after ⊆ before)
    (hgone : ∀ p, c.drops p = true → ∀ o ∈ after, ¬ p.StandsFor o) :
    PinsByText s sql before after where
  created o ho hnew := absurd (hsub ho) hnew
  dropped o ho _ p hstands _ hdrop := by
    cases hdrops : c.drops p with
    | true => exact absurd hstands (hgone p hdrops o ho)
    | false => exact absurd hdrop (not_dropsPin hparts hclass hdrops)

end

/-! ## Runs of texts -/

section

variable {E : Type} (text : E → Str) (act : List Pg.Obj → E → Option (List Pg.Obj))

/-- The tracker sees the texts of the events, the objects the events themselves. -/
def watchTexts (j : ConnectionState × List Pg.Obj) (e : E) :
    Option (ConnectionState × List Pg.Obj) := do
  let s ← (j.1.applyQuery (text e)).toOption
  let objs ← act j.2 e
  return (s, objs)

/-- The words of the event's text say what they must, in the state it finds. -/
def TellsPins (j : ConnectionState × List Pg.Obj) (e : E) : Prop :=
  ∀ objs, act j.2 e = some objs → PinsByText j.1 (text e) j.2 objs

variable {text act}

theorem watchTexts_eq_some {j j' : ConnectionState × List Pg.Obj} {e : E}
    (h : watchTexts text act j e = some j') :
    j.1.applyQuery (text e) = .ok j'.1 ∧ act j.2 e = some j'.2 := by
  obtain ⟨s, hs, h⟩ := Option.bind_eq_some_iff.1 h
  obtain ⟨objs, hobjs, h⟩ := Option.bind_eq_some_iff.1 h
  cases h
  refine ⟨?_, hobjs⟩
  cases happly : j.1.applyQuery (text e) with
  | error err => rw [happly] at hs; cases hs
  | ok s₁ => rw [happly] at hs; cases hs; rfl

theorem covers_step {j j' : ConnectionState × List Pg.Obj} {e : E} (hcov : ∀ o ∈ j.2, j.1.Covers o)
    (hok : TellsPins text act j e) (h : watchTexts text act j e = some j') :
    ∀ o ∈ j'.2, j'.1.Covers o := by
  obtain ⟨happly, hact⟩ := watchTexts_eq_some h
  exact (hok j'.2 hact).covers happly hcov

/-- Along a run of texts that tell their pins, an object that is left means a pinned connection. -/
theorem pinned_of_admits {maxPreparedStatements : Nat} {es : List E}
    {j : ConnectionState × List Pg.Obj}
    (hadm : Trace.Admits (watchTexts text act) (TellsPins text act)
      (.new maxPreparedStatements, []) es)
    (hrun : Trace.exec (watchTexts text act) (.new maxPreparedStatements, []) es = some j)
    (hne : j.2 ≠ []) : j.1.isPinned = true := by
  obtain ⟨o, ho⟩ := List.exists_mem_of_ne_nil _ hne
  have hcov : ∀ o ∈ j.2, j.1.Covers o := by
    refine Trace.exec_invariant (fun _ _ _ hinv hok hstep => covers_step hinv hok hstep) ?_ hadm hrun
    intro o ho
    cases ho
  exact ConnectionState.isPinned_of_covers (hcov o ho)

/-- A run that leaves objects on an unpinned connection refutes pin soundness. -/
theorem unpinned_of_run {W X : Type} {run : Option (ConnectionState × W)} (objs : W → List X)
    {left : List X} (h : run.map (fun j => (objs j.2, j.1.isPinned)) = some (left, false))
    (hleft : left ≠ []) : ¬ ∀ j, run = some j → objs j.2 ≠ [] → j.1.isPinned = true := by
  intro hsound
  obtain ⟨j, hrun, hj⟩ := Option.map_eq_some_iff.1 h
  obtain ⟨hobjs, hpin⟩ := Prod.mk.inj hj
  have hpinned := hsound j hrun (by rw [hobjs]; exact hleft)
  rw [hpin] at hpinned
  cases hpinned

end

end ScryProxy
