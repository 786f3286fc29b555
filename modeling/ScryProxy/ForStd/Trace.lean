import Mathlib.Data.List.Basic

/-!
# Runs of a partial state machine

A machine is a function `step : S → E → Option S`; `none` means that the event
cannot happen in that state.  `exec` runs a list of events, `Admits` says that each
event of a run meets a condition on the state it finds, and `exec_invariant` is the
induction rule for runs that do.
-/

namespace Trace

variable {S E : Type}

/-- The state after a list of events, if all of them can happen. -/
def exec (step : S → E → Option S) : S → List E → Option S
  | s, [] => some s
  | s, e :: es => (step s e).bind fun s' => exec step s' es

/-- Every event of the run meets `ok` in the state it finds. -/
def Admits (step : S → E → Option S) (ok : S → E → Prop) : S → List E → Prop
  | _, [] => True
  | s, e :: es => ok s e ∧ ∀ s', step s e = some s' → Admits step ok s' es

/-- `P` holds in every state of the run. -/
def Always (step : S → E → Option S) (P : S → Prop) : S → List E → Prop
  | s, [] => P s
  | s, e :: es => P s ∧ ∀ s', step s e = some s' → Always step P s' es

variable {step : S → E → Option S} {ok : S → E → Prop}

instance Admits.decidable [∀ s e, Decidable (ok s e)] :
    ∀ (s : S) (es : List E), Decidable (Admits step ok s es)
  | _, [] => .isTrue trivial
  | s, e :: es =>
    match hstep : step s e with
    | none => decidable_of_iff (ok s e) (by simp [Admits, hstep])
    | some s' =>
      haveI := Admits.decidable s' es
      decidable_of_iff (ok s e ∧ Admits step ok s' es) (by simp [Admits, hstep])

theorem exec_cons_eq_some {s t : S} {e : E} {es : List E} :
    exec step s (e :: es) = some t ↔ ∃ s', step s e = some s' ∧ exec step s' es = some t :=
  Option.bind_eq_some_iff

theorem exec_append (s : S) (es fs : List E) :
    exec step s (es ++ fs) = (exec step s es).bind fun t => exec step t fs := by
  induction es generalizing s with
  | nil => rfl
  | cons e es ih =>
    rw [List.cons_append, exec, exec, Option.bind_assoc]
    exact congrArg _ (funext ih)

/-- An event that can happen leads to one state only. -/
theorem admits_cons_of_some {s s' : S} {e : E} {es : List E} (hstep : step s e = some s') :
    Admits step ok s (e :: es) ↔ ok s e ∧ Admits step ok s' es := by
  simp [Admits, hstep]

theorem admits_of_forall {p : E → Prop} {es : List E} (h : ∀ e ∈ es, p e) (s : S) :
    Admits step (fun _ => p) s es := by
  induction es generalizing s with
  | nil => trivial
  | cons e es ih =>
    exact ⟨h e List.mem_cons_self, fun s' _ => ih (fun e' he' => h e' (List.mem_cons_of_mem e he')) s'⟩

/-- Two conditions that agree where an invariant holds admit the same runs. -/
theorem admits_congr {Inv : S → Prop} {ok' : S → E → Prop}
    (hkeep : ∀ s e s', Inv s → step s e = some s' → Inv s')
    (hok : ∀ s e, Inv s → (ok s e ↔ ok' s e)) {s : S} {es : List E} (hs : Inv s) :
    Admits step ok s es ↔ Admits step ok' s es := by
  induction es generalizing s with
  | nil => exact Iff.rfl
  | cons e es ih =>
    have hrest : (∀ s', step s e = some s' → Admits step ok s' es) ↔
        ∀ s', step s e = some s' → Admits step ok' s' es :=
      forall_congr' fun s' => imp_congr_right fun hstep => ih (hkeep s e s' hs hstep)
    exact and_congr (hok s e hs) hrest

/-- A run is admitted if each event meets the condition in the state its predecessors lead to. -/
theorem admits_of_take {s : S} {es : List E}
    (h : ∀ n e s', es[n]? = some e → exec step s (es.take n) = some s' → ok s' e) :
    Admits step ok s es := by
  induction es generalizing s with
  | nil => trivial
  | cons e es ih =>
    refine ⟨h 0 e s rfl rfl, fun s' hstep => ih fun n e' t he hrun => ?_⟩
    exact h (n + 1) e' t he (exec_cons_eq_some.2 ⟨s', hstep, hrun⟩)

/-- What holds initially and is kept by every admitted event holds in the state reached. -/
theorem exec_invariant {Inv : S → Prop}
    (keep : ∀ s e s', Inv s → ok s e → step s e = some s' → Inv s')
    {s t : S} {es : List E} (hs : Inv s) (hadm : Admits step ok s es)
    (hrun : exec step s es = some t) : Inv t := by
  induction es generalizing s with
  | nil => exact Option.some.inj hrun ▸ hs
  | cons e es ih =>
    -- the first event keeps the invariant, the rest is a run from there
    obtain ⟨hok, hrest⟩ := hadm
    obtain ⟨s', hstep, hrun⟩ := exec_cons_eq_some.1 hrun
    exact ih (keep s e s' hs hok hstep) (hrest s' hstep) hrun

/-- The rule for runs without a condition on their events. -/
theorem exec_keeps {Inv : S → Prop} (keep : ∀ s e s', Inv s → step s e = some s' → Inv s')
    {s t : S} {es : List E} (hs : Inv s) (hrun : exec step s es = some t) : Inv t := by
  induction es generalizing s with
  | nil => exact Option.some.inj hrun ▸ hs
  | cons e es ih =>
    obtain ⟨s', hstep, hrun⟩ := exec_cons_eq_some.1 hrun
    exact ih (keep s e s' hs hstep) hrun

/-- Where no event raises a measure and the events of `p` lower it, a run has no more of them than
    the measure says. -/
theorem countP_add_le {Inv : S → Prop} {p : E → Bool} {measure : S → Nat}
    (hkeep : ∀ s e s', Inv s → step s e = some s' → Inv s')
    (hlower : ∀ s e s', Inv s → step s e = some s' →
      measure s' + (if p e then 1 else 0) ≤ measure s)
    {s t : S} {es : List E} (hs : Inv s) (hrun : exec step s es = some t) :
    es.countP p + measure t ≤ measure s := by
  induction es generalizing s with
  | nil => exact Nat.le_of_eq (by rw [← Option.some.inj hrun, List.countP_nil, Nat.zero_add])
  | cons e es ih =>
    obtain ⟨s', hstep, hrun⟩ := exec_cons_eq_some.1 hrun
    have hfirst := hlower s e s' hs hstep
    have hrest := ih (hkeep s e s' hs hstep) hrun
    rw [List.countP_cons]
    omega

theorem Always.here {P : S → Prop} {s : S} {es : List E} (h : Always step P s es) : P s := by
  cases es with
  | nil => exact h
  | cons e es => exact h.1

theorem Always.last {P : S → Prop} {s t : S} {es : List E} (h : Always step P s es)
    (hrun : exec step s es = some t) : P t := by
  induction es generalizing s with
  | nil => exact Option.some.inj hrun ▸ h
  | cons e es ih =>
    obtain ⟨s', hstep, hrun⟩ := exec_cons_eq_some.1 hrun
    exact ih (h.2 s' hstep) hrun

/-- A property that no event brings back holds throughout if it holds at the end. -/
theorem always_iff_last {Inv P : S → Prop}
    (hkeep : ∀ s e s', Inv s → step s e = some s' → Inv s')
    (hback : ∀ s e s', Inv s → step s e = some s' → P s' → P s)
    {s t : S} {es : List E} (hs : Inv s) (hrun : exec step s es = some t) :
    Always step P s es ↔ P t := by
  induction es generalizing s with
  | nil => rw [← Option.some.inj hrun]; exact Iff.rfl
  | cons e es ih =>
    obtain ⟨s', hstep, hrun⟩ := exec_cons_eq_some.1 hrun
    have hnext : Always step P s (e :: es) ↔ P s ∧ Always step P s' es := by simp [Always, hstep]
    have hrest := ih (hkeep s e s' hs hstep) hrun
    rw [hnext]
    exact ⟨fun h => hrest.1 h.2, fun h => ⟨hback s e s' hs hstep (hrest.2 h).here, hrest.2 h⟩⟩

/-- What follows from an invariant of the admitted events holds throughout. -/
theorem always_of_admits {Inv P : S → Prop}
    (keep : ∀ s e s', Inv s → ok s e → step s e = some s' → Inv s') (himp : ∀ s, Inv s → P s)
    {s : S} {es : List E} (hs : Inv s) (hadm : Admits step ok s es) : Always step P s es := by
  induction es generalizing s with
  | nil => exact himp s hs
  | cons e es ih =>
    refine ⟨himp s hs, fun s' hstep => ?_⟩
    exact ih (keep s e s' hs hadm.1 hstep) (hadm.2 s' hstep)

/-- The events of an admitted run meet what follows from an invariant of such runs. -/
theorem admits_of_keep {Inv : S → Prop} {ok' : S → E → Prop}
    (keep : ∀ s e s', Inv s → ok s e → step s e = some s' → Inv s')
    (himp : ∀ s e, Inv s → ok' s e) {s : S} {es : List E} (hs : Inv s)
    (hadm : Admits step ok s es) : Admits step ok' s es := by
  induction es generalizing s with
  | nil => trivial
  | cons e es ih =>
    refine ⟨himp s e hs, fun s' hstep => ?_⟩
    exact ih (keep s e s' hs hadm.1 hstep) (hadm.2 s' hstep)

/-- Where an invariant gives `P`, is kept by the events that meet `ok`, and an event that does not
    meet it ends `P`, the runs with `P` throughout are those whose events meet `ok`. -/
theorem always_iff_admits_of_keep {Inv P : S → Prop} (himp : ∀ s, Inv s → P s)
    (hkeep : ∀ s e s', Inv s → ok s e → step s e = some s' → Inv s')
    (hend : ∀ s e s', Inv s → step s e = some s' → P s' → ok s e)
    {s : S} {es : List E} (hs : Inv s) (hrun : (exec step s es).isSome = true) :
    Always step P s es ↔ Admits step ok s es := by
  refine ⟨fun h => ?_, always_of_admits hkeep himp hs⟩
  induction es generalizing s with
  | nil => trivial
  | cons e es ih =>
    obtain ⟨t, hrun⟩ := Option.isSome_iff_exists.1 hrun
    obtain ⟨s₁, hfirst, hrest⟩ := exec_cons_eq_some.1 hrun
    have hlater := h.2 s₁ hfirst
    have hok := hend s e s₁ hs hfirst hlater.here
    rw [admits_cons_of_some hfirst]
    exact ⟨hok, ih (hkeep s e s₁ hs hok hfirst) (by rw [hrest]; rfl) hlater⟩

/-- A property that is kept by just the events that meet `ok` holds throughout just the runs whose
    events meet `ok`. -/
theorem always_iff_admits {Inv P : S → Prop}
    (hkeep : ∀ s e s', Inv s → step s e = some s' → Inv s')
    (hstep : ∀ s e s', Inv s → P s → step s e = some s' → (P s' ↔ ok s e))
    {s : S} {es : List E} (hinv : Inv s) (hs : P s) (hrun : (exec step s es).isSome = true) :
    Always step P s es ↔ Admits step ok s es := by
  have hboth : ∀ s e s', Inv s ∧ P s → ok s e → step s e = some s' → Inv s' ∧ P s' :=
    fun s e s' h hok hfirst => ⟨hkeep s e s' h.1 hfirst, (hstep s e s' h.1 h.2 hfirst).2 hok⟩
  refine always_iff_admits_of_keep ?_ hboth ?_ ⟨hinv, hs⟩ hrun
  · exact fun s h => h.2
  · exact fun s e s' h hfirst hP => (hstep s e s' h.1 h.2 hfirst).1 hP

end Trace
