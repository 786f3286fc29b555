import Mathlib.Data.List.Basic
import Mathlib.Tactic.Tauto

/-!
# Facts under a list of commands

A state holds facts; a command adds some and drops some.  After a list of commands
a fact holds exactly when it was there and nothing dropped it, or some command added
it and no later one dropped it (`holds_foldl`).
-/

namespace Facts

variable {S C P : Type}

/-- Some command of the list adds `p`, and none after it drops `p`. -/
def Leaves (adds drops : C → P → Prop) (cs : List C) (p : P) : Prop :=
  ∃ before c after, cs = before ++ c :: after ∧ adds c p ∧ ∀ c' ∈ after, ¬ drops c' p

variable {apply : S → C → S} {holds : S → P → Prop} {adds drops : C → P → Prop}

theorem leaves_nil (p : P) : ¬ Leaves adds drops [] p := by
  rintro ⟨before, c, after, h, -⟩
  cases before <;> cases h

theorem leaves_cons (c : C) (cs : List C) (p : P) :
    Leaves adds drops (c :: cs) p ↔
      Leaves adds drops cs p ∨ (adds c p ∧ ∀ c' ∈ cs, ¬ drops c' p) := by
  constructor
  · rintro ⟨before, d, after, h, hadd, hkeep⟩
    cases before with
    | nil =>
      obtain ⟨rfl, rfl⟩ := List.cons.inj h
      exact .inr ⟨hadd, hkeep⟩
    | cons b before =>
      obtain ⟨rfl, rfl⟩ := List.cons.inj h
      exact .inl ⟨before, d, after, rfl, hadd, hkeep⟩
  · rintro (⟨before, d, after, rfl, hadd, hkeep⟩ | ⟨hadd, hkeep⟩)
    · exact ⟨c :: before, d, after, rfl, hadd, hkeep⟩
    · exact ⟨[], c, cs, rfl, hadd, hkeep⟩

/-- The facts after a list of commands. -/
theorem holds_foldl
    (h : ∀ s c p, holds (apply s c) p ↔ adds c p ∨ (holds s p ∧ ¬ drops c p))
    (s : S) (cs : List C) (p : P) :
    holds (cs.foldl apply s) p ↔
      (holds s p ∧ ∀ c ∈ cs, ¬ drops c p) ∨ Leaves adds drops cs p := by
  induction cs generalizing s with
  | nil => simp [leaves_nil]
  | cons c cs ih =>
    rw [List.foldl_cons, ih, h, leaves_cons, List.forall_mem_cons]
    tauto

end Facts
