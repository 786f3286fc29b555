import ScryProxy.Spec.Pins

/-!
# Texts that the detector does not know

`classify` judges a text as a whole, `apply_query` the parts between its semicolons.  A text
that is unknown as a whole pins the connection if it has no parts, or if some part leaves a
pin (`unknownPins_iff`); its parts can all be clean, or end with one that clears everything.
-/

namespace ScryProxy

open CommandDetector (classify splitStatements)
open ConnectionState (readQuery Leaves)

/-- The connection is pinned after the text was applied to a fresh state. -/
def PinsFresh (maxPreparedStatements : Nat) (sql : Str) : Prop :=
  ∃ s, (ConnectionState.new maxPreparedStatements).applyQuery sql = .ok s ∧ s.isPinned = true

theorem not_holds_new (n : Nat) (p : Pin) : ¬ (ConnectionState.new n).Holds p := by
  cases p <;> simp [ConnectionState.Holds, ConnectionState.new]

/-- A fresh state is pinned by what the parts of the text leave. -/
theorem pinsFresh_iff (n : Nat) (sql : Str) :
    PinsFresh n sql ↔ ∃ cs, readQuery sql = .ok cs ∧ ∃ p, Leaves cs p := by
  have hpinned : ∀ cs : List CommandClass,
      (cs.foldl ConnectionState.applyClass (.new n)).isPinned = true ↔ ∃ p, Leaves cs p := by
    intro cs
    simp only [ConnectionState.isPinned_iff, ConnectionState.holds_foldl_applyClass,
      ConnectionState.Keeps, not_holds_new, false_and, false_or]
  constructor
  · rintro ⟨s, happly, hpin⟩
    obtain ⟨cs, hread, rfl⟩ := ConnectionState.applyQuery_returns happly
    exact ⟨cs, hread, (hpinned cs).1 hpin⟩
  · rintro ⟨cs, hread, hleaves⟩
    refine ⟨_, ?_, (hpinned cs).2 hleaves⟩
    rw [ConnectionState.applyQuery_eq, hread]
    rfl

/-- An unknown text pins a fresh connection exactly when it has no parts, or each part can be
    classified and some part adds a pin that no later part drops. -/
theorem unknownPins_iff (n : Nat) (sql : Str) (hunknown : classify sql = .ok .unknown) :
    PinsFresh n sql ↔ splitStatements sql = [] ∨
      ∃ cs, (splitStatements sql).mapM classify = .ok cs ∧ ∃ p, Leaves cs p := by
  rw [pinsFresh_iff, readQuery]
  cases hparts : splitStatements sql with
  | nil =>
    -- the text itself is applied, and its pin stays
    refine iff_of_true ⟨[.unknown], by rw [hunknown]; rfl, .unknownCommand, ?_⟩ (.inl rfl)
    exact ⟨[], .unknown, [], rfl, rfl, nofun⟩
  | cons part parts => simp

/-- A command that the detector does not know, before a clean one. -/
theorem vacuum_pins : PinsFresh 100 "VACUUM; SELECT 1".toList := by
  refine (unknownPins_iff 100 _ (by decide +kernel)).2 (.inr ⟨[.unknown, .clean], by decide +kernel,
    .unknownCommand, [], .unknown, [.clean], rfl, rfl, ?_⟩)
  simp [CommandClass.drops]

theorem not_pinsFresh {n : Nat} {sql : Str}
    (h : ((ConnectionState.new n).applyQuery sql).toOption.map (·.isPinned) = some false) :
    ¬ PinsFresh n sql := by
  rintro ⟨s, happly, hpin⟩
  rw [happly] at h
  have hfree : s.isPinned = false := Option.some.inj h
  rw [hpin] at hfree
  cases hfree

/-- Unknown as a whole and not pinned: the parts are clean, they unlisten, or the last one reads as
    DISCARD ALL. -/
theorem unknown_unpinned :
    (classify ";SELECT 1".toList = .ok .unknown ∧ ¬ PinsFresh 100 ";SELECT 1".toList) ∧
      (classify "UNLISTEN; SELECT 1".toList = .ok .unknown ∧
        ¬ PinsFresh 100 "UNLISTEN; SELECT 1".toList) ∧
      classify "PREPARE p AS SELECT ';DISCARD ALL'".toList = .ok .unknown ∧
        ¬ PinsFresh 100 "PREPARE p AS SELECT ';DISCARD ALL'".toList := by
  refine ⟨⟨by decide +kernel, not_pinsFresh ?_⟩, ⟨by decide +kernel, not_pinsFresh ?_⟩,
    by decide +kernel, not_pinsFresh ?_⟩
  all_goals decide +kernel

end ScryProxy
