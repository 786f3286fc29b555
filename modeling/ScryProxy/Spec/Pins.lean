import ScryProxy.ForStd.Facts
import ScryProxy.Native.ConnectionState

/-!
# What pins a connection

`ConnectionState` holds pins: one for each tracked name, key or channel, and one for
an unknown command.  The connection is pinned exactly when some pin is held
(`isPinned_iff`), and each classified statement adds at most one pin and drops a set
of them (`holds_applyClass`).  `holds_foldl_applyClass` says which pins are held after a
whole query text.
-/

namespace ScryProxy

/-- One entry of the tracked state. -/
inductive Pin where
  | prepared (name : Str)
  | sessionVariable (name : Str)
  | tempTable (name : Str)
  | cursor (name : Str)
  | advisoryLock (key : Int)
  | listen (channel : Str)
  | unknownCommand
  deriving DecidableEq, Repr

/-- The pin is held. -/
def ConnectionState.Holds (s : ConnectionState) : Pin → Prop
  | .prepared name => name ∈ s.preparedStatements
  | .sessionVariable name => name ∈ s.sessionVariables
  | .tempTable name => name ∈ s.tempTables
  | .cursor name => name ∈ s.cursors
  | .advisoryLock key => key ∈ s.advisoryLocks
  | .listen channel => channel ∈ s.listenChannels
  | .unknownCommand => s.unknownCommand = true

/-- The pin a classified statement adds. -/
def CommandClass.pin : CommandClass → Option Pin
  | .stateful (.set name _) => some (.sessionVariable name)
  | .stateful (.createTempTable name) => some (.tempTable name)
  | .stateful (.declareCursor name _) => some (.cursor name)
  | .stateful (.advisoryLock (some key)) => some (.advisoryLock key)
  | .stateful (.listen channel) => some (.listen channel)
  | .unknown => some .unknownCommand
  | _ => none

/-- The pins a classified statement drops. -/
def CommandClass.drops : CommandClass → Pin → Bool
  | .stateful .discardAll, _ => true
  | .stateful (.reset name), p => decide (p = .sessionVariable name)
  | .stateful .resetAll, .sessionVariable _ => true
  | .stateful (.dropTable name), p => decide (p = .tempTable name)
  | .stateful (.closeCursor name), p => decide (p = .cursor name)
  | .stateful (.advisoryUnlock (some key)), p => decide (p = .advisoryLock key)
  | .stateful (.deallocate name), p => decide (p = .prepared name)
  | .stateful .deallocateAll, .prepared _ => true
  | .stateful (.unlisten none), .listen _ => true
  | .stateful (.unlisten (some channel)), p => decide (p = .listen channel)
  | _, _ => false

namespace ConnectionState

theorem not_isEmpty_entries {V : Type} (m : AList fun _ : Str => V) :
    (!m.entries.isEmpty) = true ↔ ∃ name, name ∈ m := by
  cases h : m.entries with
  | nil => simp [AList.mem_keys, AList.keys, h]
  | cons e es => exact ⟨fun _ => ⟨e.1, by simp [AList.mem_keys, AList.keys, h]⟩, fun _ => rfl⟩

/-- A connection is pinned exactly when some pin is held. -/
theorem isPinned_iff (s : ConnectionState) : s.isPinned = true ↔ ∃ p, s.Holds p := by
  simp only [isPinned, Bool.or_eq_true, not_isEmpty_entries, decide_eq_true_eq, ne_eq,
    ← Finset.nonempty_iff_ne_empty, Finset.Nonempty, or_assoc]
  constructor
  · rintro (h | ⟨n, h⟩ | ⟨n, h⟩ | ⟨n, h⟩ | ⟨n, h⟩ | ⟨n, h⟩ | ⟨n, h⟩)
    · exact ⟨.unknownCommand, h⟩
    · exact ⟨.prepared n, h⟩
    · exact ⟨.sessionVariable n, h⟩
    · exact ⟨.tempTable n, h⟩
    · exact ⟨.cursor n, h⟩
    · exact ⟨.advisoryLock n, h⟩
    · exact ⟨.listen n, h⟩
  · rintro ⟨p, h⟩
    cases p with
    | prepared n => exact .inr (.inl ⟨n, h⟩)
    | sessionVariable n => exact .inr (.inr (.inl ⟨n, h⟩))
    | tempTable n => exact .inr (.inr (.inr (.inl ⟨n, h⟩)))
    | cursor n => exact .inr (.inr (.inr (.inr (.inl ⟨n, h⟩))))
    | advisoryLock n => exact .inr (.inr (.inr (.inr (.inr (.inl ⟨n, h⟩)))))
    | listen n => exact .inr (.inr (.inr (.inr (.inr (.inr ⟨n, h⟩)))))
    | unknownCommand => exact .inl h

/-! ## Pins under each operation -/

section Operations

variable (s : ConnectionState) (name : Str) (p : Pin)

@[simp] theorem holds_markUnknownCommand :
    s.markUnknownCommand.Holds p ↔ p = .unknownCommand ∨ s.Holds p := by
  cases p <;> simp [Holds, markUnknownCommand]

@[simp] theorem holds_addSessionVariable (value : Str) :
    (s.addSessionVariable name value).Holds p ↔ p = .sessionVariable name ∨ s.Holds p := by
  cases p <;> simp [Holds, addSessionVariable]

@[simp] theorem holds_removeSessionVariable :
    (s.removeSessionVariable name).Holds p ↔ s.Holds p ∧ p ≠ .sessionVariable name := by
  cases p <;> simp [Holds, removeSessionVariable, and_comm]

@[simp] theorem holds_clearSessionVariables :
    s.clearSessionVariables.Holds p ↔ s.Holds p ∧ ∀ x, p ≠ .sessionVariable x := by
  cases p <;> simp [Holds, clearSessionVariables]

@[simp] theorem holds_addTempTable :
    (s.addTempTable name).Holds p ↔ p = .tempTable name ∨ s.Holds p := by
  cases p <;> simp [Holds, addTempTable]

@[simp] theorem holds_removeTempTable :
    (s.removeTempTable name).Holds p ↔ s.Holds p ∧ p ≠ .tempTable name := by
  cases p <;> simp [Holds, removeTempTable, and_comm]

@[simp] theorem holds_addCursor :
    (s.addCursor name).Holds p ↔ p = .cursor name ∨ s.Holds p := by
  cases p <;> simp [Holds, addCursor]

@[simp] theorem holds_removeCursor :
    (s.removeCursor name).Holds p ↔ s.Holds p ∧ p ≠ .cursor name := by
  cases p <;> simp [Holds, removeCursor, and_comm]

@[simp] theorem holds_addAdvisoryLock (key : Int) :
    (s.addAdvisoryLock key).Holds p ↔ p = .advisoryLock key ∨ s.Holds p := by
  cases p <;> simp [Holds, addAdvisoryLock]

@[simp] theorem holds_removeAdvisoryLock (key : Int) :
    (s.removeAdvisoryLock key).Holds p ↔ s.Holds p ∧ p ≠ .advisoryLock key := by
  cases p <;> simp [Holds, removeAdvisoryLock, and_comm]

@[simp] theorem holds_addListenChannel :
    (s.addListenChannel name).Holds p ↔ p = .listen name ∨ s.Holds p := by
  cases p <;> simp [Holds, addListenChannel]

@[simp] theorem holds_removeListenChannel :
    (s.removeListenChannel name).Holds p ↔ s.Holds p ∧ p ≠ .listen name := by
  cases p <;> simp [Holds, removeListenChannel, and_comm]

@[simp] theorem holds_clearListenChannels :
    s.clearListenChannels.Holds p ↔ s.Holds p ∧ ∀ x, p ≠ .listen x := by
  cases p <;> simp [Holds, clearListenChannels]

@[simp] theorem holds_removePreparedStatement :
    (s.removePreparedStatement name).Holds p ↔ s.Holds p ∧ p ≠ .prepared name := by
  cases p <;> simp [Holds, removePreparedStatement, and_comm]

@[simp] theorem holds_clearPreparedStatements :
    s.clearPreparedStatements.Holds p ↔ s.Holds p ∧ ∀ x, p ≠ .prepared x := by
  cases p <;> simp [Holds, clearPreparedStatements]

@[simp] theorem not_holds_clearAll : ¬ s.clearAll.Holds p := by
  cases p <;> simp [Holds, clearAll, new]

end Operations

/-- A classified statement adds its pin and drops the ones it names. -/
theorem holds_applyClass (s : ConnectionState) (c : CommandClass) (p : Pin) :
    (s.applyClass c).Holds p ↔ c.pin = some p ∨ (s.Holds p ∧ ¬ c.drops p = true) := by
  rcases c with _ | cmd | _
  · simp [applyClass, CommandClass.pin, CommandClass.drops]
  · -- a command that clears a whole kind of pins asks for the kind of `p`
    rcases cmd with _ | _ | _ | _ | _ | _ | _ | (_ | _) | (_ | _) | _ | _ | _ | _ | (_ | _) | _ <;>
    simp [applyClass, applyCommand, CommandClass.pin, CommandClass.drops, @eq_comm _ p] <;>
    cases p <;> simp
  · simp [applyClass, CommandClass.pin, CommandClass.drops, @eq_comm _ p]

/-! ## Pins under a query text -/

/-- How the tracker reads a query text: the class of each part it is cut into. -/
def readQuery (query : Str) : Rust (List CommandClass) :=
  match CommandDetector.splitStatements query with
  | [] => (CommandDetector.classify query).map ([·])
  | statements => statements.mapM CommandDetector.classify

/-- Some part of the text adds the pin and no later part drops it. -/
def Leaves (cs : List CommandClass) (p : Pin) : Prop :=
  Facts.Leaves (fun c p => c.pin = some p) (fun c p => c.drops p = true) cs p

theorem foldlM_applySingleStatement (s : ConnectionState) (statements : List Str) :
    statements.foldlM applySingleStatement s =
      (statements.mapM CommandDetector.classify).map (·.foldl applyClass s) := by
  induction statements generalizing s with
  | nil => rfl
  | cons q statements ih =>
    -- a part that panics ends both sides
    rw [List.foldlM_cons, List.mapM_cons, applySingleStatement]
    cases CommandDetector.classify q with
    | error e => rfl
    | ok c =>
      show statements.foldlM applySingleStatement (s.applyClass c) = _
      rw [ih]
      cases statements.mapM CommandDetector.classify <;> rfl

/-- `apply_query` applies the classes of the parts in order. -/
theorem applyQuery_eq (s : ConnectionState) (query : Str) :
    s.applyQuery query = (readQuery query).map (·.foldl applyClass s) := by
  unfold applyQuery readQuery
  cases CommandDetector.splitStatements query with
  | nil =>
    rw [applySingleStatement]
    cases CommandDetector.classify query <;> rfl
  | cons q statements => exact foldlM_applySingleStatement s (q :: statements)

theorem applyQuery_returns {s s' : ConnectionState} {query : Str}
    (h : s.applyQuery query = .ok s') :
    ∃ cs, readQuery query = .ok cs ∧ s' = cs.foldl applyClass s := by
  rw [applyQuery_eq] at h
  cases hread : readQuery query with
  | error e => rw [hread] at h; cases h
  | ok cs =>
    rw [hread] at h
    exact ⟨cs, rfl, (Except.ok.inj h).symm⟩

/-- The pin is held after a text that the tracker reads as `cs`. -/
def Keeps (s : ConnectionState) (cs : List CommandClass) (p : Pin) : Prop :=
  (s.Holds p ∧ ∀ c ∈ cs, ¬ c.drops p = true) ∨ Leaves cs p

/-- The pins held after a text. -/
theorem holds_foldl_applyClass (s : ConnectionState) (cs : List CommandClass) (p : Pin) :
    (cs.foldl applyClass s).Holds p ↔ s.Keeps cs p :=
  Facts.holds_foldl holds_applyClass s cs p

end ConnectionState

end ScryProxy
