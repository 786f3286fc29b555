import ScryProxy.Native.Relay
import ScryProxy.Spec.Pins

/-!
# What the tracker sees of the client's messages

`ConnectionState.observe` is the tracker's part of the relay's message handling
(`handleMessage_connState`).  `holds_observe` says which pins are sure to be held after
a message, in terms of how the tracker reads its text; a Parse needs room for one more
statement, or the oldest one loses its pin.
-/

namespace ScryProxy

namespace ConnectionState

/-- What a frontend message does to the tracked state. -/
def observe (s : ConnectionState) : Message → Rust ConnectionState
  | .query query => s.applyQuery query
  | .parse name query paramOids => s.applyParseState name query paramOids
  | .close kind name => .ok (if kind = 'S' then s.removePreparedStatement name else s)
  | _ => .ok s

/-- The relay tracks every message it forwards by `observe`. -/
theorem handleMessage_connState {cfg : RelayConfig} {r r' : Relay} {i : Nat} {msg : Message}
    {effects : List Effect} (h : Relay.handleMessage cfg r i msg = .ok (r', effects, .forward)) :
    r.connState.observe msg = .ok r'.connState := by
  cases msg with
  | parse name query paramOids =>
    obtain ⟨v, hv, h⟩ := Rust.bind_returns.1 h
    cases v with
    | some error => cases h
    | none =>
      obtain ⟨s, hs, h⟩ := Rust.bind_returns.1 h
      cases h
      exact hs
  | query query =>
    obtain ⟨v, hv, h⟩ := Rust.bind_returns.1 h
    cases v with
    | some error => cases h
    | none =>
      obtain ⟨s, hs, h⟩ := Rust.bind_returns.1 h
      cases h
      exact hs
  | close kind name =>
    by_cases hS : kind = 'S'
    · simp only [Relay.handleMessage, hS, if_true] at h
      cases h
      simp [observe, hS]
    · simp only [Relay.handleMessage, hS, if_false] at h
      split at h <;> cases h <;> simp [observe, hS]
  | bind portal statement formatCodes paramsRaw =>
    obtain ⟨cache, -, h⟩ := Rust.map_returns.1 h
    cases h
    rfl
  | execute portal =>
    simp only [Relay.handleMessage] at h
    cases h
    rfl
  | sync =>
    simp only [Relay.handleMessage] at h
    cases h
    rfl
  | terminate =>
    simp only [Relay.handleMessage, Except.ok.injEq, Prod.mk.injEq] at h
    rw [← h.1]
    rfl

/-! ## Recording a prepared statement -/

theorem addPreparedStatement_of_room {s : ConnectionState} {name : Str}
    (h : name ∈ s.preparedStatements ∨
      s.preparedStatements.entries.length < s.maxPreparedStatements)
    (query : Str) (paramOids : List Nat) :
    (s.addPreparedStatement name query paramOids).preparedStatements =
      s.preparedStatements.insert name (query, paramOids) := by
  unfold addPreparedStatement
  by_cases hmem : name ∈ s.preparedStatements
  · simp [hmem]
  -- below the bound nothing is evicted
  · have hlt := h.resolve_left hmem
    simp [hmem, Lru.evict_of_lt hlt]

/-- Recording a statement pins its name and, when there is room, leaves the other pins alone. -/
theorem holds_addPreparedStatement {s : ConnectionState} {name : Str} {p : Pin}
    (query : Str) (paramOids : List Nat)
    (h : p = .prepared name ∨ (s.Holds p ∧ ((∀ n, p ≠ .prepared n) ∨ name ∈ s.preparedStatements ∨
      s.preparedStatements.entries.length < s.maxPreparedStatements))) :
    (s.addPreparedStatement name query paramOids).Holds p := by
  rcases h with rfl | ⟨hp, hother | hroom⟩
  · exact AList.mem_insert _ |>.2 (.inl rfl)
  · cases p with
    | prepared n => exact absurd rfl (hother n)
    | _ => exact hp
  · cases p with
    | prepared n =>
      show n ∈ (s.addPreparedStatement name query paramOids).preparedStatements
      rw [addPreparedStatement_of_room hroom]
      exact AList.mem_insert _ |>.2 (.inr hp)
    | _ => exact hp

theorem applyClass_maxPreparedStatements (s : ConnectionState) (c : CommandClass) :
    (s.applyClass c).maxPreparedStatements = s.maxPreparedStatements := by
  rcases c with _ | cmd | _
  · rfl
  · rcases cmd with _ | _ | _ | _ | _ | _ | _ | (_ | _) | (_ | _) | _ | _ | _ | _ | (_ | _) | _ <;> rfl
  · rfl

/-- Reading a text never adds a prepared statement. -/
theorem length_applyClass_le (s : ConnectionState) (c : CommandClass) :
    (s.applyClass c).preparedStatements.entries.length ≤ s.preparedStatements.entries.length := by
  rcases c with _ | cmd | _
  · exact le_rfl
  · cases cmd with
    | deallocate name => exact Maps.length_erase_le _ name
    | deallocateAll => exact Nat.zero_le _
    | discardAll => exact Nat.zero_le _
    | advisoryLock key => cases key <;> exact le_rfl
    | advisoryUnlock key => cases key <;> exact le_rfl
    | unlisten channel => cases channel <;> exact le_rfl
    | _ => exact le_rfl
  · exact le_rfl

/-- Room before a text is room after it. -/
theorem room_foldl_applyClass (s : ConnectionState) (cs : List CommandClass)
    (h : s.preparedStatements.entries.length < s.maxPreparedStatements) :
    (cs.foldl applyClass s).preparedStatements.entries.length <
      (cs.foldl applyClass s).maxPreparedStatements := by
  induction cs generalizing s with
  | nil => exact h
  | cons c cs ih =>
    refine ih _ ?_
    have hlen := length_applyClass_le s c
    rw [applyClass_maxPreparedStatements]
    omega

/-! ## Pins after a message -/

/-- A Parse of `name` evicts nothing: the tracker is below its bound, or it has the name and the
    text, read as `cs`, does not drop it. -/
def HasRoom (s : ConnectionState) (name : Str) (cs : List CommandClass) : Prop :=
  s.preparedStatements.entries.length < s.maxPreparedStatements ∨
  (name ∈ s.preparedStatements ∧ ∀ c ∈ cs, ¬ c.drops (.prepared name) = true)

/-- The pin is sure to be held after the message. -/
def Survives (s : ConnectionState) (msg : Message) (p : Pin) : Prop :=
  match msg with
  | .query query => ∀ cs, readQuery query = .ok cs → s.Keeps cs p
  | .parse name query _ => p = .prepared name ∨
      ∀ cs, readQuery query = .ok cs →
        s.Keeps cs p ∧ ((∀ n, p ≠ .prepared n) ∨ s.HasRoom name cs)
  | .close kind name => s.Holds p ∧ ¬ (kind = 'S' ∧ p = .prepared name)
  | _ => s.Holds p

theorem holds_applyParseState {s s' : ConnectionState} {name query : Str} {paramOids : List Nat}
    {p : Pin} (h : s.applyParseState name query paramOids = .ok s')
    (hp : s.Survives (.parse name query paramOids) p) : s'.Holds p := by
  obtain ⟨s₁, hs₁, h⟩ := Rust.bind_returns.1 h
  cases h
  obtain ⟨cs, hread, rfl⟩ := applyQuery_returns hs₁
  refine holds_addPreparedStatement query paramOids ?_
  rcases hp with rfl | hp
  · exact .inl rfl
  · obtain ⟨hkeep, hroom⟩ := hp cs hread
    refine .inr ⟨(holds_foldl_applyClass s cs p).2 hkeep, hroom.imp id ?_⟩
    -- the text is applied first, so the room is what it leaves
    rintro (hlt | ⟨hmem, hdrop⟩)
    · exact .inr (room_foldl_applyClass s cs hlt)
    · exact .inl ((holds_foldl_applyClass s cs (.prepared name)).2 (.inl ⟨hmem, hdrop⟩))

/-- What survives a message is held after it. -/
theorem holds_observe {s s' : ConnectionState} {msg : Message} {p : Pin}
    (h : s.observe msg = .ok s') (hp : s.Survives msg p) : s'.Holds p := by
  cases msg with
  | query query =>
    obtain ⟨cs, hread, rfl⟩ := applyQuery_returns h
    exact (holds_foldl_applyClass s cs p).2 (hp cs hread)
  | parse name query paramOids => exact holds_applyParseState h hp
  | close kind name =>
    cases h
    obtain ⟨hp, hne⟩ := hp
    by_cases hS : kind = 'S'
    · rw [if_pos hS, holds_removePreparedStatement]
      exact ⟨hp, fun hpn => hne ⟨hS, hpn⟩⟩
    · rw [if_neg hS]
      exact hp
  | bind | execute | sync | terminate => cases h; exact hp

end ConnectionState

end ScryProxy
