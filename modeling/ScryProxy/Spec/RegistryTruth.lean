import Mathlib.Logic.Function.Basic
import ScryProxy.ForStd.Trace
import ScryProxy.Native.ClientRegistry

/-!
# Who is in the client registry

The accept loop, the connection tasks and the `KILL` commands over one registry, in every
order of their locked sections.  The accept loop spawns a task and then stores its abort
handle; the task may by then have registered its client, or even have ended through its drop
guard.

## Key results

- `RegistryRun.Sound.keep`: a handle that is missing has been used, or its task is over
- `registry_truthful`: empty maps at the end, and no kill that misses its task
-/

namespace ScryProxy

/-- Where a connection task is; `leaving` is between the two locks of its drop guard. -/
inductive TaskPhase where
  | starting
  | registered
  | leaving
  | ended
  deriving DecidableEq, Repr

inductive KillPhase where
  | aborting
  | removing
  | returned
  deriving DecidableEq, Repr

/-- A `kill_by_database` call: the connections it found, and its next section. -/
structure KillCall where
  matched : List Nat
  phase : KillPhase
  deriving DecidableEq, Repr

/-- The registry and those who use it.  Connections are numbered as they are accepted. -/
structure RegistryRun where
  registry : ClientRegistry
  spawned : Nat
  /-- the accept loop has spawned this task and not yet stored its handle -/
  storing : Option Nat
  phase : Nat → TaskPhase
  /-- tasks whose handle was told to abort -/
  aborted : List Nat
  kills : List KillCall

inductive RegistryEvent where
  | spawn
  | store
  | register (id : Nat) (database : Str)
  /-- the drop guard removes the entry -/
  | leave (id : Nat)
  /-- the drop guard removes the handle -/
  | finish (id : Nat)
  | kill (database : Str)
  | killAbort (call : Nat)
  | killRemove (call : Nat)
  deriving DecidableEq, Repr

namespace RegistryRun

def start : RegistryRun := ⟨.new, 0, none, fun _ => .starting, [], []⟩

/-- One locked section; `none` if its party is not there. -/
def step (s : RegistryRun) : RegistryEvent → Option RegistryRun
  | .spawn =>
    match s.storing with
    | none => some { s with spawned := s.spawned + 1, storing := some s.spawned }
    | some _ => none
  | .store =>
    match s.storing with
    | none => none
    | some id =>
      some { s with registry := s.registry.registerAbortHandle id ⟨id⟩, storing := none }
  | .register id database =>
    if id < s.spawned ∧ s.phase id = .starting then
      some { s with
        registry := s.registry.register ⟨id, database⟩
        phase := Function.update s.phase id .registered }
    else none
  | .leave id =>
    if id < s.spawned ∧ (s.phase id = .starting ∨ s.phase id = .registered) then
      some { s with
        registry := s.registry.deregisterEntry id
        phase := Function.update s.phase id .leaving }
    else none
  | .finish id =>
    if s.phase id = .leaving then
      some { s with
        registry := s.registry.deregisterHandle id
        phase := Function.update s.phase id .ended }
    else none
  | .kill database =>
    -- with nothing matched the call returns at once
    let matched := s.registry.matched database
    some { s with kills := s.kills ++ [⟨matched, if matched.isEmpty then .returned else .aborting⟩] }
  | .killAbort call =>
    match s.kills[call]? with
    | some ⟨matched, .aborting⟩ =>
      let result := ClientRegistry.abortMatched matched s.registry
      some { s with
        registry := result.2
        aborted := result.1.map AbortHandle.task ++ s.aborted
        kills := s.kills.set call ⟨matched, .removing⟩ }
    | _ => none
  | .killRemove call =>
    match s.kills[call]? with
    | some ⟨matched, .removing⟩ =>
      some { s with
        registry := s.registry.removeMatched matched
        kills := s.kills.set call ⟨matched, .returned⟩ }
    | _ => none

/-- All spawn calls have returned and all tasks have ended. -/
def Quiet (s : RegistryRun) : Prop := s.storing = none ∧ ∀ id < s.spawned, s.phase id = .ended

/-- The task has ended, or its handle was told to abort. -/
def Stopped (s : RegistryRun) (id : Nat) : Prop := id ∈ s.aborted ∨ s.phase id = .ended

/-! ## One section -/

/-- What each event finds and leaves behind. -/
inductive Moves (s : RegistryRun) : RegistryEvent → RegistryRun → Prop
  | spawn (hidle : s.storing = none) :
    Moves s .spawn { s with spawned := s.spawned + 1, storing := some s.spawned }
  | store {id : Nat} (hstoring : s.storing = some id) :
    Moves s .store
      { s with registry := s.registry.registerAbortHandle id ⟨id⟩, storing := none }
  | register {id : Nat} (database : Str) (hlt : id < s.spawned) (hphase : s.phase id = .starting) :
    Moves s (.register id database) { s with
      registry := s.registry.register ⟨id, database⟩
      phase := Function.update s.phase id .registered }
  | leave {id : Nat} (hlt : id < s.spawned)
    (hphase : s.phase id = .starting ∨ s.phase id = .registered) :
    Moves s (.leave id) { s with
      registry := s.registry.deregisterEntry id
      phase := Function.update s.phase id .leaving }
  | finish {id : Nat} (hphase : s.phase id = .leaving) :
    Moves s (.finish id) { s with
      registry := s.registry.deregisterHandle id
      phase := Function.update s.phase id .ended }
  | kill (database : Str) :
    Moves s (.kill database) { s with
      kills := s.kills ++ [⟨s.registry.matched database,
        if (s.registry.matched database).isEmpty then .returned else .aborting⟩] }
  | killAbort {call : Nat} {matched : List Nat}
    (hcall : s.kills[call]? = some ⟨matched, .aborting⟩) :
    Moves s (.killAbort call) { s with
      registry := (ClientRegistry.abortMatched matched s.registry).2
      aborted := (ClientRegistry.abortMatched matched s.registry).1.map AbortHandle.task ++
        s.aborted
      kills := s.kills.set call ⟨matched, .removing⟩ }
  | killRemove {call : Nat} {matched : List Nat}
    (hcall : s.kills[call]? = some ⟨matched, .removing⟩) :
    Moves s (.killRemove call) { s with
      registry := s.registry.removeMatched matched
      kills := s.kills.set call ⟨matched, .returned⟩ }

theorem step_cases {s s' : RegistryRun} {e : RegistryEvent} (hstep : s.step e = some s') :
    Moves s e s' := by
  cases e with
  | kill database => cases hstep; exact .kill database
  | spawn =>
    simp only [step] at hstep
    split at hstep
    · next hidle => cases hstep; exact .spawn hidle
    · cases hstep
  | store =>
    simp only [step] at hstep
    split at hstep
    · cases hstep
    · next id hstoring => cases hstep; exact .store hstoring
  | register id database =>
    simp only [step] at hstep
    split at hstep
    · next hok => cases hstep; exact .register database hok.1 hok.2
    · cases hstep
  | leave id =>
    simp only [step] at hstep
    split at hstep
    · next hok => cases hstep; exact .leave hok.1 hok.2
    · cases hstep
  | finish id =>
    simp only [step] at hstep
    split at hstep
    · next hphase => cases hstep; exact .finish hphase
    · cases hstep
  | killAbort call =>
    simp only [step] at hstep
    split at hstep
    · next matched hcall => cases hstep; exact .killAbort hcall
    · cases hstep
  | killRemove call =>
    simp only [step] at hstep
    split at hstep
    · next matched hcall => cases hstep; exact .killRemove hcall
    · cases hstep


/-- The maps and the tasks. -/
structure Sound (s : RegistryRun) : Prop where
  entries : ∀ id entry, s.registry.inner.lookup id = some entry →
    entry.connId = id ∧ id < s.spawned ∧ s.phase id = .registered
  handles : ∀ id handle, s.registry.abortHandles.lookup id = some handle →
    handle.task = id ∧ id < s.spawned ∧ s.storing ≠ some id
  storing : ∀ id, s.storing = some id → id < s.spawned
  /-- a stored handle disappears only by its use or with its task -/
  missing : ∀ id < s.spawned, s.storing ≠ some id →
    s.registry.abortHandles.lookup id = none → s.Stopped id
  matched : ∀ call ∈ s.kills, ∀ id ∈ call.matched, id < s.spawned

theorem Sound.start : Sound start where
  entries id entry h := by simp [RegistryRun.start, ClientRegistry.new] at h
  handles id handle h := by simp [RegistryRun.start, ClientRegistry.new] at h
  storing id h := by cases h
  missing id h := by cases h
  matched call h := by cases h

variable {s s' : RegistryRun} {id : Nat}

theorem Sound.spawn (h : Sound s) (hidle : s.storing = none) :
    Sound { s with spawned := s.spawned + 1, storing := some s.spawned } where
  entries a entry ha := by
    obtain ⟨hid, hlt, hphase⟩ := h.entries a entry ha
    exact ⟨hid, Nat.lt_succ_of_lt hlt, hphase⟩
  handles a handle ha := by
    obtain ⟨htask, hlt, -⟩ := h.handles a handle ha
    refine ⟨htask, Nat.lt_succ_of_lt hlt, fun heq => ?_⟩
    exact Nat.ne_of_gt hlt (Option.some.inj heq)
  storing a ha := by
    cases ha
    exact Nat.lt_succ_self _
  missing a hlt hstoring hnone := by
    have hne : a ≠ s.spawned := fun heq => hstoring (heq ▸ rfl)
    exact h.missing a (Nat.lt_of_le_of_ne (Nat.le_of_lt_succ hlt) hne) (by simp [hidle]) hnone
  matched call hcall a ha := Nat.lt_succ_of_lt (h.matched call hcall a ha)

theorem Sound.store (h : Sound s) (hstoring : s.storing = some id) :
    Sound { s with registry := s.registry.registerAbortHandle id ⟨id⟩, storing := none } where
  entries a entry ha := h.entries a entry ha
  handles a handle ha := by
    simp only [ClientRegistry.registerAbortHandle] at ha
    by_cases heq : a = id
    · subst heq
      rw [AList.lookup_insert] at ha
      cases ha
      exact ⟨rfl, h.storing a hstoring, by simp⟩
    · rw [AList.lookup_insert_ne heq] at ha
      obtain ⟨htask, hlt, -⟩ := h.handles a handle ha
      exact ⟨htask, hlt, by simp⟩
  storing a ha := by cases ha
  missing a hlt _ hnone := by
    simp only [ClientRegistry.registerAbortHandle] at hnone
    by_cases heq : a = id
    · subst heq
      rw [AList.lookup_insert] at hnone
      cases hnone
    · rw [AList.lookup_insert_ne heq] at hnone
      exact h.missing a hlt (by simpa [hstoring] using fun heq' => heq heq'.symm) hnone
  matched := h.matched

/-- Ended tasks stay ended while another task, or an earlier phase, moves on. -/
theorem Stopped.update {a : Nat} {phase : TaskPhase} {registry : ClientRegistry}
    (h : s.Stopped a) (hid : s.phase id ≠ .ended) :
    Stopped { s with registry, phase := Function.update s.phase id phase } a := by
  rcases h with h | h
  · exact .inl h
  · have hne : a ≠ id := fun heq => hid (heq ▸ h)
    exact .inr (by simpa [Function.update_of_ne hne] using h)

theorem Sound.register (h : Sound s) (hlt : id < s.spawned) (hphase : s.phase id = .starting)
    (database : Str) : Sound { s with
      registry := s.registry.register ⟨id, database⟩
      phase := Function.update s.phase id .registered } where
  entries a entry ha := by
    simp only [ClientRegistry.register] at ha ⊢
    by_cases heq : a = id
    · subst heq
      rw [AList.lookup_insert] at ha
      cases ha
      exact ⟨rfl, hlt, Function.update_self ..⟩
    · rw [AList.lookup_insert_ne heq] at ha
      rw [Function.update_of_ne heq]
      exact h.entries a entry ha
  handles := h.handles
  storing := h.storing
  missing a ha hstoring hnone := (h.missing a ha hstoring hnone).update (by simp [hphase])
  matched := h.matched

theorem Sound.leave (h : Sound s) (hphase : s.phase id ≠ .ended) :
    Sound { s with
      registry := s.registry.deregisterEntry id
      phase := Function.update s.phase id .leaving } where
  entries a entry ha := by
    simp only [ClientRegistry.deregisterEntry] at ha ⊢
    by_cases heq : a = id
    · subst heq
      rw [AList.lookup_erase] at ha
      cases ha
    · rw [AList.lookup_erase_ne heq] at ha
      rw [Function.update_of_ne heq]
      exact h.entries a entry ha
  handles := h.handles
  storing := h.storing
  missing a ha hstoring hnone := (h.missing a ha hstoring hnone).update hphase
  matched := h.matched

theorem Sound.finish (h : Sound s) (hphase : s.phase id = .leaving) :
    Sound { s with
      registry := s.registry.deregisterHandle id
      phase := Function.update s.phase id .ended } where
  entries a entry ha := by
    obtain ⟨hid, hlt, hreg⟩ := h.entries a entry ha
    have hne : a ≠ id := fun heq => by simp [heq ▸ hphase] at hreg
    exact ⟨hid, hlt, by simpa [Function.update_of_ne hne] using hreg⟩
  handles a handle ha := by
    simp only [ClientRegistry.deregisterHandle] at ha
    by_cases heq : a = id
    · subst heq
      rw [AList.lookup_erase] at ha
      cases ha
    · rw [AList.lookup_erase_ne heq] at ha
      exact h.handles a handle ha
  storing := h.storing
  missing a ha hstoring hnone := by
    by_cases heq : a = id
    · subst heq
      exact .inr (Function.update_self ..)
    · simp only [ClientRegistry.deregisterHandle, AList.lookup_erase_ne heq] at hnone
      exact (h.missing a ha hstoring hnone).update (by simp [hphase])
  matched := h.matched

theorem Sound.kill (h : Sound s) (database : Str) (phase : KillPhase) :
    Sound { s with kills := s.kills ++ [⟨s.registry.matched database, phase⟩] } where
  entries := h.entries
  handles := h.handles
  storing := h.storing
  missing := h.missing
  matched call hcall a ha := by
    rcases List.mem_append.1 hcall with hcall | hcall
    · exact h.matched call hcall a ha
    · rw [List.mem_singleton.1 hcall] at ha
      obtain ⟨key, entry, hlookup, rfl⟩ := ClientRegistry.mem_matched ha
      obtain ⟨hid, hlt, -⟩ := h.entries key entry hlookup
      exact hid ▸ hlt

/-- A call's connections do not change from section to section. -/
theorem Sound.matched_set (h : Sound s) {call : Nat} {matched : List Nat} {phase phase' : KillPhase}
    (hcall : s.kills[call]? = some ⟨matched, phase⟩) :
    ∀ c ∈ s.kills.set call ⟨matched, phase'⟩, ∀ id ∈ c.matched, id < s.spawned := by
  intro c hc
  rcases List.mem_or_eq_of_mem_set hc with hc | rfl
  · exact h.matched c hc
  · exact h.matched ⟨matched, phase⟩ (List.mem_of_getElem? hcall)

theorem Sound.killAbort (h : Sound s) {call : Nat} {matched : List Nat}
    (hcall : s.kills[call]? = some ⟨matched, .aborting⟩) :
    Sound { s with
      registry := (ClientRegistry.abortMatched matched s.registry).2
      aborted := (ClientRegistry.abortMatched matched s.registry).1.map AbortHandle.task ++
        s.aborted
      kills := s.kills.set call ⟨matched, .removing⟩ } where
  entries a entry ha := h.entries a entry (by simpa using ha)
  handles a handle ha := by
    simp only [ClientRegistry.lookup_abortMatched] at ha
    split at ha
    · cases ha
    · exact h.handles a handle ha
  storing := h.storing
  missing a ha hstoring hnone := by
    simp only [ClientRegistry.lookup_abortMatched] at hnone
    cases hlookup : s.registry.abortHandles.lookup a with
    | none =>
      rcases h.missing a ha hstoring hlookup with habort | hended
      · exact .inl (List.mem_append_right _ habort)
      · exact .inr hended
    | some handle =>
      -- the handle was there before the section, so it was used in it
      have hmem : a ∈ matched := by
        by_contra hnot
        rw [if_neg hnot, hlookup] at hnone
        cases hnone
      have htask := (h.handles a handle hlookup).1
      refine .inl (List.mem_append_left _ (List.mem_map.2 ⟨handle, ?_, htask⟩))
      exact ClientRegistry.mem_abortMatched hmem hlookup
  matched := h.matched_set hcall

theorem Sound.killRemove (h : Sound s) {call : Nat} {matched : List Nat}
    (hcall : s.kills[call]? = some ⟨matched, .removing⟩) :
    Sound { s with
      registry := s.registry.removeMatched matched
      kills := s.kills.set call ⟨matched, .returned⟩ } where
  entries a entry ha := h.entries a entry (ClientRegistry.lookup_removeMatched ha)
  handles := h.handles
  storing := h.storing
  missing := h.missing
  matched := h.matched_set hcall

theorem Sound.keep {e : RegistryEvent} (h : Sound s) (hstep : s.step e = some s') : Sound s' := by
  cases step_cases hstep with
  | spawn hidle => exact h.spawn hidle
  | store hstoring => exact h.store hstoring
  | register database hlt hphase => exact h.register hlt hphase database
  | leave hlt hphase =>
    exact h.leave (by rcases hphase with hphase | hphase <;> simp [hphase])
  | finish hphase => exact h.finish hphase
  | kill database => exact h.kill database _
  | killAbort hcall => exact h.killAbort hcall
  | killRemove hcall => exact h.killRemove hcall

/-! ## Handles in time -/

/-- Abort handles come in time: a handle is stored before its task has ended, and before a kill that
    has found the task's entry looks for it, unless the task has ended by then. -/
def Timely (s : RegistryRun) : RegistryEvent → Prop
  | .store => ∀ id ∈ s.storing, s.phase id ≠ .ended
  | .killAbort call => ∀ k ∈ s.kills[call]?, ∀ id ∈ k.matched,
      s.storing = some id → s.phase id = .ended
  | _ => True

instance (s : RegistryRun) : ∀ e, Decidable (Timely s e)
  | .store => inferInstanceAs (Decidable (∀ id ∈ s.storing, s.phase id ≠ .ended))
  | .killAbort call => inferInstanceAs (Decidable (∀ k ∈ s.kills[call]?, ∀ id ∈ k.matched,
      s.storing = some id → s.phase id = .ended))
  | .spawn | .register _ _ | .leave _ | .finish _ | .kill _ | .killRemove _ =>
    inferInstanceAs (Decidable True)

/-- What the handles then guarantee: none outlives its task, and a kill that is past its second
    section has stopped the tasks it found. -/
structure Reached (s : RegistryRun) : Prop where
  sound : Sound s
  alive : ∀ id handle, s.registry.abortHandles.lookup id = some handle → s.phase id ≠ .ended
  stopped : ∀ k ∈ s.kills, k.phase ≠ .aborting → ∀ id ∈ k.matched, s.Stopped id

theorem Reached.start : Reached start where
  sound := Sound.start
  alive id handle h := by simp [RegistryRun.start, ClientRegistry.new] at h
  stopped k h := by cases h

/-- A task moves on and stays alive, with no handle touched. -/
theorem Reached.advance {registry : ClientRegistry} {phase : TaskPhase} (h : Reached s)
    (hid : s.phase id ≠ .ended) (hphase : phase ≠ .ended)
    (hhandles : registry.abortHandles = s.registry.abortHandles)
    (hsound : Sound { s with registry, phase := Function.update s.phase id phase }) :
    Reached { s with registry, phase := Function.update s.phase id phase } where
  sound := hsound
  alive a handle ha := by
    by_cases heq : a = id
    · subst heq
      simpa using hphase
    · rw [hhandles] at ha
      simpa [Function.update_of_ne heq] using h.alive a handle ha
  stopped k hk hpast a ha := (h.stopped k hk hpast a ha).update hid

theorem Reached.keep {e : RegistryEvent} (h : Reached s) (htimely : Timely s e)
    (hstep : s.step e = some s') : Reached s' := by
  have hsound := h.sound.keep hstep
  cases step_cases hstep with
  | spawn hidle => exact ⟨hsound, h.alive, h.stopped⟩
  | @store id hstoring =>
    refine ⟨hsound, fun a handle ha => ?_, h.stopped⟩
    simp only [ClientRegistry.registerAbortHandle] at ha
    by_cases heq : a = id
    · exact htimely a (heq ▸ hstoring)
    · rw [AList.lookup_insert_ne heq] at ha
      exact h.alive a handle ha
  | register database hlt hphase => exact h.advance (by simp [hphase]) (by simp) rfl hsound
  | leave hlt hphase =>
    exact h.advance (by rcases hphase with hphase | hphase <;> simp [hphase]) (by simp) rfl hsound
  | @finish id hleaving =>
    refine ⟨hsound, fun a handle ha => ?_, fun k hk hpast a ha =>
      (h.stopped k hk hpast a ha).update (by simp [hleaving])⟩
    simp only [ClientRegistry.deregisterHandle] at ha
    by_cases heq : a = id
    · subst heq
      rw [AList.lookup_erase] at ha
      cases ha
    · rw [AList.lookup_erase_ne heq] at ha
      simpa [Function.update_of_ne heq] using h.alive a handle ha
  | kill database =>
    refine ⟨hsound, h.alive, fun k hk hpast a ha => ?_⟩
    rcases List.mem_append.1 hk with hk | hk
    · exact h.stopped k hk hpast a ha
    · -- the call returns at once only if it found nothing
      rw [List.mem_singleton.1 hk] at hpast ha
      cases hmatched : s.registry.matched database with
      | nil => rw [hmatched] at ha; cases ha
      | cons b bs => rw [hmatched] at hpast; exact absurd rfl hpast
  | @killAbort call matched hcall =>
    refine ⟨hsound, fun a handle ha => ?_, fun k hk hpast a ha => ?_⟩
    · simp only [ClientRegistry.lookup_abortMatched] at ha
      split at ha
      · cases ha
      · exact h.alive a handle ha
    · rcases List.mem_or_eq_of_mem_set hk with hk | rfl
      · rcases h.stopped k hk hpast a ha with habort | hended
        · exact .inl (List.mem_append_right _ habort)
        · exact .inr hended
      · have hlt := hsound.matched _ hk a ha
        by_cases hstoring : s.storing = some a
        · exact .inr (htimely _ hcall a ha hstoring)
        · refine hsound.missing a hlt hstoring ?_
          simp [ClientRegistry.lookup_abortMatched, ha]
  | killRemove hcall =>
    refine ⟨hsound, h.alive, fun k hk hpast a ha => ?_⟩
    rcases List.mem_or_eq_of_mem_set hk with hk | rfl
    · exact h.stopped k hk hpast a ha
    · exact h.stopped _ (List.mem_of_getElem? hcall) (by simp) a ha

/-- No entry outlives its task. -/
theorem Sound.inner_empty (h : Sound s) (hquiet : s.Quiet) (id : Nat) :
    s.registry.inner.lookup id = none := by
  cases hlookup : s.registry.inner.lookup id with
  | none => rfl
  | some entry =>
    obtain ⟨-, hlt, hphase⟩ := h.entries id entry hlookup
    rw [hquiet.2 id hlt] at hphase
    cases hphase

theorem Reached.handles_empty (h : Reached s) (hquiet : s.Quiet) (id : Nat) :
    s.registry.abortHandles.lookup id = none := by
  cases hlookup : s.registry.abortHandles.lookup id with
  | none => rfl
  | some handle =>
    obtain ⟨-, hlt, -⟩ := h.sound.handles id handle hlookup
    exact absurd (hquiet.2 id hlt) (h.alive id handle hlookup)

end RegistryRun

/-- However the accept loop, the tasks and the kills interleave, no entry is left once the tasks have
    ended.  If the abort handles come in time, then no handle is left either, and every connection
    that a kill returns has ended or was told to abort. -/
theorem registry_truthful {events : List RegistryEvent} {s : RegistryRun}
    (hrun : Trace.exec RegistryRun.step .start events = some s) :
    (s.Quiet → ∀ id, s.registry.inner.lookup id = none) ∧
    (Trace.Admits RegistryRun.step RegistryRun.Timely .start events →
      (s.Quiet → ∀ id, s.registry.abortHandles.lookup id = none) ∧
      ∀ k ∈ s.kills, k.phase = .returned → ∀ id ∈ k.matched, s.Stopped id) := by
  have hsound : s.Sound :=
    Trace.exec_keeps (fun _ _ _ hs hstep => hs.keep hstep) RegistryRun.Sound.start hrun
  refine ⟨fun hquiet => hsound.inner_empty hquiet, fun htimely => ?_⟩
  have hreached : s.Reached :=
    Trace.exec_invariant (fun _ _ _ hs hok hstep => hs.keep hok hstep) RegistryRun.Reached.start
      htimely hrun
  exact ⟨fun hquiet => hreached.handles_empty hquiet,
    fun k hk hphase => hreached.stopped k hk (by simp [hphase])⟩

/-- A client that is killed, and whose task then ends. -/
theorem killed_client_runs :
    (Trace.exec RegistryRun.step .start
      [.spawn, .store, .register 0 "app".toList, .kill "APP".toList, .killAbort 0, .killRemove 0,
        .leave 0, .finish 0]).isSome = true := by
  decide +kernel

/-- A client is killed after its handle was stored, and its task ends. -/
theorem registry_killed_client :
    ∃ s, Trace.exec RegistryRun.step .start
        [.spawn, .store, .register 0 "app".toList, .kill "APP".toList, .killAbort 0, .killRemove 0,
          .leave 0, .finish 0] = some s ∧
      (∀ id, s.registry.abortHandles.lookup id = none) ∧ s.Stopped 0 := by
  have hrun := (Option.some_get killed_client_runs).symm
  obtain ⟨hempty, hstopped⟩ := (registry_truthful hrun).2 (by decide +kernel)
  have hended : ∀ id < 1, (Option.get _ killed_client_runs).phase id = .ended := by decide +kernel
  exact ⟨_, hrun, hempty ⟨by decide +kernel, hended⟩,
    hstopped ⟨[0], .returned⟩ (by decide +kernel) rfl 0 (by decide)⟩

/-- A task that ends before its handle is stored leaves the handle behind; a kill that comes before
    the handle returns a connection whose task goes on. -/
theorem registry_handle_too_late :
    (∃ s, Trace.exec RegistryRun.step .start [.spawn, .leave 0, .finish 0, .store] = some s ∧
      s.Quiet ∧ s.registry.abortHandles.lookup 0 = some ⟨0⟩) ∧
    ∃ s, Trace.exec RegistryRun.step .start
        [.spawn, .register 0 "app".toList, .kill "app".toList, .killAbort 0, .killRemove 0] =
        some s ∧
      ⟨[0], .returned⟩ ∈ s.kills ∧ ¬ s.Stopped 0 := by
  refine ⟨⟨_, rfl, ⟨rfl, fun id hid => ?_⟩, by decide +kernel⟩, ⟨_, rfl, by decide +kernel, ?_⟩⟩
  · cases hid with
    | refl => rfl
    | step hid => cases hid
  · rintro (habort | hended)
    · exact absurd habort (by decide +kernel)
    · exact absurd hended (by decide +kernel)

end ScryProxy
