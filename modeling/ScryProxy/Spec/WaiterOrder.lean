import Mathlib.Data.List.Nodup
import ScryProxy.ForStd.Trace
import ScryProxy.Native.WaitQueue

/-!
# Waiters and their senders

The wait queue together with the `Waiter` values its callers hold.  A `Waiter` may be dropped
before it is notified, as on a wait timeout; its sender then stays in the queue.  The waiters
that are alive and not yet notified are those whose sender is still queued, in the same order.

## Key results

- `WaitingRoom.Kept.keep`: the queue and the live waiters through every operation
- `wait_queue_serves_iff`: the runs in which the queue serves its live waiters
-/

namespace ScryProxy

/-- A wait queue and its waiters, numbered in the order of their `enqueue`. -/
structure WaitingRoom where
  queue : WaitQueue
  issued : Nat
  /-- `Waiter` values alive, oldest first -/
  live : List Nat
  /-- waiters that a `notify_one` has woken -/
  notified : List Nat
  deriving DecidableEq, Repr

inductive WaiterEvent where
  | enqueue
  | notifyOne
  | drop (id : Nat)
  deriving DecidableEq, Repr

namespace WaitingRoom

def start (maxDepth : Nat) : WaitingRoom := ⟨.new maxDepth, 0, [], []⟩

/-- The waiter that the next `notify_one` wakes; a send to a dropped receiver is lost. -/
def wakes (r : WaitingRoom) : Option Nat := r.queue.notifyOne.1.filter (· ∈ r.live)

/-- One operation; only a live waiter can be dropped. -/
def step (r : WaitingRoom) : WaiterEvent → Option WaitingRoom
  | .enqueue =>
    match r.queue.enqueue r.issued with
    | none => some r
    | some queue => some { r with queue, issued := r.issued + 1, live := r.live ++ [r.issued] }
  | .notifyOne =>
    some { r with queue := r.queue.notifyOne.2, notified := r.wakes.toList ++ r.notified }
  | .drop id =>
    if id ∈ r.live then some { r with queue := r.queue.dropWaiter, live := r.live.erase id }
    else none

/-- The waiters that are alive and not notified, oldest first. -/
def unnotified (r : WaitingRoom) : List Nat := r.live.filter (· ∉ r.notified)

/-- The senders in the queue whose waiters are alive. -/
def awaited (r : WaitingRoom) : List Nat := r.queue.waiters.filter (· ∈ r.live)

/-! ## One operation -/

/-- The queue and the live waiters. -/
structure Kept (r : WaitingRoom) : Prop where
  depth_eq : r.queue.depth = r.live.length
  senders : r.queue.waiters.Nodup
  waiters : r.live.Nodup
  issued_senders : ∀ id ∈ r.queue.waiters, id < r.issued
  issued_waiters : ∀ id ∈ r.live, id < r.issued
  issued_notified : ∀ id ∈ r.notified, id < r.issued
  unnotified_eq : r.unnotified = r.awaited

variable {r r' : WaitingRoom}

theorem Kept.start (maxDepth : Nat) : Kept (start maxDepth) := by
  constructor <;> simp [WaitingRoom.start, WaitQueue.new, unnotified, awaited]

theorem Kept.enqueue (h : Kept r) {queue : WaitQueue} (hroom : r.queue.enqueue r.issued = some queue) :
    Kept { r with queue, issued := r.issued + 1, live := r.live ++ [r.issued] } := by
  obtain ⟨-, rfl⟩ := WaitQueue.enqueue_eq_some.1 hroom
  have hsender : r.issued ∉ r.queue.waiters := fun hmem =>
    Nat.lt_irrefl _ (h.issued_senders _ hmem)
  have hwaiter : r.issued ∉ r.live := fun hmem => Nat.lt_irrefl _ (h.issued_waiters _ hmem)
  have hnotified : r.issued ∉ r.notified := fun hmem =>
    Nat.lt_irrefl _ (h.issued_notified _ hmem)
  constructor
  · simp [h.depth_eq]
  · simp only [List.nodup_append, List.nodup_singleton, List.mem_singleton]
    exact ⟨h.senders, trivial, fun a ha b hb hab => hsender (hb ▸ hab ▸ ha)⟩
  · simp only [List.nodup_append, List.nodup_singleton, List.mem_singleton]
    exact ⟨h.waiters, trivial, fun a ha b hb hab => hwaiter (hb ▸ hab ▸ ha)⟩
  · intro id hid
    rcases List.mem_append.1 hid with hid | hid
    · exact Nat.lt_succ_of_lt (h.issued_senders id hid)
    · exact List.mem_singleton.1 hid ▸ Nat.lt_succ_self _
  · intro id hid
    rcases List.mem_append.1 hid with hid | hid
    · exact Nat.lt_succ_of_lt (h.issued_waiters id hid)
    · exact List.mem_singleton.1 hid ▸ Nat.lt_succ_self _
  · exact fun id hid => Nat.lt_succ_of_lt (h.issued_notified id hid)
  · -- the new sender belongs to the new waiter, and to no old one
    have hold : r.queue.waiters.filter (· ∈ r.live ++ [r.issued]) = r.awaited := by
      refine List.filter_congr fun id hid => ?_
      have hne : id ≠ r.issued := fun heq => hsender (heq ▸ hid)
      simp [hne]
    have hunnotified := h.unnotified_eq
    simp only [unnotified] at hunnotified
    simp only [unnotified, awaited, List.filter_append, hold, hunnotified]
    simp [hnotified]

theorem Kept.notifyOne (h : Kept r) :
    Kept { r with queue := r.queue.notifyOne.2, notified := r.wakes.toList ++ r.notified } := by
  cases hqueue : r.queue.waiters with
  | nil =>
    have hnone : r.queue.notifyOne = (none, r.queue) := by simp [WaitQueue.notifyOne, hqueue]
    simpa [wakes, hnone] using h
  | cons tx rest =>
    have hpop : r.queue.notifyOne = (some tx, { r.queue with waiters := rest }) := by
      simp [WaitQueue.notifyOne, hqueue]
    have hnodup := h.senders
    rw [hqueue, List.nodup_cons] at hnodup
    have hlt : ∀ id ∈ tx :: rest, id < r.issued := hqueue ▸ h.issued_senders
    have hunnotified := h.unnotified_eq
    simp only [unnotified, awaited, hqueue] at hunnotified
    refine ⟨by simp [hpop, h.depth_eq], by simp [hpop, hnodup.2], h.waiters, ?_,
      h.issued_waiters, ?_, ?_⟩
    · simp only [hpop]
      exact fun id hid => hlt id (List.mem_cons_of_mem tx hid)
    · intro id hid
      rcases List.mem_append.1 hid with hid | hid
      · have heq : id = tx := by
          simp only [wakes, hpop, Option.mem_toList, Option.filter_some] at hid
          split at hid <;> simp_all
        exact heq ▸ hlt tx List.mem_cons_self
      · exact h.issued_notified id hid
    · by_cases hlive : tx ∈ r.live
      · -- the woken waiter is the one whose sender is gone
        have hrest : ∀ id ∈ rest, id ≠ tx := fun id hid heq => hnodup.1 (heq ▸ hid)
        have hwakes : r.wakes = some tx := by simp [wakes, hpop, hlive]
        have hsplit : r.live.filter (· ∉ tx :: r.notified) =
            (r.live.filter (· ∉ r.notified)).filter (· ≠ tx) := by
          rw [List.filter_filter]
          exact List.filter_congr fun id _ => by simp
        have hgone : ((tx :: rest).filter (· ∈ r.live)).filter (· ≠ tx) =
            rest.filter (· ∈ r.live) := by
          rw [List.filter_filter, List.filter_cons]
          simp only [ne_eq, not_true_eq_false, decide_false, Bool.false_and, Bool.false_eq_true,
            if_false]
          exact List.filter_congr fun id hid => by simp [hrest id hid]
        simp only [unnotified, awaited, hwakes, hpop, Option.toList_some, List.singleton_append]
        rw [hsplit, hunnotified, hgone]
      · have hwakes : r.wakes = none := by simp [wakes, hpop, hlive]
        simp only [unnotified, awaited, hwakes, hpop, Option.toList_none, List.nil_append]
        rw [hunnotified, List.filter_cons]
        simp [hlive]

theorem Kept.drop (h : Kept r) {id : Nat} (hlive : id ∈ r.live) :
    Kept { r with queue := r.queue.dropWaiter, live := r.live.erase id } := by
  have hmem : ∀ a, a ∈ r.live.erase id ↔ a ≠ id ∧ a ∈ r.live := fun a => h.waiters.mem_erase_iff
  have hunnotified := h.unnotified_eq
  simp only [unnotified, awaited] at hunnotified
  refine ⟨?_, h.senders, h.waiters.erase id, h.issued_senders, ?_, h.issued_notified, ?_⟩
  · simp [WaitQueue.dropWaiter, List.length_erase_of_mem hlive, h.depth_eq]
  · exact fun a ha => h.issued_waiters a ((hmem a).1 ha).2
  · have hleft : (r.live.erase id).filter (· ∉ r.notified) =
        (r.live.filter (· ∉ r.notified)).filter (· ≠ id) := by
      rw [h.waiters.erase_eq_filter, List.filter_filter, List.filter_filter]
      refine List.filter_congr fun a _ => ?_
      by_cases ha : a = id <;> simp [ha]
    have hright : r.queue.waiters.filter (· ∈ r.live.erase id) =
        (r.queue.waiters.filter (· ∈ r.live)).filter (· ≠ id) := by
      rw [List.filter_filter]
      exact List.filter_congr fun a _ => by simp [hmem]
    simp only [unnotified, awaited, WaitQueue.dropWaiter]
    rw [hleft, hright, hunnotified]

/-- The operations keep the queue and the live waiters together. -/
theorem Kept.keep {e : WaiterEvent} (h : Kept r) (hstep : r.step e = some r') : Kept r' := by
  cases e with
  | enqueue =>
    simp only [step] at hstep
    split at hstep
    · cases hstep; exact h
    · next queue hroom => cases hstep; exact h.enqueue hroom
  | notifyOne => cases hstep; exact h.notifyOne
  | drop id =>
    simp only [step] at hstep
    split at hstep
    · next hlive => cases hstep; exact h.drop hlive
    · cases hstep

/-! ## Fairness and capacity -/

/-- What an operation owes the live waiters: `notify_one` wakes the oldest that is not notified, and
    `enqueue` fails just when there are `max_depth` of them. -/
def Served (r : WaitingRoom) : WaiterEvent → Prop
  | .enqueue => r.queue.enqueue r.issued = none ↔ r.queue.maxDepth ≤ r.unnotified.length
  | .notifyOne => ∀ id ∈ r.unnotified.head?, r.wakes = some id
  | .drop _ => True

instance (r : WaitingRoom) : ∀ e, Decidable (Served r e)
  | .enqueue => inferInstanceAs (Decidable (_ ↔ _))
  | .notifyOne => inferInstanceAs (Decidable (∀ id ∈ r.unnotified.head?, r.wakes = some id))
  | .drop _ => inferInstanceAs (Decidable True)

/-- Senders of dropped waiters do not matter: the front sender's waiter is alive, or none of the
    queued ones is; the queue has room, or `max_depth` queued senders have live waiters. -/
def Fresh (r : WaitingRoom) : WaiterEvent → Prop
  | .enqueue => r.queue.waiters.length < r.queue.maxDepth ∨ r.queue.maxDepth ≤ r.awaited.length
  | .notifyOne => (∃ tx ∈ r.queue.waiters.head?, tx ∈ r.live) ∨ r.awaited = []
  | .drop _ => True

theorem Kept.served_enqueue (h : Kept r) : Served r .enqueue ↔ Fresh r .enqueue := by
  have hle : r.awaited.length ≤ r.queue.waiters.length := List.length_filter_le ..
  simp only [Served, Fresh, WaitQueue.enqueue_eq_none, h.unnotified_eq]
  omega

theorem Kept.served_notifyOne (h : Kept r) : Served r .notifyOne ↔ Fresh r .notifyOne := by
  simp only [Served, Fresh, h.unnotified_eq]
  cases hqueue : r.queue.waiters with
  | nil => simp [awaited, hqueue]
  | cons tx rest =>
    by_cases hlive : tx ∈ r.live
    · simp [awaited, hqueue, hlive, wakes, WaitQueue.notifyOne]
    · have hwakes : r.wakes = none := by simp [wakes, WaitQueue.notifyOne, hqueue, hlive]
      cases hawaited : r.awaited with
      | nil => simp
      | cons id ids => simp [hwakes, hlive]

theorem Kept.served_iff (h : Kept r) (e : WaiterEvent) : Served r e ↔ Fresh r e := by
  cases e with
  | enqueue => exact h.served_enqueue
  | notifyOne => exact h.served_notifyOne
  | drop id => exact Iff.rfl

/-- A waiter is dropped only after its notification. -/
def DropsNotified (r : WaitingRoom) : WaiterEvent → Prop
  | .enqueue | .notifyOne => True
  | .drop id => id ∈ r.notified

instance (r : WaitingRoom) : ∀ e, Decidable (DropsNotified r e)
  | .enqueue | .notifyOne => inferInstanceAs (Decidable True)
  | .drop id => inferInstanceAs (Decidable (id ∈ r.notified))

/-- Then every sender in the queue has a live waiter. -/
theorem Kept.senders_live {e : WaiterEvent} (h : Kept r) (hlive : ∀ tx ∈ r.queue.waiters, tx ∈ r.live)
    (hdrop : DropsNotified r e) (hstep : r.step e = some r') :
    ∀ tx ∈ r'.queue.waiters, tx ∈ r'.live := by
  cases e with
  | enqueue =>
    simp only [step] at hstep
    split at hstep
    · cases hstep; exact hlive
    · next queue hroom =>
      cases hstep
      obtain ⟨-, rfl⟩ := WaitQueue.enqueue_eq_some.1 hroom
      intro tx htx
      rcases List.mem_append.1 htx with htx | htx
      · exact List.mem_append_left _ (hlive tx htx)
      · exact List.mem_append_right _ htx
  | notifyOne =>
    cases hstep
    intro tx htx
    apply hlive
    revert htx
    simp only [WaitQueue.notifyOne]
    split
    · exact id
    · next front rest hqueue => exact fun htx => hqueue ▸ List.mem_cons_of_mem front htx
  | drop id =>
    simp only [step] at hstep
    split at hstep
    · cases hstep
      intro tx htx
      -- a notified waiter has no sender in the queue
      have hne : tx ≠ id := by
        rintro rfl
        have hmem : tx ∈ r.unnotified := by
          rw [h.unnotified_eq]
          exact List.mem_filter.2 ⟨htx, by simpa using hlive tx htx⟩
        have hnot := (List.mem_filter.1 hmem).2
        have hnotified : tx ∈ r.notified := hdrop
        simp [hnotified] at hnot
      exact h.waiters.mem_erase_iff.2 ⟨hne, hlive tx htx⟩
    · cases hstep

theorem fresh_of_senders_live (hlive : ∀ tx ∈ r.queue.waiters, tx ∈ r.live) (e : WaiterEvent) :
    Fresh r e := by
  have hall : r.awaited = r.queue.waiters :=
    List.filter_eq_self.2 fun tx htx => by simpa using hlive tx htx
  cases e with
  | enqueue =>
    simp only [Fresh, hall]
    omega
  | notifyOne =>
    cases hqueue : r.queue.waiters with
    | nil => exact .inr (hall.trans hqueue)
    | cons tx rest =>
      exact .inl ⟨tx, by simp [hqueue], hlive tx (by simp [hqueue])⟩
  | drop id => trivial

end WaitingRoom

/-- Through every run `depth` counts the `Waiter` values alive.  The operations serve the live
    waiters (`notify_one` wakes the oldest one not notified, `enqueue` fails just when `max_depth` of
    them are not notified) exactly in the runs where the senders of dropped waiters are neither at
    the front of the queue before a live waiter's nor needed to fill it; so in all runs that drop
    no waiter before its notification. -/
theorem wait_queue_serves_iff (maxDepth : Nat) (events : List WaiterEvent) :
    Trace.Always WaitingRoom.step (fun r => r.queue.depth = r.live.length)
      (.start maxDepth) events ∧
    (Trace.Admits WaitingRoom.step WaitingRoom.Served (.start maxDepth) events ↔
      Trace.Admits WaitingRoom.step WaitingRoom.Fresh (.start maxDepth) events) ∧
    (Trace.Admits WaitingRoom.step WaitingRoom.DropsNotified (.start maxDepth) events →
      Trace.Admits WaitingRoom.step WaitingRoom.Served (.start maxDepth) events) := by
  have hkeep : ∀ r e r', WaitingRoom.Kept r → r.step e = some r' → WaitingRoom.Kept r' :=
    fun _ _ _ hr hstep => hr.keep hstep
  have hstart := WaitingRoom.Kept.start maxDepth
  refine ⟨?_, Trace.admits_congr hkeep (fun r e hr => hr.served_iff e) hstart, fun hdrops => ?_⟩
  · have hall : Trace.Admits WaitingRoom.step (fun _ _ => True) (.start maxDepth) events :=
      Trace.admits_of_forall (fun _ _ => trivial) _
    exact Trace.always_of_admits (fun r e r' hr _ hstep => hkeep r e r' hr hstep)
      (fun r hr => hr.depth_eq) hstart hall
  · have hlive : ∀ r e r', (WaitingRoom.Kept r ∧ ∀ tx ∈ r.queue.waiters, tx ∈ r.live) →
        WaitingRoom.DropsNotified r e → r.step e = some r' →
        WaitingRoom.Kept r' ∧ ∀ tx ∈ r'.queue.waiters, tx ∈ r'.live :=
      fun r e r' hr hdrop hstep => ⟨hr.1.keep hstep, hr.1.senders_live hr.2 hdrop hstep⟩
    exact Trace.admits_of_keep hlive
      (fun r e hr => (hr.1.served_iff e).2 (WaitingRoom.fresh_of_senders_live hr.2 e))
      ⟨hstart, by simp [WaitingRoom.start, WaitQueue.new]⟩ hdrops

/-- Two waiters; the first is notified and dropped, the second is notified next. -/
theorem wait_queue_in_order :
    Trace.Admits WaitingRoom.step WaitingRoom.Served (.start 2)
      [.enqueue, .enqueue, .notifyOne, .drop 0, .notifyOne] :=
  (wait_queue_serves_iff 2 _).2.2 (by decide +kernel)

/-- A waiter that gave up takes the notification of the next one, and keeps its place in a full
    queue. -/
theorem dropped_waiter_in_the_way :
    ¬ Trace.Admits WaitingRoom.step WaitingRoom.Served (.start 2)
        [.enqueue, .enqueue, .drop 0, .notifyOne] ∧
      ¬ Trace.Admits WaitingRoom.step WaitingRoom.Served (.start 1)
        [.enqueue, .drop 0, .enqueue] := by
  decide +kernel

end ScryProxy
