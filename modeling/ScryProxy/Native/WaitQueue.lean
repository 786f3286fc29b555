import Mathlib.Data.List.Basic

/-!
# Wait queue

Model of `proxy/wait_queue.rs`.  `waiters` holds the senders of the one-shot channels in the
order of their `enqueue`; a channel is known by a number.  Dropping a `Waiter` drops the
receiving end only: its sender stays in the queue until a `notify_one` reaches it.
-/

namespace ScryProxy

structure WaitQueue where
  maxDepth : Nat
  depth : Nat
  waiters : List Nat
  deriving DecidableEq, Repr

namespace WaitQueue

def new (maxDepth : Nat) : WaitQueue := ⟨maxDepth, 0, []⟩

/-- `enqueue` of a waiter on the channel `tx`; `none` is `QueueFullError`. -/
def enqueue (q : WaitQueue) (tx : Nat) : Option WaitQueue :=
  if q.maxDepth ≤ q.waiters.length then none
  else some { q with waiters := q.waiters ++ [tx], depth := q.depth + 1 }

/-- `notify_one`, with the channel it sends on. -/
def notifyOne (q : WaitQueue) : Option Nat × WaitQueue :=
  match q.waiters with
  | [] => (none, q)
  | tx :: waiters => (some tx, { q with waiters })

/-- `Waiter::drop`. -/
def dropWaiter (q : WaitQueue) : WaitQueue := { q with depth := q.depth - 1 }

theorem enqueue_eq_none {q : WaitQueue} {tx : Nat} :
    q.enqueue tx = none ↔ q.maxDepth ≤ q.waiters.length := by
  simp [enqueue]

theorem enqueue_eq_some {q q' : WaitQueue} {tx : Nat} :
    q.enqueue tx = some q' ↔ q.waiters.length < q.maxDepth ∧
      q' = { q with waiters := q.waiters ++ [tx], depth := q.depth + 1 } := by
  unfold enqueue
  split
  · next h => simp [Nat.not_lt.2 h]
  · next h => simp [Nat.not_le.1 h, eq_comm]

end WaitQueue

end ScryProxy
