import Mathlib.Data.List.Induction
import Mathlib.Order.Lattice

/-!
# Binary heaps

The heap of Rust's standard library: a tree in an array, in which no element is greater than
its parent.  `push` puts an element at the end and lets it rise.  `pop` puts the last element
in place of the first one, lets it sink to a leaf, along the greater children, and rise from
there.

Elements are compared by a key, so elements that are not equal may be equivalent; which of
them comes first depends on the layout, and no result here says so.

## Key results

- `Rising.siftUp`, `Sinking.siftDown`: rising and sinking restore the order
- `BinaryHeap.le_peek`: the first element is a greatest one
- `BinaryHeap.perm_push`, `BinaryHeap.pop_of_peek`: which elements the operations add and remove
-/

namespace BinaryHeap

variable {α β : Type} [LinearOrder β] (key : α → β)

/-- `sift_up(0, pos)`. -/
def siftUp (a : Array α) (pos : Nat) : Array α :=
  if h : 0 < pos ∧ pos < a.size then
    if key a[pos] ≤ key a[(pos - 1) / 2] then a
    else siftUp (a.swap pos ((pos - 1) / 2)) ((pos - 1) / 2)
  else a
termination_by pos

/-- The loop of `sift_down_to_bottom(pos)`: the array, and the leaf that was reached. -/
def siftDown (a : Array α) (pos : Nat) : Array α × Nat :=
  if h : 2 * pos + 2 < a.size then
    if key a[2 * pos + 1] ≤ key a[2 * pos + 2] then siftDown (a.swap pos (2 * pos + 2)) (2 * pos + 2)
    else siftDown (a.swap pos (2 * pos + 1)) (2 * pos + 1)
  else if h : 2 * pos + 1 < a.size then (a.swap pos (2 * pos + 1), 2 * pos + 1)
  else (a, pos)
termination_by a.size - pos

/-! ## Order -/

/-- No element is greater than its parent. -/
def IsHeap (a : Array α) : Prop :=
  ∀ i (hi : i < a.size), 0 < i → key a[i] ≤ key a[(i - 1) / 2]

/-- The children of a position are not greater than its parent. -/
def Bridged (a : Array α) (pos : Nat) : Prop :=
  ∀ i (hi : i < a.size), 0 < i → (i - 1) / 2 = pos → 0 < pos →
    key a[i] ≤ key a[((i - 1) / 2 - 1) / 2]

/-- A heap but for one position, whose element may be greater than its parent. -/
structure Rising (a : Array α) (pos : Nat) : Prop where
  others : ∀ i (hi : i < a.size), 0 < i → i ≠ pos → key a[i] ≤ key a[(i - 1) / 2]
  bridged : Bridged key a pos

/-- A heap but for one position, whose element is not compared with any. -/
structure Sinking (a : Array α) (pos : Nat) : Prop where
  others : ∀ i (hi : i < a.size), 0 < i → i ≠ pos → (i - 1) / 2 ≠ pos →
    key a[i] ≤ key a[(i - 1) / 2]
  bridged : Bridged key a pos

variable {key} {a : Array α} {pos : Nat}

/-- A rising element changes places with its parent. -/
theorem Rising.swap (h : Rising key a pos) (hpos : 0 < pos) (hlt : pos < a.size)
    (hgt : key a[(pos - 1) / 2] < key a[pos]) :
    Rising key (a.swap pos ((pos - 1) / 2)) ((pos - 1) / 2) := by
  constructor
  · intro i hi h0 hne
    rw [Array.size_swap] at hi
    rw [Array.getElem_swap, Array.getElem_swap]
    by_cases hi' : i = pos
    · subst hi'
      rw [if_pos rfl, if_neg (by omega), if_pos rfl]
      exact hgt.le
    · rw [if_neg hi', if_neg hne]
      by_cases hchild : (i - 1) / 2 = pos
      · -- a child of the position is below the old parent by the bridge
        rw [if_pos hchild]
        have hle := h.bridged i hi h0 hchild hpos
        rwa [getElem_congr_idx (show ((i - 1) / 2 - 1) / 2 = (pos - 1) / 2 by rw [hchild])] at hle
      · rw [if_neg hchild]
        have hle := h.others i hi h0 hi'
        split
        · next hsibling =>
          rw [getElem_congr_idx hsibling] at hle
          exact hle.trans hgt.le
        · exact hle
  · -- the children of the new place are the old parent and its other child
    intro i hi h0 hparent hq
    rw [Array.size_swap] at hi
    have hle := h.others ((pos - 1) / 2) (by omega) hq (by omega)
    rw [Array.getElem_swap, Array.getElem_swap, if_neg (by omega : ((i - 1) / 2 - 1) / 2 ≠ pos),
      if_neg (by omega : ((i - 1) / 2 - 1) / 2 ≠ (pos - 1) / 2), getElem_congr_idx
        (show ((i - 1) / 2 - 1) / 2 = ((pos - 1) / 2 - 1) / 2 by rw [hparent])]
    by_cases hi' : i = pos
    · rw [if_pos hi']
      exact hle
    · rw [if_neg hi', if_neg (by omega)]
      have hchild := h.others i hi h0 hi'
      rw [getElem_congr_idx hparent] at hchild
      exact hchild.trans hle

/-- An element rises until its parent is not smaller. -/
theorem Rising.siftUp (h : Rising key a pos) (hlt : pos < a.size) : IsHeap key (siftUp key a pos) := by
  induction pos using Nat.strongRecOn generalizing a with
  | ind pos ih =>
    unfold BinaryHeap.siftUp
    by_cases hpos : 0 < pos
    · rw [dif_pos ⟨hpos, hlt⟩]
      split
      · next hle =>
        intro i hi h0
        by_cases hi' : i = pos
        · subst hi'
          exact hle
        · exact h.others i hi h0 hi'
      · next hgt =>
        have hlt' : (pos - 1) / 2 < (a.swap pos ((pos - 1) / 2)).size := by
          rw [Array.size_swap]
          omega
        exact ih _ (by omega) (h.swap hpos hlt (not_le.1 hgt)) hlt'
    · rw [dif_neg (by omega)]
      intro i hi h0
      exact h.others i hi h0 (by omega)

/-- The greater child takes the place of an element that sinks. -/
theorem Sinking.swap (h : Sinking key a pos) {child : Nat} (hlt : child < a.size) (h0 : 0 < child)
    (hchild : (child - 1) / 2 = pos)
    (hgreatest : ∀ i (hi : i < a.size), 0 < i → (i - 1) / 2 = pos → key a[i] ≤ key a[child]) :
    Sinking key (a.swap pos child) child := by
  constructor
  · intro i hi hi0 hne hparent
    rw [Array.size_swap] at hi
    rw [Array.getElem_swap, Array.getElem_swap, if_neg hne, if_neg hparent]
    by_cases hi' : i = pos
    · -- the child is below the parent of the position by the bridge
      rw [if_pos hi', if_neg (by omega)]
      have hle := h.bridged child hlt h0 hchild (by omega)
      rwa [getElem_congr_idx (show ((child - 1) / 2 - 1) / 2 = (i - 1) / 2 by rw [hchild, hi'])] at hle
    · rw [if_neg hi']
      by_cases hsibling : (i - 1) / 2 = pos
      · rw [if_pos hsibling]
        exact hgreatest i hi hi0 hsibling
      · rw [if_neg hsibling]
        exact h.others i hi hi0 hi' hsibling
  · intro i hi hi0 hparent hq
    rw [Array.size_swap] at hi
    have hle := h.others i hi hi0 (by omega) (by omega)
    rw [getElem_congr_idx hparent] at hle
    rw [Array.getElem_swap, Array.getElem_swap, if_neg (by omega), if_neg (by omega),
      if_pos (by omega : ((i - 1) / 2 - 1) / 2 = pos)]
    exact hle

theorem Sinking.rising (h : Sinking key a pos) (hleaf : a.size ≤ 2 * pos + 1) : Rising key a pos where
  others i hi h0 hne := h.others i hi h0 hne (by omega)
  bridged := h.bridged

/-- An element sinks to a leaf. -/
theorem Sinking.siftDown (h : Sinking key a pos) (hlt : pos < a.size) :
    Rising key (siftDown key a pos).1 (siftDown key a pos).2 ∧
      (BinaryHeap.siftDown key a pos).2 < (BinaryHeap.siftDown key a pos).1.size := by
  fun_induction BinaryHeap.siftDown key a pos with
  | case1 a pos hboth hle ih =>
    apply ih
    · apply h.swap hboth (by omega) (by omega)
      intro i hi h0 hparent
      obtain rfl | rfl : i = 2 * pos + 1 ∨ i = 2 * pos + 2 := by omega
      · exact hle
      · exact le_rfl
    · rwa [Array.size_swap]
  | case2 a pos hboth hgt ih =>
    apply ih
    · apply h.swap (by omega) (by omega) (by omega)
      intro i hi h0 hparent
      obtain rfl | rfl : i = 2 * pos + 1 ∨ i = 2 * pos + 2 := by omega
      · exact le_rfl
      · exact (not_le.1 hgt).le
    · rw [Array.size_swap]
      omega
  | case3 a pos hone hleft =>
    -- an only child is a leaf
    have hsink : Sinking key (a.swap pos (2 * pos + 1)) (2 * pos + 1) := by
      apply h.swap hleft (by omega) (by omega)
      intro i hi h0 hparent
      obtain rfl : i = 2 * pos + 1 := by omega
      exact le_rfl
    refine ⟨hsink.rising ?_, ?_⟩
    · rw [Array.size_swap]
      omega
    · rwa [Array.size_swap]
  | case4 a pos hone hnone => exact ⟨h.rising (by omega), hlt⟩

/-! ## Elements -/

theorem perm_siftUp (key : α → β) (a : Array α) (pos : Nat) : (siftUp key a pos).Perm a := by
  fun_induction siftUp key a pos with
  | case1 => exact .rfl
  | case2 a pos h hgt ih => exact ih.trans (Array.swap_perm _ _)
  | case3 => exact .rfl

theorem perm_siftDown (key : α → β) (a : Array α) (pos : Nat) : (siftDown key a pos).1.Perm a := by
  fun_induction siftDown key a pos with
  | case1 a pos hboth hle ih => exact ih.trans (Array.swap_perm _ _)
  | case2 a pos hboth hgt ih => exact ih.trans (Array.swap_perm _ _)
  | case3 => exact Array.swap_perm _ _
  | case4 => exact .rfl

theorem IsHeap.le_first (h : IsHeap key a) {i : Nat} (hi : i < a.size) : key a[i] ≤ key a[0] := by
  induction i using Nat.strongRecOn with
  | ind i ih =>
    by_cases h0 : 0 < i
    · exact (h i hi h0).trans (ih ((i - 1) / 2) (by omega) (by omega))
    · obtain rfl : i = 0 := by omega
      exact le_rfl

end BinaryHeap

/-! ## The heap -/

/-- `std::collections::BinaryHeap`, ordered by `key`. -/
structure BinaryHeap {α β : Type} [LinearOrder β] (key : α → β) where
  data : Array α
  isHeap : BinaryHeap.IsHeap key data

namespace BinaryHeap

variable {α β : Type} [LinearOrder β] {key : α → β}

/-- `BinaryHeap::new`. -/
def empty : BinaryHeap key := ⟨#[], fun _ hi => absurd hi (Nat.not_lt_zero _)⟩

/-- `BinaryHeap::push`. -/
def push (heap : BinaryHeap key) (x : α) : BinaryHeap key where
  data := siftUp key (heap.data.push x) heap.data.size
  isHeap := by
    have hrising : Rising key (heap.data.push x) heap.data.size := by
      constructor
      · intro i hi h0 hne
        have hlt : i < heap.data.size := by
          rw [Array.size_push] at hi
          omega
        rw [Array.getElem_push_lt hlt, Array.getElem_push_lt (by omega)]
        exact heap.isHeap i hlt h0
      · intro i hi h0 hparent
        rw [Array.size_push] at hi
        omega
    exact hrising.siftUp (by simp)

/-- `BinaryHeap::peek`. -/
def peek (heap : BinaryHeap key) : Option α := heap.data[0]?

/-- The heap that `pop` leaves: the last element takes the place of the first one. -/
def popped (heap : BinaryHeap key) (last : α) (h : 0 < heap.data.pop.size) : BinaryHeap key where
  data :=
    let sunk := siftDown key (heap.data.pop.set 0 last) 0
    siftUp key sunk.1 sunk.2
  isHeap := by
    have hsinking : Sinking key (heap.data.pop.set 0 last) 0 := by
      constructor
      · intro i hi h0 hne hparent
        have hlt : i < heap.data.size := by
          rw [Array.size_set, Array.size_pop] at hi
          omega
        rw [Array.getElem_set_ne h (by simpa using hi) (Ne.symm hne), Array.getElem_pop,
          Array.getElem_set_ne h (by rw [Array.size_pop]; omega) (Ne.symm hparent), Array.getElem_pop]
        exact heap.isHeap i hlt h0
      · intro i hi h0 hparent hpos
        omega
    have hsunk := hsinking.siftDown (by simpa using h)
    exact hsunk.1.siftUp hsunk.2

/-- `BinaryHeap::pop`. -/
def pop (heap : BinaryHeap key) : Option (α × BinaryHeap key) :=
  if h : 0 < heap.data.size then
    let last := heap.data[heap.data.size - 1]
    if h' : 0 < heap.data.pop.size then some (heap.data[0], heap.popped last h')
    else some (last, empty)
  else none

def toList (heap : BinaryHeap key) : List α := heap.data.toList

theorem perm_push (heap : BinaryHeap key) (x : α) : (heap.push x).toList.Perm (x :: heap.toList) := by
  have hperm := (perm_siftUp key (heap.data.push x) heap.data.size).toList
  rw [Array.toList_push] at hperm
  exact hperm.trans (List.perm_append_singleton x heap.toList)

theorem peek_eq_none_iff {heap : BinaryHeap key} : heap.peek = none ↔ heap.toList = [] := by
  simp [peek, toList]

theorem le_peek {heap : BinaryHeap key} {x : α} (h : heap.peek = some x) :
    ∀ y ∈ heap.toList, key y ≤ key x := by
  intro y hy
  obtain ⟨i, hi, rfl⟩ := List.mem_iff_getElem.1 hy
  obtain ⟨h0, rfl⟩ := Array.getElem?_eq_some_iff.1 h
  exact heap.isHeap.le_first (Array.length_toList ▸ hi)

/-- The elements of an array, with the last one in place of the first. -/
theorem perm_pop_set (a : Array α) (h : 0 < a.size) (h' : 0 < a.pop.size) :
    (a[0] :: (a.pop.set 0 a[a.size - 1]).toList).Perm a.toList := by
  obtain ⟨l⟩ := a
  cases l with
  | nil => simp at h
  | cons x l =>
    cases l using List.reverseRecOn with
    | nil => simp at h'
    | append_singleton l y =>
      have hset : (x :: (l ++ [y])).dropLast.set 0 y = y :: l := by
        rw [← List.cons_append, List.dropLast_concat, List.set_cons_zero]
      simp only [List.getElem_toArray, List.getElem_cons_zero, List.pop_toArray, List.set_toArray,
        List.size_toArray, List.length_cons, List.length_append, List.length_nil, Nat.add_sub_cancel,
        List.getElem_cons_succ, List.getElem_concat_length]
      rw [hset]
      exact (List.perm_append_singleton y l).symm.cons x

/-- `pop` removes the element that `peek` shows. -/
theorem pop_of_peek {heap : BinaryHeap key} {x : α} (h : heap.peek = some x) :
    ∃ rest, heap.pop = some (x, rest) ∧ (x :: rest.toList).Perm heap.toList := by
  obtain ⟨h0, rfl⟩ := Array.getElem?_eq_some_iff.1 h
  unfold pop
  rw [dif_pos h0]
  by_cases h' : 0 < heap.data.pop.size
  · refine ⟨_, dif_pos h', ?_⟩
    have hperm : (heap.popped heap.data[heap.data.size - 1] h').data.Perm
        (heap.data.pop.set 0 heap.data[heap.data.size - 1]) :=
      (perm_siftUp key _ _).trans (perm_siftDown key _ 0)
    exact (hperm.toList.cons _).trans (perm_pop_set heap.data h0 h')
  · -- the only element is the first and the last one
    have hone : heap.data.size = 1 := by
      rw [Array.size_pop] at h'
      omega
    refine ⟨empty, ?_, ?_⟩
    · rw [dif_neg h']
      simp [hone]
    · obtain ⟨x, hx⟩ := Array.size_eq_one_iff.1 hone
      simp [toList, empty, hx]

end BinaryHeap
