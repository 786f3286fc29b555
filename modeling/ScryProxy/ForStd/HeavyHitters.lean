import Mathlib.Data.Finset.Dedup
import ScryProxy.ForStd.Maps

/-!
# Heavy hitters

Counting the elements of a stream in little memory.  The counters are shared: an element
goes to one bucket in each row, so the least load of its buckets is an estimate of its
count that is never too small.  A table keeps the estimates of at most `k` elements; when
it is full, a new element takes the place of one with a least estimate, if its own is
greater.

Estimates only grow, so an element that is not in a full table was never seen more often
than any entry of the table says.

## Key results

- `count_le_estimate`, `estimate_le_concat`: estimates are never too small and only grow
- `Tracks.step`: what the table says about the stream is kept
- `Tracks.mem_of_card_le`, `Tracks.length_of_card_gt`: when the table has all elements, and when it is full
-/

namespace HeavyHitters

variable {α : Type}

/-! ## Shared counters -/

section Counters

/-- How many elements of a stream went to a bucket. -/
def load (bucket : α → Nat) (l : List α) (b : Nat) : Nat := l.countP fun x => bucket x = b

variable {bucket : α → Nat} {l : List α} {x : α}

theorem load_concat (bucket : α → Nat) (l : List α) (x : α) (b : Nat) :
    load bucket (l ++ [x]) b = load bucket l b + if bucket x = b then 1 else 0 := by
  simp [load, List.countP_append, List.countP_singleton]

theorem count_le_load [BEq α] [LawfulBEq α] : l.count x ≤ load bucket l (bucket x) := by
  rw [List.count_eq_countP]
  apply List.countP_mono_left
  intro y _ hy
  simp [eq_of_beq hy]

/-- The least load of an element over the rows, at most `top`. -/
def estimate (top : Nat) (rows : List (α → Nat)) (l : List α) (x : α) : Nat :=
  rows.foldl (fun least bucket => min least (load bucket l (bucket x))) top

variable {top : Nat} {rows : List (α → Nat)}

theorem estimate_concat (bucket : α → Nat) :
    estimate top (rows ++ [bucket]) l x = min (estimate top rows l x) (load bucket l (bucket x)) :=
  List.foldl_concat ..

theorem le_estimate_iff {n : Nat} :
    n ≤ estimate top rows l x ↔ n ≤ top ∧ ∀ bucket ∈ rows, n ≤ load bucket l (bucket x) := by
  unfold estimate
  induction rows generalizing top with
  | nil => simp
  | cons bucket rows ih =>
    rw [List.foldl_cons, ih, le_min_iff, List.forall_mem_cons, and_assoc]

theorem count_le_estimate [BEq α] [LawfulBEq α] (htop : l.count x ≤ top) :
    l.count x ≤ estimate top rows l x :=
  le_estimate_iff.2 ⟨htop, fun _ _ => count_le_load⟩

theorem estimate_le_concat (y : α) : estimate top rows l x ≤ estimate top rows (l ++ [y]) x := by
  have hle := le_estimate_iff.1 (le_refl (estimate top rows l x))
  refine le_estimate_iff.2 ⟨hle.1, fun bucket hrow => (hle.2 bucket hrow).trans ?_⟩
  rw [load_concat]
  omega

end Counters

/-! ## The table -/

variable [DecidableEq α]

/-- What the table becomes when an element is seen whose estimate is `c`. -/
inductive Step (k : Nat) (m : AList fun _ : α => Nat) (x : α) (c : Nat) :
    (AList fun _ : α => Nat) → Prop
  | refresh (hmem : x ∈ m) : Step k m x c (m.insert x c)
  | add (hnew : x ∉ m) (hroom : m.entries.length < k) : Step k m x c (m.insert x c)
  | keep (hnew : x ∉ m) (hfull : k ≤ m.entries.length) (hleast : ∀ y d, m.lookup y = some d → c ≤ d) :
    Step k m x c m
  | replace (hnew : x ∉ m) (hfull : k ≤ m.entries.length) {y : α} {d : Nat} (hy : m.lookup y = some d)
    (hleast : ∀ z e, m.lookup z = some e → d ≤ e) (hlt : d < c) :
    Step k m x c ((m.erase y).insert x c)

/-- What the table says about the stream. -/
structure Tracks [BEq α] (k : Nat) (est : List α → α → Nat) (l : List α) (m : AList fun _ : α => Nat) :
    Prop where
  bounded : m.entries.length ≤ k
  seen : ∀ x ∈ m, x ∈ l
  count_le : ∀ x c, m.lookup x = some c → l.count x ≤ c
  le_est : ∀ x c, m.lookup x = some c → c ≤ est l x
  /-- nothing leaves the table before it is full -/
  complete : m.entries.length < k → ∀ x ∈ l, x ∈ m
  missed : ∀ x, x ∉ m → ∀ y d, m.lookup y = some d → l.count x ≤ d

namespace Tracks

variable [BEq α] {k : Nat} {est : List α → α → Nat} {l : List α} {m m' : AList fun _ : α => Nat} {x : α}

theorem empty : Tracks k est [] (∅ : AList fun _ : α => Nat) where
  bounded := Nat.zero_le k
  seen x hx := absurd hx (AList.notMem_empty x)
  count_le x c _ := Nat.zero_le c
  le_est x c h := by cases h
  complete _ x hx := absurd hx List.not_mem_nil
  missed x _ y d _ := Nat.zero_le d

theorem keys_subset (h : Tracks k est l m) : m.keys.toFinset ⊆ l.toFinset := by
  intro x hx
  exact List.mem_toFinset.2 (h.seen x (List.mem_toFinset.1 hx))

/-- With no more than `k` distinct elements the table has all of them. -/
theorem mem_of_card_le (h : Tracks k est l m) (hcard : l.toFinset.card ≤ k) {y : α} (hy : y ∈ l) :
    y ∈ m := by
  rcases Nat.lt_or_ge m.entries.length k with hlt | hge
  · exact h.complete hlt y hy
  · have hall : m.keys.toFinset = l.toFinset :=
      Finset.eq_of_subset_of_card_le h.keys_subset (by rw [Maps.card_keys]; omega)
    have hmem : y ∈ m.keys.toFinset := by
      rw [hall]
      exact List.mem_toFinset.2 hy
    exact List.mem_toFinset.1 hmem

/-- With more of them it is full. -/
theorem length_of_card_gt (h : Tracks k est l m) (hcard : k < l.toFinset.card) : m.entries.length = k := by
  refine le_antisymm h.bounded (Nat.le_of_not_lt fun hlt => ?_)
  have hsubset : l.toFinset ⊆ m.keys.toFinset := by
    intro y hy
    exact List.mem_toFinset.2 (h.complete hlt y (List.mem_toFinset.1 hy))
  have hle := Finset.card_le_card hsubset
  rw [Maps.card_keys] at hle
  omega

/-! ## Steps -/

variable [LawfulBEq α]

omit [DecidableEq α] in
theorem count_concat_of_ne {x y : α} (l : List α) (h : y ≠ x) : (l ++ [x]).count y = l.count y := by
  simp [List.count_append, Ne.symm h]

/-- The entries that were there before the element was seen. -/
theorem of_concat (h : Tracks k est l m) (hgrows : ∀ y, est l y ≤ est (l ++ [x]) y) {y : α} {d : Nat}
    (hy : m.lookup y = some d) (hne : y ≠ x) : (l ++ [x]).count y ≤ d ∧ d ≤ est (l ++ [x]) y := by
  rw [count_concat_of_ne l hne]
  exact ⟨h.count_le y d hy, (h.le_est y d hy).trans (hgrows y)⟩

/-- The table with the new entry, over entries that were there before. -/
theorem insert (h : Tracks k est l m) (hgrows : ∀ y, est l y ≤ est (l ++ [x]) y)
    (hcount : (l ++ [x]).count x ≤ est (l ++ [x]) x) {rest : AList fun _ : α => Nat}
    (hrest : ∀ y d, y ≠ x → rest.lookup y = some d → m.lookup y = some d)
    (hbounded : (rest.insert x (est (l ++ [x]) x)).entries.length ≤ k)
    (hcomplete : (rest.insert x (est (l ++ [x]) x)).entries.length < k → ∀ y ∈ l, y ≠ x → y ∈ rest)
    (hmissed : ∀ y, y ≠ x → y ∉ rest → l.count y ≤ est (l ++ [x]) x ∧
      ∀ z d, z ≠ x → rest.lookup z = some d → l.count y ≤ d) :
    Tracks k est (l ++ [x]) (rest.insert x (est (l ++ [x]) x)) where
  bounded := hbounded
  seen y hy := by
    rcases (AList.mem_insert _).1 hy with rfl | hy
    · simp
    · by_cases hyx : y = x
      · simp [hyx]
      · obtain ⟨d, hd⟩ := Option.isSome_iff_exists.1 (AList.lookup_isSome.2 hy)
        have hm : y ∈ m := AList.lookup_isSome.1 (by rw [hrest y d hyx hd]; rfl)
        exact List.mem_append_left _ (h.seen y hm)
  count_le y c hy := by
    rcases Maps.lookup_insert_cases hy with ⟨rfl, rfl⟩ | ⟨hne, hy⟩
    · exact hcount
    · exact (h.of_concat hgrows (hrest y c hne hy) hne).1
  le_est y c hy := by
    rcases Maps.lookup_insert_cases hy with ⟨rfl, rfl⟩ | ⟨hne, hy⟩
    · exact le_rfl
    · exact (h.of_concat hgrows (hrest y c hne hy) hne).2
  complete hlt y hy := by
    rw [AList.mem_insert]
    by_cases hyx : y = x
    · exact .inl hyx
    · have hl : y ∈ l := by simpa [hyx] using hy
      exact .inr (hcomplete hlt y hl hyx)
  missed y hy z d hz := by
    rw [AList.mem_insert, not_or] at hy
    rw [count_concat_of_ne l hy.1]
    obtain ⟨hnew, hold⟩ := hmissed y hy.1 hy.2
    rcases Maps.lookup_insert_cases hz with ⟨rfl, rfl⟩ | ⟨hne, hz⟩
    · exact hnew
    · exact hold z d hne hz

/-- What a step of the table keeps, when its estimate is not too small and estimates only grow. -/
theorem step (h : Tracks k est l m) (hgrows : ∀ y, est l y ≤ est (l ++ [x]) y)
    (hcount : (l ++ [x]).count x ≤ est (l ++ [x]) x) (hstep : Step k m x (est (l ++ [x]) x) m') :
    Tracks k est (l ++ [x]) m' := by
  cases hstep with
  | refresh hmem =>
    obtain ⟨c, hc⟩ := Option.isSome_iff_exists.1 (AList.lookup_isSome.2 hmem)
    have hlength := Maps.length_insert_of_mem hmem (est (l ++ [x]) x)
    apply h.insert hgrows hcount (fun y d _ hy => hy)
    · rw [hlength]
      exact h.bounded
    · intro hlt y hy _
      exact h.complete (hlength ▸ hlt) y hy
    · intro y hne hy
      -- the old entry of the element was not greater
      have hold := h.missed y hy
      exact ⟨((hold x c hc).trans (h.le_est x c hc)).trans (hgrows x), fun z d _ hz => hold z d hz⟩
  | add hnew hroom =>
    have hlength := Maps.length_insert hnew (est (l ++ [x]) x)
    apply h.insert hgrows hcount (fun y d _ hy => hy)
    · omega
    · intro _ y hy _
      exact h.complete hroom y hy
    · intro y hne hy
      have hzero : l.count y = 0 := List.count_eq_zero_of_not_mem fun hl => hy (h.complete hroom y hl)
      rw [hzero]
      exact ⟨Nat.zero_le _, fun z d _ _ => Nat.zero_le d⟩
  | keep hnew hfull hleast =>
    have hne : ∀ {y d}, m.lookup y = some d → y ≠ x := by
      rintro y d hy rfl
      exact hnew (AList.lookup_isSome.1 (by rw [hy]; rfl))
    constructor
    · exact h.bounded
    · intro y hy
      exact List.mem_append_left _ (h.seen y hy)
    · intro y d hy
      exact (h.of_concat hgrows hy (hne hy)).1
    · intro y d hy
      exact (h.of_concat hgrows hy (hne hy)).2
    · intro hlt
      omega
    · intro y hy z d hz
      by_cases hyx : y = x
      · subst hyx
        exact hcount.trans (hleast z d hz)
      · rw [count_concat_of_ne l hyx]
        exact h.missed y hy z d hz
  | @replace hnew hfull y d hy hleast hlt =>
    have hyx : x ∉ m.erase y := fun hx => hnew (AList.mem_erase.1 hx).2
    have hmem : y ∈ m := AList.lookup_isSome.1 (by rw [hy]; rfl)
    have hlength := Maps.length_insert hyx (est (l ++ [x]) x)
    have hless := Maps.length_erase hmem
    have hbounded := h.bounded
    have hrest : ∀ z e, (m.erase y).lookup z = some e → m.lookup z = some e := by
      intro z e hz
      by_cases hzy : z = y
      · rw [hzy, AList.lookup_erase] at hz
        cases hz
      · rwa [AList.lookup_erase_ne hzy] at hz
    apply h.insert hgrows hcount (fun z e _ hz => hrest z e hz)
    · omega
    · intro hlt'
      omega
    · -- an element that is missing now was missing before, or is the one that had to go
      intro z hzx hz
      have hle : l.count z ≤ d := by
        by_cases hzy : z = y
        · rw [hzy]
          exact h.count_le y d hy
        · exact h.missed z (fun hzm => hz (AList.mem_erase.2 ⟨hzy, hzm⟩)) y d hy
      exact ⟨hle.trans hlt.le, fun w e _ hw => hle.trans (hleast w e (hrest w e hw))⟩

end Tracks

end HeavyHitters
