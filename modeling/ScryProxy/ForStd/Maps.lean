import Mathlib.Data.Finset.Card
import Mathlib.Data.List.AList
import Mathlib.Data.List.Induction

/-!
# Maps

The number of entries of a map after an insertion or an erasure.

A map that is filled from a list has for a key what the last element with that key gives, or
what it had before (`lookup_foldl_insert`).
-/

namespace Maps

section Length

variable {K V : Type} [DecidableEq K] {m : AList fun _ : K => V} {k : K}

theorem length_erase (h : k ∈ m) : (m.erase k).entries.length + 1 = m.entries.length := by
  have hkeys : ∀ m' : AList fun _ : K => V, m'.entries.length = m'.keys.length := fun m' =>
    (List.length_map _).symm
  rw [hkeys, hkeys, AList.keys_erase]
  exact List.length_erase_add_one h

theorem length_erase_le (m : AList fun _ : K => V) (k : K) :
    (m.erase k).entries.length ≤ m.entries.length :=
  List.Sublist.length_le (List.kerase_sublist k m.entries)

theorem length_insert (h : k ∉ m) (v : V) : (m.insert k v).entries.length = m.entries.length + 1 := by
  rw [AList.entries_insert_of_notMem h, List.length_cons]

theorem notMem_erase_self (m : AList fun _ : K => V) (k : K) : k ∉ m.erase k :=
  fun hk => (AList.mem_erase.1 hk).1 rfl

/-- An insertion takes the place of an old entry. -/
theorem insert_erase_self (m : AList fun _ : K => V) (k : K) (v : V) :
    (m.erase k).insert k v = m.insert k v := by
  refine AList.ext ?_
  rw [AList.entries_insert_of_notMem (notMem_erase_self m k), AList.entries_insert]
  rfl

theorem length_insert_of_mem (h : k ∈ m) (v : V) : (m.insert k v).entries.length = m.entries.length := by
  rw [← insert_erase_self, length_insert (notMem_erase_self m k), length_erase h]

/-- An entry and the others. -/
theorem entries_perm_erase {v : V} (h : m.lookup k = some v) :
    m.entries.Perm (⟨k, v⟩ :: (m.erase k).entries) := by
  have hmem : k ∈ m := AList.lookup_isSome.1 (by rw [h]; rfl)
  obtain ⟨v', before, after, -, hentries, hrest⟩ := List.exists_of_kerase hmem
  have hv : m.lookup k = some v' := by
    rw [← Option.mem_def, AList.mem_lookup_iff, hentries]
    exact List.mem_append_right _ List.mem_cons_self
  rw [h] at hv
  cases hv
  have herase : (m.erase k).entries = before ++ after := hrest
  rw [herase, hentries]
  exact List.perm_middle

/-- A map after an erasure has what it had before for every other key. -/
theorem lookup_erase_eq (m : AList fun _ : K => V) (k j : K) :
    (m.erase k).lookup j = if j = k then none else m.lookup j := by
  split
  · next h => rw [h, AList.lookup_erase]
  · next h => exact AList.lookup_erase_ne h

theorem card_keys (m : AList fun _ : K => V) : m.keys.toFinset.card = m.entries.length := by
  rw [List.toFinset_card_of_nodup m.keys_nodup, AList.keys, List.keys, List.length_map]

end Length

/-- An entry of a map after an insertion is the new one or an old one. -/
theorem lookup_insert_cases {K V : Type} [DecidableEq K] {m : AList fun _ : K => V} {x y : K} {c d : V}
    (h : (m.insert x c).lookup y = some d) : (y = x ∧ d = c) ∨ (y ≠ x ∧ m.lookup y = some d) := by
  by_cases hy : y = x
  · subst hy
    rw [AList.lookup_insert] at h
    exact .inl ⟨rfl, (Option.some.inj h).symm⟩
  · rw [AList.lookup_insert_ne hy] at h
    exact .inr ⟨hy, h⟩

variable {α β ι : Type} [DecidableEq α] (key : ι → α) (val : ι → β)

theorem lookup_foldl_insert (l : List ι) (m : AList fun _ : α => β) (a : α) :
    (l.foldl (fun m i => m.insert (key i) (val i)) m).lookup a =
      ((l.reverse.find? fun i => key i = a).map val).or (m.lookup a) := by
  induction l using List.reverseRecOn with
  | nil => rfl
  | append_singleton l i ih =>
    rw [List.foldl_concat, List.reverse_concat]
    by_cases hkey : key i = a
    · rw [List.find?_cons_of_pos (by simpa using hkey), ← hkey, AList.lookup_insert]
      rfl
    · rw [List.find?_cons_of_neg (by simpa using hkey), AList.lookup_insert_ne (Ne.symm hkey), ih]

variable {key val} {l : List ι} {m : AList fun _ : α => β}

theorem lookup_foldl_insert_of_ne {a : α} (h : ∀ i ∈ l, key i ≠ a) :
    (l.foldl (fun m i => m.insert (key i) (val i)) m).lookup a = m.lookup a := by
  have hnone : l.reverse.find? (fun i => key i = a) = none := by simpa using h
  rw [lookup_foldl_insert, hnone]
  rfl

/-- Where no two elements have one key, each of them is found. -/
theorem lookup_foldl_insert_of_mem (hnodup : (l.map key).Nodup) {i : ι} (hi : i ∈ l) :
    (l.foldl (fun m i => m.insert (key i) (val i)) m).lookup (key i) = some (val i) := by
  rw [lookup_foldl_insert]
  obtain ⟨j, hj⟩ : ∃ j, l.reverse.find? (fun j => key j = key i) = some j := by
    rw [← Option.isSome_iff_exists, List.find?_isSome]
    exact ⟨i, List.mem_reverse.2 hi, by simp⟩
  -- the element found is the given one
  have hkey : key j = key i := by simpa using List.find?_some hj
  have hmem : j ∈ l := List.mem_reverse.1 (List.mem_of_find?_eq_some hj)
  rw [hj, List.inj_on_of_nodup_map hnodup hmem hi hkey]
  rfl

end Maps
