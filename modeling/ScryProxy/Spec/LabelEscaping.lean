import ScryProxy.Native.Prometheus

/-!
# Labels read back by a scraper

`escape_label` replaces in three passes.  No pass writes a character that a later one
replaces, so the passes act as one substitution (`escapeLabel_eq_flatMap`), and the escaped
label is read back as the label (`scan_escapeLabel`).
-/

/-! ## The text format -/

namespace Exposition

/-- The character that a backslash before `c` stands for. -/
def escaped (c : Char) : Option Char :=
  if c = '\\' then some '\\' else if c = '"' then some '"' else if c = 'n' then some '\n' else none

/-- A label value up to the quote that ends it, or the end of the text; what is left. -/
def scan : Str → Option (Str × Str)
  | [] => some ([], [])
  | [c] => if c = '\\' ∨ c = '\n' then none else if c = '"' then some ([], [c]) else some ([c], [])
  | c :: d :: s =>
    if c = '\\' then do
      let e ← escaped d
      let (value, rest) ← scan s
      return (e :: value, rest)
    else if c = '\n' then none
    else if c = '"' then some ([], c :: d :: s)
    else do
      let (value, rest) ← scan (d :: s)
      return (c :: value, rest)

/-- The value of a label whose whole text is given. -/
def unescape (s : Str) : Option Str :=
  match scan s with
  | some (value, []) => some value
  | _ => none

end Exposition

namespace ScryProxy

open Exposition (scan unescape)

/-! ## One substitution -/

/-- What stands for a character in an escaped label. -/
def escapeChar (c : Char) : Str :=
  if c = '\\' then "\\\\".toList
  else if c = '"' then "\\\"".toList
  else if c = '\n' then "\\n".toList
  else [c]

/-- Replacing in what was replaced. -/
theorem replaceChar_flatMap (f : Char → Str) (s : Str) (c : Char) (new : Str) :
    Str.replaceChar (s.flatMap f) c new = s.flatMap fun d => (f d).replaceChar c new :=
  List.flatMap_assoc

/-- The three passes are one: none of them writes a character that a later one replaces. -/
theorem escapeLabel_eq_flatMap (s : Str) : escapeLabel s = s.flatMap escapeChar := by
  have hfirst : s.replaceChar '\\' "\\\\".toList =
      s.flatMap fun d => if d = '\\' then "\\\\".toList else [d] := rfl
  rw [escapeLabel, hfirst, replaceChar_flatMap, replaceChar_flatMap]
  congr 1
  funext c
  unfold escapeChar
  by_cases hbackslash : c = '\\'
  · subst hbackslash
    rfl
  by_cases hquote : c = '"'
  · subst hquote
    rfl
  by_cases hnewline : c = '\n'
  · subst hnewline
    rfl
  simp only [if_neg hbackslash, Str.replaceChar, List.flatMap_cons, if_neg hquote, List.flatMap_nil,
    List.append_nil, if_neg hnewline]

@[simp]
theorem escapeLabel_nil : escapeLabel [] = [] := rfl

theorem escapeLabel_cons (c : Char) (s : Str) :
    escapeLabel (c :: s) = escapeChar c ++ escapeLabel s := by
  simp only [escapeLabel_eq_flatMap, List.flatMap_cons]

theorem escapeLabel_append (s t : Str) : escapeLabel (s ++ t) = escapeLabel s ++ escapeLabel t := by
  simp only [escapeLabel_eq_flatMap, List.flatMap_append]

/-- A character is written as itself, or as a backslash and a character that is not a newline. -/
theorem escapeChar_cases (c : Char) :
    (c = '\\' ∧ escapeChar c = ['\\', '\\']) ∨ (c = '"' ∧ escapeChar c = ['\\', '"']) ∨
      (c = '\n' ∧ escapeChar c = ['\\', 'n']) ∨
      (c ≠ '\\' ∧ c ≠ '"' ∧ c ≠ '\n' ∧ escapeChar c = [c]) := by
  unfold escapeChar
  split
  · next h => exact .inl ⟨h, rfl⟩
  · next hbackslash =>
    split
    · next h => exact .inr (.inl ⟨h, rfl⟩)
    · next hquote =>
      split
      · next h => exact .inr (.inr (.inl ⟨h, rfl⟩))
      · next hnewline => exact .inr (.inr (.inr ⟨hbackslash, hquote, hnewline, rfl⟩))

/-! ## Newlines and quotes -/

theorem newline_notMem_escapeLabel (s : Str) : '\n' ∉ escapeLabel s := by
  rw [escapeLabel_eq_flatMap, List.mem_flatMap]
  rintro ⟨c, -, hmem⟩
  rcases escapeChar_cases c with ⟨-, hc⟩ | ⟨-, hc⟩ | ⟨-, hc⟩ | ⟨-, -, hnewline, hc⟩ <;> rw [hc] at hmem
  · simp at hmem
  · simp at hmem
  · simp at hmem
  · exact hnewline (List.mem_singleton.1 hmem).symm

/-- A quote in an escaped label is written for a quote of the label. -/
theorem exists_of_quote {s front back : Str} (h : escapeLabel s = front ++ '"' :: back) :
    ∃ s₁ s₂, s = s₁ ++ '"' :: s₂ ∧ front = escapeLabel s₁ ++ ['\\'] := by
  induction s generalizing front with
  | nil => simp at h
  | cons c s ih =>
    rw [escapeLabel_cons] at h
    -- the quote is written for a later character, unless the first one is a quote
    have hlater : ∀ rest, front = escapeChar c ++ rest → escapeLabel s = rest ++ '"' :: back →
        ∃ s₁ s₂, c :: s = s₁ ++ '"' :: s₂ ∧ front = escapeLabel s₁ ++ ['\\'] := by
      intro rest hfront hrest
      obtain ⟨s₁, s₂, rfl, rfl⟩ := ih hrest
      exact ⟨c :: s₁, s₂, rfl, by rw [hfront, escapeLabel_cons, List.append_assoc]⟩
    rcases List.append_eq_append_iff.1 h with ⟨rest, hfront, hrest⟩ | ⟨rest, hchar, hrest⟩
    · exact hlater rest hfront hrest
    · cases rest with
      | nil => exact hlater [] (by simpa using hchar.symm) (by simpa using hrest.symm)
      | cons d rest =>
        -- the quote is part of what is written for the first character
        obtain ⟨rfl, -⟩ := List.cons_eq_cons.1 hrest
        rcases escapeChar_cases c with ⟨-, hc⟩ | ⟨rfl, hc⟩ | ⟨-, hc⟩ | ⟨-, hquote, -, hc⟩ <;>
          rw [hc] at hchar
        · simp [List.cons_eq_append_iff] at hchar
        · have hfront : front = ['\\'] ∧ rest = [] := by simpa [List.cons_eq_append_iff] using hchar
          exact ⟨[], s, rfl, hfront.1⟩
        · simp [List.cons_eq_append_iff] at hchar
        · simp [List.cons_eq_append_iff, Ne.symm hquote] at hchar

/-- The backslashes at the end of a text. -/
def trailingBackslashes (s : Str) : Nat := (s.rtakeWhile (· == '\\')).length

theorem trailingBackslashes_concat (s : Str) (c : Char) :
    trailingBackslashes (s ++ [c]) = if c = '\\' then trailingBackslashes s + 1 else 0 := by
  rw [trailingBackslashes, List.rtakeWhile_concat]
  split <;> simp_all [trailingBackslashes]

/-- Escaping doubles a run of backslashes. -/
theorem trailingBackslashes_escapeLabel (s : Str) :
    trailingBackslashes (escapeLabel s) = 2 * trailingBackslashes s := by
  induction s using List.reverseRecOn with
  | nil => rfl
  | append_singleton s c ih =>
    have hpair : ∀ d e, escapeLabel s ++ [d, e] = (escapeLabel s ++ [d]) ++ [e] := by simp
    rw [escapeLabel_append, escapeLabel_cons, escapeLabel_nil, List.append_nil,
      trailingBackslashes_concat]
    rcases escapeChar_cases c with ⟨rfl, hc⟩ | ⟨rfl, hc⟩ | ⟨rfl, hc⟩ | ⟨hbackslash, -, -, hc⟩ <;> rw [hc]
    · rw [hpair, trailingBackslashes_concat, trailingBackslashes_concat, ih, if_pos rfl, if_pos rfl,
        if_pos rfl]
      omega
    · rw [hpair, trailingBackslashes_concat, if_neg (by decide), if_neg (by decide)]
    · rw [hpair, trailingBackslashes_concat, if_neg (by decide), if_neg (by decide)]
    · rw [trailingBackslashes_concat, if_neg hbackslash, if_neg hbackslash]

/-! ## Reading a label back -/

/-- The label ends at the end of the text or at a quote. -/
theorem scan_escapeLabel (s : Str) {rest : Str} (hrest : rest = [] ∨ ∃ t, rest = '"' :: t) :
    scan (escapeLabel s ++ rest) = some (s, rest) := by
  induction s with
  | nil =>
    rcases hrest with rfl | ⟨t, rfl⟩
    · rfl
    · cases t <;> rfl
  | cons c s ih =>
    rw [escapeLabel_cons, List.append_assoc]
    rcases escapeChar_cases c with ⟨rfl, hc⟩ | ⟨rfl, hc⟩ | ⟨rfl, hc⟩ | ⟨hbackslash, hquote, hnewline, hc⟩ <;>
      rw [hc]
    · simp [scan, Exposition.escaped, ih]
    · simp [scan, Exposition.escaped, ih]
    · simp [scan, Exposition.escaped, ih]
    · rw [List.singleton_append]
      cases hmore : escapeLabel s ++ rest with
      | nil =>
        rw [hmore] at ih
        simp_all [scan]
      | cons d more =>
        rw [hmore] at ih
        simp [scan, hbackslash, hnewline, hquote, ih]

/-- An escaped label has no newline, each of its quotes follows an odd number of backslashes, and it
    is decoded as the label. -/
theorem escapeLabel_sound (s : Str) :
    '\n' ∉ escapeLabel s ∧
      (∀ front back, escapeLabel s = front ++ '"' :: back → trailingBackslashes front % 2 = 1) ∧
      unescape (escapeLabel s) = some s := by
  refine ⟨newline_notMem_escapeLabel s, ?_, ?_⟩
  · intro front back h
    obtain ⟨s₁, s₂, -, rfl⟩ := exists_of_quote h
    rw [trailingBackslashes_concat, if_pos rfl, trailingBackslashes_escapeLabel]
    omega
  · have hscan := scan_escapeLabel s (.inl rfl)
    rw [List.append_nil] at hscan
    rw [unescape, hscan]

end ScryProxy
