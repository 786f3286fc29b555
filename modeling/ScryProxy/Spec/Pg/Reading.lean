import ScryProxy.ForStd.Cuts
import ScryProxy.Spec.Pg.Lexer

/-!
# What stands in front of a text

A word in front of a text, with nothing but blanks before it, is its first token
(`lexFuel_word`).  A place of a text starts a statement when the tokens from there on
are the last ones of the text, and come after a semicolon; the tokens up to the next
semicolon are then a statement of the text (`Starts.mem_statements`).
-/

namespace Pg

/-! ## The first token -/

variable {c : Char} {rest : Str}

/-- Nothing but a quote, a dollar or the mark of a constant opens one. -/
theorem readConstant_eq_none (hc : c ∉ ['\'', '"', '$'])
    (hmark : c ∉ ['e', 'E', 'b', 'B', 'x', 'X', 'n', 'N', 'u', 'U'] ∨
      rest.head?.all (fun d => d != '\'' && d != '&') = true) :
    readConstant (c :: rest) = none := by
  unfold readConstant
  split <;> simp_all

variable {toks : List Token}

theorem lexFuel_space {fuel : Nat} (hc : isSpace c = true)
    (h : lexFuel fuel (c :: rest) = some toks) : ∃ fuel', lexFuel fuel' rest = some toks := by
  cases fuel with
  | zero => cases h
  | succ fuel =>
    have hnone : readConstant (c :: rest) = none := by
      have hnot : (['\'', '"', '$'] ++ ['e', 'E', 'b', 'B', 'x', 'X', 'n', 'N', 'u', 'U']).all
          (fun d => !isSpace d) = true := by decide
      have hmem (hc' : c ∈ ['\'', '"', '$'] ++ ['e', 'E', 'b', 'B', 'x', 'X', 'n', 'N', 'u', 'U']) :
          False := by
        have hd := List.all_eq_true.1 hnot c hc'
        rw [hc] at hd
        cases hd
      exact readConstant_eq_none (fun h => hmem (List.mem_append_left _ h))
        (.inl fun h => hmem (List.mem_append_right _ h))
    simp only [lexFuel, hnone, hc, if_true] at h
    exact ⟨fuel, h⟩

theorem lexFuel_spaces {fuel : Nat} {blanks : Str} (hblanks : ∀ c ∈ blanks, isSpace c = true)
    (h : lexFuel fuel (blanks ++ rest) = some toks) : ∃ fuel', lexFuel fuel' rest = some toks := by
  induction blanks generalizing fuel with
  | nil => exact ⟨fuel, h⟩
  | cons c blanks ih =>
    obtain ⟨fuel', h⟩ := lexFuel_space (hblanks c List.mem_cons_self) h
    exact ih (fun d hd => hblanks d (List.mem_cons_of_mem c hd)) h

theorem isSpace_of_isAlpha (h : c.isAlpha = true) : isSpace c = false := by
  have hrange : 65 ≤ c.toNat := by
    rcases Bool.or_eq_true_iff.1 h with h | h
    · exact (of_decide_eq_true h).1
    · have hlower : 97 ≤ c.toNat := of_decide_eq_true (Bool.and_eq_true_iff.1 h).1
      omega
  simp only [isSpace, Bool.or_eq_false_iff, beq_eq_false_iff_ne, Bool.and_eq_false_iff,
    decide_eq_false_iff_not]
  omega

theorem isIdentCont_of_isAlpha (h : c.isAlpha = true) : isIdentCont c = true := by
  simp [isIdentCont, isIdentStart, h]

/-- Two letters open no constant. -/
theorem readConstant_letters {d : Char} (hc : c.isAlpha = true) (hd : d.isAlpha = true) :
    readConstant (c :: d :: rest) = none := by
  have hnot {e : Char} (he : e.isAlpha = true) : e ∉ ['\'', '"', '$', '&'] := by
    intro hmem
    have hall : ['\'', '"', '$', '&'].all (fun e => !e.isAlpha) = true := by decide
    have hother := List.all_eq_true.1 hall e hmem
    rw [he] at hother
    cases hother
  have hcs := hnot hc
  have hds := hnot hd
  simp only [List.mem_cons, List.not_mem_nil, or_false, not_or] at hcs hds
  exact readConstant_eq_none (by simp [hcs]) (.inr (by simp [hds]))

/-- A word of two letters or more, not followed by a character that would continue it. -/
theorem lexFuel_word {fuel : Nat} {word : Str} (hword : ∀ c ∈ word, c.isAlpha = true)
    (hlen : 2 ≤ word.length) (hend : rest.head?.all (fun c => !isIdentCont c) = true)
    (h : lexFuel fuel (word ++ rest) = some toks) :
    ∃ fuel' toks', toks = .word (fold word) :: toks' ∧ lexFuel fuel' rest = some toks' := by
  match word, hlen with
  | c :: d :: word, _ =>
    have hc : c.isAlpha = true := hword c List.mem_cons_self
    have hd : d.isAlpha = true := hword d (List.mem_cons_of_mem c List.mem_cons_self)
    have hcont : ∀ e ∈ d :: word, isIdentCont e = true := fun e he =>
      isIdentCont_of_isAlpha (hword e (List.mem_cons_of_mem c he))
    have hstop : rest.takeWhile isIdentCont = [] ∧ rest.dropWhile isIdentCont = rest := by
      cases rest with
      | nil => exact ⟨rfl, rfl⟩
      | cons e rest =>
        have he : isIdentCont e = false := by simpa using hend
        exact ⟨List.takeWhile_cons_of_neg (by simp [he]), List.dropWhile_cons_of_neg (by simp [he])⟩
    have htake : (d :: word ++ rest).takeWhile isIdentCont = d :: word := by
      rw [List.takeWhile_append_of_pos hcont, hstop.1, List.append_nil]
    have hdrop : (d :: word ++ rest).dropWhile isIdentCont = rest := by
      rw [List.dropWhile_append_of_pos hcont, hstop.2]
    have hdash : ¬ (c = '-' ∧ (d :: word ++ rest).head? = some '-') := by
      rintro ⟨rfl, -⟩
      cases hc
    have hslash : ¬ (c = '/' ∧ (d :: word ++ rest).head? = some '*') := by
      rintro ⟨rfl, -⟩
      cases hc
    have hstart : isIdentStart c = true := by simp [isIdentStart, hc]
    cases fuel with
    | zero => cases h
    | succ fuel =>
      rw [List.cons_append, lexFuel, List.cons_append, readConstant_letters hc hd,
        ← List.cons_append] at h
      simp only [isSpace_of_isAlpha hc, Bool.false_eq_true, if_false, if_neg hdash, if_neg hslash,
        hstart, if_true, htake, hdrop] at h
      obtain ⟨toks', hrest, rfl⟩ := Option.map_eq_some_iff.1 h
      exact ⟨fuel, toks', rfl, hrest⟩

/-! ## Where statements start -/

/-- The tokens of `t` are the last ones of the text, from the start of a statement on. -/
def Starts (sql t : Str) : Prop :=
  ∃ before toks, lex sql = some (before ++ toks) ∧ lex t = some toks ∧
    (before = [] ∨ before.getLast? = some (.symbol ';'))

/-- The tokens from a start to the next semicolon are a statement of the text. -/
theorem Starts.mem_statements {sql t : Str} {first : Token} (h : Starts sql t)
    (hlex : lex t = some (first :: toks)) (hfirst : first ≠ .symbol ';') :
    first :: toks.takeWhile (· != .symbol ';') ∈ statements sql := by
  obtain ⟨before, toks', hsql, ht, hbefore⟩ := h
  cases hlex.symm.trans ht
  have htake : (first :: toks).takeWhile (· != .symbol ';') =
      first :: toks.takeWhile (· != .symbol ';') :=
    List.takeWhile_cons_of_pos (by simpa using hfirst)
  -- the first part of the tokens is one of the parts of all of them
  have hpart : first :: toks.takeWhile (· != .symbol ';') ∈
      (before ++ first :: toks).splitOn (.symbol ';') := by
    have hmem := Cuts.takeWhile_mem_splitOn (.symbol ';') (first :: toks)
    rw [htake] at hmem
    rcases hbefore with rfl | hlast
    · exact hmem
    · obtain ⟨front, rfl⟩ := List.getLast?_eq_some_iff.1 hlast
      rw [List.append_assoc, List.singleton_append, List.splitOn,
        List.splitOnP_append_cons front _ (by simp)]
      exact List.mem_append_right _ hmem
  rw [statements, hsql, Option.getD_some]
  exact List.mem_filter.2 ⟨hpart, rfl⟩

end Pg
