import ScryProxy.Spec.DetectorPanics
import ScryProxy.Spec.Pg.Reading
import ScryProxy.Spec.Pg.Statement
import ScryProxy.Spec.TextReading

/-!
# Text inside literals and the pin tracker

`split_statements` cuts at every semicolon and `detect` looks for substrings, so text
inside a literal, a comment or a quoted identifier can be taken for a command.  A
text is harmless when none of its statements, under the server's lexing, removes
session state.  A part that begins where a statement begins, and whose words are what
they seem, drops no pin in a harmless text (`not_partDrops_of_harmless`): the keyword
that would drop one is the first token of the statement.  So a harmless text leaves a
pinned connection pinned exactly when the other parts spare some pin
(`literalsKeepPin_iff`), and `discardInLiteral_unpins` gives one where they do not.
-/

namespace Pg

def unlockFunctions : List Str :=
  ["pg_advisory_unlock", "pg_advisory_unlock_shared", "pg_advisory_unlock_all"].map String.toList

/-- Some advisory-unlock function is called: its name stands before a parenthesis. -/
def callsUnlock : List Token → Bool
  | [] => false
  | t :: rest =>
    (t.name?.any (· ∈ unlockFunctions) && rest.head? == some (.symbol '(')) || callsUnlock rest

/-- The statement removes session state. -/
def unpins (statement : List Token) : Bool :=
  callsUnlock statement ||
  match statement with
  | .word w :: rest =>
    w ∈ ["discard", "reset", "deallocate", "close", "unlisten"].map String.toList ||
    (w == "drop".toList && rest.head? == some (.word "table".toList))
  | _ => false

/-- No statement of the text removes session state. -/
def Harmless (sql : Str) : Prop := ∀ statement ∈ statements sql, unpins statement = false

instance (sql : Str) : Decidable (Harmless sql) :=
  inferInstanceAs (Decidable (∀ _ ∈ _, _))

end Pg

namespace ScryProxy

open CommandDetector
open Str (toUppercase isWhitespace)

/-! ## Keywords that are tokens -/

theorem fold_charToUppercase {c : Char} (hc : c.toNat < 128) :
    (UnicodeCase.charToUppercase c).map Char.toLower = [c.toLower] := by
  have hall : ∀ n < 128, (UnicodeCase.charToUppercase (Char.ofNat n)).map Char.toLower =
      [(Char.ofNat n).toLower] := by decide
  have h := hall c.toNat hc
  rwa [Char.ofNat_toNat] at h

theorem fold_toUppercase {s : Str} (hs : ∀ c ∈ s, c.toNat < 128) :
    Pg.fold (toUppercase s) = Pg.fold s := by
  induction s with
  | nil => rfl
  | cons c s ih =>
    obtain ⟨hc, hs⟩ := List.forall_mem_cons.1 hs
    have hcons : toUppercase (c :: s) = UnicodeCase.charToUppercase c ++ toUppercase s := rfl
    rw [hcons, Pg.fold, List.map_append, fold_charToUppercase hc]
    exact congrArg (c.toLower :: ·) (ih hs)

/-- An ASCII text that is uppercased to a front begins with it, up to case. -/
theorem exists_front_of_ascii {s pat : Str} (hs : ∀ c ∈ s, c.toNat < 128)
    (h : pat <+: toUppercase s) : ∃ raw rest, s = raw ++ rest ∧ Pg.fold raw = Pg.fold pat := by
  refine ⟨s.take pat.length, s.drop pat.length, (List.take_append_drop _ _).symm, ?_⟩
  obtain ⟨more, hmore⟩ := h
  have htake : pat = (toUppercase s).take pat.length := by rw [← hmore, List.take_left]
  conv_rhs => rw [htake]
  rw [Pg.fold, Pg.fold, List.map_take, List.map_take]
  exact congrArg _ (fold_toUppercase hs).symm

theorem isAlpha_toLower (c : Char) : c.toLower.isAlpha = c.isAlpha :=
  UnicodeCase.apply_toLower (by decide) c

theorem isAlpha_of_fold {raw word : Str} (h : Pg.fold raw = Pg.fold word)
    (hword : word.all Char.isAlpha = true) : ∀ c ∈ raw, c.isAlpha = true := by
  intro c hc
  have hmem : c.toLower ∈ Pg.fold word := h ▸ List.mem_map_of_mem hc
  obtain ⟨d, hd, hlower⟩ := List.mem_map.1 hmem
  rw [← isAlpha_toLower, ← hlower, isAlpha_toLower, List.all_eq_true.1 hword d hd]

theorem isSpace_of_isWhitespace {c : Char} (hc : c.toNat < 128) (h : isWhitespace c = true) :
    Pg.isSpace c = true := by
  have hall : ∀ n < 128, isWhitespace (Char.ofNat n) = true → Pg.isSpace (Char.ofNat n) = true := by
    decide
  have hspace := hall c.toNat hc
  rw [Char.ofNat_toNat] at hspace
  exact hspace h

theorem isIdentCont_of_isSpace {c : Char} (h : Pg.isSpace c = true) : Pg.isIdentCont c = false := by
  have hall : ∀ n < 33, Pg.isSpace (Char.ofNat n) = true → Pg.isIdentCont (Char.ofNat n) = false := by
    decide
  have hle : c.toNat < 33 := by
    simp only [Pg.isSpace, Bool.or_eq_true, beq_iff_eq, Bool.and_eq_true, decide_eq_true_eq] at h
    omega
  have hcont := hall c.toNat hle
  rw [Char.ofNat_toNat] at hcont
  exact hcont h

theorem eq_space_of_toLower {c : Char} (h : c.toLower = ' ') : c = ' ' := by
  have hletter : c.isAlpha = false := by rw [← isAlpha_toLower, h]; decide
  have hsame : c.toLower = c := by
    refine dif_neg fun hupper => ?_
    have halpha : c.isAlpha = true := Bool.or_eq_true_iff.2 (.inl (decide_eq_true hupper))
    rw [hletter] at halpha
    cases halpha
  rwa [hsame] at h

section

variable {u r : Str} {fuel : Nat} {toks : List Pg.Token}

/-- A word in front of an ASCII text is its first token. -/
theorem lexFuel_front {word raw rest : Str} (hascii : ∀ c ∈ u, c.toNat < 128)
    (hword : word.all Char.isAlpha = true) (hlen : 2 ≤ word.length) (hu : u.trim = raw ++ rest)
    (hraw : Pg.fold raw = Pg.fold word)
    (hrest : rest.head?.all (fun c => !Pg.isIdentCont c) = true)
    (hr : r.head?.all (fun c => !Pg.isIdentCont c) = true)
    (hlex : Pg.lexFuel fuel (u ++ r) = some toks) :
    ∃ fuel' toks' back, (∀ c ∈ back, Pg.isSpace c = true) ∧
      toks = .word (Pg.fold word) :: toks' ∧
      Pg.lexFuel fuel' (rest ++ (back ++ r)) = some toks' := by
  obtain ⟨front, back, htrim, hfront, hback⟩ := Str.exists_trim u
  have hspace {c : Char} (hc : c ∈ u) (h : isWhitespace c = true) : Pg.isSpace c = true :=
    isSpace_of_isWhitespace (hascii c hc) h
  have hfront' : ∀ c ∈ front, Pg.isSpace c = true := fun c hc =>
    hspace (by rw [htrim]; exact List.mem_append_left _ hc) (hfront c hc)
  have hback' : ∀ c ∈ back, Pg.isSpace c = true := fun c hc =>
    hspace (by rw [htrim]; exact List.mem_append_right _ (List.mem_append_right _ hc)) (hback c hc)
  rw [htrim, hu] at hlex
  simp only [List.append_assoc] at hlex
  obtain ⟨fuel₁, hlex⟩ := Pg.lexFuel_spaces hfront' hlex
  have hend : (rest ++ (back ++ r)).head?.all (fun c => !Pg.isIdentCont c) = true := by
    cases rest with
    | cons c rest => exact hrest
    | nil =>
      cases back with
      | cons c back => simp [isIdentCont_of_isSpace (hback' c List.mem_cons_self)]
      | nil => exact hr
  have hlen' : raw.length = word.length := by
    simpa [Pg.fold] using congrArg List.length hraw
  obtain ⟨fuel₂, toks', htoks, hlex'⟩ :=
    Pg.lexFuel_word (isAlpha_of_fold hraw hword) (hlen'.symm ▸ hlen) hend hlex
  exact ⟨fuel₂, toks', back, hback', hraw ▸ htoks, hlex'⟩

theorem ascii_trim (hascii : ∀ c ∈ u, c.toNat < 128) : ∀ c ∈ u.trim, c.toNat < 128 := by
  obtain ⟨front, back, hu, -⟩ := Str.exists_trim u
  intro c hc
  refine hascii c ?_
  rw [hu]
  exact List.mem_append_right _ (List.mem_append_left _ hc)

/-- A keyword and a space in front of an ASCII text: the keyword is its first token. -/
theorem lexFuel_keyword {word more : Str} (hascii : ∀ c ∈ u, c.toNat < 128)
    (hword : word.all Char.isAlpha = true) (hlen : 2 ≤ word.length)
    (h : word ++ ' ' :: more <+: toUppercase u.trim)
    (hr : r.head?.all (fun c => !Pg.isIdentCont c) = true)
    (hlex : Pg.lexFuel fuel (u ++ r) = some toks) :
    ∃ fuel' toks' raw raw' rest back, (∀ c ∈ back, Pg.isSpace c = true) ∧
      u.trim = raw ++ ' ' :: (raw' ++ rest) ∧ Pg.fold raw = Pg.fold word ∧
      Pg.fold raw' = Pg.fold more ∧ toks = .word (Pg.fold word) :: toks' ∧
      Pg.lexFuel fuel' (' ' :: (raw' ++ rest) ++ (back ++ r)) = some toks' := by
  obtain ⟨front, rest, hu, hfold⟩ := exists_front_of_ascii (ascii_trim hascii) h
  rw [Pg.fold, Pg.fold, List.map_append, List.map_cons] at hfold
  obtain ⟨raw, tail, rfl, hraw, htail⟩ := List.map_eq_append_iff.1 hfold
  obtain ⟨c, raw', rfl, hc, hraw'⟩ := List.map_eq_cons_iff.1 htail
  cases eq_space_of_toLower hc
  rw [List.append_assoc, List.cons_append] at hu
  obtain ⟨fuel', toks', back, hback, htoks, hlex⟩ :=
    lexFuel_front hascii hword hlen hu hraw (show (!Pg.isIdentCont ' ') = true by decide) hr hlex
  exact ⟨fuel', toks', raw, raw', rest, back, hback, hu, hraw, hraw', htoks, hlex⟩

end

/-! ## Parts and the places where they begin -/

/-- The part that begins at a place goes on to the next semicolon. -/
def pieceAt (t : Str) : Str := t.takeWhile (· != ';')

/-- The part as the tracker reads it. -/
def partAt (t : Str) : Str := (pieceAt t).trim

/-- The places of a text where the tracker finds a part. -/
def partPlaces (query : Str) : List Str :=
  (Cuts.places ';' query).filter fun t => !(partAt t).isEmpty

theorem splitStatements_eq (query : Str) :
    splitStatements query = (partPlaces query).map partAt := by
  rw [splitStatements, Cuts.splitOn_eq_map_places, List.map_map, partPlaces, List.filter_map]
  rfl

/-- Words that the server reads otherwise: characters beyond ASCII, which may be uppercased to
    letters or trimmed as blanks, `pg_advisory_unlock` where it is not called, and DROP TABLE as the
    front of a longer word. -/
def Veiled (piece : Str) : Prop :=
  (∃ c ∈ piece, 128 ≤ c.toNat) ∨ mentions "PG_ADVISORY_UNLOCK" piece = true ∨
    (begins "DROP TABLE" piece = true ∧ (piece.trim.drop 10).head?.any Pg.isIdentCont = true)

/-- A part of a text is misread when it does not begin where a statement begins, or when its words
    are not what they seem. -/
def Misread (query t : Str) : Prop := ¬ Pg.Starts query t ∨ Veiled (pieceAt t)

/-- A semicolon ends a word. -/
theorem head_dropWhile_semicolon (t : Str) :
    (t.dropWhile (· != ';')).head?.all (fun c => !Pg.isIdentCont c) = true := by
  cases h : t.dropWhile (· != ';') with
  | nil => rfl
  | cons c rest =>
    have hc := List.head_dropWhile_not (· != ';') (l := t) (by simp [h])
    simp only [h, List.head_cons, bne_eq_false_iff_eq] at hc
    rw [hc, List.head?_cons, Option.all_some]
    decide

theorem begins_partAt (keyword : String) (t : Str) :
    begins keyword (partAt t) = begins keyword (pieceAt t) := by
  rw [begins, begins, partAt, Str.trim_trim]

/-- The words by which a part drops any pin. -/
theorem words_of_partDrops {part : Str} {p : Pin} (h : PartDrops part p) :
    begins "DISCARD ALL" part = true ∨ begins "RESET " part = true ∨
      begins "DROP TABLE" part = true ∨ begins "CLOSE " part = true ∨
      begins "DEALLOCATE " part = true ∨ begins "UNLISTEN " part = true ∨
      toUppercase part.trim = "UNLISTEN".toList ∨ mentions "PG_ADVISORY_UNLOCK" part = true := by
  rcases h with h | h
  · exact .inl h
  · cases p with
    | prepared name =>
      rcases h with ⟨h, -⟩ | ⟨h, -⟩ <;> simp [(leads_iff.1 h).1]
    | sessionVariable name => rcases h with ⟨h, -⟩ | ⟨h, -⟩ <;> simp [h]
    | tempTable name => simp [(leads_iff.1 h.1).1]
    | cursor name => simp [(leads_iff.1 h.1).1]
    | advisoryLock key => simp [h.2.1]
    | listen channel =>
      have hunlisten : leadsUnlisten part = true := h.elim And.left And.left
      rcases Bool.or_eq_true_iff.1 hunlisten with h | h
      · simp [(leads_iff.1 h).1]
      · simp [beq_iff_eq.1 h]
    | unknownCommand => cases h

theorem unpins_of_word {w : Str} {rest : List Pg.Token}
    (hw : w ∈ ["discard", "reset", "deallocate", "close", "unlisten"].map String.toList) :
    Pg.unpins (.word w :: rest) = true := by
  simp only [Pg.unpins, decide_eq_true hw, Bool.true_or, Bool.or_true]

/-- A keyword and a space in front of a part that begins where a statement begins: the statement
    begins with the keyword. -/
theorem statement_of_keyword {query t : Str} (hstart : Pg.Starts query t)
    (hascii : ∀ c ∈ pieceAt t, c.toNat < 128) {keyword : String} (word more : Str)
    (hkeyword : keyword.toList = word ++ ' ' :: more) (hword : word.all Char.isAlpha = true)
    (hlen : 2 ≤ word.length) (h : begins keyword (partAt t) = true) :
    ∃ rest, .word (Pg.fold word) :: rest ∈ Pg.statements query := by
  rw [begins_partAt, begins, Str.startsWith, List.isPrefixOf_iff_prefix, hkeyword] at h
  obtain ⟨before, toks, hsql, hlex, hbefore⟩ := hstart
  have hlex' := hlex
  rw [Pg.lex, ← List.takeWhile_append_dropWhile (p := (· != ';')) (l := t)] at hlex'
  obtain ⟨-, toks', -, -, -, -, -, -, -, -, rfl, -⟩ :=
    lexFuel_keyword hascii hword hlen h (head_dropWhile_semicolon t) hlex'
  exact ⟨_, Pg.Starts.mem_statements ⟨before, _, hsql, hlex, hbefore⟩ hlex (by simp)⟩

/-- DROP TABLE in front of such a part, where the word ends after it. -/
theorem statement_of_dropTable {query t : Str} (hstart : Pg.Starts query t)
    (hascii : ∀ c ∈ pieceAt t, c.toNat < 128) (h : begins "DROP TABLE" (partAt t) = true)
    (hend : ¬ ((pieceAt t).trim.drop 10).head?.any Pg.isIdentCont = true) :
    ∃ rest, .word "drop".toList :: .word "table".toList :: rest ∈ Pg.statements query := by
  rw [begins_partAt, begins, Str.startsWith, List.isPrefixOf_iff_prefix,
    show "DROP TABLE".toList = "DROP".toList ++ ' ' :: "TABLE".toList by decide] at h
  obtain ⟨before, toks, hsql, hlex, hbefore⟩ := hstart
  have hlex' := hlex
  rw [Pg.lex, ← List.takeWhile_append_dropWhile (p := (· != ';')) (l := t)] at hlex'
  obtain ⟨fuel, toks', raw, raw', rest, back, hback, htrim, hraw, hraw', rfl, hmore⟩ :=
    lexFuel_keyword hascii (by decide) (by decide) h (head_dropWhile_semicolon t) hlex'
  rw [List.cons_append, List.append_assoc] at hmore
  obtain ⟨fuel, hmore⟩ := Pg.lexFuel_space (by decide) hmore
  have hlength : (raw ++ ' ' :: raw').length = 10 := by
    have hlen := congrArg List.length hraw
    have hlen' := congrArg List.length hraw'
    simp only [Pg.fold, List.length_map] at hlen hlen'
    rw [List.length_append, List.length_cons, hlen, hlen']
    rfl
  have hdrop : (pieceAt t).trim.drop 10 = rest := by
    rw [htrim, ← List.cons_append, ← List.append_assoc, List.drop_left' hlength]
  rw [hdrop] at hend
  have hend' : (rest ++ (back ++ t.dropWhile (· != ';'))).head?.all
      (fun c => !Pg.isIdentCont c) = true := by
    cases rest with
    | cons c rest => simpa using hend
    | nil =>
      cases back with
      | cons c back => simp [isIdentCont_of_isSpace (hback c List.mem_cons_self)]
      | nil => exact head_dropWhile_semicolon t
  have htwo : 2 ≤ raw'.length := by
    have hlen' := congrArg List.length hraw'
    simp only [Pg.fold, List.length_map] at hlen'
    rw [hlen']
    decide
  obtain ⟨-, toks'', rfl, -⟩ := Pg.lexFuel_word (isAlpha_of_fold hraw' (by decide)) htwo hend' hmore
  have hmem := Pg.Starts.mem_statements ⟨before, _, hsql, hlex, hbefore⟩ hlex (by simp)
  rw [List.takeWhile_cons_of_pos (by simp), hraw'] at hmem
  exact ⟨_, hmem⟩

/-- UNLISTEN alone in such a part. -/
theorem statement_of_unlisten {query t : Str} (hstart : Pg.Starts query t)
    (hascii : ∀ c ∈ pieceAt t, c.toNat < 128)
    (h : toUppercase (partAt t).trim = "UNLISTEN".toList) :
    ∃ rest, .word "unlisten".toList :: rest ∈ Pg.statements query := by
  rw [partAt, Str.trim_trim] at h
  have hfold : Pg.fold (pieceAt t).trim = Pg.fold "UNLISTEN".toList := by
    rw [← fold_toUppercase (ascii_trim hascii), h]
  obtain ⟨before, toks, hsql, hlex, hbefore⟩ := hstart
  have hlex' := hlex
  rw [Pg.lex, ← List.takeWhile_append_dropWhile (p := (· != ';')) (l := t)] at hlex'
  obtain ⟨-, toks', -, -, rfl, -⟩ := lexFuel_front hascii (by decide) (by decide)
    (List.append_nil _).symm hfold rfl (head_dropWhile_semicolon t) hlex'
  exact ⟨_, Pg.Starts.mem_statements ⟨before, _, hsql, hlex, hbefore⟩ hlex (by simp)⟩

/-- A part that is not misread drops no pin in a harmless text. -/
theorem not_partDrops_of_harmless {query t : Str} (hharm : Pg.Harmless query)
    (hread : ¬ Misread query t) (p : Pin) : ¬ PartDrops (partAt t) p := by
  intro hdrop
  obtain ⟨hstart, hveil⟩ := not_or.1 hread
  rw [not_not] at hstart
  rw [Veiled, not_or, not_or, not_and] at hveil
  obtain ⟨hbeyond, hunlock, htable⟩ := hveil
  have hascii : ∀ c ∈ pieceAt t, c.toNat < 128 := fun c hc =>
    Nat.lt_of_not_le fun hle => hbeyond ⟨c, hc, hle⟩
  -- a statement that begins with one of the keywords is not harmless
  have hclash {keyword : String} (word more : Str) (hkeyword : keyword.toList = word ++ ' ' :: more)
      (hword : word.all Char.isAlpha = true) (hlen : 2 ≤ word.length)
      (hmem : Pg.fold word ∈
        ["discard", "reset", "deallocate", "close", "unlisten"].map String.toList)
      (h : begins keyword (partAt t) = true) : False := by
    obtain ⟨rest, hstatement⟩ := statement_of_keyword hstart hascii word more hkeyword hword hlen h
    have hsafe := hharm _ hstatement
    rw [unpins_of_word hmem] at hsafe
    cases hsafe
  rcases words_of_partDrops hdrop with h | h | h | h | h | h | h | h
  · exact hclash "DISCARD".toList "ALL".toList (by decide) (by decide) (by decide) (by decide) h
  · exact hclash "RESET".toList [] (by decide) (by decide) (by decide) (by decide) h
  · obtain ⟨rest, hstatement⟩ := statement_of_dropTable hstart hascii h
      (htable (by rwa [begins_partAt] at h))
    have hsafe := hharm _ hstatement
    simp [Pg.unpins] at hsafe
  · exact hclash "CLOSE".toList [] (by decide) (by decide) (by decide) (by decide) h
  · exact hclash "DEALLOCATE".toList [] (by decide) (by decide) (by decide) (by decide) h
  · exact hclash "UNLISTEN".toList [] (by decide) (by decide) (by decide) (by decide) h
  · obtain ⟨rest, hstatement⟩ := statement_of_unlisten hstart hascii h
    have hsafe := hharm _ hstatement
    rw [unpins_of_word (by decide)] at hsafe
    cases hsafe
  · rw [mentions, partAt, Str.trim_trim] at h
    exact hunlock h

/-! ## Texts without a part -/

theorem blank_of_places {query : Str}
    (h : ∀ t ∈ Cuts.places ';' query, ∀ c ∈ pieceAt t, isWhitespace c = true) :
    ∀ c ∈ query, c = ';' ∨ isWhitespace c = true := by
  induction query with
  | nil => simp
  | cons d rest ih =>
    by_cases hd : d = ';'
    · subst hd
      have hplaces : Cuts.places ';' (';' :: rest) = (';' :: rest) :: Cuts.places ';' rest := rfl
      rw [hplaces] at h
      exact List.forall_mem_cons.2 ⟨.inl rfl, ih (List.forall_mem_cons.1 h).2⟩
    · have hafter : Cuts.after ';' (d :: rest) = Cuts.after ';' rest := if_neg (by simpa using hd)
      have hpiece : pieceAt (d :: rest) = d :: pieceAt rest :=
        List.takeWhile_cons_of_pos (by simpa using hd)
      obtain ⟨hfirst, hrest⟩ := List.forall_mem_cons.1 h
      rw [hpiece] at hfirst
      rw [hafter] at hrest
      obtain ⟨hblank, hfirst⟩ := List.forall_mem_cons.1 hfirst
      exact List.forall_mem_cons.2 ⟨.inr hblank, ih (List.forall_mem_cons.2 ⟨hfirst, hrest⟩)⟩

/-- A text without a part is read as a whole, and drops nothing. -/
theorem not_partDrops_of_blank {query : Str} (h : partPlaces query = []) (p : Pin) :
    ¬ PartDrops query p := by
  have hblank : ∀ c ∈ query, c = ';' ∨ isWhitespace c = true := by
    refine blank_of_places fun t ht c hc => ?_
    have hempty : (pieceAt t).trim = [] := by
      simpa [partAt] using List.filter_eq_nil_iff.1 h t ht
    obtain ⟨front, back, hpiece, hfront, hback⟩ := Str.exists_trim (pieceAt t)
    rw [hpiece, hempty, List.nil_append] at hc
    exact (List.mem_append.1 hc).elim (hfront c) (hback c)
  -- such a text has no letters, also when it is uppercased
  have hupper : ∀ c ∈ toUppercase query.trim, c.isAlpha = false := by
    intro c hc
    obtain ⟨d, hd, hcd⟩ := List.mem_flatMap.1 hc
    obtain ⟨front, back, hquery, -⟩ := Str.exists_trim query
    have hmem : d ∈ query := by
      rw [hquery]
      exact List.mem_append_right _ (List.mem_append_left _ hd)
    have hnot : UnicodeCase.charToUppercase d = [d] ∧ d.isAlpha = false := by
      rcases hblank d hmem with rfl | hspace
      · decide
      · refine ⟨Str.charToUppercase_of_isWhitespace hspace, ?_⟩
        have hall : ∀ n ∈ Str.spaces, (Char.ofNat n).isAlpha = false := by decide
        have halpha := hall d.toNat (Str.isWhitespace_iff.1 hspace)
        rwa [Char.ofNat_toNat] at halpha
    rw [hnot.1, List.mem_singleton] at hcd
    rw [hcd, hnot.2]
  have hno (word : String) {c : Char} (hc : c ∈ word.toList) (hletter : c.isAlpha = true)
      (hin : word.toList <:+: toUppercase query.trim) : False := by
    rw [hupper c (hin.subset hc)] at hletter
    cases hletter
  have hbegins {word : String} {c : Char} (hc : c ∈ word.toList) (hletter : c.isAlpha = true)
      (hb : begins word query = true) : False :=
    hno word hc hletter (List.isPrefixOf_iff_prefix.1 hb).isInfix
  intro hdrop
  rcases words_of_partDrops hdrop with h | h | h | h | h | h | h | h
  · exact hbegins (c := 'D') (by decide) (by decide) h
  · exact hbegins (c := 'R') (by decide) (by decide) h
  · exact hbegins (c := 'D') (by decide) (by decide) h
  · exact hbegins (c := 'C') (by decide) (by decide) h
  · exact hbegins (c := 'D') (by decide) (by decide) h
  · exact hbegins (c := 'U') (by decide) (by decide) h
  · exact hno "UNLISTEN" (c := 'U') (by decide) (by decide) (h ▸ List.infix_refl _)
  · exact hno _ (c := 'P') (by decide) (by decide) (Str.contains_iff.1 h)

/-! ## Harmless texts -/

/-- A pinned connection is still pinned after a harmless text. -/
def LiteralsKeepPin (s : ConnectionState) (query : Str) : Prop :=
  s.isPinned = true → Pg.Harmless query →
    ∀ s', s.applyQuery query = .ok s' → s'.isPinned = true

/-- The misread parts of the text drop the pin. -/
def MisreadDrops (query t : Str) (p : Pin) : Prop := Misread query t ∧ PartDrops (partAt t) p

/-- The misread parts spare the pin: it was held and none of them drops it, or some part pins it and
    none of them drops it later. -/
def Spares (s : ConnectionState) (query : Str) (p : Pin) : Prop :=
  (s.Holds p ∧ ∀ t ∈ partPlaces query, ¬ MisreadDrops query t p) ∨
    Facts.Leaves (fun t => PartPins (partAt t)) (MisreadDrops query) (partPlaces query) p

/-- In a harmless text only misread parts drop pins. -/
theorem misreadDrops_iff {query : Str} (hharm : Pg.Harmless query) (t : Str) (p : Pin) :
    MisreadDrops query t p ↔ PartDrops (partAt t) p := by
  refine ⟨And.right, fun hdrop => ⟨?_, hdrop⟩⟩
  by_contra hread
  exact not_partDrops_of_harmless hharm hread p hdrop

theorem leaves_map {places : List Str} {p : Pin} :
    Facts.Leaves PartPins PartDrops (places.map partAt) p ↔
      Facts.Leaves (fun t => PartPins (partAt t)) (fun t => PartDrops (partAt t)) places p := by
  induction places with
  | nil => simp [Facts.leaves_nil]
  | cons t places ih => simp only [List.map_cons, Facts.leaves_cons, ih, List.forall_mem_map]

/-- What a harmless text does to a pinned state. -/
theorem isPinned_applyQuery_iff {s s' : ConnectionState} {query : Str} (hpin : s.isPinned = true)
    (hharm : Pg.Harmless query) (h : s.applyQuery query = .ok s') :
    s'.isPinned = true ↔ ∃ p, Spares s query p := by
  have hdrops : MisreadDrops query = fun t => PartDrops (partAt t) :=
    funext fun t => funext fun p => propext (misreadDrops_iff hharm t p)
  simp only [ConnectionState.isPinned_iff, ConnectionState.holds_applyQuery h, Spares, hdrops]
  cases hplaces : partPlaces query with
  | nil =>
    -- read as a whole, it drops nothing
    have hparts : queryParts query = [query] := by
      rw [queryParts, splitStatements_eq, hplaces, List.map_nil]
    obtain ⟨p, hp⟩ := (ConnectionState.isPinned_iff s).1 hpin
    refine iff_of_true ⟨p, .inl ⟨hp, ?_⟩⟩ ⟨p, .inl ⟨hp, by simp⟩⟩
    rw [DropsPin, hparts]
    simpa using not_partDrops_of_blank hplaces p
  | cons t places =>
    have hparts : queryParts query = (t :: places).map partAt := by
      rw [queryParts, splitStatements_eq, hplaces, List.map_cons]
    simp only [DropsPin, LeavesPin, hparts, leaves_map, not_exists, not_and,
      List.forall_mem_map]

theorem applyQuery_returns_parts_iff (s : ConnectionState) (query : Str) :
    (∃ r, s.applyQuery query = .ok r) ↔ ∀ part ∈ queryParts query, ¬ DetectSlips part := by
  rw [applyQuery_returns_iff, queryParts]
  cases splitStatements query with
  | nil => simp
  | cons part parts => simp

/-- A harmless text leaves the connection pinned exactly when its misread parts spare some pin. -/
theorem literalsKeepPin_iff (s : ConnectionState) (query : Str) :
    LiteralsKeepPin s query ↔
      (s.isPinned = true → Pg.Harmless query → (∀ part ∈ queryParts query, ¬ DetectSlips part) →
        ∃ p, Spares s query p) := by
  constructor
  · intro h hpin hharm hslips
    obtain ⟨s', hs'⟩ := (applyQuery_returns_parts_iff s query).2 hslips
    exact (isPinned_applyQuery_iff hpin hharm hs').1 (h hpin hharm s' hs')
  · intro h hpin hharm s' hs'
    have hslips := (applyQuery_returns_parts_iff s query).1 ⟨s', hs'⟩
    exact (isPinned_applyQuery_iff hpin hharm hs').2 (h hpin hharm hslips)

/-- `SELECT 'a; DISCARD ALL'` is one harmless statement, yet it clears everything tracked: the
    second part is read as `DISCARD ALL`. -/
theorem discardInLiteral_unpins :
    ¬ LiteralsKeepPin ((ConnectionState.new 100).addSessionVariable "work_mem".toList "64MB".toList)
      "SELECT 'a; DISCARD ALL'".toList := by
  intro h
  have hpin := h (by decide) (by decide +kernel) _ rfl
  revert hpin
  decide +kernel

end ScryProxy
