import ScryProxy.Spec.DetectorPanics
import ScryProxy.Spec.TextReading

/-!
# What the transaction mode refuses

`validate` asks `detect` about the whole text, and `detect` looks at the keyword in front of
the text and at the words it has anywhere.  `Forbidden.words` says by which of them a text
does each of the four things that the mode does not support; a text is refused when it has
them, and the operand that the parser looks for (`verdict_eq_some_true`).

A batch is judged by the keyword in front of it and the words of all its statements
(`mentions_iff`), so a statement behind another is not seen, and words of two statements are
taken together (`batch_misjudged`).  `validatesStatements_of_judged` gives the batches that
are judged as their statements are.
-/

namespace ScryProxy

open Str (toUppercase)
open CommandDetector

/-- What the transaction mode does not support. -/
inductive Forbidden where
  | sessionVariable
  | tempTable
  | holdCursor
  | advisoryLock
  deriving DecidableEq, Repr

namespace Forbidden

/-- The words by which a text does what is forbidden: those that say so, and none that say something
    else first. -/
def words (sql : Str) : Forbidden → Bool
  | .sessionVariable => begins "SET " sql
  | .tempTable => !settles sql && mentionsTempTable sql
  | .holdCursor => leads "DECLARE " sql && mentions "CURSOR" sql && mentions "WITH HOLD" sql
  | .advisoryLock => undecided sql && mentions "PG_ADVISORY_LOCK" sql &&
      !mentions "PG_ADVISORY_UNLOCK" sql

/-- What the parser looks for behind the words is there: a value to set, or a name. -/
def hasOperand (text : Str) : Forbidden → Bool
  | .sessionVariable => (text.getFrom 3).any fun rest =>
      rest.trim.contains ['='] || (toUppercase rest.trim).contains " TO ".toList
  | .tempTable => ((tempTableEnd (toUppercase text)).bind text.getFrom).any fun rest =>
      rest.trim.firstWord.isSome
  | .holdCursor => (text.getFrom 8).any fun rest => rest.trim.firstWord.isSome
  | .advisoryLock => true

/-- A session variable may be set inside a transaction. -/
def counts (inTransaction : Bool) (k : Forbidden) : Bool :=
  k ≠ .sessionVariable || !inTransaction

end Forbidden

/-- What `validate` refuses about a command. -/
def DetectedCommand.forbidden : DetectedCommand → Option Forbidden
  | .set _ _ => some .sessionVariable
  | .createTempTable _ => some .tempTable
  | .declareCursor _ true => some .holdCursor
  | .advisoryLock _ => some .advisoryLock
  | _ => none

/-- What `validate` says in transaction mode: whether the text is refused; `none` is a panic. -/
def verdict (sql : Str) (inTransaction : Bool) : Option Bool :=
  (PoolingMode.transaction.validate sql inTransaction).toOption.map Option.isSome

theorem verdict_eq_map (sql : Str) (inTransaction : Bool) :
    verdict sql inTransaction =
      (detect sql).toOption.map fun r =>
        (r.bind DetectedCommand.forbidden).any (·.counts inTransaction) := by
  unfold verdict PoolingMode.validate
  rw [if_neg (by decide)]
  cases detect sql with
  | error e => rfl
  | ok r =>
    rw [Rust.ok_bind]
    -- SET is the one command for which the transaction counts
    rcases r with _ | (_ | _ | _ | _ | _ | ⟨name, _ | _⟩ | _ | _ | _ | _ | _ | _ | _ | _ | _)
    case some.set => cases inTransaction <;> rfl
    all_goals rfl

/-! ## Operands -/

namespace Forbidden

variable {text : Str} {r : Option DetectedCommand}

theorem hasOperand_of_parseSet (h : parseSet text = .ok r) :
    hasOperand text .sessionVariable = r.isSome := by
  unfold parseSet at h
  rw [hasOperand]
  cases hrest : text.getFrom 3 with
  | none =>
    rw [hrest] at h
    cases h
    rfl
  | some rest =>
    rw [hrest] at h
    dsimp only at h
    rw [Option.any_some, Str.contains, Str.contains]
    cases heq : rest.trim.find ['='] with
    | some pos =>
      rw [heq] at h
      obtain ⟨name, -, h⟩ := Rust.bind_returns.1 h
      obtain ⟨value, -, h⟩ := Rust.bind_returns.1 h
      cases h
      rfl
    | none =>
      rw [heq] at h
      cases hto : (toUppercase rest.trim).find " TO ".toList with
      | none =>
        rw [hto] at h
        cases h
        rfl
      | some pos =>
        rw [hto] at h
        obtain ⟨name, -, h⟩ := Rust.bind_returns.1 h
        obtain ⟨value, -, h⟩ := Rust.bind_returns.1 h
        cases h
        rfl

theorem hasOperand_of_parseCreateTempTable (h : parseCreateTempTable text = .ok r) :
    hasOperand text .tempTable = r.isSome := by
  unfold parseCreateTempTable at h
  dsimp only at h
  rw [← tempTableEnd] at h
  rw [hasOperand]
  cases hpos : tempTableEnd (toUppercase text) with
  | none =>
    rw [hpos] at h
    cases h
    rfl
  | some pos =>
    rw [hpos] at h
    obtain ⟨rest, hrest, h⟩ := Rust.bind_returns.1 h
    cases h
    rw [Option.bind_some, getFrom_eq_some.2 hrest, Option.any_some, Option.isSome_map]

theorem hasOperand_of_parseDeclareCursor
    (hdeclare : (toUppercase text).startsWith "DECLARE ".toList = true)
    (h : parseDeclareCursor text = .ok r) : hasOperand text .holdCursor = r.isSome := by
  unfold parseDeclareCursor at h
  dsimp only at h
  rw [if_pos hdeclare] at h
  obtain ⟨rest, hrest, h⟩ := Rust.bind_returns.1 h
  cases h
  rw [hasOperand, getFrom_eq_some.2 hrest, Option.any_some, Option.isSome_map]

/-- A cursor is held for the words WITH HOLD. -/
theorem hold_of_parseDeclareCursor {name : Str} {hold : Bool}
    (h : parseDeclareCursor text = .ok (some (.declareCursor name hold))) :
    hold = (toUppercase text).contains "WITH HOLD".toList := by
  unfold parseDeclareCursor at h
  dsimp only at h
  split at h
  · obtain ⟨rest, -, h⟩ := Rust.bind_returns.1 h
    obtain ⟨word, -, h⟩ := Option.map_eq_some_iff.1 (Except.ok.inj h)
    cases h
    rfl
  · cases h

/-! ## Commands that are forbidden -/

/-- A text that says a forbidden command has the words for it, and the operand. -/
theorem words_of_says {sql : Str} {cmd : DetectedCommand} {k : Forbidden} (h : Says sql cmd)
    (hk : cmd.forbidden = some k) : k.words sql = true ∧ hasOperand sql.trim k = true := by
  cases cmd with
  | set name value =>
    cases hk
    exact ⟨h.1, hasOperand_of_parseSet h.2⟩
  | createTempTable name =>
    cases hk
    exact ⟨by simp [words, h.1, h.2.1], hasOperand_of_parseCreateTempTable h.2.2⟩
  | declareCursor name hold =>
    cases hold with
    | false => cases hk
    | true =>
      cases hk
      have hhold : mentions "WITH HOLD" sql = true := (hold_of_parseDeclareCursor h.2.2).symm
      exact ⟨by simp [words, h.1, h.2.1, hhold],
        hasOperand_of_parseDeclareCursor (leads_iff.1 h.1).1 h.2.2⟩
  | advisoryLock key =>
    cases hk
    exact ⟨by simp [words, h.1, h.2.1, h.2.2.1], rfl⟩
  | _ => cases hk

/-- A text that has the words and the operand says the forbidden command, unless that panics. -/
theorem says_of_words {sql : Str} {k : Forbidden} (hslips : ¬ DetectSlips sql)
    (hwords : k.words sql = true) (hoperand : hasOperand sql.trim k = true) :
    ∃ cmd, Says sql cmd ∧ cmd.forbidden = some k := by
  obtain ⟨r, hr⟩ := (detect_returns_iff sql).2 hslips
  have hsays {cmd : DetectedCommand} (h : r = some cmd) : Says sql cmd := detect_iff.1 (h ▸ hr)
  cases k with
  | sessionVariable =>
    have hparse : parseSet sql.trim = .ok r := by
      rwa [detect_eq, if_pos (show begins "SET " sql = true from hwords)] at hr
    obtain ⟨cmd, rfl⟩ := Option.isSome_iff_exists.1 ((hasOperand_of_parseSet hparse).symm.trans hoperand)
    obtain ⟨name, value, rfl⟩ := parseSet_answers hparse
    exact ⟨_, hsays rfl, rfl⟩
  | tempTable =>
    obtain ⟨hfront, htemp⟩ := Bool.and_eq_true_iff.1 hwords
    simp only [settles, Bool.not_eq_true', Bool.or_eq_false_iff] at hfront
    have hparse : parseCreateTempTable sql.trim = .ok r := by
      rwa [detect_eq, if_neg (Bool.eq_false_iff.1 hfront.1.1), if_neg (Bool.eq_false_iff.1 hfront.1.2),
        if_neg (Bool.eq_false_iff.1 hfront.2), if_pos htemp] at hr
    obtain ⟨cmd, rfl⟩ :=
      Option.isSome_iff_exists.1 ((hasOperand_of_parseCreateTempTable hparse).symm.trans hoperand)
    obtain ⟨name, rfl⟩ := parseCreateTempTable_answers hparse
    exact ⟨_, hsays rfl, rfl⟩
  | holdCursor =>
    simp only [words, Bool.and_eq_true, leads_iff] at hwords
    obtain ⟨⟨⟨hfront, htemp⟩, hcursor⟩, hhold⟩ := hwords
    have hno (other : String) (hother : Str.meets "DECLARE ".toList other.toList = false) :
        ¬ begins other sql = true := Bool.eq_false_iff.1 (begins_eq_false other hfront hother)
    have hparse : parseDeclareCursor sql.trim = .ok r := by
      rwa [detect_eq, if_neg (hno "SET " (by decide)), if_neg (hno "RESET " (by decide)),
        if_neg (hno "DISCARD ALL" (by decide)), if_neg (Bool.eq_false_iff.1 htemp),
        if_neg (hno "DROP TABLE" (by decide)), if_pos (by rw [hfront, hcursor]; rfl)] at hr
    obtain ⟨cmd, rfl⟩ :=
      Option.isSome_iff_exists.1 ((hasOperand_of_parseDeclareCursor hfront hparse).symm.trans hoperand)
    obtain ⟨name, hold, rfl⟩ := parseDeclareCursor_answers hparse
    obtain rfl : hold = true := (hold_of_parseDeclareCursor hparse).trans hhold
    exact ⟨_, hsays rfl, rfl⟩
  | advisoryLock =>
    simp only [words, Bool.and_eq_true] at hwords
    rw [detect_of_undecided hwords.1.1, if_pos (by rw [hwords.1.2, hwords.2]; rfl)] at hr
    obtain ⟨key, -, rfl⟩ := Rust.map_returns.1 hr
    exact ⟨_, hsays rfl, rfl⟩

end Forbidden

/-- The text has the words and the operand of something forbidden that counts. -/
def RefusedFor (sql : Str) (inTransaction : Bool) (k : Forbidden) : Prop :=
  k.words sql = true ∧ Forbidden.hasOperand sql.trim k = true ∧ k.counts inTransaction = true

/-- A text is refused for its words, unless that panics. -/
theorem verdict_eq_some_true (sql : Str) (inTransaction : Bool) :
    verdict sql inTransaction = some true ↔
      ¬ DetectSlips sql ∧ ∃ k, RefusedFor sql inTransaction k := by
  rw [verdict_eq_map]
  constructor
  · intro h
    obtain ⟨r, hr, hrefused⟩ := Option.map_eq_some_iff.1 h
    have hdetect : detect sql = .ok r := by
      cases hd : detect sql with
      | error e => rw [hd] at hr; cases hr
      | ok r' => rw [hd] at hr; cases hr; rfl
    refine ⟨(detect_returns_iff sql).1 ⟨r, hdetect⟩, ?_⟩
    obtain ⟨k, hk, hcounts⟩ := (Option.any_eq_true _ _).1 hrefused
    obtain ⟨cmd, rfl, hk⟩ := Option.bind_eq_some_iff.1 hk
    obtain ⟨hwords, hoperand⟩ := Forbidden.words_of_says (detect_iff.1 hdetect) hk
    exact ⟨k, hwords, hoperand, hcounts⟩
  · rintro ⟨hslips, k, hwords, hoperand, hcounts⟩
    obtain ⟨cmd, hsays, hk⟩ := Forbidden.says_of_words hslips hwords hoperand
    have hdetect : detect sql = .ok (some cmd) := detect_iff.2 hsays
    rw [hdetect, Except.toOption, Option.map_some, Option.bind_some, hk, Option.any_some, hcounts]

/-- Only a panic leaves no verdict. -/
theorem verdict_eq_none (sql : Str) (inTransaction : Bool) :
    verdict sql inTransaction = none ↔ DetectSlips sql := by
  rw [verdict_eq_map, Option.map_eq_none_iff, ← not_iff_not, ← detect_returns_iff]
  cases detect sql with
  | error e => simp [Except.toOption]
  | ok r => simp [Except.toOption]

/-! ## What the words are read from -/

/-- The keywords that can decide from the front of a text. -/
def frontKeywords : List String :=
  ["SET ", "RESET ", "DISCARD ALL", "DROP TABLE", "DECLARE ", "CLOSE ", "DEALLOCATE ", "LISTEN ",
    "UNLISTEN ", "NOTIFY "]

/-- The words that can decide from anywhere. -/
def watchedWords : List String :=
  ["CREATE", "TEMP TABLE", "TEMPORARY TABLE", "CURSOR", "WITH HOLD", "PG_ADVISORY_LOCK",
    "PG_ADVISORY_UNLOCK"]

/-- The same keyword is in front of both texts, if any. -/
def SameFront (a b : Str) : Prop := ∀ keyword ∈ frontKeywords, begins keyword a = begins keyword b

/-- The same words are in both texts. -/
def SameWords (a b : Str) : Prop := ∀ word ∈ watchedWords, mentions word a = mentions word b

/-- UNLISTEN alone mentions nothing. -/
theorem unlisten_mentions {sql : Str} (h : mentions "PG_ADVISORY_LOCK" sql = true) :
    (toUppercase sql.trim == "UNLISTEN".toList) = false := by
  rw [beq_eq_false_iff_ne]
  intro halone
  rw [mentions, halone] at h
  revert h
  decide

/-- What is forbidden is said by the keyword in front and the words. -/
theorem Forbidden.words_congr {a b : Str} (hfront : SameFront a b) (hwords : SameWords a b)
    (k : Forbidden) : k.words a = k.words b := by
  simp only [SameFront, frontKeywords, List.forall_mem_cons] at hfront
  simp only [SameWords, watchedWords, List.forall_mem_cons] at hwords
  obtain ⟨hset, hreset, hdiscard, hdrop, hdeclare, hclose, hdeallocate, hlisten, hunlisten, hnotify,
    -⟩ := hfront
  obtain ⟨hcreate, htemp, htemporary, hcursor, hhold, hlock, hunlock, -⟩ := hwords
  have hsettles : settles a = settles b := by rw [settles, settles, hset, hreset, hdiscard]
  have htable : mentionsTempTable a = mentionsTempTable b := by
    rw [mentionsTempTable, mentionsTempTable, hcreate, htemp, htemporary]
  cases k with
  | sessionVariable => exact hset
  | tempTable => rw [words, words, hsettles, htable]
  | holdCursor => rw [words, words, leads, leads, hdeclare, htable, hcursor, hhold]
  | advisoryLock =>
    cases h : mentions "PG_ADVISORY_LOCK" b with
    | false => simp [words, hlock, h]
    | true =>
      have ha := unlisten_mentions (hlock.trans h)
      have hb := unlisten_mentions h
      simp only [words, undecided, leadsUnlisten, leads, hsettles, htable, hdrop, hdeclare, hcursor,
        hclose, hdeallocate, hlisten, hunlisten, hnotify, hlock, hunlock, ha, hb]

/-! ## Batches -/

/-- A word that is neither cut by a semicolon nor trimmed. -/
def solid (word : String) : Bool :=
  !word.toList.contains ';' && word.toList.head?.any (fun c => !Str.isWhitespace c) &&
    word.toList.getLast?.any fun c => !Str.isWhitespace c

theorem infix_of_blank_append {w blanks rest : Str} (hblanks : ∀ c ∈ blanks, Str.isWhitespace c = true)
    (hw : w.head?.any (fun c => !Str.isWhitespace c) = true) (h : w <:+: blanks ++ rest) :
    w <:+: rest := by
  induction blanks with
  | nil => exact h
  | cons b blanks ih =>
    obtain ⟨hb, hblanks⟩ := List.forall_mem_cons.1 hblanks
    rcases List.infix_cons_iff.1 h with hprefix | h
    · -- it would begin with a blank
      cases w with
      | nil => cases hw
      | cons c w =>
        obtain ⟨rfl, -⟩ := List.cons_prefix_cons.1 hprefix
        simp [hb] at hw
    · exact ih hblanks h

theorem mentions_iff_isInfix {word : String} (hsolid : solid word = true) (s : Str) :
    mentions word s = true ↔ word.toList <:+: toUppercase s := by
  simp only [solid, Bool.and_eq_true] at hsolid
  obtain ⟨front, back, hs, hfront, hback⟩ := Str.exists_trim s
  have hupper : toUppercase s = front ++ (toUppercase s.trim ++ back) := by
    conv_lhs => rw [hs]
    rw [Str.toUppercase_append, Str.toUppercase_append, Str.toUppercase_of_isWhitespace hfront,
      Str.toUppercase_of_isWhitespace hback]
  rw [mentions, Str.contains_iff, hupper]
  constructor
  · intro h
    exact h.trans ((List.prefix_append _ _).isInfix.trans (List.suffix_append _ _).isInfix)
  · intro h
    have h' := infix_of_blank_append hfront hsolid.1.2 h
    -- and the same from the end
    rw [← List.reverse_infix, List.reverse_append] at h'
    have hend := infix_of_blank_append (fun c hc => hback c (List.mem_reverse.1 hc))
      (by rw [List.head?_reverse]; exact hsolid.2) h'
    exact List.reverse_infix.1 hend

theorem infix_append_semicolon {w : Str} (hw : ';' ∉ w) (hne : w ≠ []) (x y : Str) :
    w <:+: x ++ ';' :: y ↔ w <:+: x ∨ w <:+: y := by
  constructor
  · intro h
    induction x with
    | nil =>
      rcases List.infix_cons_iff.1 h with hprefix | h
      · cases w with
        | nil => exact absurd rfl hne
        | cons c w =>
          obtain ⟨rfl, -⟩ := List.cons_prefix_cons.1 hprefix
          exact absurd List.mem_cons_self hw
      · exact .inr h
    | cons c x ih =>
      rcases List.infix_cons_iff.1 h with hprefix | h
      · rcases List.prefix_or_prefix_of_prefix hprefix
          (List.prefix_append (c :: x) (';' :: y)) with hx | ⟨more, rfl⟩
        · exact .inl hx.isInfix
        · -- what goes beyond the front would begin with the semicolon
          have hmore := (List.prefix_append_right_inj (c :: x)).1 hprefix
          cases more with
          | nil => exact .inl (by simp)
          | cons d more =>
            obtain ⟨rfl, -⟩ := List.cons_prefix_cons.1 hmore
            simp at hw
      · exact (ih h).imp List.infix_cons id
  · rintro (h | h)
    · exact h.trans (List.prefix_append _ _).isInfix
    · exact h.trans ((List.suffix_cons _ _).trans (List.suffix_append _ _)).isInfix

theorem infix_toUppercase_intercalate {w : Str} (hw : ';' ∉ w) (hne : w ≠ []) (pieces : List Str) :
    w <:+: toUppercase ([';'].intercalate pieces) ↔ ∃ piece ∈ pieces, w <:+: toUppercase piece := by
  induction pieces with
  | nil =>
    rw [List.intercalate_nil]
    exact ⟨fun h => absurd (List.infix_nil.1 h) hne, by simp⟩
  | cons piece pieces ih =>
    cases pieces with
    | nil => simp
    | cons next pieces =>
      have hsemicolon : toUppercase [';'] = [';'] := by decide
      rw [List.intercalate_cons_cons, List.append_assoc, Str.toUppercase_append,
        Str.toUppercase_append, hsemicolon, List.singleton_append, infix_append_semicolon hw hne, ih]
      simp only [List.exists_mem_cons_iff]

/-- A text has the words of all its statements. -/
theorem mentions_iff {word : String} (hsolid : solid word = true) (text : Str) :
    mentions word text = true ↔ ∃ s ∈ splitStatements text, mentions word s = true := by
  have hword : ';' ∉ word.toList ∧ word.toList ≠ [] := by
    simp only [solid, Bool.and_eq_true, Bool.not_eq_true', List.contains_eq_mem,
      decide_eq_false_iff_not] at hsolid
    refine ⟨hsolid.1.1, fun hnil => ?_⟩
    rw [hnil] at hsolid
    cases hsolid.1.2
  have hpieces : mentions word text = true ↔ ∃ piece ∈ text.splitOn ';', mentions word piece = true := by
    simp only [mentions_iff_isInfix hsolid]
    rw [← infix_toUppercase_intercalate hword.1 hword.2, List.intercalate_splitOn]
  have htrim (piece : Str) : mentions word piece.trim = mentions word piece := by
    rw [mentions, mentions, Str.trim_trim]
  rw [hpieces, splitStatements]
  constructor
  · rintro ⟨piece, hpiece, hmentions⟩
    refine ⟨Str.trim piece, List.mem_filter.2 ⟨List.mem_map_of_mem hpiece, ?_⟩, by rwa [htrim]⟩
    -- a blank piece has no word
    cases hempty : Str.trim piece with
    | cons c rest => rfl
    | nil =>
      rw [mentions, hempty, Str.contains_iff] at hmentions
      exact absurd (List.infix_nil.1 hmentions) hword.2
  · rintro ⟨s, hs, hmentions⟩
    obtain ⟨piece, hpiece, rfl⟩ := List.mem_map.1 (List.mem_filter.1 hs).1
    exact ⟨piece, hpiece, by rwa [htrim] at hmentions⟩

theorem mentionsTempTable_of_mem {text s : Str} (hs : s ∈ splitStatements text)
    (h : mentionsTempTable s = true) : mentionsTempTable text = true := by
  have hup {word : String} (hsolid : solid word = true) (hword : mentions word s = true) :
      mentions word text = true := (mentions_iff hsolid text).2 ⟨s, hs, hword⟩
  simp only [mentionsTempTable, Bool.and_eq_true, Bool.or_eq_true] at h ⊢
  exact ⟨hup (by decide) h.1, h.2.imp (hup (by decide)) (hup (by decide))⟩

/-- What `validate` says about a text it says about one of its statements. -/
def ValidatesStatements (text : Str) (inTransaction : Bool) : Prop :=
  verdict text inTransaction = some true ↔
    ∃ s ∈ splitStatements text, verdict s inTransaction = some true

/-- The statement has none of the keywords and words. -/
def Mute (s : Str) : Prop :=
  (∀ keyword ∈ frontKeywords, begins keyword s = false) ∧
    ∀ word ∈ watchedWords, mentions word s = false

/-- One statement has all the keywords and words of the text, with what belongs to them. -/
def SpeaksAlone (text : Str) : Prop :=
  ∃ s ∈ splitStatements text, SameFront text s ∧
    (∀ other ∈ splitStatements text, other = s ∨ Mute other) ∧
    (DetectSlips text ↔ DetectSlips s) ∧
    ∀ k : Forbidden, k.words s = true →
      Forbidden.hasOperand text.trim k = Forbidden.hasOperand s.trim k

/-- Nothing else in the text is read before the words for what is forbidden. -/
def ReadFirst (text : Str) : Forbidden → Prop
  | .sessionVariable | .tempTable => True
  | .holdCursor => mentionsTempTable text = false
  | .advisoryLock => mentionsTempTable text = false ∧ mentions "PG_ADVISORY_UNLOCK" text = false ∧
      (begins "DECLARE " text && mentions "CURSOR" text) = false

/-- A statement is refused whose keyword is in front of the text, and nothing disturbs its words. -/
def ShowsRefused (text : Str) (inTransaction : Bool) : Prop :=
  ¬ DetectSlips text ∧ ∃ s ∈ splitStatements text, ¬ DetectSlips s ∧ SameFront text s ∧
    ∃ k, RefusedFor s inTransaction k ∧ ReadFirst text k ∧
      Forbidden.hasOperand text.trim k = true

/-- No keyword or word for anything forbidden is in the text or in front of a statement. -/
def NothingForbidden (text : Str) (inTransaction : Bool) : Prop :=
  (inTransaction = true ∨ ∀ s ∈ text :: splitStatements text, begins "SET " s = false) ∧
    mentionsTempTable text = false ∧
    (mentions "WITH HOLD" text = false ∨
      ∀ s ∈ text :: splitStatements text, begins "DECLARE " s = false) ∧
    mentions "PG_ADVISORY_LOCK" text = false

theorem solid_watchedWords : ∀ word ∈ watchedWords, solid word = true := by decide

theorem not_refusedFor_of_mute {s : Str} (h : Mute s) (inTransaction : Bool) (k : Forbidden) :
    ¬ RefusedFor s inTransaction k := by
  obtain ⟨hfront, hwords⟩ := h
  rintro ⟨hk, -⟩
  cases k with
  | sessionVariable =>
    rw [Forbidden.words, hfront "SET " (by decide)] at hk
    cases hk
  | tempTable =>
    rw [Forbidden.words, mentionsTempTable, hwords "CREATE" (by decide), Bool.false_and,
      Bool.and_false] at hk
    cases hk
  | holdCursor =>
    rw [Forbidden.words, leads, hfront "DECLARE " (by decide)] at hk
    cases hk
  | advisoryLock =>
    rw [Forbidden.words, hwords "PG_ADVISORY_LOCK" (by decide), Bool.and_false] at hk
    cases hk

/-- Where one statement speaks alone, the text is judged as it is. -/
theorem validatesStatements_of_speaksAlone {text : Str} (h : SpeaksAlone text)
    (inTransaction : Bool) : ValidatesStatements text inTransaction := by
  obtain ⟨s, hs, hfront, hothers, hslips, hoperand⟩ := h
  have hwords : SameWords text s := by
    intro word hword
    have hsolid := solid_watchedWords word hword
    rw [Bool.eq_iff_iff, mentions_iff hsolid]
    refine ⟨?_, fun hmentions => ⟨s, hs, hmentions⟩⟩
    rintro ⟨other, hother, hmentions⟩
    rcases hothers other hother with rfl | hmute
    · exact hmentions
    · rw [hmute.2 word hword] at hmentions
      cases hmentions
  have hsame : verdict text inTransaction = some true ↔ verdict s inTransaction = some true := by
    rw [verdict_eq_some_true, verdict_eq_some_true, hslips]
    refine and_congr_right fun _ => exists_congr fun k => ?_
    rw [RefusedFor, RefusedFor, Forbidden.words_congr hfront hwords k]
    refine and_congr_right fun hk => ?_
    rw [hoperand k hk]
  rw [ValidatesStatements, hsame]
  refine ⟨fun hrefused => ⟨s, hs, hrefused⟩, ?_⟩
  rintro ⟨other, hother, hrefused⟩
  rcases hothers other hother with rfl | hmute
  · exact hrefused
  · obtain ⟨-, k, hk⟩ := (verdict_eq_some_true other inTransaction).1 hrefused
    exact absurd hk (not_refusedFor_of_mute hmute inTransaction k)

/-- The words of a statement that is refused are in the text, undisturbed. -/
theorem words_of_readFirst {text s : Str} (hs : s ∈ splitStatements text)
    (hfront : SameFront text s) {k : Forbidden} (hk : k.words s = true)
    (hfirst : ReadFirst text k) : k.words text = true := by
  have hup {word : String} (hword : word ∈ watchedWords) (hmentions : mentions word s = true) :
      mentions word text = true := (mentions_iff (solid_watchedWords word hword) text).2 ⟨s, hs, hmentions⟩
  have hsettles : settles text = settles s := by
    rw [settles, settles, hfront "SET " (by decide), hfront "RESET " (by decide),
      hfront "DISCARD ALL" (by decide)]
  cases k with
  | sessionVariable => exact (hfront "SET " (by decide)).trans hk
  | tempTable =>
    simp only [Forbidden.words, Bool.and_eq_true] at hk ⊢
    exact ⟨by rw [hsettles]; exact hk.1, mentionsTempTable_of_mem hs hk.2⟩
  | holdCursor =>
    simp only [Forbidden.words, Bool.and_eq_true, leads_iff] at hk ⊢
    exact ⟨⟨⟨(hfront "DECLARE " (by decide)).trans hk.1.1.1, hfirst⟩,
      hup (by decide) hk.1.2⟩, hup (by decide) hk.2⟩
  | advisoryLock =>
    obtain ⟨htemp, hunlock, hdeclare⟩ := hfirst
    simp only [Forbidden.words, Bool.and_eq_true] at hk ⊢
    have hlock : mentions "PG_ADVISORY_LOCK" text = true := hup (by decide) hk.1.2
    obtain ⟨hsettled, htemp', hdrop, -, hclose, hdeallocate, hlisten, hunlisten, hnotify⟩ :=
      undecided_iff.1 hk.1.1
    refine ⟨⟨undecided_iff.2 ⟨?_, htemp, ?_, hdeclare, ?_, ?_, ?_, ?_, ?_⟩, hlock⟩, by rw [hunlock]; rfl⟩
    · rwa [hfront "SET " (by decide), hfront "RESET " (by decide), hfront "DISCARD ALL" (by decide)]
    · rwa [hfront "DROP TABLE" (by decide)]
    · rwa [hfront "CLOSE " (by decide)]
    · rwa [hfront "DEALLOCATE " (by decide)]
    · rwa [hfront "LISTEN " (by decide)]
    · rw [leadsUnlisten, leads, htemp', Bool.or_eq_false_iff] at hunlisten
      rw [leadsUnlisten, leads, htemp, hfront "UNLISTEN " (by decide), hunlisten.1,
        unlisten_mentions hlock]
      rfl
    · rwa [hfront "NOTIFY " (by decide)]

theorem validatesStatements_of_showsRefused {text : Str} {inTransaction : Bool}
    (h : ShowsRefused text inTransaction) : ValidatesStatements text inTransaction := by
  obtain ⟨hslips, s, hs, hslips', hfront, k, ⟨hk, hoperand, hcounts⟩, hfirst, hoperand'⟩ := h
  refine iff_of_true ((verdict_eq_some_true text inTransaction).2 ⟨hslips, k, ?_⟩)
    ⟨s, hs, (verdict_eq_some_true s inTransaction).2 ⟨hslips', k, hk, hoperand, hcounts⟩⟩
  exact ⟨words_of_readFirst hs hfront hk hfirst, hoperand', hcounts⟩

theorem validatesStatements_of_nothingForbidden {text : Str} {inTransaction : Bool}
    (h : NothingForbidden text inTransaction) : ValidatesStatements text inTransaction := by
  obtain ⟨hset, htemp, hhold, hlock⟩ := h
  -- neither the text nor a statement has the words for anything that counts
  have hnone : ∀ s ∈ text :: splitStatements text, ¬ verdict s inTransaction = some true := by
    intro s hs hrefused
    have hdown {word : String} (hword : word ∈ watchedWords) (hfree : mentions word text = false) :
        mentions word s = false := by
      rcases List.mem_cons.1 hs with rfl | hs
      · exact hfree
      · rw [← Bool.not_eq_true] at hfree ⊢
        exact fun hm => hfree ((mentions_iff (solid_watchedWords word hword) text).2 ⟨s, hs, hm⟩)
    have htemp' : mentionsTempTable s = false := by
      rcases List.mem_cons.1 hs with rfl | hs
      · exact htemp
      · rw [← Bool.not_eq_true] at htemp ⊢
        exact fun hm => htemp (mentionsTempTable_of_mem hs hm)
    obtain ⟨-, k, hk, -, hcounts⟩ := (verdict_eq_some_true s inTransaction).1 hrefused
    cases k with
    | sessionVariable =>
      rcases hset with rfl | hset
      · cases hcounts
      · rw [Forbidden.words, hset s hs] at hk
        cases hk
    | tempTable =>
      rw [Forbidden.words, htemp', Bool.and_false] at hk
      cases hk
    | holdCursor =>
      rcases hhold with hhold | hdeclare
      · rw [Forbidden.words, hdown (by decide) hhold, Bool.and_false] at hk
        cases hk
      · rw [Forbidden.words, leads, hdeclare s hs] at hk
        cases hk
    | advisoryLock =>
      rw [Forbidden.words, hdown (by decide) hlock, Bool.and_false] at hk
      cases hk
  refine iff_of_false (hnone text List.mem_cons_self) ?_
  rintro ⟨s, hs, hrefused⟩
  exact hnone s (List.mem_cons_of_mem text hs) hrefused

/-- The enforcer sees every statement of a batch in which one statement speaks alone, or the
    keyword in front is that of a statement that is refused, or nothing forbidden is mentioned. -/
theorem validatesStatements_of_judged (text : Str) (inTransaction : Bool)
    (h : SpeaksAlone text ∨ ShowsRefused text inTransaction ∨ NothingForbidden text inTransaction) :
    ValidatesStatements text inTransaction := by
  rcases h with h | h | h
  · exact validatesStatements_of_speaksAlone h inTransaction
  · exact validatesStatements_of_showsRefused h
  · exact validatesStatements_of_nothingForbidden h

/-- A lock behind a `SELECT` is seen: no keyword is in front of either. -/
theorem validatesStatements_select_lock :
    verdict "SELECT 1; SELECT pg_advisory_lock(1)".toList false = some true ∧
      ValidatesStatements "SELECT 1; SELECT pg_advisory_lock(1)".toList false := by
  have hreads {sql : Str} {r : Option DetectedCommand} (h : detect sql = .ok r) : ¬ DetectSlips sql :=
    (detect_returns_iff sql).1 ⟨r, h⟩
  have htext : detect "SELECT 1; SELECT pg_advisory_lock(1)".toList =
      .ok (some (.advisoryLock (some 1))) := by decide +kernel
  have hstatement : detect "SELECT pg_advisory_lock(1)".toList =
      .ok (some (.advisoryLock (some 1))) := by decide +kernel
  refine ⟨by decide +kernel, validatesStatements_of_judged _ _ (.inr (.inl ⟨hreads htext,
    "SELECT pg_advisory_lock(1)".toList, by decide +kernel, hreads hstatement, ?_,
    .advisoryLock, ?_, ?_, rfl⟩))⟩
  · unfold SameFront
    decide +kernel
  · unfold RefusedFor
    decide +kernel
  · unfold ReadFirst
    decide +kernel

/-- `SET` behind a `SELECT` is not seen, and neither is a lock behind a `RESET`; and two statements
    that set nothing are refused as one that does. -/
theorem batch_misjudged :
    ¬ ValidatesStatements "SELECT 1; SET x = 1".toList false ∧
      ¬ ValidatesStatements "RESET x; SELECT pg_advisory_lock(1)".toList true ∧
      ¬ ValidatesStatements "SET x; SELECT 1 = 1".toList false := by
  unfold ValidatesStatements
  decide +kernel

end ScryProxy
