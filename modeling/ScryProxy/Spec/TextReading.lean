import ScryProxy.Spec.Observed

/-!
# What the words of a text say

`detect` asks a text for the keyword in front of it and for words anywhere in it.  `Says` gives for
each command the keyword or word that decides, with what must not be there for it to decide; no
case refers to another.

## Key results

- `CommandDetector.detect_iff`: `detect` finds the command that the words say
- `ConnectionState.holds_applyQuery`: a pin that the words leave, or that no part drops, is held
-/

namespace ScryProxy

open Str (toUppercase)

namespace CommandDetector

/-! ## Keywords and words -/

/-- The text begins with the keyword, in any case. -/
def begins (keyword : String) (sql : Str) : Bool :=
  (toUppercase sql.trim).startsWith keyword.toList

/-- The text has the word somewhere, in any case. -/
def mentions (word : String) (sql : Str) : Bool := (toUppercase sql.trim).contains word.toList

/-- The words of CREATE TEMP TABLE, in any order and whatever they stand in. -/
def mentionsTempTable (sql : Str) : Bool :=
  mentions "CREATE" sql && (mentions "TEMP TABLE" sql || mentions "TEMPORARY TABLE" sql)

/-- A keyword that decides alone is in front. -/
def settles (sql : Str) : Bool :=
  begins "SET " sql || begins "RESET " sql || begins "DISCARD ALL" sql

/-- The keyword is in front, and it decides because the text has not the words of CREATE TEMP TABLE. -/
def leads (keyword : String) (sql : Str) : Bool := begins keyword sql && !mentionsTempTable sql

/-- UNLISTEN, with a channel or alone. -/
def leadsUnlisten (sql : Str) : Bool :=
  leads "UNLISTEN " sql || toUppercase sql.trim == "UNLISTEN".toList

/-- No keyword decides, and neither do the words of CREATE TEMP TABLE. -/
def undecided (sql : Str) : Bool :=
  !settles sql && !mentionsTempTable sql && !begins "DROP TABLE" sql &&
    !(begins "DECLARE " sql && mentions "CURSOR" sql) && !begins "CLOSE " sql &&
    !begins "DEALLOCATE " sql && !begins "LISTEN " sql && !leadsUnlisten sql && !begins "NOTIFY " sql

/-- The words of the text that say the command. -/
def Says (sql : Str) (cmd : DetectedCommand) : Prop :=
  match cmd with
  | .set _ _ => begins "SET " sql = true ∧ parseSet sql.trim = .ok (some cmd)
  | .reset _ | .resetAll => begins "RESET " sql = true ∧ parseReset sql.trim = some cmd
  | .discardAll => begins "DISCARD ALL" sql = true
  | .createTempTable _ => settles sql = false ∧ mentionsTempTable sql = true ∧
      parseCreateTempTable sql.trim = .ok (some cmd)
  | .dropTable _ => leads "DROP TABLE" sql = true ∧ parseDropTable sql.trim = .ok (some cmd)
  | .declareCursor _ _ => leads "DECLARE " sql = true ∧ mentions "CURSOR" sql = true ∧
      parseDeclareCursor sql.trim = .ok (some cmd)
  | .closeCursor _ => leads "CLOSE " sql = true ∧ parseCloseCursor sql.trim = .ok (some cmd)
  | .deallocate _ | .deallocateAll =>
    leads "DEALLOCATE " sql = true ∧ parseDeallocate sql.trim = .ok (some cmd)
  | .listen _ => leads "LISTEN " sql = true ∧ parseListen sql.trim = some cmd
  | .unlisten _ => leadsUnlisten sql = true ∧ parseUnlisten sql.trim = some cmd
  | .notify _ _ => leads "NOTIFY " sql = true ∧ parseNotify sql.trim = .ok (some cmd)
  | .advisoryLock key => undecided sql = true ∧ mentions "PG_ADVISORY_LOCK" sql = true ∧
      mentions "PG_ADVISORY_UNLOCK" sql = false ∧ extractLockKey (toUppercase sql.trim) = .ok key
  | .advisoryUnlock key => undecided sql = true ∧ mentions "PG_ADVISORY_UNLOCK" sql = true ∧
      extractLockKey (toUppercase sql.trim) = .ok key

/-! ## The detector -/

theorem detect_eq (sql : Str) : detect sql =
    if begins "SET " sql then parseSet sql.trim
    else if begins "RESET " sql then .ok (parseReset sql.trim)
    else if begins "DISCARD ALL" sql then .ok (some .discardAll)
    else if mentionsTempTable sql then parseCreateTempTable sql.trim
    else if begins "DROP TABLE" sql then parseDropTable sql.trim
    else if begins "DECLARE " sql && mentions "CURSOR" sql then parseDeclareCursor sql.trim
    else if begins "CLOSE " sql then parseCloseCursor sql.trim
    else if begins "DEALLOCATE " sql then parseDeallocate sql.trim
    else if begins "LISTEN " sql then .ok (parseListen sql.trim)
    else if begins "UNLISTEN " sql || toUppercase sql.trim == "UNLISTEN".toList then
      .ok (parseUnlisten sql.trim)
    else if begins "NOTIFY " sql then parseNotify sql.trim
    else if mentions "PG_ADVISORY_LOCK" sql && !mentions "PG_ADVISORY_UNLOCK" sql then
      (extractLockKey (toUppercase sql.trim)).map fun key => some (.advisoryLock key)
    else if mentions "PG_ADVISORY_UNLOCK" sql then
      (extractLockKey (toUppercase sql.trim)).map fun key => some (.advisoryUnlock key)
    else .ok none := rfl

variable {sql : Str}

/-- A text begins with one keyword, unless one keyword goes on as the other. -/
theorem begins_eq_false {keyword : String} (other : String) (h : begins keyword sql = true)
    (hother : Str.meets keyword.toList other.toList = false) : begins other sql = false := by
  by_contra hboth
  rw [Bool.not_eq_false] at hboth
  rw [begins, Str.startsWith, List.isPrefixOf_iff_prefix] at h hboth
  have hmeets : Str.meets keyword.toList other.toList = true := by
    rw [Str.meets, Bool.or_eq_true, List.isPrefixOf_iff_prefix, List.isPrefixOf_iff_prefix]
    exact List.prefix_or_prefix_of_prefix h hboth
  rw [hother] at hmeets
  cases hmeets

theorem leads_iff {keyword : String} :
    leads keyword sql = true ↔ begins keyword sql = true ∧ mentionsTempTable sql = false := by
  rw [leads, Bool.and_eq_true, Bool.not_eq_true']

theorem undecided_iff : undecided sql = true ↔
    (begins "SET " sql = false ∧ begins "RESET " sql = false ∧ begins "DISCARD ALL" sql = false) ∧
      mentionsTempTable sql = false ∧ begins "DROP TABLE" sql = false ∧
      (begins "DECLARE " sql && mentions "CURSOR" sql) = false ∧ begins "CLOSE " sql = false ∧
      begins "DEALLOCATE " sql = false ∧ begins "LISTEN " sql = false ∧ leadsUnlisten sql = false ∧
      begins "NOTIFY " sql = false := by
  simp only [undecided, settles, Bool.and_eq_true, Bool.not_eq_true', Bool.or_eq_false_iff, and_assoc]

/-- Where nothing decides, the names of the lock functions do. -/
theorem detect_of_undecided (h : undecided sql = true) :
    detect sql =
      if mentions "PG_ADVISORY_LOCK" sql && !mentions "PG_ADVISORY_UNLOCK" sql then
        (extractLockKey (toUppercase sql.trim)).map fun key => some (.advisoryLock key)
      else if mentions "PG_ADVISORY_UNLOCK" sql then
        (extractLockKey (toUppercase sql.trim)).map fun key => some (.advisoryUnlock key)
      else .ok none := by
  obtain ⟨hsettles, htemp, hdrop, hdeclare, hclose, hdeallocate, hlisten, hunlisten, hnotify⟩ :=
    undecided_iff.1 h
  simp only [leadsUnlisten, leads, htemp, Bool.not_false, Bool.and_true] at hunlisten
  simp only [detect_eq, hsettles, htemp, hdrop, hdeclare, hclose, hdeallocate, hlisten, hunlisten,
    hnotify, Bool.false_eq_true, if_false]

/-! ## Commands by their words

A parser answers with its own command, so the command says which words decided. -/

section Answers

variable {text : Str} {cmd : DetectedCommand}

theorem parseSet_answers (h : parseSet text = .ok (some cmd)) :
    ∃ name value, cmd = .set name value := by
  unfold parseSet at h
  split at h
  · cases h
  dsimp only at h
  split at h
  · obtain ⟨name, -, h⟩ := Rust.bind_returns.1 h
    obtain ⟨value, -, h⟩ := Rust.bind_returns.1 h
    cases h
    exact ⟨_, _, rfl⟩
  split at h
  · obtain ⟨name, -, h⟩ := Rust.bind_returns.1 h
    obtain ⟨value, -, h⟩ := Rust.bind_returns.1 h
    cases h
    exact ⟨_, _, rfl⟩
  · cases h

theorem parseReset_answers (h : parseReset text = some cmd) :
    cmd = .resetAll ∨ ∃ name, cmd = .reset name := by
  obtain ⟨rest, -, rfl⟩ := Option.map_eq_some_iff.1 h
  split
  · exact .inl rfl
  · exact .inr ⟨_, rfl⟩

theorem parseCreateTempTable_answers (h : parseCreateTempTable text = .ok (some cmd)) :
    ∃ name, cmd = .createTempTable name := by
  unfold parseCreateTempTable at h
  dsimp only at h
  split at h
  · cases h
  · obtain ⟨rest, -, h⟩ := Rust.bind_returns.1 h
    obtain ⟨name, -, rfl⟩ := Option.map_eq_some_iff.1 (Except.ok.inj h)
    exact ⟨name, rfl⟩

theorem parseDropTable_answers (h : parseDropTable text = .ok (some cmd)) :
    ∃ name, cmd = .dropTable name := by
  unfold parseDropTable at h
  split at h
  · obtain ⟨rest, -, h⟩ := Rust.bind_returns.1 h
    dsimp only at h
    -- with or without IF EXISTS
    split at h
    all_goals
      obtain ⟨rest', -, h⟩ := Rust.bind_returns.1 h
      obtain ⟨name, -, rfl⟩ := Option.map_eq_some_iff.1 (Except.ok.inj h)
      exact ⟨name, rfl⟩
  · cases h

theorem parseDeclareCursor_answers (h : parseDeclareCursor text = .ok (some cmd)) :
    ∃ name hold, cmd = .declareCursor name hold := by
  unfold parseDeclareCursor at h
  dsimp only at h
  split at h
  · obtain ⟨rest, -, h⟩ := Rust.bind_returns.1 h
    obtain ⟨name, -, rfl⟩ := Option.map_eq_some_iff.1 (Except.ok.inj h)
    exact ⟨name, _, rfl⟩
  · cases h

theorem parseCloseCursor_answers (h : parseCloseCursor text = .ok (some cmd)) :
    ∃ name, cmd = .closeCursor name := by
  unfold parseCloseCursor at h
  split at h
  · obtain ⟨rest, -, h⟩ := Rust.bind_returns.1 h
    obtain ⟨name, -, rfl⟩ := Option.map_eq_some_iff.1 (Except.ok.inj h)
    exact ⟨name, rfl⟩
  · cases h

theorem parseDeallocate_answers (h : parseDeallocate text = .ok (some cmd)) :
    cmd = .deallocateAll ∨ ∃ name, cmd = .deallocate name := by
  unfold parseDeallocate at h
  split at h
  · obtain ⟨rest, -, h⟩ := Rust.bind_returns.1 h
    dsimp only at h
    -- with or without PREPARE
    split at h
    all_goals
      obtain ⟨rest', -, h⟩ := Rust.bind_returns.1 h
      split at h
      · exact .inl (Option.some.inj (Except.ok.inj h)).symm
      · obtain ⟨name, -, rfl⟩ := Option.map_eq_some_iff.1 (Except.ok.inj h)
        exact .inr ⟨name, rfl⟩
  · cases h

theorem parseListen_answers (h : parseListen text = some cmd) : ∃ channel, cmd = .listen channel := by
  obtain ⟨rest, -, h⟩ := Option.bind_eq_some_iff.1 h
  obtain ⟨word, -, h⟩ := Option.bind_eq_some_iff.1 h
  exact ⟨_, (Option.some.inj h).symm⟩

theorem parseUnlisten_answers (h : parseUnlisten text = some cmd) :
    ∃ channel, cmd = .unlisten channel := by
  unfold parseUnlisten at h
  dsimp only at h
  split at h
  · exact ⟨none, (Option.some.inj h).symm⟩
  · obtain ⟨word, -, rfl⟩ := Option.map_eq_some_iff.1 h
    exact ⟨_, rfl⟩

theorem parseNotify_answers (h : parseNotify text = .ok (some cmd)) :
    ∃ channel payload, cmd = .notify channel payload := by
  unfold parseNotify at h
  split at h
  · cases h
  dsimp only at h
  split at h
  · obtain ⟨payload, -, h⟩ := Rust.bind_returns.1 h
    obtain ⟨channel, -, h⟩ := Rust.bind_returns.1 h
    cases h
    exact ⟨_, _, rfl⟩
  · cases h
    exact ⟨_, _, rfl⟩

end Answers

/-- `detect` finds what the words say: rule by rule, in its order. -/
theorem says_of_detect {cmd : DetectedCommand} (h : detect sql = .ok (some cmd)) : Says sql cmd := by
  rw [detect_eq] at h
  by_cases hset : begins "SET " sql
  · rw [if_pos hset] at h
    obtain ⟨name, value, rfl⟩ := parseSet_answers h
    exact ⟨hset, h⟩
  by_cases hreset : begins "RESET " sql
  · rw [if_neg hset, if_pos hreset] at h
    rcases parseReset_answers (Except.ok.inj h) with rfl | ⟨name, rfl⟩
    all_goals exact ⟨hreset, Except.ok.inj h⟩
  by_cases hdiscard : begins "DISCARD ALL" sql
  · rw [if_neg hset, if_neg hreset, if_pos hdiscard] at h
    cases h
    exact hdiscard
  rw [if_neg hset, if_neg hreset, if_neg hdiscard] at h
  by_cases htemp : mentionsTempTable sql
  · rw [if_pos htemp] at h
    obtain ⟨name, rfl⟩ := parseCreateTempTable_answers h
    exact ⟨by simp only [settles, hset, hreset, hdiscard, Bool.or_self], htemp, h⟩
  rw [if_neg htemp] at h
  have hleads {keyword : String} (hfront : begins keyword sql = true) : leads keyword sql = true :=
    leads_iff.2 ⟨hfront, Bool.not_eq_true _ ▸ htemp⟩
  by_cases hdrop : begins "DROP TABLE" sql
  · rw [if_pos hdrop] at h
    obtain ⟨name, rfl⟩ := parseDropTable_answers h
    exact ⟨hleads hdrop, h⟩
  by_cases hdeclare : begins "DECLARE " sql && mentions "CURSOR" sql
  · rw [if_neg hdrop, if_pos hdeclare] at h
    obtain ⟨name, hold, rfl⟩ := parseDeclareCursor_answers h
    obtain ⟨hfront, hcursor⟩ := Bool.and_eq_true_iff.1 hdeclare
    exact ⟨hleads hfront, hcursor, h⟩
  rw [if_neg hdrop, if_neg hdeclare] at h
  by_cases hclose : begins "CLOSE " sql
  · rw [if_pos hclose] at h
    obtain ⟨name, rfl⟩ := parseCloseCursor_answers h
    exact ⟨hleads hclose, h⟩
  by_cases hdeallocate : begins "DEALLOCATE " sql
  · rw [if_neg hclose, if_pos hdeallocate] at h
    rcases parseDeallocate_answers h with rfl | ⟨name, rfl⟩
    all_goals exact ⟨hleads hdeallocate, h⟩
  by_cases hlisten : begins "LISTEN " sql
  · rw [if_neg hclose, if_neg hdeallocate, if_pos hlisten] at h
    obtain ⟨channel, rfl⟩ := parseListen_answers (Except.ok.inj h)
    exact ⟨hleads hlisten, Except.ok.inj h⟩
  have hfront : leadsUnlisten sql =
      (begins "UNLISTEN " sql || toUppercase sql.trim == "UNLISTEN".toList) := by
    simp only [leadsUnlisten, leads, htemp, Bool.not_false, Bool.and_true]
  rw [if_neg hclose, if_neg hdeallocate, if_neg hlisten, ← hfront] at h
  by_cases hunlisten : leadsUnlisten sql
  · rw [if_pos hunlisten] at h
    obtain ⟨channel, rfl⟩ := parseUnlisten_answers (Except.ok.inj h)
    exact ⟨hunlisten, Except.ok.inj h⟩
  by_cases hnotify : begins "NOTIFY " sql
  · rw [if_neg hunlisten, if_pos hnotify] at h
    obtain ⟨channel, payload, rfl⟩ := parseNotify_answers h
    exact ⟨hleads hnotify, h⟩
  rw [if_neg hunlisten, if_neg hnotify] at h
  have hundecided : undecided sql = true := by
    simp only [Bool.not_eq_true] at *
    exact undecided_iff.2 ⟨⟨hset, hreset, hdiscard⟩, htemp, hdrop, hdeclare, hclose, hdeallocate,
      hlisten, hunlisten, hnotify⟩
  by_cases hlock : mentions "PG_ADVISORY_LOCK" sql && !mentions "PG_ADVISORY_UNLOCK" sql
  · rw [if_pos hlock] at h
    obtain ⟨key, hkey, heq⟩ := Rust.map_returns.1 h
    cases heq
    rw [Bool.and_eq_true, Bool.not_eq_true'] at hlock
    exact ⟨hundecided, hlock.1, hlock.2, hkey⟩
  rw [if_neg hlock] at h
  by_cases hunlock : mentions "PG_ADVISORY_UNLOCK" sql
  · rw [if_pos hunlock] at h
    obtain ⟨key, hkey, heq⟩ := Rust.map_returns.1 h
    cases heq
    exact ⟨hundecided, hunlock, hkey⟩
  · rw [if_neg hunlock] at h
    cases h

/-- The words say one thing, and `detect` finds it. -/
theorem detect_of_says {cmd : DetectedCommand} (h : Says sql cmd) : detect sql = .ok (some cmd) := by
  cases cmd with
  | set name value => rw [detect_eq, if_pos h.1, h.2]
  | reset | resetAll =>
    have hno (other : String) := begins_eq_false other h.1
    simp [detect_eq, h.1, h.2, hno "SET " (by decide)]
  | discardAll =>
    have hfront : begins "DISCARD ALL" sql = true := h
    have hno (other : String) := begins_eq_false other hfront
    simp [detect_eq, hfront, hno "SET " (by decide), hno "RESET " (by decide)]
  | createTempTable name =>
    obtain ⟨hfront, hwords, hr⟩ := h
    simp only [settles, Bool.or_eq_false_iff] at hfront
    simp [detect_eq, hfront, hwords, hr]
  | dropTable name =>
    obtain ⟨hfront, htemp⟩ := leads_iff.1 h.1
    have hno (other : String) := begins_eq_false other hfront
    simp [detect_eq, hfront, htemp, h.2, hno "SET " (by decide), hno "RESET " (by decide),
      hno "DISCARD ALL" (by decide)]
  | declareCursor name hold =>
    obtain ⟨hfront, htemp⟩ := leads_iff.1 h.1
    have hno (other : String) := begins_eq_false other hfront
    simp [detect_eq, hfront, htemp, h.2, hno "SET " (by decide), hno "RESET " (by decide),
      hno "DISCARD ALL" (by decide), hno "DROP TABLE" (by decide)]
  | closeCursor name =>
    obtain ⟨hfront, htemp⟩ := leads_iff.1 h.1
    have hno (other : String) := begins_eq_false other hfront
    simp [detect_eq, hfront, htemp, h.2, hno "SET " (by decide), hno "RESET " (by decide),
      hno "DISCARD ALL" (by decide), hno "DROP TABLE" (by decide), hno "DECLARE " (by decide)]
  | deallocate | deallocateAll =>
    obtain ⟨hfront, htemp⟩ := leads_iff.1 h.1
    have hno (other : String) := begins_eq_false other hfront
    simp [detect_eq, hfront, htemp, h.2, hno "SET " (by decide), hno "RESET " (by decide),
      hno "DISCARD ALL" (by decide), hno "DROP TABLE" (by decide), hno "DECLARE " (by decide),
      hno "CLOSE " (by decide)]
  | listen channel =>
    obtain ⟨hfront, htemp⟩ := leads_iff.1 h.1
    have hno (other : String) := begins_eq_false other hfront
    simp [detect_eq, hfront, htemp, h.2, hno "SET " (by decide), hno "RESET " (by decide),
      hno "DISCARD ALL" (by decide), hno "DROP TABLE" (by decide), hno "DECLARE " (by decide),
      hno "CLOSE " (by decide), hno "DEALLOCATE " (by decide)]
  | unlisten channel =>
    rcases Bool.or_eq_true_iff.1 h.1 with hfront | halone
    · obtain ⟨hfront, htemp⟩ := leads_iff.1 hfront
      have hno (other : String) := begins_eq_false other hfront
      simp [detect_eq, hfront, htemp, h.2, hno "SET " (by decide), hno "RESET " (by decide),
        hno "DISCARD ALL" (by decide), hno "DROP TABLE" (by decide), hno "DECLARE " (by decide),
        hno "CLOSE " (by decide), hno "DEALLOCATE " (by decide), hno "LISTEN " (by decide)]
    · -- the word alone begins with no other keyword and mentions nothing
      have hupper : toUppercase sql.trim = "UNLISTEN".toList := beq_iff_eq.1 halone
      rw [← h.2]
      simp only [detect_eq, begins, mentionsTempTable, mentions, hupper]
      rfl
  | notify channel payload =>
    obtain ⟨hfront, htemp⟩ := leads_iff.1 h.1
    have hno (other : String) := begins_eq_false other hfront
    have halone : (toUppercase sql.trim == "UNLISTEN".toList) = false := by
      by_contra halone
      rw [Bool.not_eq_false, beq_iff_eq] at halone
      rw [begins, halone] at hfront
      exact absurd hfront (by decide)
    simp only [detect_eq, hfront, htemp, h.2, halone, hno "SET " (by decide), hno "RESET " (by decide),
      hno "DISCARD ALL" (by decide), hno "DROP TABLE" (by decide), hno "DECLARE " (by decide),
      hno "CLOSE " (by decide), hno "DEALLOCATE " (by decide), hno "LISTEN " (by decide),
      hno "UNLISTEN " (by decide), Bool.false_and, Bool.or_self, Bool.false_eq_true, if_false, if_true]
  | advisoryLock key =>
    obtain ⟨hfront, hlock, hunlock, hkey⟩ := h
    rw [detect_of_undecided hfront, hlock, hunlock, hkey]
    rfl
  | advisoryUnlock key =>
    obtain ⟨hfront, hunlock, hkey⟩ := h
    rw [detect_of_undecided hfront, hunlock, hkey, Bool.not_true, Bool.and_false]
    rfl

theorem detect_iff {cmd : DetectedCommand} : detect sql = .ok (some cmd) ↔ Says sql cmd :=
  ⟨says_of_detect, detect_of_says⟩

/-- The class of a text that is read is that of the command its words say. -/
theorem class_eq_stateful {c : CommandClass} (h : classify sql = .ok c) (cmd : DetectedCommand) :
    c = .stateful cmd ↔ Says sql cmd := by
  obtain ⟨r, hr, h⟩ := Rust.bind_returns.1 h
  rw [← detect_iff, hr]
  cases r with
  | some cmd' =>
    cases h
    simp
  | none =>
    simp only at h
    split at h <;> cases h <;> simp

theorem class_eq_unknown {c : CommandClass} (h : classify sql = .ok c) :
    c = .unknown ↔ (∀ cmd, ¬ Says sql cmd) ∧ isKnownClean sql = false := by
  simp only [← class_eq_stateful h]
  obtain ⟨r, hr, h⟩ := Rust.bind_returns.1 h
  cases r with
  | some cmd =>
    cases h
    simp
  | none =>
    simp only at h
    split at h <;> cases h <;> simp_all

end CommandDetector

open CommandDetector

/-! ## Pins -/

/-- The words of a part of a query by which it pins. -/
def PartPins (part : Str) : Pin → Prop
  | .prepared _ => False
  | .sessionVariable name => ∃ value, Says part (.set name value)
  | .tempTable name => Says part (.createTempTable name)
  | .cursor name => ∃ withHold, Says part (.declareCursor name withHold)
  | .advisoryLock key => Says part (.advisoryLock (some key))
  | .listen channel => Says part (.listen channel)
  | .unknownCommand => (∀ cmd, ¬ Says part cmd) ∧ isKnownClean part = false

/-- The words of a part of a query by which it drops a pin. -/
def PartDrops (part : Str) (p : Pin) : Prop :=
  begins "DISCARD ALL" part = true ∨
    match p with
    | .prepared name => Says part (.deallocate name) ∨ Says part .deallocateAll
    | .sessionVariable name => Says part (.reset name) ∨ Says part .resetAll
    | .tempTable name => Says part (.dropTable name)
    | .cursor name => Says part (.closeCursor name)
    | .advisoryLock key => Says part (.advisoryUnlock (some key))
    | .listen channel => Says part (.unlisten (some channel)) ∨ Says part (.unlisten none)
    | .unknownCommand => False

/-- The parts of a query that are looked at one by one. -/
def queryParts (query : Str) : List Str :=
  match splitStatements query with
  | [] => [query]
  | parts => parts

/-- Some part pins, and no later part drops the pin. -/
def LeavesPin (query : Str) (p : Pin) : Prop :=
  Facts.Leaves PartPins PartDrops (queryParts query) p

/-- Some part drops the pin. -/
def DropsPin (query : Str) (p : Pin) : Prop := ∃ part ∈ queryParts query, PartDrops part p

namespace ConnectionState

theorem readQuery_eq (query : Str) : readQuery query = (queryParts query).mapM classify := by
  unfold readQuery queryParts
  cases splitStatements query with
  | nil =>
    rw [List.mapM_cons, List.mapM_nil]
    cases classify query <;> rfl
  | cons part parts => rfl

theorem pin_iff_partPins {part : Str} {c : CommandClass} (h : classify part = .ok c) (p : Pin) :
    c.pin = some p ↔ PartPins part p := by
  cases p <;> first
    | rw [PartPins, ← class_eq_unknown h]
    | simp only [PartPins, ← class_eq_stateful h]
  all_goals
    cases c with
    | stateful cmd =>
      cases cmd with
      | advisoryLock key => cases key <;> simp [CommandClass.pin]
      | _ => simp [CommandClass.pin]
    | clean | unknown => simp [CommandClass.pin]

theorem drops_iff_partDrops {part : Str} {c : CommandClass} (h : classify part = .ok c) (p : Pin) :
    c.drops p = true ↔ PartDrops part p := by
  have hall : begins "DISCARD ALL" part = true ↔ c = .stateful .discardAll :=
    (class_eq_stateful h .discardAll).symm
  cases p <;> simp only [PartDrops, hall, ← class_eq_stateful h]
  all_goals
    cases c with
    | stateful cmd =>
      cases cmd with
      | advisoryUnlock key => cases key <;> simp [CommandClass.drops, eq_comm]
      | unlisten channel => cases channel <;> simp [CommandClass.drops, eq_comm]
      | _ => simp [CommandClass.drops, eq_comm]
    | clean | unknown => simp [CommandClass.drops]

theorem parts_iff {parts : List Str} {cs : List CommandClass} (h : parts.mapM classify = .ok cs)
    (p : Pin) :
    ((∃ c ∈ cs, c.drops p = true) ↔ ∃ part ∈ parts, PartDrops part p) ∧
      (Leaves cs p ↔ Facts.Leaves PartPins PartDrops parts p) := by
  induction parts generalizing cs with
  | nil =>
    cases h
    simp [Leaves, Facts.leaves_nil]
  | cons part parts ih =>
    rw [List.mapM_cons] at h
    obtain ⟨c, hc, h⟩ := Rust.bind_returns.1 h
    obtain ⟨cs', hcs, h⟩ := Rust.bind_returns.1 h
    cases h
    have hpins := pin_iff_partPins hc p
    have hdrops := drops_iff_partDrops hc p
    obtain ⟨hsome, hleaves⟩ := ih hcs
    have hnone : (∀ c' ∈ cs', ¬ c'.drops p = true) ↔ ∀ part' ∈ parts, ¬ PartDrops part' p := by
      simpa only [not_exists, not_and] using not_congr hsome
    constructor
    · simp only [List.exists_mem_cons_iff, hdrops, hsome]
    · rw [Leaves, Facts.leaves_cons, Facts.leaves_cons, ← hleaves, hpins, hnone]
      rfl

/-- The pins that are held after a query: those before it that no part drops, and those it leaves. -/
theorem holds_applyQuery {s s' : ConnectionState} {query : Str} (h : s.applyQuery query = .ok s')
    (p : Pin) : s'.Holds p ↔ (s.Holds p ∧ ¬ DropsPin query p) ∨ LeavesPin query p := by
  obtain ⟨cs, hread, rfl⟩ := applyQuery_returns h
  rw [readQuery_eq] at hread
  obtain ⟨hdrops, hleaves⟩ := parts_iff hread p
  rw [holds_foldl_applyClass, Keeps, hleaves, DropsPin, ← hdrops]
  simp only [not_exists, not_and]
  rfl

end ConnectionState

end ScryProxy
