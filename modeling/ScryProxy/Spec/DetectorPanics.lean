import ScryProxy.Native.ConnectionState
import ScryProxy.Native.ModeEnforcer

/-!
# When the classification of SQL text panics

`CommandDetector::detect` looks for keywords in the uppercased text and slices the original
text at the offsets it finds.  A character whose uppercase has another length moves what
follows it, and the offset may then lie inside a character; the key of an advisory lock is
cut between two offsets that may be in the wrong order.  `DetectSlips` says when that
happens, and nothing else stops the classification (`classification_returns_iff`).
-/

namespace ScryProxy

open Str (toUppercase isCharBoundary)

namespace CommandDetector

/-! ## What the parsers panic on -/

/-- A SET without `=`, whose ` TO ` in the uppercased text does not mark two boundaries of the text. -/
def SetSlips (text : Str) : Prop :=
  ∃ rest pos, text.getFrom 3 = some rest ∧ rest.trim.find ['='] = none ∧
    (toUppercase rest.trim).find " TO ".toList = some pos ∧
    ¬ (isCharBoundary rest.trim pos = true ∧ isCharBoundary rest.trim (pos + 4) = true)

/-- The offset behind `TEMP TABLE` or `TEMPORARY TABLE`. -/
def tempTableEnd (upper : Str) : Option Nat :=
  ((upper.find "TEMP TABLE".toList).map (· + 10)).or
    ((upper.find "TEMPORARY TABLE".toList).map (· + 15))

/-- The end of `TEMP TABLE` in the uppercased text is not a boundary of the text. -/
def TempTableSlips (text : Str) : Prop :=
  ∃ pos, tempTableEnd (toUppercase text) = some pos ∧ isCharBoundary text pos = false

/-- What follows DROP TABLE is IF EXISTS in uppercase, but its ninth byte is inside a character. -/
def IfExistsSlips (text : Str) : Prop :=
  ∃ rest, text.getFrom 10 = some rest ∧
    (toUppercase rest.trim).startsWith "IF EXISTS".toList = true ∧ isCharBoundary rest.trim 9 = false

/-- The first closing parenthesis stands before the first opening one. -/
def LockKeySlips (upper : Str) : Prop :=
  ∃ start stop, upper.find ['('] = some start ∧ upper.find [')'] = some stop ∧ stop ≤ start

/-- The command that `detect` reads the text as makes its parser panic. -/
def DetectSlips (sql : Str) : Prop :=
  let text := sql.trim
  let upper := toUppercase text
  if upper.startsWith "SET ".toList then SetSlips text
  else if upper.startsWith "RESET ".toList || upper.startsWith "DISCARD ALL".toList then False
  else if upper.contains "CREATE".toList &&
      (upper.contains "TEMP TABLE".toList || upper.contains "TEMPORARY TABLE".toList) then
    TempTableSlips text
  else if upper.startsWith "DROP TABLE".toList then IfExistsSlips text
  else if (upper.startsWith "DECLARE ".toList && upper.contains "CURSOR".toList) ||
      upper.startsWith "CLOSE ".toList || upper.startsWith "DEALLOCATE ".toList ||
      upper.startsWith "LISTEN ".toList ||
      (upper.startsWith "UNLISTEN ".toList || upper == "UNLISTEN".toList) ||
      upper.startsWith "NOTIFY ".toList then False
  else if upper.contains "PG_ADVISORY_LOCK".toList || upper.contains "PG_ADVISORY_UNLOCK".toList then
    LockKeySlips upper
  else False

/-! ## The parsers -/

theorem getFrom_eq_some {s r : Str} {n : Nat} : s.getFrom n = some r ↔ s.sliceFrom n = .ok r := by
  rw [Str.getFrom]
  cases s.sliceFrom n with
  | error e => simp [Except.toOption]
  | ok t => simp [Except.toOption]

/-- The slices that a parser takes one after the other. -/
theorem slices_return_iff {s : Str} {m n : Nat} {f : Str → Str → β} :
    (∃ r, (s.sliceTo m >>= fun a => s.sliceFrom n >>= fun b => .ok (f a b) : Rust β) = .ok r) ↔
      isCharBoundary s m = true ∧ isCharBoundary s n = true := by
  rw [← Str.sliceTo_returns_iff, ← Str.sliceFrom_returns_iff]
  simp only [Rust.bind_returns_iff]
  constructor
  · rintro ⟨a, ha, b, hb, -⟩
    exact ⟨⟨a, ha⟩, b, hb⟩
  · rintro ⟨⟨a, ha⟩, b, hb⟩
    exact ⟨a, ha, b, hb, _, rfl⟩

theorem parseSet_returns_iff (text : Str) : (∃ r, parseSet text = .ok r) ↔ ¬ SetSlips text := by
  unfold parseSet SetSlips
  cases hrest : text.getFrom 3 with
  | none => exact iff_of_true ⟨_, rfl⟩ fun ⟨_, _, h, _⟩ => nomatch h
  | some rest =>
    simp only
    cases heq : rest.trim.find ['='] with
    | some pos =>
      -- the offset was found in the text itself
      refine iff_of_true (slices_return_iff.2 (Str.isCharBoundary_of_find heq)) ?_
      rintro ⟨_, _, ⟨⟩, hnone, -⟩
      rw [heq] at hnone
      cases hnone
    | none =>
      simp only
      cases hto : (toUppercase rest.trim).find " TO ".toList with
      | none =>
        refine iff_of_true ⟨_, rfl⟩ ?_
        rintro ⟨_, _, ⟨⟩, -, hsome, -⟩
        rw [hto] at hsome
        cases hsome
      | some pos =>
        refine slices_return_iff.trans ⟨?_, ?_⟩
        · rintro hboth ⟨_, _, ⟨⟩, -, hsome, hslip⟩
          rw [hto] at hsome
          cases hsome
          exact hslip hboth
        · intro hslip
          by_contra hboth
          exact hslip ⟨rest, pos, rfl, heq, hto, hboth⟩

theorem parseCreateTempTable_returns_iff (text : Str) :
    (∃ r, parseCreateTempTable text = .ok r) ↔ ¬ TempTableSlips text := by
  unfold parseCreateTempTable TempTableSlips
  dsimp only
  rw [← tempTableEnd]
  cases hend : tempTableEnd (toUppercase text) with
  | none => exact iff_of_true ⟨_, rfl⟩ fun ⟨_, h, _⟩ => nomatch h
  | some pos => simp [Rust.bind_returns_iff, Str.sliceFrom_returns_iff]

/-- The keywords in front of a name are cut off where they end: their letters have no other
    lowercase forms. -/
theorem keyword_boundary {pat text : Str}
    (hpat : pat = "DROP TABLE".toList ∨ pat = "DECLARE ".toList ∨ pat = "DEALLOCATE ".toList ∨
      pat = "PREPARE ".toList)
    (h : (toUppercase text).startsWith pat = true) : isCharBoundary text pat.length = true := by
  refine Str.isCharBoundary_of_plain ?_ h
  rcases hpat with rfl | rfl | rfl | rfl
  all_goals decide +kernel

/-- A character that is uppercased to the `S` of `SE ` is one byte long, or it is `ſ`. -/
theorem upper_s_cases {back : Str} (h : "SE ".toList <+: toUppercase back) :
    ∃ c t, back = c :: t ∧ (c.utf8Size = 1 ∨ c.utf8Size = 2) ∧ "E ".toList <+: toUppercase t := by
  have hfront : 'S' :: "E ".toList <+: toUppercase back := h
  obtain ⟨c, t, rfl, ⟨hsize, ht⟩ | ⟨hc, h⟩⟩ := Str.toUppercase_front hfront
  · exact ⟨c, t, rfl, .inl hsize, ht⟩
  · have hmeets := Str.meets_of_prefix h
    rcases UnicodeCase.charToUppercase_cases hc with
      ⟨d, hd, hlarge⟩ | ⟨-, hI⟩ | ⟨hc, hS⟩ | ⟨cs, hcs, hseq⟩
    · rw [hd] at h
      obtain ⟨rfl, -⟩ := List.cons_prefix_cons.1 h
      exact absurd hlarge (by decide)
    · rw [hI] at hmeets
      exact absurd hmeets (by decide)
    · rw [hS] at h
      have hsize : c.utf8Size = 2 := by rw [← Char.ofNat_toNat c, hc]; decide
      exact ⟨c, t, rfl, .inr hsize, (List.cons_prefix_cons.1 h).2⟩
    · have hnone : (UnicodeCase.upperMulti.map Prod.snd).all fun cs =>
          !Str.meets (cs.map Char.ofNat) ('S' :: "E ".toList) := by decide +kernel
      have hmiss := List.all_eq_true.1 hnone cs hcs
      rw [← hseq, hmeets] at hmiss
      cases hmiss

/-- In `CLOſE ` the sixth byte is the space's. -/
theorem close_boundary {text : Str} (h : (toUppercase text).startsWith "CLOSE ".toList = true) :
    isCharBoundary text 6 = true := by
  rw [Str.startsWith, List.isPrefixOf_iff_prefix] at h
  obtain ⟨front, back, rfl, hfront, hback⟩ :=
    Str.exists_of_plainFront "CLO".toList "SE ".toList (by decide +kernel) h
  obtain ⟨c, t, rfl, hsize, ht⟩ := upper_s_cases hback
  have hthree : "CLO".toList.length = 3 := rfl
  rw [hthree] at hfront
  rcases hsize with hsize | hsize
  · obtain ⟨e, r, rfl, he, -⟩ :=
      Str.exists_of_plainFront "E ".toList [] (by decide +kernel) ht
    have htwo : "E ".toList.length = 2 := rfl
    refine Str.isCharBoundary_iff.2 ⟨front ++ c :: e, r, by simp, ?_⟩
    rw [Str.byteLen_append, Str.byteLen_cons, hfront, hsize, he, htwo]
  · obtain ⟨e, r, rfl, he, -⟩ :=
      Str.exists_of_plainFront "E".toList " ".toList (by decide +kernel) ht
    have hone : "E".toList.length = 1 := rfl
    refine Str.isCharBoundary_iff.2 ⟨front ++ c :: e, r, by simp, ?_⟩
    rw [Str.byteLen_append, Str.byteLen_cons, hfront, hsize, he, hone]

theorem parseDropTable_returns_iff {text : Str}
    (h : (toUppercase text).startsWith "DROP TABLE".toList = true) :
    (∃ r, parseDropTable text = .ok r) ↔ ¬ IfExistsSlips text := by
  obtain ⟨rest, hrest⟩ := Str.sliceFrom_returns_iff.2 (keyword_boundary (.inl rfl) h)
  have hrest : text.sliceFrom 10 = .ok rest := hrest
  have hget : text.getFrom 10 = some rest := getFrom_eq_some.2 hrest
  unfold parseDropTable IfExistsSlips
  rw [if_pos h, hrest, Rust.ok_bind, hget]
  dsimp only
  by_cases hif : (toUppercase rest.trim).startsWith "IF EXISTS".toList = true
  · simp only [if_pos hif, Rust.bind_returns_iff, Rust.map_returns]
    constructor
    · rintro ⟨_, ⟨tail, htail, -⟩, -⟩ ⟨_, ⟨⟩, -, hslip⟩
      rw [Str.sliceFrom_returns_iff.1 ⟨tail, htail⟩] at hslip
      cases hslip
    · intro hslip
      have hnine : isCharBoundary rest.trim 9 = true := by
        by_contra hnine
        exact hslip ⟨rest, rfl, hif, Bool.eq_false_iff.2 hnine⟩
      obtain ⟨tail, htail⟩ := Str.sliceFrom_returns_iff.2 hnine
      exact ⟨_, ⟨tail, htail, rfl⟩, _, rfl⟩
  · rw [if_neg hif]
    refine iff_of_true ⟨_, rfl⟩ ?_
    rintro ⟨_, ⟨⟩, hpos, -⟩
    exact hif hpos

theorem parseDeclareCursor_returns {text : Str}
    (h : (toUppercase text).startsWith "DECLARE ".toList = true) :
    ∃ r, parseDeclareCursor text = .ok r := by
  obtain ⟨rest, hrest⟩ := Str.sliceFrom_returns_iff.2 (keyword_boundary (.inr (.inl rfl)) h)
  have hrest : text.sliceFrom 8 = .ok rest := hrest
  unfold parseDeclareCursor
  dsimp only
  rw [if_pos h, hrest, Rust.ok_bind]
  exact ⟨_, rfl⟩

theorem parseCloseCursor_returns {text : Str}
    (h : (toUppercase text).startsWith "CLOSE ".toList = true) :
    ∃ r, parseCloseCursor text = .ok r := by
  obtain ⟨rest, hrest⟩ := Str.sliceFrom_returns_iff.2 (close_boundary h)
  unfold parseCloseCursor
  rw [if_pos h, hrest, Rust.ok_bind]
  exact ⟨_, rfl⟩

theorem parseDeallocate_returns {text : Str}
    (h : (toUppercase text).startsWith "DEALLOCATE ".toList = true) :
    ∃ r, parseDeallocate text = .ok r := by
  obtain ⟨rest, hrest⟩ := Str.sliceFrom_returns_iff.2 (keyword_boundary (.inr (.inr (.inl rfl))) h)
  have hrest : text.sliceFrom 11 = .ok rest := hrest
  unfold parseDeallocate
  rw [if_pos h, hrest, Rust.ok_bind]
  dsimp only
  -- with or without PREPARE, the rest is looked at as a word
  have hword : ∀ s : Str, ∃ r, (if s.eqIgnoreAsciiCase "ALL".toList then pure (some .deallocateAll)
      else pure (s.firstWord.map .deallocate) : Rust (Option DetectedCommand)) = .ok r := by
    intro s
    split <;> exact ⟨_, rfl⟩
  by_cases hprepare : (toUppercase rest.trim).startsWith "PREPARE ".toList = true
  · obtain ⟨tail, htail⟩ :=
      Str.sliceFrom_returns_iff.2 (keyword_boundary (.inr (.inr (.inr rfl))) hprepare)
    have htail : rest.trim.sliceFrom 8 = .ok tail := htail
    rw [if_pos hprepare, htail]
    exact hword tail.trim
  · rw [if_neg hprepare]
    exact hword rest.trim

theorem parseNotify_returns (text : Str) : ∃ r, parseNotify text = .ok r := by
  unfold parseNotify
  cases text.getFrom 7 with
  | none => exact ⟨_, rfl⟩
  | some rest =>
    simp only
    cases hcomma : rest.trim.find [','] with
    | none => exact ⟨_, rfl⟩
    | some pos =>
      obtain ⟨hchannel, hpayload⟩ := Str.isCharBoundary_of_find hcomma
      obtain ⟨channel, hchannel⟩ := Str.sliceTo_returns_iff.2 hchannel
      obtain ⟨payload, hpayload⟩ := Str.sliceFrom_returns_iff.2 hpayload
      have hpayload : rest.trim.sliceFrom (pos + 1) = .ok payload := hpayload
      exact ⟨_, by simp only [hpayload, hchannel, Rust.ok_bind]; rfl⟩

theorem extractLockKey_returns_iff (upper : Str) :
    (∃ r, extractLockKey upper = .ok r) ↔ ¬ LockKeySlips upper := by
  unfold extractLockKey LockKeySlips
  cases hstart : upper.find ['('] with
  | none => exact iff_of_true ⟨_, rfl⟩ fun ⟨_, _, h, _⟩ => nomatch h
  | some start =>
    cases hstop : upper.find [')'] with
    | none => exact iff_of_true ⟨_, rfl⟩ fun ⟨_, _, _, h, _⟩ => nomatch h
    | some stop =>
      -- both offsets are boundaries, so only their order matters
      have hslice : (∃ r, upper.slice (start + 1) stop = .ok r) ↔ start + 1 ≤ stop := by
        have hopen : isCharBoundary upper (start + 1) = true := (Str.isCharBoundary_of_find hstart).2
        have hclose : isCharBoundary upper stop = true := (Str.isCharBoundary_of_find hstop).1
        simp only [Str.slice_returns_iff, hopen, hclose, true_and]
      simp only [Rust.bind_returns_iff]
      constructor
      · rintro ⟨inner, hinner, -⟩ ⟨_, _, ⟨⟩, ⟨⟩, hle⟩
        have := hslice.1 ⟨inner, hinner⟩
        omega
      · intro hslip
        have hle : start + 1 ≤ stop := by
          by_contra hle
          exact hslip ⟨start, stop, rfl, rfl, by omega⟩
        obtain ⟨inner, hinner⟩ := hslice.2 hle
        exact ⟨inner, hinner, _, rfl⟩

/-! ## Classification -/

theorem detect_returns_iff (sql : Str) : (∃ r, detect sql = .ok r) ↔ ¬ DetectSlips sql := by
  unfold detect DetectSlips
  dsimp only
  generalize htext : sql.trim = text
  -- rule by rule, in the order of `detect`
  cases hset : (toUppercase text).startsWith "SET ".toList with
  | true => simpa using parseSet_returns_iff text
  | false =>
  cases hreset : (toUppercase text).startsWith "RESET ".toList with
  | true => simp
  | false =>
  cases hdiscard : (toUppercase text).startsWith "DISCARD ALL".toList with
  | true => simp
  | false =>
  cases htemp : (toUppercase text).contains "CREATE".toList &&
      ((toUppercase text).contains "TEMP TABLE".toList ||
        (toUppercase text).contains "TEMPORARY TABLE".toList) with
  | true => simpa using parseCreateTempTable_returns_iff text
  | false =>
  cases hdrop : (toUppercase text).startsWith "DROP TABLE".toList with
  | true => simpa using parseDropTable_returns_iff hdrop
  | false =>
  cases hdeclare : (toUppercase text).startsWith "DECLARE ".toList &&
      (toUppercase text).contains "CURSOR".toList with
  | true => simpa using parseDeclareCursor_returns (Bool.and_eq_true_iff.1 hdeclare).1
  | false =>
  cases hclose : (toUppercase text).startsWith "CLOSE ".toList with
  | true => simpa using parseCloseCursor_returns hclose
  | false =>
  cases hdeallocate : (toUppercase text).startsWith "DEALLOCATE ".toList with
  | true => simpa using parseDeallocate_returns hdeallocate
  | false =>
  cases hlisten : (toUppercase text).startsWith "LISTEN ".toList with
  | true => simp
  | false =>
  cases hunlisten : (toUppercase text).startsWith "UNLISTEN ".toList ||
      (toUppercase text) == "UNLISTEN".toList with
  | true => simp
  | false =>
  cases hnotify : (toUppercase text).startsWith "NOTIFY ".toList with
  | true => simpa using parseNotify_returns text
  | false =>
  cases hunlock : (toUppercase text).contains "PG_ADVISORY_UNLOCK".toList with
  | true => simpa [Rust.map_returns_iff] using extractLockKey_returns_iff (toUppercase text)
  | false =>
  cases hlock : (toUppercase text).contains "PG_ADVISORY_LOCK".toList with
  | true => simpa [Rust.map_returns_iff] using extractLockKey_returns_iff (toUppercase text)
  | false => simp

theorem classify_returns_iff (sql : Str) :
    (∃ r, classify sql = .ok r) ↔ ∃ r, detect sql = .ok r := by
  rw [classify, Rust.bind_returns_iff]
  constructor
  · rintro ⟨r, hr, -⟩
    exact ⟨r, hr⟩
  · rintro ⟨r, hr⟩
    cases r with
    | none => exact ⟨none, hr, _, rfl⟩
    | some cmd => exact ⟨some cmd, hr, _, rfl⟩

end CommandDetector

open CommandDetector (detect classify splitStatements DetectSlips)

/-- The parts are classified one after the other, whatever state the earlier ones leave. -/
theorem foldlM_applySingleStatement_returns_iff (parts : List Str) (s : ConnectionState) :
    (∃ r, parts.foldlM ConnectionState.applySingleStatement s = .ok r) ↔
      ∀ part ∈ parts, ¬ DetectSlips part := by
  induction parts generalizing s with
  | nil => simp
  | cons part parts ih =>
    rw [List.foldlM_cons, Rust.bind_returns_iff, List.forall_mem_cons,
      ← CommandDetector.detect_returns_iff, ← CommandDetector.classify_returns_iff]
    simp only [ConnectionState.applySingleStatement, Rust.map_returns]
    constructor
    · rintro ⟨s', ⟨c, hc, -⟩, hrest⟩
      exact ⟨⟨c, hc⟩, (ih s').1 hrest⟩
    · rintro ⟨⟨c, hc⟩, hrest⟩
      exact ⟨_, ⟨c, hc, rfl⟩, (ih _).2 hrest⟩

theorem applyQuery_returns_iff (s : ConnectionState) (sql : Str) :
    (∃ r, s.applyQuery sql = .ok r) ↔
      (splitStatements sql = [] → ¬ DetectSlips sql) ∧
        ∀ part ∈ splitStatements sql, ¬ DetectSlips part := by
  unfold ConnectionState.applyQuery
  cases hparts : splitStatements sql with
  | nil =>
    simp [ConnectionState.applySingleStatement, Rust.map_returns_iff,
      CommandDetector.classify_returns_iff, CommandDetector.detect_returns_iff]
  | cons part parts => simpa using foldlM_applySingleStatement_returns_iff (part :: parts) s

theorem validate_returns {sql : Str} (h : ∃ r, detect sql = .ok r) (mode : PoolingMode)
    (inTransaction : Bool) : ∃ r, mode.validate sql inTransaction = .ok r := by
  unfold PoolingMode.validate
  split
  · exact ⟨none, rfl⟩
  · obtain ⟨r, hr⟩ := h
    rw [hr, Rust.ok_bind]
    split
    · split <;> exact ⟨_, rfl⟩
    all_goals exact ⟨_, rfl⟩

/-- The four ways to classify a text return, in every state and mode, exactly when neither the text
    nor one of its `;`-separated parts slips. -/
theorem classification_returns_iff (sql : Str) :
    ((∃ r, detect sql = .ok r) ∧ (∃ r, classify sql = .ok r) ∧
        (∀ s : ConnectionState, ∃ r, s.applyQuery sql = .ok r) ∧
        ∀ (mode : PoolingMode) (inTransaction : Bool), ∃ r, mode.validate sql inTransaction = .ok r) ↔
      ¬ DetectSlips sql ∧ ∀ part ∈ splitStatements sql, ¬ DetectSlips part := by
  constructor
  · rintro ⟨hdetect, -, happly, -⟩
    exact ⟨(CommandDetector.detect_returns_iff sql).1 hdetect,
      ((applyQuery_returns_iff (.new 1) sql).1 (happly (.new 1))).2⟩
  · rintro ⟨hsql, hparts⟩
    have hdetect := (CommandDetector.detect_returns_iff sql).2 hsql
    refine ⟨hdetect, (CommandDetector.classify_returns_iff sql).2 hdetect, fun s => ?_, ?_⟩
    · exact (applyQuery_returns_iff s sql).2 ⟨fun _ => hsql, hparts⟩
    · exact validate_returns hdetect

/-- An `ı` before ` TO ` moves it, a `ſ` at the end of IF EXISTS is cut, and the parentheses of a text
    that mentions an advisory lock may stand in any order. -/
theorem detect_panics :
    detect "SET ıé TO 1".toList = .error .panic ∧
      detect "DROP TABLE IF EXISTſ t".toList = .error .panic ∧
      detect "SELECT ') (pg_advisory_lock'".toList = .error .panic := by
  decide +kernel

end ScryProxy
