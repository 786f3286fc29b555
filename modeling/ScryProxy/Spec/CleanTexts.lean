import Mathlib.Data.List.Infix
import ScryProxy.Native.CommandDetector
import ScryProxy.Spec.Pg.Query

/-!
# Texts that are read as clean

`classify` takes a text for clean by its first keyword, unless it contains the names
`SET_CONFIG`, `PG_ADVISORY_LOCK` or `PG_ADVISORY_UNLOCK`.  A function called by its plain
name stands in the text (`infix_of_spelled`), so these calls are never taken for clean;
one exception is a text in which `CREATE` and `TEMP TABLE` occur, where `detect` may give
up before it looks for the lock functions.  Everything else that can change a session from
inside a query is overlooked, and `keepsSession_iff_nothing_overlooked` says that nothing
but that makes a clean text unsafe.
-/

namespace ScryProxy

open Str (toUppercase)
open CommandDetector

/-! ## Names in the text -/

/-- A function of the statement is called by its plain name. -/
def Spelled (ts : List Pg.Token) (f : Pg.SessionFunction) : Prop :=
  ∃ name, (.word name ∈ ts ∨ .quoted name ∈ ts) ∧ (name, f) ∈ Pg.sessionFunctions

variable {ts : List Pg.Token} {f : Pg.SessionFunction}

theorem Spelled.mono {ts' : List Pg.Token} (h : Spelled ts f) (hsub : ts ⊆ ts') :
    Spelled ts' f := by
  obtain ⟨name, htok, hf⟩ := h
  exact ⟨name, htok.imp (hsub ·) (hsub ·), hf⟩

variable {rest : List Pg.Token}

theorem spelledName_plain {t : Pg.Token} {after : List Pg.Token} {name : Str}
    (h : Pg.spelledName t rest = some (name, false, after)) :
    t = .word name ∨ t = .quoted name := by
  unfold Pg.spelledName at h
  split at h
  · cases h
    exact .inl rfl
  · cases h
    exact .inr rfl
  -- the other spellings are escaped
  · split at h <;> simp at h
  · simp at h
  · exact nomatch h

theorem spelled_of_callAt {before : List Pg.Token} {t : Pg.Token}
    (h : Pg.callAt before t rest = some (.call f false)) : Spelled [t] f := by
  obtain ⟨⟨name, escaped, after⟩, hname, h⟩ := Option.bind_eq_some_iff.1 h
  simp only at h
  split at h
  · obtain ⟨g, hg, heq⟩ := Option.map_eq_some_iff.1 h
    obtain ⟨rfl, rfl⟩ := Pg.Source.call.inj heq
    obtain ⟨l₁, l₂, hl, -⟩ := List.lookup_eq_some_iff.1 hg
    refine ⟨name, ?_, hl ▸ List.mem_append_right _ List.mem_cons_self⟩
    simpa [eq_comm] using spelledName_plain hname
  · exact nomatch h

theorem spelled_of_mem_calls {before : List Pg.Token} (h : .call f false ∈ Pg.calls before ts) :
    Spelled ts f := by
  induction ts generalizing before with
  | nil => exact nomatch h
  | cons t ts ih =>
    rcases List.mem_append.1 h with h | h
    · exact (spelled_of_callAt (Option.mem_toList.1 h)).mono (by simp)
    · exact (ih h).mono (List.subset_cons_self _ _)

theorem skip_suffix (words : List String) (ts : List Pg.Token) : Pg.skip words ts <:+ ts := by
  unfold Pg.skip
  split
  · exact List.drop_suffix _ _
  · exact List.suffix_rfl

theorem explainBody_suffix (ts : List Pg.Token) : (Pg.explainBody ts).2 <:+ ts := by
  unfold Pg.explainBody
  split
  · exact ((List.tail_suffix _).trans (List.dropWhile_suffix _)).trans (List.suffix_cons _ _)
  · split
    · exact (skip_suffix _ _).trans (List.suffix_cons _ _)
    · exact List.suffix_rfl
  · exact List.suffix_rfl

theorem spelled_of_mem_querySources {w : Str} (h : .call f false ∈ Pg.querySources w rest) :
    Spelled (.word w :: rest) f := by
  simp only [Pg.querySources, List.mem_append] at h
  -- only the calls are sources of this form
  rcases h with (h | h) | h
  · exact spelled_of_mem_calls h
  · split at h
    · obtain ⟨name, -, heq⟩ := Option.map_eq_some_iff.1 (Option.mem_toList.1 h)
      exact nomatch heq
    · exact nomatch h
  · split at h
    · exact nomatch List.mem_singleton.1 h
    · exact nomatch h

theorem spelled_of_mem_executedSources {body : List Pg.Token}
    (h : .call f false ∈ Pg.executedSources body) : Spelled body f := by
  have hsuffix : body.dropWhile (· == .symbol '(') <:+ body := List.dropWhile_suffix _
  unfold Pg.executedSources at h
  split at h
  · rename_i w rest heq
    rw [heq] at hsuffix
    have hrest : rest <:+ body := (List.suffix_cons _ _).trans hsuffix
    split at h
    · exact (spelled_of_mem_querySources h).mono hsuffix.subset
    split at h
    · exact nomatch List.mem_singleton.1 h
    split at h
    · simp only [List.mem_append] at h
      rcases h with (h | h) | h
      · exact (spelled_of_mem_calls h).mono hrest.subset
      · obtain ⟨name, -, heq⟩ := Option.map_eq_some_iff.1 (Option.mem_toList.1 h)
        exact nomatch heq
      · split at h
        · exact nomatch List.mem_singleton.1 h
        · exact nomatch h
    split at h
    · exact (spelled_of_mem_calls h).mono hrest.subset
    · exact nomatch h
  · exact nomatch h

theorem spelled_of_mem_sources (h : .call f false ∈ Pg.sources ts) : Spelled ts f := by
  unfold Pg.sources at h
  split at h
  · rename_i w rest
    split at h
    · split at h
      · exact (spelled_of_mem_executedSources h).mono
          ((explainBody_suffix rest).trans (List.suffix_cons _ _)).subset
      · exact nomatch h
    split at h
    · exact spelled_of_mem_querySources h
    · exact nomatch h
  · exact nomatch h

variable {sql : Str}

/-- A name without blanks and quotes that is spelled in a statement stands in the text, in capitals
    after `to_uppercase`. -/
theorem infix_of_spelled (hts : ts ∈ Pg.statements sql) {name pat : Str}
    (htok : .word name ∈ ts ∨ .quoted name ∈ ts) (hne : name ≠ [])
    (hplain : name.all (fun c => !Str.isWhitespace c && c != '"') = true)
    (hpat : pat <:+: toUppercase name) : pat <:+: toUppercase sql.trim := by
  have hblank : ∀ c ∈ name, Str.isWhitespace c = false ∧ c ≠ '"' := by simpa using hplain
  have hstands := Pg.statements_standsIn hts
  -- the name as it is written in the text
  obtain ⟨raw, hraw, hupper, hrawne, hrawblank⟩ : ∃ raw : Str, raw <:+: sql ∧
      toUppercase raw = toUppercase name ∧ raw ≠ [] ∧
        ∀ c ∈ raw, Str.isWhitespace c = false := by
    rcases htok with htok | htok
    · obtain ⟨raw, hraw, hfold⟩ := hstands _ htok
      have hfold' : raw.map Char.toLower = name := hfold
      refine ⟨raw, hraw, ?_, ?_, ?_⟩
      · rw [← hfold', Str.toUppercase_map_toLower]
      · rintro rfl
        exact hne hfold'.symm
      · intro c hc
        rw [← Str.isWhitespace_toLower]
        exact (hblank _ (hfold' ▸ List.mem_map_of_mem hc)).1
    · have hname : name <:+: sql := hstands _ htok fun hquote => (hblank _ hquote).2 rfl
      exact ⟨name, hname, rfl, hne, fun c hc => (hblank c hc).1⟩
  have htrim : raw <:+: sql.trim := Str.infix_trim hrawne hrawblank hraw
  have hcapitals : toUppercase raw <:+: toUppercase sql.trim := htrim.flatMap _
  exact (hupper ▸ hpat : pat <:+: toUppercase raw).trans hcapitals

/-! ## What classification sees -/

/-- `detect` looks for a new temporary table in these texts before it looks for the lock functions,
    and gives up if it finds no name for it. -/
def looksLikeCreateTemp (sql : Str) : Bool :=
  let upper := toUppercase sql.trim
  upper.contains "CREATE".toList &&
    (upper.contains "TEMP TABLE".toList || upper.contains "TEMPORARY TABLE".toList)

/-- The source is not seen in a text that is read as clean: all of them, but for calls of
    `set_config` and of the lock functions without `try` by their plain names. -/
def overlooked (sql : Str) : Pg.Source → Bool
  | .call .setConfig escaped => escaped
  | .call (.lock _ false) escaped => escaped || looksLikeCreateTemp sql
  | .call (.unlock _) escaped => escaped || looksLikeCreateTemp sql
  | .call .unlockAll escaped => escaped || looksLikeCreateTemp sql
  | _ => true

/-- The commands that `detect` knows by the start of the text. -/
def detectedStarts : List Str :=
  ["SET ", "RESET ", "DISCARD ALL", "DROP TABLE", "DECLARE ", "CLOSE ", "DEALLOCATE ", "LISTEN ",
    "UNLISTEN ", "UNLISTEN", "NOTIFY "].map String.toList

theorem isKnownClean_of_clean (h : classify sql = .ok .clean) :
    detect sql = .ok none ∧ isKnownClean sql = true := by
  obtain ⟨cmd, hdetect, h⟩ := Rust.bind_returns.1 h
  cases cmd with
  | some cmd => exact nomatch h
  | none =>
    refine ⟨hdetect, ?_⟩
    by_contra hclean
    simp only [hclean] at h
    exact nomatch h

/-- A text that starts with a clean keyword starts with none of the commands. -/
theorem not_detectedStart {start : Str} (hclean : isKnownClean sql = true)
    (hstart : start ∈ detectedStarts) : (toUppercase sql.trim).startsWith start = false := by
  have hapart : ∀ start ∈ detectedStarts, ∀ kw ∈ cleanKeywords,
      ¬ (start <+: kw ∨ kw <+: start) := by decide +kernel
  -- both would stand at the front of the same text
  obtain ⟨kw, hkw, hkwfront⟩ : ∃ kw ∈ cleanKeywords, kw <+: toUppercase sql.trimStart := by
    unfold isKnownClean at hclean
    simp only at hclean
    split at hclean
    · exact nomatch hclean
    · obtain ⟨kw, hkw, h⟩ := List.any_eq_true.1 hclean
      exact ⟨kw, hkw, List.isPrefixOf_iff_prefix.1 (Bool.and_eq_true_iff.1 h).1⟩
  have htrim : toUppercase sql.trim <+: toUppercase sql.trimStart :=
    (List.rdropWhile_prefix _ _).flatMap _
  refine Bool.eq_false_iff.2 fun h => hapart start hstart kw hkw ?_
  exact List.prefix_or_prefix_of_prefix ((List.isPrefixOf_iff_prefix.1 h).trans htrim) hkwfront

/-- In a text read as clean that does not look like a new temporary table, the plain lock functions
    do not occur. -/
theorem not_contains_of_clean (h : classify sql = .ok .clean) :
    (toUppercase sql.trimStart).contains "SET_CONFIG".toList = false ∧
      (looksLikeCreateTemp sql = false →
        (toUppercase sql.trim).contains "PG_ADVISORY_LOCK".toList = false ∧
          (toUppercase sql.trim).contains "PG_ADVISORY_UNLOCK".toList = false) := by
  obtain ⟨hdetect, hclean⟩ := isKnownClean_of_clean h
  refine ⟨?_, fun hcreate => ?_⟩
  · unfold isKnownClean at hclean
    simp only at hclean
    split at hclean
    · exact nomatch hclean
    · rename_i hset
      exact Bool.eq_false_iff.2 hset
  · have hnone : ∀ start ∈ detectedStarts, (toUppercase sql.trim).startsWith start = false :=
      fun start => not_detectedStart hclean
    simp only [detectedStarts, List.map_cons, List.map_nil, List.forall_mem_cons] at hnone
    obtain ⟨hset, hreset, hdiscard, hdrop, hdeclare, hclose, hdealloc, hlisten, hunlisten,
      hunlisten', hnotify, -⟩ := hnone
    have hbare : (toUppercase sql.trim == "UNLISTEN".toList) = false := by
      refine beq_eq_false_iff_ne.2 fun heq => ?_
      rw [heq] at hunlisten'
      exact nomatch hunlisten'
    unfold looksLikeCreateTemp at hcreate
    unfold detect at hdetect
    simp only [hset, hreset, hdiscard, hcreate, hdrop, hdeclare, hclose, hdealloc, hlisten,
      hunlisten, hbare, hnotify, Bool.false_and, Bool.or_self, Bool.false_eq_true, if_false]
      at hdetect
    split at hdetect
    · obtain ⟨key, -, heq⟩ := Rust.map_returns.1 hdetect
      exact nomatch heq
    split at hdetect
    · obtain ⟨key, -, heq⟩ := Rust.map_returns.1 hdetect
      exact nomatch heq
    rename_i hlock hunlock
    have hunlock := Bool.eq_false_iff.2 hunlock
    rw [hunlock, Bool.not_false, Bool.and_true] at hlock
    exact ⟨Bool.eq_false_iff.2 hlock, hunlock⟩

/-! ## Clean means clean -/

/-- The text that is looked for on account of a function. -/
def watchedText : Pg.SessionFunction → Option Str
  | .setConfig => some "SET_CONFIG".toList
  | .lock _ false => some "PG_ADVISORY_LOCK".toList
  | .unlock _ | .unlockAll => some "PG_ADVISORY_UNLOCK".toList
  | _ => none

/-- The names of these functions contain it, and have neither blanks nor quotes. -/
theorem watchedText_infix : ∀ p ∈ Pg.sessionFunctions,
    (∀ text ∈ watchedText p.2, text <:+: toUppercase p.1) ∧ p.1 ≠ [] ∧
      p.1.all (fun c => !Str.isWhitespace c && c != '"') = true := by decide +kernel

/-- A clean text does not contain what is looked for on account of a function that is not
    overlooked. -/
theorem not_infix_of_clean (hclean : classify sql = .ok .clean)
    (hseen : overlooked sql (.call f false) = false) :
    ∃ text ∈ watchedText f, ¬ text <:+: toUppercase sql.trim := by
  obtain ⟨hset, hlocks⟩ := not_contains_of_clean hclean
  have habsent {text : Str} (h : (toUppercase sql.trim).contains text = false) :
      ¬ text <:+: toUppercase sql.trim :=
    fun hin => Bool.false_ne_true (h.symm.trans (Str.contains_of_infix hin))
  cases f with
  | setConfig =>
    refine ⟨_, rfl, fun hin => ?_⟩
    have htrim : toUppercase sql.trim <+: toUppercase sql.trimStart :=
      (List.rdropWhile_prefix _ _).flatMap _
    exact Bool.false_ne_true (hset.symm.trans (Str.contains_of_infix (hin.trans htrim.isInfix)))
  | lock mode mayFail =>
    cases mayFail with
    | true => exact nomatch hseen
    | false => exact ⟨_, rfl, habsent (hlocks hseen).1⟩
  | unlock mode => exact ⟨_, rfl, habsent (hlocks hseen).2⟩
  | unlockAll => exact ⟨_, rfl, habsent (hlocks hseen).2⟩
  | runsText => exact nomatch hseen

theorem overlooked_escaped (sql : Str) (f : Pg.SessionFunction) :
    overlooked sql (.call f true) = true := by
  cases f with
  | lock mode mayFail => cases mayFail <;> rfl
  | setConfig | unlock | unlockAll | runsText => rfl

/-- A single statement that is read as clean leaves every session as it was, in all its runs,
    exactly if it has no source that is overlooked. -/
theorem keepsSession_iff_nothing_overlooked {sql : Str} {ts : List Pg.Token}
    (hsingle : Pg.statements sql = [ts]) (hclean : classify sql = .ok .clean) :
    Pg.KeepsSession ts ↔ ∀ s ∈ Pg.sources ts, overlooked sql s = false := by
  rw [Pg.keepsSession_iff]
  refine ⟨fun hnone s hs => ?_, fun hseen => ?_⟩
  · rw [hnone] at hs
    exact nomatch hs
  refine List.eq_nil_iff_forall_not_mem.2 fun s hs => ?_
  have hseen := hseen s hs
  cases s with
  | table | settings | prepared => exact nomatch hseen
  | call f escaped =>
    cases escaped with
    | true =>
      rw [overlooked_escaped] at hseen
      exact nomatch hseen
    | false =>
      -- the name stands in the text, and with it what is looked for
      obtain ⟨name, htok, hmem⟩ := spelled_of_mem_sources hs
      obtain ⟨text, htext, habsent⟩ := not_infix_of_clean hclean hseen
      obtain ⟨hstretch, hne, hplain⟩ := watchedText_infix _ hmem
      exact habsent (infix_of_spelled (hsingle ▸ List.mem_singleton_self ts) htok hne hplain
        (hstretch text htext))

/-- A plain read is read as clean and has nothing to overlook. -/
theorem keepsSession_count :
    ∃ ts, Pg.statements "SELECT count(*) FROM users WHERE name = 'x'".toList = [ts] ∧
      classify "SELECT count(*) FROM users WHERE name = 'x'".toList = .ok .clean ∧
      Pg.KeepsSession ts := by
  have hparts : (Pg.statements "SELECT count(*) FROM users WHERE name = 'x'".toList).map
      (fun ts => Pg.sources ts) = [[]] := by decide +kernel
  have hclean : classify "SELECT count(*) FROM users WHERE name = 'x'".toList = .ok .clean := by
    decide +kernel
  obtain ⟨ts, hsingle, hnone⟩ := List.map_eq_singleton_iff.1 hparts
  refine ⟨ts, hsingle, hclean, (keepsSession_iff_nothing_overlooked hsingle hclean).mpr ?_⟩
  rw [hnone]
  exact nofun

/-- SELECT INTO TEMP is read as clean, and leaves a temporary table. -/
theorem selectInto_leaves_table :
    ∃ ts, Pg.statements "SELECT 1 INTO TEMP t".toList = [ts] ∧
      classify "SELECT 1 INTO TEMP t".toList = .ok .clean ∧ ¬ Pg.KeepsSession ts := by
  have hparts : (Pg.statements "SELECT 1 INTO TEMP t".toList).map (fun ts => Pg.sources ts) =
      [[.table ['t']]] := by decide +kernel
  have hclean : classify "SELECT 1 INTO TEMP t".toList = .ok .clean := by decide +kernel
  obtain ⟨ts, hsingle, hsource⟩ := List.map_eq_singleton_iff.1 hparts
  refine ⟨ts, hsingle, hclean, ?_⟩
  intro hkeeps
  -- the run that creates the table and commits
  have hsame := hkeeps (.ofObjs []) _ rfl ⟨[.act (.create (.tempTable ['t']))], true, by
    rw [hsource]; decide, rfl⟩
  refine absurd hsame (Pg.Holdings.not_same_of_length ?_)
  exact Nat.one_ne_zero

end ScryProxy
