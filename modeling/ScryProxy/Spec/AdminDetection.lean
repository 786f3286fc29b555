import ScryProxy.Spec.ConsoleReads

/-!
# Admin commands before they are parsed

`is_admin_command` looks at the front of a text, `parse` at its words.  The two agree except on
texts of two kinds: the front may be the front of a longer word, as in `PAUSED`, and the white space
behind `SHOW` may be another character than a space.
-/

namespace ScryProxy

open AdminConnection (commands reports mem_commands parseShow_isSome ofWords_other)

namespace AdminCommand

/-! ## The two readings of a text, by its first word -/

/-- The commands other than `SHOW`. -/
def controls : List Str :=
  ["PAUSE".toList, "RESUME".toList, "RELOAD".toList, "SHUTDOWN".toList, "KILL".toList]

/-- The words of a text make a command. -/
def NamesCommand (command : Str) (arguments : List Str) : Prop :=
  command ∈ controls ∨
    (command = "SHOW".toList ∧ ∃ report ∈ reports, arguments.head? = some report)

theorem ofWords_cons_isSome (command : Str) (arguments : List Str) :
    (∃ cmd, ofWords (command :: arguments) = some cmd) ↔ NamesCommand command arguments := by
  by_cases hmem : command ∈ commands
  · unfold NamesCommand
    rcases mem_commands.1 hmem with rfl | rfl | rfl | rfl | rfl | rfl
    · have hother : "SHOW".toList ∉ controls := by decide
      cases arguments with
      | nil =>
        have hnone : ofWords ["SHOW".toList] = none := by decide
        simp only [hnone, hother, List.head?_nil, reduceCtorEq, and_false, exists_false, or_self]
      | cons argument rest =>
        simp only [hother, true_and, false_or, List.head?_cons, Option.some.injEq]
        show (∃ cmd, parseShow argument = some cmd) ↔ _
        rw [parseShow_isSome]
        simp
    all_goals exact iff_of_true ⟨_, rfl⟩ (.inl (by decide))
  · rw [ofWords_other hmem]
    have hnot : ¬NamesCommand command arguments := by
      rintro (h | ⟨rfl, -⟩)
      · exact hmem (List.mem_cons_of_mem _ h)
      · exact hmem List.mem_cons_self
    simp [hnot]

theorem front_controls (upper : Str) :
    (upper.startsWith "PAUSE".toList || upper.startsWith "RESUME".toList ||
      upper.startsWith "RELOAD".toList || upper.startsWith "SHUTDOWN".toList ||
      upper.startsWith "KILL".toList) = controls.any upper.startsWith := by
  simp [controls, Bool.or_assoc]

theorem isWhitespace_of_all {s : Str} (h : s.all (!Str.isWhitespace ·) = true) :
    ∀ c ∈ s, Str.isWhitespace c = false := by
  simpa using h

theorem isWhitespace_show : ∀ c ∈ "SHOW".toList, Str.isWhitespace c = false :=
  isWhitespace_of_all (by decide)

/-- The upper-case text, cut behind its first word. -/
structure FirstWord (upper word rest : Str) : Prop where
  split : upper = word ++ rest
  word_plain : ∀ c ∈ word, Str.isWhitespace c = false
  words : upper.splitWhitespace = word :: rest.splitWhitespace
  rest_space : ∀ c t, rest = c :: t → Str.isWhitespace c = true

/-- Every text has a first word, or no word. -/
theorem exists_firstWord (sql : Str) :
    sql.trim.toUppercase = [] ∨ ∃ word rest, FirstWord sql.trim.toUppercase word rest := by
  rcases Str.toUppercase_trim_cases sql with hnil | ⟨c, t, hupper, hc⟩
  · exact .inl hnil
  · refine .inr ⟨c :: t.takeWhile fun c => !Str.isWhitespace c, t.dropWhile fun c => !Str.isWhitespace c, ?_⟩
    rw [hupper]
    constructor
    · rw [List.cons_append, List.takeWhile_append_dropWhile]
    · intro d hd
      rcases List.mem_cons.1 hd with rfl | hd
      · exact hc
      · simpa using List.mem_takeWhile_imp hd
    · exact Str.words_cons (by simp [hc]) t
    · intro d u hrest
      have hhead := List.head_dropWhile_not (fun c => !Str.isWhitespace c) (l := t) (by simp [hrest])
      simpa [hrest] using hhead

namespace FirstWord

variable {upper word rest : Str}

/-- Where the first word ends does not depend on how it was found. -/
theorem unique (h : FirstWord upper word rest) {word' t : Str} {c : Char}
    (hsplit : upper = word' ++ c :: t) (hplain : ∀ d ∈ word', Str.isWhitespace d = false)
    (hc : Str.isWhitespace c = true) : word = word' ∧ rest = c :: t := by
  rw [h.split] at hsplit
  rcases List.append_eq_append_iff.1 hsplit with ⟨more, hword, hrest⟩ | ⟨more, hword, hrest⟩
  · cases more with
    | nil => simp_all
    | cons d more =>
      -- the longer word would have white space
      have hd := h.rest_space d (more ++ c :: t) (by simpa using hrest)
      rw [hplain d (by simp [hword])] at hd
      cases hd
  · cases more with
    | nil => simp_all
    | cons d more =>
      have hd : d = c := (List.cons.inj hrest).1.symm
      have hspace := h.word_plain d (by simp [hword])
      rw [hd, hc] at hspace
      cases hspace

/-- A pattern of one word is in front of the text when it is in front of the first word. -/
theorem prefix_iff (h : FirstWord upper word rest) {pat : Str}
    (hplain : ∀ c ∈ pat, Str.isWhitespace c = false) : pat <+: upper ↔ pat <+: word := by
  constructor
  · intro hpat
    rw [h.split] at hpat
    rcases List.prefix_or_prefix_of_prefix hpat (List.prefix_append word rest) with hle | ⟨more, rfl⟩
    · exact hle
    · cases more with
      | nil => simp
      | cons c more =>
        obtain ⟨t, hrest⟩ := (List.prefix_append_right_inj word).1 hpat
        have hspace := h.rest_space c (more ++ t) hrest.symm
        rw [hplain c (by simp)] at hspace
        cases hspace
  · intro hpat
    rw [h.split]
    exact hpat.trans (List.prefix_append word rest)

theorem any_controls (h : FirstWord upper word rest) :
    controls.any upper.startsWith = true ↔ ∃ command ∈ controls, command <+: word := by
  have hall : ∀ command ∈ controls, command.all (!Str.isWhitespace ·) = true := by decide
  have hplain := fun command hmem => isWhitespace_of_all (hall command hmem)
  rw [List.any_eq_true]
  simp only [Str.startsWith, List.isPrefixOf_iff_prefix]
  constructor
  · rintro ⟨command, hmem, hpat⟩
    exact ⟨command, hmem, (h.prefix_iff (hplain command hmem)).1 hpat⟩
  · rintro ⟨command, hmem, hpat⟩
    exact ⟨command, hmem, (h.prefix_iff (hplain command hmem)).2 hpat⟩

theorem startsWith_show (h : FirstWord upper word rest) :
    upper.startsWith "SHOW ".toList = true ↔ word = "SHOW".toList ∧ rest.head? = some ' ' := by
  rw [Str.startsWith, List.isPrefixOf_iff_prefix]
  constructor
  · rintro ⟨t, ht⟩
    have hsplit : upper = "SHOW".toList ++ ' ' :: t := ht.symm
    obtain ⟨hword, rfl⟩ := h.unique hsplit isWhitespace_show (by decide)
    exact ⟨hword, rfl⟩
  · rintro ⟨rfl, hrest⟩
    obtain ⟨t, rfl⟩ := List.head?_eq_some_iff.1 hrest
    exact ⟨t, h.split.symm⟩

end FirstWord

/-! ## The texts on which the readings differ -/

/-- The first word is longer than the command in front of it: `PAUSED`. -/
def LongerWord (sql : Str) : Prop :=
  ∃ word ∈ sql.trim.toUppercase.splitWhitespace.head?,
    ∃ command ∈ controls, command <+: word ∧ command ≠ word

/-- A report is asked for, with white space other than a space behind `SHOW`. -/
def OtherSpace (sql : Str) : Prop :=
  ∃ c tail, sql.trim.toUppercase = "SHOW".toList ++ c :: tail ∧ Str.isWhitespace c = true ∧ c ≠ ' ' ∧
    ∃ report ∈ reports, (Str.splitWhitespace tail).head? = some report

theorem head?_getD_mem_reports (words : List Str) :
    words.head?.getD [] ∈ reports ↔ ∃ report ∈ reports, words.head? = some report := by
  have hempty : ([] : Str) ∉ reports := by decide
  cases words with
  | nil => simp [hempty]
  | cons word words => simp

/-- What `is_admin_command` looks for, by the first word. -/
theorem isAdminCommand_iff {sql word rest : Str} (h : FirstWord sql.trim.toUppercase word rest) :
    isAdminCommand sql = true ↔
      if word = "SHOW".toList ∧ rest.head? = some ' ' then
        ∃ report ∈ reports, rest.splitWhitespace.head? = some report
      else ∃ command ∈ controls, command <+: word := by
  unfold isAdminCommand
  simp only [front_controls]
  by_cases hshow : word = "SHOW".toList ∧ rest.head? = some ' '
  · rw [if_pos (h.startsWith_show.2 hshow), if_pos hshow]
    obtain ⟨hword, hrest⟩ := hshow
    obtain ⟨t, rfl⟩ := List.head?_eq_some_iff.1 hrest
    have hstrip : Str.stripPrefix sql.trim.toUppercase "SHOW ".toList = some t := by
      rw [h.split, hword]
      exact Str.stripPrefix_append "SHOW ".toList t
    have hspace : Str.splitWhitespace (' ' :: t) = Str.splitWhitespace t :=
      Str.words_append_cons (by decide) [] t
    rw [hstrip, Option.getD_some, Str.splitWhitespace_trim, List.contains_iff_mem, hspace]
    exact head?_getD_mem_reports _
  · rw [if_neg (fun hfront => hshow (h.startsWith_show.1 hfront)), if_neg hshow]
    exact h.any_controls

theorem parse_isSome_iff {sql word rest : Str} (h : FirstWord sql.trim.toUppercase word rest) :
    (∃ cmd, parse sql = some cmd) ↔ NamesCommand word rest.splitWhitespace := by
  rw [parse, h.words]
  exact ofWords_cons_isSome _ _

theorem longerWord_iff {sql word rest : Str} (h : FirstWord sql.trim.toUppercase word rest) :
    LongerWord sql ↔ ∃ command ∈ controls, command <+: word ∧ command ≠ word := by
  simp [LongerWord, h.words]

theorem otherSpace_iff {sql word rest : Str} (h : FirstWord sql.trim.toUppercase word rest) :
    OtherSpace sql ↔ word = "SHOW".toList ∧ rest.head? ≠ some ' ' ∧
      ∃ report ∈ reports, rest.splitWhitespace.head? = some report := by
  have hskip : ∀ {c : Char} (t : Str), Str.isWhitespace c = true →
      Str.splitWhitespace (c :: t) = Str.splitWhitespace t := by
    intro c t hc
    exact Str.words_append_cons (by simp [hc]) [] t
  constructor
  · rintro ⟨c, tail, hupper, hc, hne, hreport⟩
    obtain ⟨hword, rfl⟩ := h.unique hupper isWhitespace_show hc
    refine ⟨hword, ?_, ?_⟩
    · simpa using hne
    · rwa [hskip tail hc]
  · rintro ⟨hword, hno, hreport⟩
    cases rest with
    | nil =>
      obtain ⟨report, -, hhead⟩ := hreport
      cases hhead
    | cons c tail =>
      have hc := h.rest_space c tail rfl
      rw [hskip tail hc] at hreport
      exact ⟨c, tail, hword ▸ h.split, hc, by simpa using hno, hreport⟩

theorem eq_of_prefix_controls : ∀ command ∈ controls, ∀ other ∈ controls, other <+: command →
    other = command := by decide

theorem not_prefix_show : ¬∃ command ∈ controls, command <+: "SHOW".toList := by decide

/-- A text is detected exactly when it is parsed, unless its first word only starts with a command or
    `SHOW` is not followed by a space. -/
theorem isAdminCommand_iff_parse_iff (sql : Str) :
    (isAdminCommand sql = true ↔ ∃ cmd, parse sql = some cmd) ↔ ¬LongerWord sql ∧ ¬OtherSpace sql := by
  rcases exists_firstWord sql with hnil | ⟨word, rest, h⟩
  · -- no word, no command
    have hadmin : isAdminCommand sql = false := by
      simp only [isAdminCommand, hnil]
      decide
    have hparse : parse sql = none := by
      rw [parse, hnil]
      rfl
    have hlonger : ¬LongerWord sql := by
      rintro ⟨word, hword, -⟩
      rw [hnil] at hword
      cases hword
    have hspace : ¬OtherSpace sql := by
      rintro ⟨c, tail, hupper, -⟩
      rw [hnil] at hupper
      cases hupper
    simp [hadmin, hparse, hlonger, hspace]
  · rw [isAdminCommand_iff h, parse_isSome_iff h, longerWord_iff h, otherSpace_iff h]
    unfold NamesCommand
    by_cases hword : word = "SHOW".toList
    · subst hword
      have hother : "SHOW".toList ∉ controls := by decide
      have hlonger : ¬∃ command ∈ controls, command <+: "SHOW".toList ∧ command ≠ "SHOW".toList := by
        rintro ⟨command, hmem, hpat, -⟩
        exact not_prefix_show ⟨command, hmem, hpat⟩
      by_cases hspace : rest.head? = some ' '
      · simp only [hother, hlonger, hspace, true_and, false_or, if_true, ne_eq, not_true, false_and,
          not_false_eq_true, and_self]
      · simp only [hother, hlonger, hspace, not_prefix_show, true_and, false_or, if_false, ne_eq, false_iff,
          not_false_eq_true]
    · simp only [hword, false_and, or_false, if_false, not_false_eq_true, and_true]
      constructor
      · -- a longer word is detected and is no command
        rintro hagree ⟨command, hmem, hpat, hne⟩
        exact hne (eq_of_prefix_controls word (hagree.1 ⟨command, hmem, hpat⟩) command hmem hpat)
      · intro hexact
        constructor
        · rintro ⟨command, hmem, hpat⟩
          by_contra hnot
          exact hexact ⟨command, hmem, hpat, fun heq => hnot (heq ▸ hmem)⟩
        · intro hmem
          exact ⟨word, hmem, List.prefix_rfl⟩

/-- The two kinds of texts: `PAUSED` is taken for a command, and `SHOW` with a tab is not. -/
theorem paused_detected_show_tab_missed :
    (isAdminCommand "PAUSED".toList = true ∧ parse "PAUSED".toList = none) ∧
      isAdminCommand "SHOW\tPOOLS".toList = false ∧ parse "SHOW\tPOOLS".toList = some .showPools := by
  decide +kernel

end AdminCommand

end ScryProxy
