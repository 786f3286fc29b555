import ScryProxy.Native.FileAuth

/-!
# Writing and loading the auth file

PgBouncer writes a double quote inside a name or a password as two.  For `parse_line` a double
quote always ends a part, so no name and no password that it returns has one, and a file
whose names or passwords have double quotes is loaded as a different one (`userlist_roundtrips_iff`).

Whatever a line holds, an entry is the kind that `ofValue` makes of a text, and the text can be
told from it (`PasswordEntry.ofValue_injective`).
-/

namespace ScryProxy

/-! ## Kinds of passwords -/

namespace PasswordEntry

/-- The text that an entry was made of. -/
def value : PasswordEntry → Str
  | .plain password => password
  | .md5 hash => "md5".toList ++ hash
  | .scramSha256 verifier => verifier

theorem value_ofValue (pass : Str) : (ofValue pass).value = pass := by
  unfold ofValue
  split
  · next h =>
    obtain ⟨rest, rfl⟩ := List.isPrefixOf_iff_prefix.1 h.1
    rfl
  · split <;> rfl

theorem ofValue_injective : Function.Injective ofValue :=
  Function.LeftInverse.injective value_ofValue

end PasswordEntry

/-! ## What is loaded -/

/-- A text that a pair of double quotes can hold. -/
def Unquoted (s : Str) : Prop := '"' ∉ s

theorem unquoted_nil : Unquoted [] := List.not_mem_nil

theorem unquoted_cons {c : Char} {s : Str} : Unquoted (c :: s) ↔ c ≠ '"' ∧ Unquoted s := by
  rw [Unquoted, List.mem_cons, not_or]
  exact and_congr ne_comm Iff.rfl

namespace LineScan

/-- No part has a double quote. -/
structure Clean (s : LineScan) : Prop where
  parts : ∀ part ∈ s.parts, Unquoted part
  current : Unquoted s.current

theorem Clean.step {s : LineScan} (h : Clean s) (ch : Char) : Clean (s.step ch) := by
  unfold LineScan.step
  by_cases hch : ch = '"'
  · rw [if_pos hch]
    split
    · -- the part ends here
      refine ⟨fun part hpart => ?_, unquoted_nil⟩
      rcases List.mem_append.1 hpart with hpart | hpart
      · exact h.parts part hpart
      · rw [List.mem_singleton.1 hpart]
        exact h.current
    · exact ⟨h.parts, h.current⟩
  · rw [if_neg hch]
    split
    · refine ⟨h.parts, ?_⟩
      simp only [Unquoted, List.mem_append, List.mem_singleton, not_or]
      exact ⟨h.current, Ne.symm hch⟩
    · exact h

theorem Clean.foldl {s : LineScan} (h : Clean s) (line : Str) : Clean (line.foldl LineScan.step s) := by
  induction line generalizing s with
  | nil => exact h
  | cons ch line ih => exact ih (h.step ch)

end LineScan

namespace FileAuthenticator

theorem parseLine_unquoted {line user pass : Str} (h : parseLine line = some (user, pass)) :
    Unquoted user ∧ Unquoted pass := by
  have hclean : LineScan.Clean (line.foldl LineScan.step ⟨false, [], []⟩) :=
    LineScan.Clean.foldl ⟨by simp, unquoted_nil⟩ line
  unfold parseLine at h
  split at h
  · next hparts =>
    cases h
    have hall := hclean.parts
    rw [hparts] at hall
    exact ⟨hall _ (by simp), hall _ (by simp)⟩
  · cases h

/-- Every user was read out of quotes, and so was the text that the entry was made of. -/
def Loaded (users : AList fun _ : Str => PasswordEntry) : Prop :=
  ∀ name entry, users.lookup name = some entry →
    Unquoted name ∧ ∃ pass, entry = .ofValue pass ∧ Unquoted pass

theorem loadLines_loaded {lines : List Str} {lineNum : Nat} {users : AList fun _ : Str => PasswordEntry}
    {file : FileAuthenticator} (husers : Loaded users) (h : loadLines lineNum lines users = .ok file) :
    Loaded file.users := by
  induction lines generalizing lineNum users with
  | nil =>
    cases h
    exact husers
  | cons line lines ih =>
    rw [loadLines] at h
    split at h
    · exact ih husers h
    · split at h
      · next user pass hparse =>
        refine ih ?_ h
        obtain ⟨huser, hpass⟩ := parseLine_unquoted hparse
        intro name entry hentry
        by_cases hname : name = user
        · subst hname
          rw [AList.lookup_insert] at hentry
          cases hentry
          exact ⟨huser, pass, rfl, hpass⟩
        · rw [AList.lookup_insert_ne hname] at hentry
          exact husers name entry hentry
      · cases h

theorem fromString_loaded {content : Str} {file : FileAuthenticator}
    (h : fromString content = .ok file) : Loaded file.users := by
  refine loadLines_loaded ?_ h
  intro name entry hentry
  rw [AList.lookup_empty] at hentry
  cases hentry

/-! ## Writing -/

/-- A text with each double quote doubled. -/
def doubled (s : Str) : Str := s.flatMap fun c => if c = '"' then ['"', '"'] else [c]

def quoted (s : Str) : Str := '"' :: (doubled s ++ ['"'])

/-- The line of a user. -/
def userLine (name password : Str) : Str := quoted name ++ ' ' :: quoted password

/-- A line for each user, in the order of the entries. -/
def writeUsers (entries : List (Sigma fun _ : Str => Str)) : Str :=
  entries.flatMap fun e => userLine e.1 e.2 ++ ['\n']

theorem doubled_of_unquoted {s : Str} (h : Unquoted s) : doubled s = s := by
  induction s with
  | nil => rfl
  | cons c s ih =>
    obtain ⟨hc, hs⟩ := unquoted_cons.1 h
    rw [doubled, List.flatMap_cons, if_neg hc]
    exact congrArg (c :: ·) (ih hs)

theorem newline_notMem_quoted {s : Str} (h : '\n' ∉ s) : '\n' ∉ quoted s := by
  intro hmem
  simp only [quoted, doubled, List.mem_cons, List.mem_append, List.mem_flatMap, List.not_mem_nil,
    or_false] at hmem
  rcases hmem with hmem | ⟨c, hc, hmem⟩ | hmem
  · cases hmem
  · split at hmem
    · simp at hmem
    · rw [List.mem_singleton.1 hmem] at h
      exact h hc
  · cases hmem

/-- Inside quotes the text goes to the current part. -/
theorem foldl_unquoted {text : Str} (h : Unquoted text) (parts : List Str) (current : Str) :
    text.foldl LineScan.step ⟨true, parts, current⟩ = ⟨true, parts, current ++ text⟩ := by
  induction text generalizing current with
  | nil => simp
  | cons c text ih =>
    obtain ⟨hc, htext⟩ := unquoted_cons.1 h
    have hstep : LineScan.step ⟨true, parts, current⟩ c = ⟨true, parts, current ++ [c]⟩ := by
      rw [LineScan.step, if_neg hc]
      rfl
    rw [List.foldl_cons, hstep, ih htext]
    simp

theorem foldl_quoted {text : Str} (h : Unquoted text) (parts : List Str) :
    (quoted text).foldl LineScan.step ⟨false, parts, []⟩ = ⟨false, parts ++ [text], []⟩ := by
  have hopen : LineScan.step ⟨false, parts, []⟩ '"' = ⟨true, parts, []⟩ := rfl
  rw [quoted, doubled_of_unquoted h, List.foldl_cons, hopen, List.foldl_append, foldl_unquoted h]
  rfl

theorem parseLine_userLine {name password : Str} (hname : Unquoted name)
    (hpassword : Unquoted password) : parseLine (userLine name password) = some (name, password) := by
  have hspace : LineScan.step ⟨false, [name], []⟩ ' ' = ⟨false, [name], []⟩ := rfl
  unfold parseLine userLine
  rw [List.foldl_append, foldl_quoted hname, List.foldl_cons, List.nil_append, hspace,
    foldl_quoted hpassword]
  rfl

/-- A line begins and ends with a double quote. -/
theorem userLine_eq (name password : Str) :
    ∃ middle, userLine name password = '"' :: (middle ++ ['"']) := by
  refine ⟨doubled name ++ '"' :: ' ' :: '"' :: doubled password, ?_⟩
  simp [userLine, quoted]

/-! ## Loading what was written -/

theorem loadLines_writeUsers {entries : List (Sigma fun _ : Str => Str)}
    (hlines : ∀ e ∈ entries, '\n' ∉ e.1 ∧ '\n' ∉ e.2)
    (hquotes : ∀ e ∈ entries, Unquoted e.1 ∧ Unquoted e.2) (lineNum : Nat)
    (users : AList fun _ : Str => PasswordEntry) :
    loadLines lineNum (writeUsers entries).lines users =
      .ok ⟨entries.foldl (fun users e => users.insert e.1 (.ofValue e.2)) users⟩ := by
  induction entries generalizing lineNum users with
  | nil => rfl
  | cons e entries ih =>
    obtain ⟨⟨hname, hpass⟩, hlines⟩ := List.forall_mem_cons.1 hlines
    obtain ⟨⟨hnameq, hpassq⟩, hquotes⟩ := List.forall_mem_cons.1 hquotes
    have hnewline : '\n' ∉ userLine e.1 e.2 := by
      simp only [userLine, List.mem_append, List.mem_cons, not_or]
      exact ⟨newline_notMem_quoted hname, by decide, newline_notMem_quoted hpass⟩
    have htext : writeUsers (e :: entries) = userLine e.1 e.2 ++ '\n' :: writeUsers entries := by
      simp [writeUsers]
    obtain ⟨middle, hmiddle⟩ := userLine_eq e.1 e.2
    -- the line is neither trimmed nor skipped
    have hcr : Str.dropCr (userLine e.1 e.2) = userLine e.1 e.2 := by
      rw [hmiddle, ← List.cons_append]
      exact Str.dropCr_concat (by decide) _
    have htrim : Str.trim (userLine e.1 e.2) = userLine e.1 e.2 := by
      rw [hmiddle]
      exact Str.trim_cons_concat (by decide) (by decide) _
    have hkept : ((userLine e.1 e.2).isEmpty || (userLine e.1 e.2).startsWith [';'] ||
        (userLine e.1 e.2).startsWith ['#']) = false := by
      rw [hmiddle]
      rfl
    rw [htext, Str.lines_append hnewline, hcr, loadLines, htrim, hkept, if_neg Bool.false_ne_true,
      parseLine_userLine hnameq hpassq]
    exact ih hlines hquotes _ _

/-- Writing a map and loading it gives the map back, each password as the entry of its kind. -/
def RoundTrips (users : AList fun _ : Str => Str) : Prop :=
  ∃ file, fromString (writeUsers users.entries) = .ok file ∧
    ∀ name, file.users.lookup name = (users.lookup name).map PasswordEntry.ofValue

/-- For names and passwords without line breaks: the file is loaded as it was meant if and only if no
    name and no password has a double quote. -/
theorem userlist_roundtrips_iff (users : AList fun _ : Str => Str)
    (hlines : ∀ e ∈ users.entries, '\n' ∉ e.1 ∧ '\n' ∉ e.2) :
    RoundTrips users ↔ ∀ e ∈ users.entries, '"' ∉ e.1 ∧ '"' ∉ e.2 := by
  constructor
  · rintro ⟨file, hfile, hsame⟩ e he
    have hlookup : users.lookup e.1 = some e.2 := AList.mem_lookup_iff.2 he
    obtain ⟨hname, pass, hentry, hpass⟩ := fromString_loaded hfile e.1 (.ofValue e.2)
      (by rw [hsame, hlookup]; rfl)
    rw [PasswordEntry.ofValue_injective hentry]
    exact ⟨hname, hpass⟩
  · intro hquotes
    refine ⟨_, loadLines_writeUsers hlines hquotes 0 ∅, fun name => ?_⟩
    cases hname : users.lookup name with
    | some password =>
      have hentry : (⟨name, password⟩ : Sigma fun _ : Str => Str) ∈ users.entries :=
        AList.mem_lookup_iff.1 hname
      exact Maps.lookup_foldl_insert_of_mem users.nodupKeys hentry
    | none =>
      rw [Maps.lookup_foldl_insert_of_ne]
      · rfl
      · rintro e he rfl
        exact absurd (AList.mem_lookup_iff.2 he) (by rw [hname]; nofun)

theorem userlist_roundtrips_admin :
    RoundTrips (AList.singleton "admin".toList "# SCRAM-SHA-256$".toList) :=
  (userlist_roundtrips_iff (AList.singleton "admin".toList "# SCRAM-SHA-256$".toList)
    (by decide)).2 (by decide)

/-- Of a password with a double quote only the part before it is loaded. -/
theorem quoted_password_cut :
    (fromString (writeUsers [⟨"admin".toList, "pa\"ss".toList⟩])).toOption.bind
      (·.users.lookup "admin".toList) = some (.plain "pa".toList) ∧
    ¬ RoundTrips (AList.singleton "admin".toList "pa\"ss".toList) := by
  have hload : (fromString (writeUsers [⟨"admin".toList, "pa\"ss".toList⟩])).toOption.bind
      (·.users.lookup "admin".toList) = some (.plain "pa".toList) := by decide +kernel
  refine ⟨hload, ?_⟩
  rintro ⟨file, hfile, hsame⟩
  have hfile' : fromString (writeUsers [⟨"admin".toList, "pa\"ss".toList⟩]) = .ok file := hfile
  have hadmin : file.users.lookup "admin".toList = some (.plain "pa".toList) := by
    rw [hfile'] at hload
    exact hload
  rw [hsame] at hadmin
  exact absurd hadmin (by decide)

end FileAuthenticator

end ScryProxy
