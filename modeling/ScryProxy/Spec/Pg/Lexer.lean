import ScryProxy.ForStd.Str

/-!
# Lexical structure of Postgres SQL

Reference lexer, independent of the proxy: string constants in all their spellings,
dollar quotes, quoted identifiers, `--` and nested `/* */` comments, identifiers with
their case folded, numbers and single-character symbols.  `lex` fails on an
unterminated constant, identifier or comment, as the server does.  `statements` cuts
a token list at its semicolons.
-/

namespace Pg

/-- A token. -/
inductive Token where
  /-- unquoted identifier or keyword, folded -/
  | word (folded : Str)
  /-- double-quoted identifier -/
  | quoted (name : Str)
  /-- `U&""` identifier, with its escapes -/
  | unicode (body : Str)
  /-- string or bit-string constant -/
  | literal (body : Str)
  | number (text : Str)
  | symbol (c : Char)
  deriving DecidableEq, Repr

def isSpace (c : Char) : Bool := c.toNat == 32 || (9 ≤ c.toNat && c.toNat ≤ 13)

def isIdentStart (c : Char) : Bool := c.isAlpha || c == '_' || 128 ≤ c.toNat

def isIdentCont (c : Char) : Bool := isIdentStart c || c.isDigit || c == '$'

/-- Unquoted identifiers are folded in their ASCII part. -/
def fold (s : Str) : Str := s.map Char.toLower

/-! ## Bodies of constants and comments

Each reader returns the body and the text after the closing mark. -/

/-- A body closed by `q`, in which a doubled `q` stands for itself. -/
def readQuoted (q : Char) : Str → Option (Str × Str)
  | [] => none
  | c :: rest =>
    if c = q then
      match rest with
      | d :: rest' =>
        if d = q then (readQuoted q rest').map fun (body, t) => (q :: body, t)
        else some ([], rest)
      | [] => some ([], [])
    else (readQuoted q rest).map fun (body, t) => (c :: body, t)

/-- The body of an `E''` constant: a backslash takes the next character with it. -/
def readEscaped : Str → Option (Str × Str)
  | [] => none
  | '\\' :: c :: rest => (readEscaped rest).map fun (body, t) => ('\\' :: c :: body, t)
  | '\'' :: '\'' :: rest => (readEscaped rest).map fun (body, t) => ('\'' :: body, t)
  | '\'' :: rest => some ([], rest)
  | c :: rest => (readEscaped rest).map fun (body, t) => (c :: body, t)

/-- A body closed by `mark`. -/
def readUntil (mark : Str) : Str → Option (Str × Str)
  | [] => none
  | c :: rest =>
    if mark.isPrefixOf (c :: rest) then some ([], (c :: rest).drop mark.length)
    else (readUntil mark rest).map fun (body, t) => (c :: body, t)

/-- What follows a block comment, of which `depth` are open. -/
def skipBlock : Nat → Str → Option Str
  | 0, rest => some rest
  | _ + 1, [] => none
  | depth + 1, '*' :: '/' :: rest => skipBlock depth rest
  | depth + 1, '/' :: '*' :: rest => skipBlock (depth + 2) rest
  | depth + 1, _ :: rest => skipBlock (depth + 1) rest

/-- What follows a line comment. -/
def skipLine (s : Str) : Str := s.dropWhile fun c => c != '\n' && c != '\r'

/-- The mark `$tag$` that opens a dollar quote, if the text after a `$` goes on so. -/
def dollarMark (rest : Str) : Option Str :=
  let tag := rest.takeWhile fun c => isIdentStart c || c.isDigit
  match rest.drop tag.length with
  | '$' :: _ => if tag.head?.all isIdentStart then some ('$' :: tag ++ ['$']) else none
  | _ => none

/-! ## Unicode escapes -/

def hexDigit (c : Char) : Option Nat :=
  if c.isDigit then some (c.toNat - '0'.toNat)
  else if 'a' ≤ c.toLower ∧ c.toLower ≤ 'f' then some (c.toLower.toNat - 'a'.toNat + 10)
  else none

/-- The character with the given hexadecimal number. -/
def hexChar (digits : Str) : Option Char :=
  (digits.foldlM (fun n c => (hexDigit c).map (n * 16 + ·)) 0).map Char.ofNat

/-- The text of a `U&` body: `esc` is followed by itself, by four hexadecimal digits, or by `+` and
    six of them. -/
def decodeUnicode (esc : Char) : Str → Option Str
  | [] => some []
  | c :: rest =>
    if c ≠ esc then (decodeUnicode esc rest).map (c :: ·)
    else match rest with
      | [] => none
      | a :: rest =>
        if a = esc then (decodeUnicode esc rest).map (esc :: ·)
        else match a, rest with
          | '+', b :: c :: d :: e :: f :: g :: rest =>
            (hexChar [b, c, d, e, f, g]).bind fun x => (decodeUnicode esc rest).map (x :: ·)
          | a, b :: c :: d :: rest =>
            (hexChar [a, b, c, d]).bind fun x => (decodeUnicode esc rest).map (x :: ·)
          | _, _ => none

/-! ## Tokens -/

/-- The constant or identifier that `s` starts with, when its first characters open one. -/
def readConstant (s : Str) : Option (Option (Token × Str)) :=
  match s with
  | '\'' :: rest => some ((readQuoted '\'' rest).map fun (b, t) => (.literal b, t))
  | '"' :: rest => some <| (readQuoted '"' rest).bind fun (b, t) =>
      if b = [] then none else some (.quoted b, t)
  | c :: '\'' :: rest =>
    if c = 'e' ∨ c = 'E' then some ((readEscaped rest).map fun (b, t) => (.literal b, t))
    else if c ∈ ['b', 'B', 'x', 'X', 'n', 'N'] then
      some ((readQuoted '\'' rest).map fun (b, t) => (.literal b, t))
    else none
  | c :: '&' :: '\'' :: rest =>
    if c = 'u' ∨ c = 'U' then some ((readQuoted '\'' rest).map fun (b, t) => (.literal b, t))
    else none
  | c :: '&' :: '"' :: rest =>
    if c = 'u' ∨ c = 'U' then some ((readQuoted '"' rest).map fun (b, t) => (.unicode b, t))
    else none
  | '$' :: rest => (dollarMark rest).map fun mark =>
      (readUntil mark (rest.drop (mark.length - 1))).map fun (b, t) => (.literal b, t)
  | _ => none

/-- Tokens of a text of at most `fuel` characters. -/
def lexFuel : Nat → Str → Option (List Token)
  | _, [] => some []
  | 0, _ :: _ => none
  | fuel + 1, c :: rest =>
    match readConstant (c :: rest) with
    | some none => none
    | some (some (tok, t)) => (lexFuel fuel t).map (tok :: ·)
    | none =>
      if isSpace c then lexFuel fuel rest
      else if c = '-' ∧ rest.head? = some '-' then lexFuel fuel (skipLine rest)
      else if c = '/' ∧ rest.head? = some '*' then (skipBlock 1 rest.tail).bind (lexFuel fuel)
      else if isIdentStart c then
        (lexFuel fuel (rest.dropWhile isIdentCont)).map
          (.word (fold (c :: rest.takeWhile isIdentCont)) :: ·)
      else if c.isDigit then
        (lexFuel fuel (rest.dropWhile fun d => isIdentCont d || d == '.')).map
          (.number (c :: rest.takeWhile fun d => isIdentCont d || d == '.') :: ·)
      else (lexFuel fuel rest).map (.symbol c :: ·)

/-- `lex`: every token takes at least one character, so the length is fuel enough. -/
def lex (sql : Str) : Option (List Token) := lexFuel sql.length sql

/-- The statements of a text, as token lists; a text that does not lex has none. -/
def statements (sql : Str) : List (List Token) :=
  (((lex sql).getD []).splitOn (.symbol ';')).filter fun s => !s.isEmpty

/-! ## Where tokens stand

Every reader returns a suffix of what it was given, and an identifier without escapes
stands in the text as it is spelled. -/

/-- A reader that adds to the body leaves the rest alone. -/
theorem map_body {f : Str → Str} {r : Option (Str × Str)} {body t : Str}
    (h : r.map (fun (b, t) => (f b, t)) = some (body, t)) :
    ∃ b, r = some (b, t) ∧ body = f b := by
  obtain ⟨⟨b, t'⟩, hr, heq⟩ := Option.map_eq_some_iff.1 h
  obtain ⟨rfl, rfl⟩ := Prod.mk.inj heq
  exact ⟨b, hr, rfl⟩

/-- A body without the quote itself is the front of the text. -/
theorem readQuoted_suffix {q : Char} {s body t : Str} (h : readQuoted q s = some (body, t)) :
    t <:+ s ∧ (q ∉ body → body <+: s) := by
  fun_induction readQuoted q s generalizing body t with
  | case1 => exact nomatch h
  | case2 rest ih =>
    obtain ⟨b, hr, rfl⟩ := map_body h
    refine ⟨((ih hr).1.trans (List.suffix_cons _ _)).trans (List.suffix_cons _ _), ?_⟩
    intro hq
    exact absurd List.mem_cons_self hq
  | case3 d rest hd =>
    cases h
    exact ⟨List.suffix_cons _ _, fun _ => List.nil_prefix⟩
  | case4 =>
    cases h
    exact ⟨List.suffix_cons _ _, fun _ => List.nil_prefix⟩
  | case5 c rest hc ih =>
    obtain ⟨b, hr, rfl⟩ := map_body h
    refine ⟨(ih hr).1.trans (List.suffix_cons _ _), ?_⟩
    intro hq
    exact List.cons_prefix_cons.2 ⟨rfl, (ih hr).2 fun hmem => hq (List.mem_cons_of_mem c hmem)⟩

theorem readEscaped_suffix {s body t : Str} (h : readEscaped s = some (body, t)) : t <:+ s := by
  fun_induction readEscaped s generalizing body t with
  | case1 => exact nomatch h
  | case2 c rest ih =>
    obtain ⟨b, hr, -⟩ := map_body (f := fun b => '\\' :: c :: b) h
    exact ((ih hr).trans (List.suffix_cons _ _)).trans (List.suffix_cons _ _)
  | case3 rest ih =>
    obtain ⟨b, hr, -⟩ := map_body h
    exact ((ih hr).trans (List.suffix_cons _ _)).trans (List.suffix_cons _ _)
  | case4 rest =>
    cases h
    exact List.suffix_cons _ _
  | case5 c rest _ _ _ ih =>
    obtain ⟨b, hr, -⟩ := map_body h
    exact (ih hr).trans (List.suffix_cons _ _)

theorem readUntil_suffix {mark s body t : Str} (h : readUntil mark s = some (body, t)) :
    t <:+ s := by
  fun_induction readUntil mark s generalizing body t with
  | case1 => exact nomatch h
  | case2 c rest hmark =>
    cases h
    exact List.drop_suffix _ _
  | case3 c rest hmark ih =>
    obtain ⟨b, hr, -⟩ := map_body h
    exact (ih hr).trans (List.suffix_cons _ _)

theorem skipBlock_suffix {depth : Nat} {s t : Str} (h : skipBlock depth s = some t) : t <:+ s := by
  fun_induction skipBlock depth s with
  | case1 rest => cases h; exact List.suffix_rfl
  | case2 => exact nomatch h
  | case3 depth rest ih => exact ((ih h).trans (List.suffix_cons _ _)).trans (List.suffix_cons _ _)
  | case4 depth rest ih => exact ((ih h).trans (List.suffix_cons _ _)).trans (List.suffix_cons _ _)
  | case5 depth c rest _ _ ih => exact (ih h).trans (List.suffix_cons _ _)

/-- An identifier stands in the text: folded, or between quotes. -/
def Token.StandsIn (s : Str) : Token → Prop
  | .word w => ∃ raw, raw <:+: s ∧ fold raw = w
  | .quoted name => '"' ∉ name → name <:+: s
  | _ => True

theorem Token.StandsIn.mono {s t : Str} (hsuffix : t <:+ s) {tok : Token} (h : tok.StandsIn t) :
    tok.StandsIn s := by
  cases tok with
  | word w =>
    obtain ⟨raw, hraw, hfold⟩ := h
    exact ⟨raw, hraw.trans hsuffix.isInfix, hfold⟩
  | quoted name => exact fun hname => (h hname).trans hsuffix.isInfix
  | unicode | literal | number | symbol => trivial

/-- A constant as it is read: a string literal. -/
theorem literal_standsIn {r : Option (Str × Str)} {tok : Token} {s t : Str}
    (hread : ∀ body t, r = some (body, t) → t <:+ s)
    (h : r.map (fun (b, t) => (Token.literal b, t)) = some (tok, t)) :
    t <:+ s ∧ tok.StandsIn s := by
  obtain ⟨⟨b, t'⟩, hr, heq⟩ := Option.map_eq_some_iff.1 h
  obtain ⟨rfl, rfl⟩ := Prod.mk.inj heq
  exact ⟨hread b t' hr, trivial⟩

theorem readConstant_standsIn {s t : Str} {tok : Token}
    (h : readConstant s = some (some (tok, t))) : t <:+ s ∧ tok.StandsIn s := by
  unfold readConstant at h
  split at h
  · rename_i rest
    exact literal_standsIn (fun _ _ hr => (readQuoted_suffix hr).1.trans (List.suffix_cons _ _))
      (Option.some.inj h)
  · rename_i rest
    obtain ⟨⟨b, t'⟩, hr, h⟩ := Option.bind_eq_some_iff.1 (Option.some.inj h)
    simp only at h
    split at h
    · exact nomatch h
    · cases h
      refine ⟨(readQuoted_suffix hr).1.trans (List.suffix_cons _ _), ?_⟩
      intro hname
      exact ((readQuoted_suffix hr).2 hname).isInfix.trans (List.suffix_cons _ _).isInfix
  · rename_i c rest _ _
    have hsuffix : rest <:+ c :: '\'' :: rest :=
      (List.suffix_cons _ _).trans (List.suffix_cons _ _)
    split at h
    · exact literal_standsIn (fun _ _ hr => (readEscaped_suffix hr).trans hsuffix)
        (Option.some.inj h)
    · split at h
      · exact literal_standsIn (fun _ _ hr => (readQuoted_suffix hr).1.trans hsuffix)
          (Option.some.inj h)
      · exact nomatch h
  · rename_i c rest _ _
    have hsuffix : rest <:+ c :: '&' :: '\'' :: rest :=
      ((List.suffix_cons _ _).trans (List.suffix_cons _ _)).trans (List.suffix_cons _ _)
    split at h
    · exact literal_standsIn (fun _ _ hr => (readQuoted_suffix hr).1.trans hsuffix)
        (Option.some.inj h)
    · exact nomatch h
  · rename_i c rest _ _
    split at h
    · obtain ⟨⟨b, t'⟩, hr, heq⟩ := Option.map_eq_some_iff.1 (Option.some.inj h)
      obtain ⟨rfl, rfl⟩ := Prod.mk.inj heq
      exact ⟨(((readQuoted_suffix hr).1.trans (List.suffix_cons _ _)).trans
        (List.suffix_cons _ _)).trans (List.suffix_cons _ _), trivial⟩
    · exact nomatch h
  · rename_i rest _ _ _ _
    obtain ⟨mark, -, h⟩ := Option.map_eq_some_iff.1 h
    exact literal_standsIn (fun _ _ hr => ((readUntil_suffix hr).trans
      (List.drop_suffix _ _)).trans (List.suffix_cons _ _)) h
  · exact nomatch h

theorem lexFuel_standsIn {fuel : Nat} {s : Str} {toks : List Token}
    (h : lexFuel fuel s = some toks) : ∀ tok ∈ toks, tok.StandsIn s := by
  induction fuel generalizing s toks with
  | zero =>
    cases s with
    | nil => cases h; exact nofun
    | cons c rest => exact nomatch h
  | succ fuel ih =>
    cases s with
    | nil => cases h; exact nofun
    | cons c rest =>
      -- the tokens of what is left stand in it, and it is a suffix of the text
      have hrest {t : Str} {toks : List Token} (hsuffix : t <:+ c :: rest)
          (h : lexFuel fuel t = some toks) : ∀ tok ∈ toks, tok.StandsIn (c :: rest) :=
        fun tok htok => (ih h tok htok).mono hsuffix
      have hcons {t : Str} {first : Token} (hsuffix : t <:+ c :: rest)
          (hfirst : first.StandsIn (c :: rest))
          (h : (lexFuel fuel t).map (first :: ·) = some toks) :
          ∀ tok ∈ toks, tok.StandsIn (c :: rest) := by
        obtain ⟨toks', hmore, rfl⟩ := Option.map_eq_some_iff.1 h
        exact List.forall_mem_cons.2 ⟨hfirst, hrest hsuffix hmore⟩
      have htail : rest <:+ c :: rest := List.suffix_cons _ _
      simp only [lexFuel] at h
      split at h
      · exact nomatch h
      · rename_i tok t hconst
        obtain ⟨hsuffix, hstands⟩ := readConstant_standsIn hconst
        exact hcons hsuffix hstands h
      · split at h
        · exact hrest htail h
        split at h
        · exact hrest ((List.dropWhile_suffix _).trans htail) h
        split at h
        · obtain ⟨t, hskip, h⟩ := Option.bind_eq_some_iff.1 h
          exact hrest (((skipBlock_suffix hskip).trans (List.tail_suffix _)).trans htail) h
        split at h
        · refine hcons ((List.dropWhile_suffix _).trans htail) ?_ h
          exact ⟨c :: rest.takeWhile isIdentCont,
            (List.cons_prefix_cons.2 ⟨rfl, List.takeWhile_prefix _⟩).isInfix, rfl⟩
        split at h
        · refine hcons ((List.dropWhile_suffix _).trans htail) ?_ h
          trivial
        · refine hcons htail ?_ h
          trivial

theorem mem_intercalate {α : Type} {sep : List α} {parts : List (List α)} {l : List α} {a : α}
    (hl : l ∈ parts) (ha : a ∈ l) : a ∈ sep.intercalate parts := by
  induction parts with
  | nil => exact nomatch hl
  | cons part parts ih =>
    cases parts with
    | nil => simpa [List.mem_singleton.1 hl] using ha
    | cons next parts =>
      rw [List.intercalate_cons_cons]
      rcases List.mem_cons.1 hl with rfl | hl
      · exact List.mem_append_left _ (List.mem_append_left _ ha)
      · exact List.mem_append_right _ (ih hl)

/-- The identifiers of a statement stand in the text. -/
theorem statements_standsIn {sql : Str} {ts : List Token} (h : ts ∈ statements sql) :
    ∀ tok ∈ ts, tok.StandsIn sql := by
  intro tok htok
  cases hlex : lex sql with
  | none => simp [statements, hlex] at h
  | some toks =>
    simp only [statements, hlex, Option.getD_some, List.mem_filter] at h
    -- a part of the token list, cut at its semicolons
    have hmem : tok ∈ [Token.symbol ';'].intercalate (toks.splitOn (.symbol ';')) :=
      mem_intercalate h.1 htok
    rw [List.intercalate_splitOn] at hmem
    exact lexFuel_standsIn hlex tok hmem

example : lex "SELECT e'\\'x', $$a;b$$ /* /* ; */ */ FROM \"T\"\"1\" -- ;".toList =
    some [.word "select".toList, .literal "\\'x".toList, .symbol ',', .literal "a;b".toList,
      .word "from".toList, .quoted "T\"1".toList] := by decide +kernel

example : (lex "U&\"set\\005fconfig\"".toList).map (List.map fun
    | .unicode body => decodeUnicode '\\' body
    | _ => none) = some [some "set_config".toList] := by decide +kernel

end Pg
