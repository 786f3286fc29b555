import ScryProxy.Native.Anonymize
import ScryProxy.Spec.Pg.Lexer

/-!
# What anonymized events show of literals

With anonymization on, the text of an event is the statement printed back with a `?` in
the place of every literal that `is_sensitive_literal` knows.  Two statements that differ
in the contents of literals give the same text exactly when they differ in such literals
only (`sameFields_iff`): `E''` and dollar-quoted strings, typed strings and the text of
COMMENT are printed as they are.

A batch is cut at every `;` before it gets to the anonymizer, also inside a string.  What
stood in the string is then parsed as SQL, and its words are names (`noLeak_iff`).
-/

namespace ScryProxy

open CommandDetector

/-! ## The text of an event -/

/-- The statement after `ValueReplacer`. -/
def SqlStatement.normalized {Shape : Type} (stmt : SqlStatement Shape) : SqlStatement Shape :=
  { stmt with leaves := stmt.leaves.map replaceValue }

/-- Statements printed as `normalize_statements` does. -/
def SqlParser.displayAll (P : SqlParser) (stmts : List (SqlStatement P.Shape)) : Str :=
  List.intercalate "; ".toList (stmts.map P.display)

theorem replaceValue_of_residual {leaf : Leaf} (h : isResidual leaf = true) :
    replaceValue leaf = .value (.placeholder ['?']) := by
  cases leaf with
  | text s => exact nomatch h
  | value v => exact if_pos h

theorem replaceValue_of_not_residual {leaf : Leaf} (h : isResidual leaf = false) :
    replaceValue leaf = leaf := by
  cases leaf with
  | text s => rfl
  | value v => exact if_neg (ne_true_of_eq_false h)

theorem isResidual_replaceValue (leaf : Leaf) : isResidual (replaceValue leaf) = false := by
  cases h : isResidual leaf with
  | true => rw [replaceValue_of_residual h]; rfl
  | false => rw [replaceValue_of_not_residual h, h]

section

variable (P : SqlParser)

/-- The check for a literal that survived never fires: it asks the predicate by which the literals
    were replaced. -/
theorem normalizeStatement_eq (stmt : SqlStatement P.Shape) :
    normalizeStatement P stmt = some (P.display stmt.normalized) := by
  have hnone : (stmt.leaves.map replaceValue).any isResidual = false := by
    rw [List.any_map, List.any_eq_false]
    intro leaf _
    exact ne_true_of_eq_false (isResidual_replaceValue leaf)
  exact if_neg (ne_true_of_eq_false hnone)

theorem normalizeStatements_eq (stmts : List (SqlStatement P.Shape)) :
    normalizeStatements P stmts = some (P.displayAll (stmts.map SqlStatement.normalized)) := by
  have hmapM : stmts.mapM (normalizeStatement P) =
      some (stmts.map fun stmt => P.display stmt.normalized) := by
    rw [funext (normalizeStatement_eq P)]
    exact List.mapM_pure
  rw [normalizeStatements, hmapM, SqlParser.displayAll, List.map_map]
  rfl

end

def QueryEvent.fields (event : QueryEvent) : Str × Option Str :=
  (event.query, event.normalizedQuery)

namespace AnonymizationSettings

variable (settings : AnonymizationSettings) (P : SqlParser)

/-- The text in the event of a query; `none` if there is no event. -/
def shownText (query : Str) : Option Str :=
  match P.parseSql query with
  | some (stmt :: stmts) => some (P.displayAll ((stmt :: stmts).map SqlStatement.normalized))
  | _ =>
    match settings.parseFailure with
    | .drop => none
    | .redact => some redactedQuery

theorem fields_buildEvent {settings : AnonymizationSettings} (henabled : settings.enabled = true)
    (query : Str) (paramsIncomplete success : Bool) (error : Option Str) :
    (settings.buildEvent P query paramsIncomplete success error).map QueryEvent.fields =
      (settings.shownText P query).map fun text => (text, some text) := by
  unfold buildEvent shownText
  rw [henabled]
  cases hparse : P.parseSql query with
  | none =>
    have hnone : anonymize P settings.hashValue query = none := by rw [anonymize, hparse]; rfl
    simp only [hnone]
    cases settings.parseFailure <;> rfl
  | some stmts =>
    cases stmts with
    | nil =>
      have hnone : anonymize P settings.hashValue query = none := by rw [anonymize, hparse]; rfl
      simp only [hnone]
      cases settings.parseFailure <;> rfl
    | cons stmt stmts =>
      have hsome : ∃ fingerprints, anonymize P settings.hashValue query =
          some ⟨P.displayAll ((stmt :: stmts).map SqlStatement.normalized), fingerprints⟩ := by
        rw [anonymize, hparse]
        simp only [normalizeStatements_eq]
        exact ⟨_, rfl⟩
      obtain ⟨fingerprints, hsome⟩ := hsome
      simp only [hsome]
      rfl

end AnonymizationSettings

/-! ## Two queries that differ in literals -/

/-- The value without its contents. -/
def SqlValue.blank : SqlValue → SqlValue
  | .number _ long => .number [] long
  | .string form _ => .string form []
  | .boolean _ => .boolean false
  | .null => .null
  | .placeholder name => .placeholder name

def Leaf.blank : Leaf → Leaf
  | .value v => .value v.blank
  | .text _ => .text []

def SqlStatement.blank {Shape : Type} (stmt : SqlStatement Shape) : SqlStatement Shape :=
  { stmt with leaves := stmt.leaves.map Leaf.blank }

/-- The trees are equal except for the contents of literals. -/
def SameButLiterals {Shape : Type} (stmts₁ stmts₂ : List (SqlStatement Shape)) : Prop :=
  stmts₁.map SqlStatement.blank = stmts₂.map SqlStatement.blank

/-- Both queries give the same two fields, or no event. -/
def SameFields (settings : AnonymizationSettings) (P : SqlParser) (query₁ query₂ : Str) : Prop :=
  ∀ paramsIncomplete success error,
    (settings.buildEvent P query₁ paramsIncomplete success error).map QueryEvent.fields =
      (settings.buildEvent P query₂ paramsIncomplete success error).map QueryEvent.fields

/-- The literals in which the trees differ are of the kinds that get replaced. -/
def DifferInReplaced {Shape : Type} (stmts₁ stmts₂ : List (SqlStatement Shape)) : Prop :=
  ∀ p ∈ (stmts₁.flatMap SqlStatement.leaves).zip (stmts₂.flatMap SqlStatement.leaves),
    p.1 ≠ p.2 → isResidual p.1 = true

theorem isResidual_blank (leaf : Leaf) : isResidual leaf.blank = isResidual leaf := by
  cases leaf with
  | text s => rfl
  | value v =>
    cases v with
    | string form text => cases form <;> rfl
    | _ => rfl

/-- Leaves of one form get the same replacement if they are equal or of a kind that is replaced. -/
theorem replaceValue_eq_iff {leaf₁ leaf₂ : Leaf} (h : leaf₁.blank = leaf₂.blank) :
    replaceValue leaf₁ = replaceValue leaf₂ ↔ (leaf₁ ≠ leaf₂ → isResidual leaf₁ = true) := by
  have hkind : isResidual leaf₁ = isResidual leaf₂ := by
    rw [← isResidual_blank leaf₁, h, isResidual_blank]
  cases h₁ : isResidual leaf₁ with
  | true =>
    rw [replaceValue_of_residual h₁, replaceValue_of_residual (hkind ▸ h₁)]
    simp
  | false =>
    rw [replaceValue_of_not_residual h₁, replaceValue_of_not_residual (hkind ▸ h₁)]
    simp

theorem map_replaceValue_eq_iff {leaves₁ leaves₂ : List Leaf}
    (h : leaves₁.map Leaf.blank = leaves₂.map Leaf.blank) :
    leaves₁.map replaceValue = leaves₂.map replaceValue ↔
      ∀ p ∈ leaves₁.zip leaves₂, p.1 ≠ p.2 → isResidual p.1 = true := by
  induction leaves₁ generalizing leaves₂ with
  | nil =>
    cases leaves₂ with
    | nil => simp
    | cons _ _ => exact nomatch h
  | cons leaf₁ leaves₁ ih =>
    cases leaves₂ with
    | nil => exact nomatch h
    | cons leaf₂ leaves₂ =>
      simp only [List.map_cons, List.cons.injEq] at h
      rw [List.map_cons, List.map_cons, List.cons.injEq, replaceValue_eq_iff h.1, ih h.2,
        List.zip_cons_cons, List.forall_mem_cons]

theorem SqlStatement.normalized_eq_iff {Shape : Type} {stmt₁ stmt₂ : SqlStatement Shape}
    (h : stmt₁.blank = stmt₂.blank) :
    stmt₁.normalized = stmt₂.normalized ↔
      ∀ p ∈ stmt₁.leaves.zip stmt₂.leaves, p.1 ≠ p.2 → isResidual p.1 = true := by
  simp only [blank, mk.injEq] at h
  rw [← map_replaceValue_eq_iff h.2]
  simp only [normalized, mk.injEq, h.1, true_and]

theorem map_normalized_eq_iff {Shape : Type} {stmts₁ stmts₂ : List (SqlStatement Shape)}
    (h : SameButLiterals stmts₁ stmts₂) :
    stmts₁.map SqlStatement.normalized = stmts₂.map SqlStatement.normalized ↔
      DifferInReplaced stmts₁ stmts₂ := by
  unfold DifferInReplaced
  induction stmts₁ generalizing stmts₂ with
  | nil =>
    cases stmts₂ with
    | nil => simp
    | cons _ _ => exact nomatch h
  | cons stmt₁ stmts₁ ih =>
    cases stmts₂ with
    | nil => exact nomatch h
    | cons stmt₂ stmts₂ =>
      simp only [SameButLiterals, List.map_cons, List.cons.injEq] at h
      -- the leaves of the first statements are as many, so the zips are one after the other
      have hlen : stmt₁.leaves.length = stmt₂.leaves.length := by
        simpa [SqlStatement.blank] using congrArg (fun stmt => stmt.leaves.length) h.1
      rw [List.map_cons, List.map_cons, List.cons.injEq, SqlStatement.normalized_eq_iff h.1,
        ih h.2, List.flatMap_cons, List.flatMap_cons, List.zip_append hlen, List.forall_mem_append]

/-- With anonymization on, take two queries with trees that are equal except for the contents of
    literals, and assume that the printer shows it when the replaced trees still differ.  The
    events have the same query fields exactly if every literal in which the trees differ is of a
    kind that `is_sensitive_literal` knows. -/
theorem sameFields_iff (P : SqlParser) (settings : AnonymizationSettings) {query₁ query₂ : Str}
    {stmts₁ stmts₂ : List (SqlStatement P.Shape)} (henabled : settings.enabled = true)
    (hparse₁ : P.parseSql query₁ = some stmts₁) (hparse₂ : P.parseSql query₂ = some stmts₂)
    (hsame : SameButLiterals stmts₁ stmts₂)
    (hshows : P.displayAll (stmts₁.map SqlStatement.normalized) =
        P.displayAll (stmts₂.map SqlStatement.normalized) →
      stmts₁.map SqlStatement.normalized = stmts₂.map SqlStatement.normalized) :
    SameFields settings P query₁ query₂ ↔ DifferInReplaced stmts₁ stmts₂ := by
  have htexts : SameFields settings P query₁ query₂ ↔
      settings.shownText P query₁ = settings.shownText P query₂ := by
    unfold SameFields
    simp only [AnonymizationSettings.fields_buildEvent P henabled, forall_const]
    constructor
    · intro h
      exact Option.map_injective (fun _ _ h => congrArg Prod.fst h) h
    · intro h
      rw [h]
  rw [htexts, ← map_normalized_eq_iff hsame]
  unfold AnonymizationSettings.shownText
  rw [hparse₁, hparse₂]
  cases stmts₁ with
  | nil =>
    cases stmts₂ with
    | nil => simp
    | cons _ _ => exact nomatch hsame
  | cons _ _ =>
    cases stmts₂ with
    | nil => exact nomatch hsame
    | cons _ _ =>
      rw [Option.some_inj]
      exact ⟨hshows, congrArg P.displayAll⟩

/-! ## A small parser

One SELECT with one item: a column, a plain string or an `E''` string. -/

/-- The text between the quote that was read and a last quote. -/
def closingQuote (s : Str) : Option Str :=
  match s.reverse with
  | '\'' :: body => if '\'' ∈ body then none else some body.reverse
  | _ => none

/-- The item of a SELECT: the name of a column, or a literal. -/
def parseItem (s : Str) : Option (SqlStatement (Option Str)) :=
  match s with
  | '\'' :: rest => (closingQuote rest).map fun text =>
      ⟨none, [.value (.string .singleQuoted text)]⟩
  | 'E' :: '\'' :: rest => (closingQuote rest).map fun text =>
      ⟨none, [.value (.string .escaped text)]⟩
  | _ => if s.all Pg.isIdentStart && !s.isEmpty then some ⟨some s, []⟩ else none

def displayValue : SqlValue → Str
  | .number digits _ => digits
  | .string .escaped text => 'E' :: '\'' :: text ++ ['\'']
  | .string _ text => '\'' :: text ++ ['\'']
  | .boolean b => if b then "true".toList else "false".toList
  | .null => "NULL".toList
  | .placeholder name => name

def displayLeaf : Leaf → Str
  | .value v => displayValue v
  | .text s => '\'' :: s ++ ['\'']

def parseSelect (s : Str) : Option (List (SqlStatement (Option Str))) :=
  if "SELECT ".toList.isPrefixOf s then (parseItem (s.drop 7)).map ([·]) else none

def displaySelect (stmt : SqlStatement (Option Str)) : Str :=
  List.intercalate [' '] ("SELECT".toList :: stmt.shape.toList ++ stmt.leaves.map displayLeaf)

abbrev selectParser : SqlParser := ⟨Option Str, parseSelect, displaySelect⟩

/-- A SELECT of one literal. -/
def selectString (form : StringForm) (text : Str) : SqlStatement (Option Str) :=
  ⟨none, [.value (.string form text)]⟩

theorem sameButLiterals_selectString (form : StringForm) (text₁ text₂ : Str) :
    SameButLiterals [selectString form text₁] [selectString form text₂] := rfl

theorem normalized_plain_string (text₁ text₂ : Str) :
    [selectString .singleQuoted text₁].map SqlStatement.normalized =
      [selectString .singleQuoted text₂].map SqlStatement.normalized := rfl

/-- Anonymization on, with texts that do not parse redacted. -/
def redacting : AnonymizationSettings := ⟨true, id, .redact⟩

/-- Plain strings are replaced. -/
theorem sameFields_plain_strings :
    SameFields redacting selectParser "SELECT 'secret'".toList "SELECT 'public'".toList := by
  have hparse₁ : selectParser.parseSql "SELECT 'secret'".toList =
      some [selectString .singleQuoted "secret".toList] := by decide +kernel
  have hparse₂ : selectParser.parseSql "SELECT 'public'".toList =
      some [selectString .singleQuoted "public".toList] := by decide +kernel
  refine (sameFields_iff selectParser redacting rfl hparse₁ hparse₂
    (sameButLiterals_selectString _ _ _) (fun _ => normalized_plain_string _ _)).mpr ?_
  intro p hp _
  rw [List.mem_singleton.mp hp]
  rfl

/-- `E''` strings are not: their contents are in the event. -/
theorem escaped_string_shown :
    selectParser.parseSql "SELECT E'secret'".toList =
        some [selectString .escaped "secret".toList] ∧
      selectParser.parseSql "SELECT E'public'".toList =
        some [selectString .escaped "public".toList] ∧
      SameButLiterals [selectString .escaped "secret".toList]
        [selectString .escaped "public".toList] ∧
      ¬ SameFields redacting selectParser "SELECT E'secret'".toList "SELECT E'public'".toList := by
  refine ⟨by decide +kernel, by decide +kernel, sameButLiterals_selectString _ _ _, ?_⟩
  intro h
  exact absurd (h false true none) (by decide +kernel)

/-! ## Words of a text -/

def isWordChar (c : Char) : Bool := Pg.isIdentStart c || c.isDigit

/-- The maximal words of a text, folded. -/
def wordsOf (s : Str) : List Str := (Str.words isWordChar s).map Pg.fold

theorem wordsOf_intercalate {sep : Str} (hne : sep ≠ []) (hsep : sep.any isWordChar = false)
    (ts : List Str) : wordsOf (sep.intercalate ts) = ts.flatMap wordsOf := by
  have hblank : ∀ c ∈ sep, isWordChar c = false := fun c hc =>
    Bool.eq_false_iff.2 (List.any_eq_false.1 hsep c hc)
  rw [wordsOf, Str.words_intercalate hne hblank, List.map_flatMap]
  rfl

/-- The words in the string constants of a query. -/
def literalWords (query : Str) : List Str :=
  ((Pg.lex query).getD []).flatMap fun
    | .literal body => wordsOf body
    | _ => []

/-- The words in the other tokens, quoted identifiers among them. -/
def outsideWords (query : Str) : List Str :=
  ((Pg.lex query).getD []).flatMap fun
    | .word w => wordsOf w
    | .quoted name => wordsOf name
    | .unicode body => wordsOf ((Pg.decodeUnicode '\\' body).getD body)
    | .number text => wordsOf text
    | .literal _ | .symbol _ => []

/-- The word is in string constants of the query and in no other token. -/
def Secret (query w : Str) : Prop := w ∈ literalWords query ∧ w ∉ outsideWords query

instance (query w : Str) : Decidable (Secret query w) :=
  inferInstanceAs (Decidable (w ∈ literalWords query ∧ w ∉ outsideWords query))

/-- What the printer makes of a tree, word by word: those of the shape (keywords and names) and
    those of the leaves, where a placeholder has none. -/
structure DisplayWords (P : SqlParser) where
  shapeWords : P.Shape → List Str
  leafWords : Leaf → List Str
  mem_display : ∀ stmt w, w ∈ wordsOf (P.display stmt) ↔
    w ∈ shapeWords stmt.shape ∨ ∃ leaf ∈ stmt.leaves, w ∈ leafWords leaf
  placeholder : leafWords (.value (.placeholder ['?'])) = []

/-! ## Batches -/

/-- No event of the successful execution has a word that its query has in string constants only. -/
def NoLeak (settings : AnonymizationSettings) (P : SqlParser) (pending : PendingExecution) : Prop :=
  ∀ event ∈ settings.successEvents P pending, ∀ w, Secret pending.query w →
    w ∉ wordsOf event.query ∧ ∀ normalized ∈ event.normalizedQuery, w ∉ wordsOf normalized

section

variable {P : SqlParser} (D : DisplayWords P)

/-- The word is not part of what stays of the statements. -/
def Hides (stmts : List (SqlStatement P.Shape)) (w : Str) : Prop :=
  ∀ stmt ∈ stmts, w ∉ D.shapeWords stmt.shape ∧
    ∀ leaf ∈ stmt.leaves, isResidual leaf = false → w ∉ D.leafWords leaf

/-- The same for a text as the parser sees it; what is shown for one that it refuses is fixed. -/
def HidesInText (settings : AnonymizationSettings) (text w : Str) : Prop :=
  match P.parseSql text with
  | some (stmt :: stmts) => Hides D (stmt :: stmts) w
  | _ => settings.parseFailure = .redact → w ∉ wordsOf redactedQuery

/-- The words that a query has in string constants only are not names, keywords or literals that
    stay, when each part between two semicolons is read on its own. -/
def HidesInParts (settings : AnonymizationSettings) (query : Str) : Prop :=
  ∀ part ∈ query.splitOn ';', Str.trim part ≠ [] →
    ∀ w, Secret query w → HidesInText D settings (Str.trim part) w

theorem mem_leafWords_replaceValue {leaf : Leaf} {w : Str} :
    w ∈ D.leafWords (replaceValue leaf) ↔ isResidual leaf = false ∧ w ∈ D.leafWords leaf := by
  cases h : isResidual leaf with
  | true => simp [replaceValue_of_residual h, D.placeholder]
  | false => simp [replaceValue_of_not_residual h]

/-- The words of the printed statements are those that are not hidden. -/
theorem mem_wordsOf_displayAll {stmts : List (SqlStatement P.Shape)} {w : Str} :
    w ∉ wordsOf (P.displayAll (stmts.map SqlStatement.normalized)) ↔ Hides D stmts w := by
  rw [SqlParser.displayAll, wordsOf_intercalate (by decide) (by decide)]
  simp only [List.mem_flatMap, List.mem_map, exists_exists_and_eq_and, D.mem_display,
    SqlStatement.normalized, mem_leafWords_replaceValue, Hides]
  push Not
  exact Iff.rfl

theorem shownText_hides_iff (settings : AnonymizationSettings) (query w : Str) :
    (∀ text ∈ settings.shownText P query, w ∉ wordsOf text) ↔ HidesInText D settings query w := by
  unfold AnonymizationSettings.shownText HidesInText
  split
  · rename_i stmt stmts hparse
    rw [← mem_wordsOf_displayAll D]
    simp
  · cases settings.parseFailure <;> simp

end

/-- The events of a successful execution have the texts shown for its parts. -/
theorem noLeak_iff_shownText {settings : AnonymizationSettings} (henabled : settings.enabled = true)
    (P : SqlParser) (pending : PendingExecution) :
    NoLeak settings P pending ↔ ∀ part ∈ splitStatements pending.query,
      ∀ w, Secret pending.query w → ∀ text ∈ settings.shownText P part, w ∉ wordsOf text := by
  have hfields := fun part => AnonymizationSettings.fields_buildEvent P henabled part
    pending.paramsIncomplete true none
  constructor
  · intro h part hpart w hw text htext
    have hevent := hfields part
    rw [htext, Option.map_some, Option.map_eq_some_iff] at hevent
    obtain ⟨event, hbuild, hev⟩ := hevent
    have hquery : event.query = text := congrArg Prod.fst hev
    have hmem : event ∈ settings.successEvents P pending :=
      List.mem_filterMap.mpr ⟨part, hpart, hbuild⟩
    exact hquery ▸ (h event hmem w hw).1
  · intro h event hevent w hw
    obtain ⟨part, hpart, hbuild⟩ := List.mem_filterMap.mp hevent
    have hev := hfields part
    rw [hbuild, Option.map_some] at hev
    obtain ⟨text, htext, heq⟩ := Option.map_eq_some_iff.mp hev.symm
    have hquery : text = event.query := congrArg Prod.fst heq
    have hnormalized : some text = event.normalizedQuery := congrArg Prod.snd heq
    have hout := h part hpart w hw text htext
    refine ⟨hquery ▸ hout, ?_⟩
    intro normalized hn
    rw [← hnormalized, Option.mem_some] at hn
    exact hn ▸ hout

/-- With anonymization on, the events of a successful execution show no word that its query has in
    string constants only, exactly if the parts between the query's semicolons hide those words. -/
theorem noLeak_iff {P : SqlParser} (D : DisplayWords P) (settings : AnonymizationSettings)
    (henabled : settings.enabled = true) (pending : PendingExecution) :
    NoLeak settings P pending ↔ HidesInParts D settings pending.query := by
  rw [noLeak_iff_shownText henabled]
  simp only [shownText_hides_iff D, HidesInParts, splitStatements, List.mem_filter, List.mem_map,
    Bool.not_eq_true', List.isEmpty_eq_false_iff]
  constructor
  · intro h part hpart hne
    exact h _ ⟨⟨part, hpart, rfl⟩, hne⟩
  · rintro h _ ⟨⟨part, hpart, rfl⟩, hne⟩
    exact h part hpart hne

/-- The small printer, word by word. -/
def selectWords : DisplayWords selectParser where
  shapeWords shape := wordsOf "SELECT".toList ++ shape.toList.flatMap wordsOf
  leafWords leaf := wordsOf (displayLeaf leaf)
  mem_display stmt w := by
    show w ∈ wordsOf (displaySelect stmt) ↔ _
    rw [displaySelect, wordsOf_intercalate (by decide) (by decide)]
    simp [List.mem_flatMap, or_assoc]
  placeholder := by decide

/-- One statement with a plain string: its words stay out of the event. -/
theorem noLeak_plain_string :
    NoLeak redacting selectParser ⟨"SELECT 'secret'".toList, .absent, false⟩ := by
  have hparts : ("SELECT 'secret'".toList.splitOn ';').map Str.trim =
      ["SELECT 'secret'".toList] := by decide +kernel
  have hwords : literalWords "SELECT 'secret'".toList = ["secret".toList] := by decide +kernel
  have hparse : selectParser.parseSql "SELECT 'secret'".toList =
      some [selectString .singleQuoted "secret".toList] := by decide +kernel
  refine (noLeak_iff selectWords redacting rfl _).mpr ?_
  intro part hpart _ w hw
  have hpart : Str.trim part = "SELECT 'secret'".toList :=
    List.mem_singleton.mp (hparts ▸ List.mem_map_of_mem hpart)
  have hw : w = "secret".toList := List.mem_singleton.mp (hwords ▸ hw.1)
  rw [hw, hpart, HidesInText, hparse]
  unfold Hides
  decide +kernel

/-- A string with semicolons around a statement: the names of the statement are in an event. -/
theorem word_leaks_from_string :
    Secret "SELECT '; SELECT secret; '".toList "secret".toList ∧
      ¬ NoLeak redacting selectParser ⟨"SELECT '; SELECT secret; '".toList, .absent, false⟩ := by
  have hsecret : Secret "SELECT '; SELECT secret; '".toList "secret".toList := by decide +kernel
  refine ⟨hsecret, ?_⟩
  intro h
  have hevent : (⟨"SELECT secret".toList, some "SELECT secret".toList, [], false, true, none⟩ :
      QueryEvent) ∈ redacting.successEvents selectParser
        ⟨"SELECT '; SELECT secret; '".toList, .absent, false⟩ := by decide +kernel
  exact absurd (h _ hevent _ hsecret).1 (by decide +kernel)

end ScryProxy
