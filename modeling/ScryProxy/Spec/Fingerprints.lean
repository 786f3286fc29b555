import ScryProxy.Native.AnonymizeTree

/-!
# Fingerprints and placeholders

`ValueCollector` and `ValueReplacer` choose the values they act on by separate matches.  Both
choose the same ones (`fingerprintText_eq`), and they see them in the same order, so the
fingerprints of a query are the hashes of the literals that its normalized text shows as `?`,
in order (`fingerprints_of_replaced`).  The anonymizer with its visitors does what the model
that knows a statement only by its shape and leaves does (`anonymize_eq_flat`).
-/

namespace ScryProxy

open SyntaxTree (visitor)

namespace QueryAnonymizer

/-! ## The values chosen -/

/-- The text of a literal. -/
def literalText : SqlValue → Str
  | .number digits _ => digits
  | .string _ text => text
  | .boolean b => if b then "true".toList else "false".toList
  | .null => "NULL".toList
  | .placeholder name => name

/-- A value is fingerprinted exactly when it is replaced, and then by its text. -/
theorem fingerprintText_eq (v : SqlValue) :
    fingerprintText v = if isSensitiveLiteral v then some (literalText v) else none := by
  cases v with
  | string form text => cases form <;> rfl
  | _ => rfl

/-- A value changes exactly when it is replaced. -/
theorem replaceLiteral_ne_iff (v : SqlValue) : replaceLiteral v ≠ v ↔ isSensitiveLiteral v = true := by
  unfold replaceLiteral
  split
  · next h =>
    refine iff_of_true ?_ h
    rintro rfl
    cases h
  · next h => exact iff_of_false (not_not_intro rfl) h

/-- What the replacer writes is no literal. -/
theorem isSensitiveLiteral_replaceLiteral (v : SqlValue) : isSensitiveLiteral (replaceLiteral v) = false := by
  unfold replaceLiteral
  split
  · rfl
  · next h => exact Bool.eq_false_iff.2 h

section

variable {Tag : Type}

/-! ## One statement -/

/-- The literal that stood at a place where there is a `?` now. -/
def replaced? (before after : SqlTree Tag) : Option SqlValue := do
  let v ← before.value?
  let w ← after.value?
  if v ≠ w ∧ w = .placeholder ['?'] then some v else none

/-- The literals of a statement that `ValueReplacer` replaces by `?`, in the order of its walk. -/
def replacedLiterals (stmt : SqlTree Tag) : List SqlValue :=
  (List.zipWith replaced? stmt.exprs (stmt.visitMut replaceLiteral).exprs).reduceOption

theorem replaced?_visitMut (e : SqlTree Tag) :
    replaced? e (e.visitMut replaceLiteral) = e.value?.filter isSensitiveLiteral := by
  unfold replaced?
  rw [SyntaxTree.value?_visitMut]
  cases e.value? with
  | none => rfl
  | some v =>
    have hreplaced : v ≠ replaceLiteral v ∧ replaceLiteral v = .placeholder ['?'] ↔
        isSensitiveLiteral v = true := by
      rw [ne_comm, replaceLiteral_ne_iff]
      refine ⟨fun h => h.1, fun h => ⟨h, ?_⟩⟩
      rw [replaceLiteral, if_pos h]
    simp only [Option.map_some, Option.bind_eq_bind, Option.bind_some, hreplaced, Option.filter_some]

/-- What is replaced are the literals of the statement. -/
theorem replacedLiterals_eq (stmt : SqlTree Tag) :
    replacedLiterals stmt = stmt.values.filter isSensitiveLiteral := by
  rw [replacedLiterals, SyntaxTree.exprs_visitMut, List.zipWith_map_right, List.zipWith_self]
  show List.filterMap id _ = _
  rw [List.filterMap_map, SyntaxTree.values, List.filter_filterMap]
  exact List.filterMap_congr fun e _ => replaced?_visitMut e

/-- The collector takes the fingerprint of an expression that is a literal. -/
theorem collectValue_eq (anonymizer : QueryAnonymizer) (blake3 : List UInt8 → Str) (e : SqlTree Tag)
    (fingerprints : List Str) :
    anonymizer.collectValue blake3 e fingerprints =
      .ok (fingerprints ++ (e.value?.filter isSensitiveLiteral).toList.map fun v =>
        anonymizer.hashValue blake3 (literalText v)) := by
  cases e with
  | value v =>
    simp only [collectValue, fingerprintText_eq, SyntaxTree.value?, Option.filter_some]
    split
    · next text h =>
      split at h
      · next hv =>
        cases h
        simp [hv]
      · cases h
    · next h =>
      split at h
      · cases h
      · next hv => simp [hv]
  | expr tag children => simp [collectValue, SyntaxTree.value?]
  | other tag children => simp [collectValue, SyntaxTree.value?]

/-- The collector takes the fingerprint of each literal that is replaced. -/
theorem visit_collectValue (anonymizer : QueryAnonymizer) (blake3 : List UInt8 → Str)
    (stmt : SqlTree Tag) (fingerprints : List Str) :
    stmt.visit (anonymizer.collectValue blake3) fingerprints =
      .ok (fingerprints ++ (replacedLiterals stmt).map fun v =>
        anonymizer.hashValue blake3 (literalText v)) := by
  -- both sides go through the expressions in the order of the walk
  rw [SyntaxTree.visit_eq_foldlM, replacedLiterals_eq, SyntaxTree.values, List.filter_filterMap]
  generalize stmt.exprs = es
  induction es generalizing fingerprints with
  | nil => simp only [List.foldlM_nil, List.filterMap_nil, List.map_nil, List.append_nil]; rfl
  | cons e es ih =>
    have hcons : (e :: es).filterMap (fun e => e.value?.filter isSensitiveLiteral) =
        (e.value?.filter isSensitiveLiteral).toList ++
          es.filterMap fun e => e.value?.filter isSensitiveLiteral := by
      rw [List.filterMap_cons]
      cases e.value?.filter isSensitiveLiteral <;> rfl
    rw [List.foldlM_cons, collectValue_eq, hcons, List.map_append, ← List.append_assoc]
    exact ih _

/-- The detector goes on over a tree without literals. -/
theorem visit_detectResidual (stmt : SqlTree Tag) :
    (stmt.visitMut replaceLiteral).visit detectResidual false = .ok false := by
  -- what the detector sees are the expressions that the replacer has left
  rw [SyntaxTree.visit_eq_foldlM, SyntaxTree.exprs_visitMut, List.foldlM_map]
  generalize stmt.exprs = es
  induction es with
  | nil => rfl
  | cons e es ih =>
    have hfirst : detectResidual (e.visitMut replaceLiteral) false = .ok false := by
      cases e with
      | value v =>
        rw [SyntaxTree.visitMut, detectResidual, isSensitiveLiteral_replaceLiteral]
        rfl
      | expr tag children => simp only [SyntaxTree.visitMut, detectResidual]
      | other tag children => simp only [SyntaxTree.visitMut, detectResidual]
    rw [List.foldlM_cons, hfirst]
    exact ih

end

/-! ## Queries -/

variable (P : SqlTreeParser)

theorem normalizeStatement_eq (stmt : SqlTree P.Tag) :
    normalizeStatement P stmt = some (P.display (stmt.visitMut replaceLiteral)) := by
  rw [normalizeStatement, visit_detectResidual]
  rfl

theorem normalizeStatements_eq (statements : List (SqlTree P.Tag)) :
    normalizeStatements P statements = some (List.intercalate "; ".toList
      (statements.map fun stmt => P.display (stmt.visitMut replaceLiteral))) := by
  have hall : normalizeStatement P =
      fun stmt => pure (P.display (stmt.visitMut replaceLiteral)) := funext (normalizeStatement_eq P)
  rw [normalizeStatements, hall, List.mapM_pure]
  rfl

/-- One collector goes through the statements in order. -/
theorem collect_eq (anonymizer : QueryAnonymizer) (blake3 : List UInt8 → Str)
    (statements : List (SqlTree P.Tag)) :
    anonymizer.collect P blake3 statements =
      (statements.flatMap replacedLiterals).map fun v =>
        anonymizer.hashValue blake3 (literalText v) := by
  have hloop : ∀ fingerprints : List Str, statements.foldl (fun fingerprints stmt =>
      visitor (stmt.visit (anonymizer.collectValue blake3) fingerprints)) fingerprints =
        fingerprints ++ (statements.flatMap replacedLiterals).map fun v =>
          anonymizer.hashValue blake3 (literalText v) := by
    induction statements with
    | nil => simp
    | cons stmt statements ih =>
      intro fingerprints
      rw [List.foldl_cons, visit_collectValue, ih, List.flatMap_cons, List.map_append,
        ← List.append_assoc]
      rfl
  exact hloop []

/-- A query that is parsed into statements is anonymized. -/
theorem anonymize_eq (anonymizer : QueryAnonymizer) (blake3 : List UInt8 → Str) (query : Str) :
    anonymizer.anonymize P blake3 query = (P.parseSql query).bind fun statements =>
      if statements.isEmpty then none
      else some ⟨List.intercalate "; ".toList
          (statements.map fun stmt => P.display (stmt.visitMut replaceLiteral)),
        (statements.flatMap replacedLiterals).map fun v =>
          anonymizer.hashValue blake3 (literalText v)⟩ := by
  unfold anonymize
  simp only [normalizeStatements_eq, collect_eq]
  rfl

/-- The fingerprints of an anonymized query are the salted hashes of the literals that its statements
    show as `?`, one for each, in the order of the walk. -/
theorem fingerprints_of_replaced (anonymizer : QueryAnonymizer) (blake3 : List UInt8 → Str)
    {query : Str} {anon : AnonymizedQuery} (h : anonymizer.anonymize P blake3 query = some anon) :
    ∃ statements, P.parseSql query = some statements ∧
      anon.normalizedQuery = List.intercalate "; ".toList
        (statements.map fun stmt => P.display (stmt.visitMut replaceLiteral)) ∧
      anon.valueFingerprints = (statements.flatMap replacedLiterals).map fun v =>
        blake3 (anonymizer.salt ++ Utf8.encode (literalText v)) := by
  rw [anonymize_eq, Option.bind_eq_some_iff] at h
  obtain ⟨statements, hparse, h⟩ := h
  split at h
  · cases h
  · cases h
    exact ⟨statements, hparse, rfl, rfl⟩

/-- A parser that finds a number, a NULL and a placeholder in every query. -/
def threeValues : SqlTreeParser where
  Tag := Unit
  parseSql _ := some [.other () [.value (.number "42".toList false),
    .expr () [.value .null, .value (.placeholder "?".toList)]]]
  display stmt := stmt.values.flatMap literalText

/-- The number and the NULL are replaced, and have fingerprints in this order. -/
theorem fingerprints_threeValues :
    ∃ statements, threeValues.parseSql [] = some statements ∧
      "???".toList = List.intercalate "; ".toList
        (statements.map fun stmt => threeValues.display (stmt.visitMut replaceLiteral)) ∧
      ["s42".toList, "sNULL".toList] = (statements.flatMap replacedLiterals).map fun v =>
        (⟨[115]⟩ : QueryAnonymizer).salt ++ Utf8.encode (literalText v) |>.map (Char.ofNat ·.toNat) := by
  have h : (⟨[115]⟩ : QueryAnonymizer).anonymize threeValues (List.map (Char.ofNat ·.toNat)) [] =
      some ⟨"???".toList, ["s42".toList, "sNULL".toList]⟩ := by decide
  exact fingerprints_of_replaced threeValues ⟨[115]⟩ _ h

/-! ## Statements by shape and leaves -/

/-- The value at a leaf that holds one. -/
def leafValue? : Leaf → Option SqlValue
  | .value v => some v
  | .text _ => none

/-- The parser of a model that knows a statement by its shape and its values. -/
def flat : SqlParser where
  Shape := SyntaxTree P.Tag Unit
  parseSql query := (P.parseSql query).map (List.map fun stmt => ⟨stmt.shape, stmt.values.map .value⟩)
  display stmt := P.display (stmt.shape.refill .null (stmt.leaves.filterMap leafValue?)).1

/-- A statement by its shape and its values. -/
def flatten (stmt : SqlTree P.Tag) : SqlStatement (flat P).Shape := ⟨stmt.shape, stmt.values.map .value⟩

theorem replaceValue_value (v : SqlValue) : replaceValue (.value v) = .value (replaceLiteral v) := by
  rw [replaceValue, replaceLiteral]
  split <;> rfl

/-- A statement is shown from its shape and its values. -/
theorem display_flatten (stmt : SqlTree P.Tag) : (flat P).display (flatten P stmt) = P.display stmt := by
  have hleaves : (stmt.values.map Leaf.value).filterMap leafValue? = stmt.values := by
    rw [List.filterMap_map]
    exact List.filterMap_some
  show P.display (stmt.shape.refill .null ((stmt.values.map Leaf.value).filterMap leafValue?)).1 = _
  rw [hleaves, SyntaxTree.refill_shape]

theorem normalizeStatement_flatten (stmt : SqlTree P.Tag) :
    ScryProxy.normalizeStatement (flat P) (flatten P stmt) = normalizeStatement P stmt := by
  have hleaves : (flatten P stmt).leaves.map replaceValue =
      (flatten P (stmt.visitMut replaceLiteral)).leaves := by
    show (stmt.values.map Leaf.value).map replaceValue = _
    rw [List.map_map, flatten, SyntaxTree.values_visitMut, List.map_map]
    exact List.map_congr_left fun v _ => replaceValue_value v
  have hnormalized : { flatten P stmt with leaves := (flatten P stmt).leaves.map replaceValue } =
      flatten P (stmt.visitMut replaceLiteral) := by
    rw [hleaves, flatten, flatten, SyntaxTree.shape_visitMut]
  have hresidual : (flatten P (stmt.visitMut replaceLiteral)).leaves.any isResidual = false := by
    rw [flatten, SyntaxTree.values_visitMut, List.any_eq_false]
    intro leaf hleaf
    rw [List.map_map] at hleaf
    obtain ⟨v, -, rfl⟩ := List.mem_map.1 hleaf
    exact Bool.eq_false_iff.1 (isSensitiveLiteral_replaceLiteral v)
  rw [ScryProxy.normalizeStatement, hnormalized, hresidual, display_flatten, normalizeStatement_eq]
  rfl

theorem collectFingerprints_flatten (hashValue : Str → Str) (stmt : SqlTree P.Tag) :
    collectFingerprints (flat P) hashValue (flatten P stmt) =
      (replacedLiterals stmt).map fun v => hashValue (literalText v) := by
  have hvalues : collectFingerprints (flat P) hashValue (flatten P stmt) =
      stmt.values.filterMap fun v => (fingerprintText v).map hashValue := by
    rw [collectFingerprints, flatten, List.filterMap_map]
    rfl
  rw [hvalues, replacedLiterals_eq]
  induction stmt.values with
  | nil => rfl
  | cons v vs ih =>
    have htext := fingerprintText_eq v
    cases hv : isSensitiveLiteral v with
    | false =>
      have hnone : (fingerprintText v).map hashValue = none := by
        rw [htext, hv]
        rfl
      simp only [List.filterMap_cons, hnone, List.filter_cons, hv, Bool.false_eq_true, if_false, ih]
    | true =>
      have hsome : (fingerprintText v).map hashValue = some (hashValue (literalText v)) := by
        rw [htext, hv]
        rfl
      simp only [List.filterMap_cons, hsome, List.filter_cons, hv, if_true, ih, List.map_cons]

/-- The visitors do what the model over shapes and leaves says. -/
theorem anonymize_eq_flat (anonymizer : QueryAnonymizer) (blake3 : List UInt8 → Str) (query : Str) :
    anonymizer.anonymize P blake3 query =
      ScryProxy.anonymize (flat P) (anonymizer.hashValue blake3) query := by
  have hparse : (flat P).parseSql query = (P.parseSql query).map (List.map (flatten P)) := rfl
  rw [ScryProxy.anonymize, hparse, anonymize]
  cases P.parseSql query with
  | none => rfl
  | some statements =>
    have hnormalized : ScryProxy.normalizeStatements (flat P) (statements.map (flatten P)) =
        normalizeStatements P statements := by
      rw [ScryProxy.normalizeStatements, normalizeStatements, List.mapM_map]
      congr 2
      exact funext (normalizeStatement_flatten P)
    have hfingerprints : (statements.map (flatten P)).flatMap
        (collectFingerprints (flat P) (anonymizer.hashValue blake3)) =
          anonymizer.collect P blake3 statements := by
      rw [collect_eq, List.flatMap_map, List.map_flatMap]
      exact List.flatMap_congr fun stmt _ => collectFingerprints_flatten P _ stmt
    simp only [Option.map_some, Option.bind_eq_bind, Option.bind_some, List.isEmpty_map, hnormalized,
      hfingerprints]

end QueryAnonymizer

end ScryProxy
