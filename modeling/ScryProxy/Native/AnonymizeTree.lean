import ScryProxy.ForStd.SyntaxTree
import ScryProxy.Native.Anonymize

/-!
# The visitors of the anonymizer

Model of `protocol/anonymize.rs` over whole syntax trees, with its three visitors.  Assumed of
`sqlparser` is what `SyntaxTree` says: both walks show a visitor the same expressions in the
same order, and a value has no expressions inside it.  BLAKE3, with its digest in hex, is a
parameter.
-/

namespace ScryProxy

/-- A syntax tree of `sqlparser`; a tag is everything that a node holds besides its children. -/
abbrev SqlTree (Tag : Type) := SyntaxTree Tag SqlValue

/-- The parser with the Postgres dialect, and the printer of its trees. -/
structure SqlTreeParser where
  Tag : Type
  parseSql : Str → Option (List (SqlTree Tag))
  display : SqlTree Tag → Str

/-- `QueryAnonymizer`. -/
structure QueryAnonymizer where
  salt : List UInt8
  deriving DecidableEq, Repr

namespace QueryAnonymizer

/-- `new`. -/
def new : QueryAnonymizer := ⟨Utf8.encode "scry-default-salt".toList⟩

/-- `ValueCollector::hash_value`. -/
def hashValue (anonymizer : QueryAnonymizer) (blake3 : List UInt8 → Str) (value : Str) : Str :=
  blake3 (anonymizer.salt ++ Utf8.encode value)

section

variable {Tag : Type}

/-- `pre_visit_expr` of `ValueCollector`, with the fingerprints so far. -/
def collectValue (anonymizer : QueryAnonymizer) (blake3 : List UInt8 → Str) (expr : SqlTree Tag)
    (fingerprints : List Str) : Except (List Str) (List Str) :=
  match expr with
  | .value v =>
    match fingerprintText v with
    | some text => .ok (fingerprints ++ [anonymizer.hashValue blake3 text])
    | none => .ok fingerprints
  | _ => .ok fingerprints

/-- What `pre_visit_expr` of `ValueReplacer` makes of an `Expr::Value`. -/
def replaceLiteral (v : SqlValue) : SqlValue := if isSensitiveLiteral v then .placeholder ['?'] else v

/-- `pre_visit_expr` of `ResidualLiteralDetector`. -/
def detectResidual (expr : SqlTree Tag) (foundLiteral : Bool) : Except Bool Bool :=
  match expr with
  | .value v => if isSensitiveLiteral v then .error true else .ok foundLiteral
  | _ => .ok foundLiteral

end

variable (P : SqlTreeParser)

/-- `normalize_statement`. -/
def normalizeStatement (stmt : SqlTree P.Tag) : Option Str :=
  let normalized := stmt.visitMut replaceLiteral
  let foundLiteral := SyntaxTree.visitor (normalized.visit detectResidual false)
  if foundLiteral then none else some (P.display normalized)

/-- `normalize_statements`. -/
def normalizeStatements (statements : List (SqlTree P.Tag)) : Option Str :=
  (statements.mapM (normalizeStatement P)).map (List.intercalate "; ".toList)

/-- The fingerprints that one `ValueCollector` holds after the statements. -/
def collect (anonymizer : QueryAnonymizer) (blake3 : List UInt8 → Str)
    (statements : List (SqlTree P.Tag)) : List Str :=
  statements.foldl
    (fun fingerprints stmt =>
      SyntaxTree.visitor (stmt.visit (anonymizer.collectValue blake3) fingerprints)) []

/-- `anonymize`. -/
def anonymize (anonymizer : QueryAnonymizer) (blake3 : List UInt8 → Str) (query : Str) :
    Option AnonymizedQuery := do
  let statements ← P.parseSql query
  if statements.isEmpty then none
  else
    let fingerprints := anonymizer.collect P blake3 statements
    let normalized ← normalizeStatements P statements
    return ⟨normalized, fingerprints⟩

end QueryAnonymizer

end ScryProxy
