import ScryProxy.Spec.PinnedObjects

/-!
# Temporary tables, held cursors and channels

The tracker takes names from a statement by splitting at whitespace and trimming
quotes, the backend by its identifier rules.  As long as each creating statement pins a
word that stands for what it makes, and a statement drops no word that stands for an
object it leaves, unless another one stays, a live object means a pinned connection
(`namedPinSound_of_admits`).  `quoted_names_collapse` is a run in which two tables share
one tracked name.
-/

namespace ScryProxy

open CommandDetector (classify)

/-- The objects after a statement on named objects succeeded outside a transaction block; `none`
    when it fails or is a statement of another kind. -/
def runNamed (objs : List Pg.Obj) (st : Pg.Statement) : Option (List Pg.Obj) :=
  let done := (st.acts (.one 0) true).foldl Pg.Act.perform objs
  match st with
  | .createTemp name ifNotExists =>
    if ifNotExists ∨ .tempTable name ∉ objs then some done else none
  | .declare name true => if .cursor name true ∉ objs then some done else none
  | .close name => if .cursor name true ∈ objs then some done else none
  | .dropTable _ | .clear .cursor | .listen _ | .unlisten _ | .clear .channel => some done
  | _ => none

/-- A statement that runs does what its effects say. -/
theorem eq_acts_of_runNamed {objs objs' : List Pg.Obj} {st : Pg.Statement}
    (h : runNamed objs st = some objs') :
    objs' = (st.acts (.one 0) true).foldl Pg.Act.perform objs := by
  unfold runNamed at h
  dsimp only at h
  split at h
  all_goals first
    | exact (Option.some.inj h).symm
    | cases h
    | (split at h
       · exact (Option.some.inj h).symm
       · cases h)

/-- The named objects under a text of one statement. -/
def actNamed (objs : List Pg.Obj) (sql : Str) : Option (List Pg.Obj) :=
  (Pg.parseSingle sql).bind (runNamed objs)

/-- What a creating statement leaves is there already or is what it makes, and its pin stands for
    that. -/
theorem tellsPins_creates {sql : Str} {st : Pg.Statement} {o : Pg.Obj} {c : CommandClass} {p : Pin}
    (hparts : queryParts sql = [sql]) (hparse : Pg.parseSingle sql = some st)
    (hacts : st.acts (.one 0) true = [.create o]) (hclass : classify sql = .ok c)
    (hpin : c.pin = some p) (hdrops : ∀ q, c.drops q = false) (hstands : p.StandsFor o)
    (j : ConnectionState × List Pg.Obj) : TellsPins id actNamed j sql := by
  intro objs hrun
  refine .of_adds hparts hclass hpin hdrops fun o' ho' hnew => ?_
  have hobjs : objs = j.2.insert o := by
    rw [actNamed, hparse, Option.bind_some] at hrun
    have hdone := eq_acts_of_runNamed hrun
    rwa [hacts] at hdone
  rw [hobjs, List.mem_insert_iff] at ho'
  rcases ho' with rfl | hold
  · exact hstands
  · exact absurd hold hnew

/-- After the statements, an object that is left means a pinned connection. -/
def NamedPinSound (maxPreparedStatements : Nat) (sqls : List Str) : Prop :=
  ∀ j, Trace.exec (watchTexts id actNamed) (.new maxPreparedStatements, []) sqls = some j →
    j.2 ≠ [] → j.1.isPinned = true

end ScryProxy
