import Mathlib.Data.List.Basic

/-!
# Walks over a syntax tree

A tree whose nodes are expressions or not, with values at the expressions that hold one.
`visit` and `visitMut` are the two walks that a parser library derives for its trees: a node
comes before its children, a visitor is shown the expressions only, and `visit` ends where
the visitor breaks off.  Both walks see the same expressions in the same order
(`visit_eq_foldlM`, `exprs_visitMut`).  A tree is its shape and the list of its values
(`refill_shape`).
-/

inductive SyntaxTree (Tag V : Type) where
  /-- an expression that is a value -/
  | value (v : V)
  /-- any other expression -/
  | expr (tag : Tag) (children : List (SyntaxTree Tag V))
  /-- a node that is no expression -/
  | other (tag : Tag) (children : List (SyntaxTree Tag V))

namespace SyntaxTree

variable {Tag V W σ : Type}

/-! ## The walks -/

mutual

/-- Shows each expression to the visitor, which goes on with `ok` or breaks off with `error`. -/
def visit (pre : SyntaxTree Tag V → σ → Except σ σ) : SyntaxTree Tag V → σ → Except σ σ
  | value v, s => pre (value v) s
  | expr tag children, s => do visitAll pre children (← pre (expr tag children) s)
  | other _ children, s => visitAll pre children s

def visitAll (pre : SyntaxTree Tag V → σ → Except σ σ) : List (SyntaxTree Tag V) → σ → Except σ σ
  | [], s => .ok s
  | t :: ts, s => do visitAll pre ts (← t.visit pre s)

end

mutual

/-- Replaces values in place, as a visitor does that leaves every other expression as it is; a value
    has no expressions inside it. -/
def visitMut (replace : V → W) : SyntaxTree Tag V → SyntaxTree Tag W
  | value v => value (replace v)
  | expr tag children => expr tag (visitMutAll replace children)
  | other tag children => other tag (visitMutAll replace children)

def visitMutAll (replace : V → W) : List (SyntaxTree Tag V) → List (SyntaxTree Tag W)
  | [] => []
  | t :: ts => t.visitMut replace :: visitMutAll replace ts

end

/-- What the visitor holds after a walk, whether it broke off or not. -/
def visitor : Except σ σ → σ
  | .ok s => s
  | .error s => s

/-! ## What the walks see -/

mutual

/-- The expressions of a tree, each before those inside it. -/
def exprs : SyntaxTree Tag V → List (SyntaxTree Tag V)
  | value v => [value v]
  | expr tag children => expr tag children :: exprsAll children
  | other _ children => exprsAll children

def exprsAll : List (SyntaxTree Tag V) → List (SyntaxTree Tag V)
  | [] => []
  | t :: ts => t.exprs ++ exprsAll ts

end

/-- The value of an expression that is one. -/
def value? : SyntaxTree Tag V → Option V
  | value v => some v
  | expr _ _ => none
  | other _ _ => none

/-- The values of a tree, in the order of the walks. -/
def values (t : SyntaxTree Tag V) : List V := t.exprs.filterMap value?

mutual

theorem visit_eq_foldlM (pre : SyntaxTree Tag V → σ → Except σ σ) :
    ∀ (t : SyntaxTree Tag V) (s : σ), t.visit pre s = t.exprs.foldlM (fun s e => pre e s) s
  | value v, s => by rw [visit, exprs, List.foldlM_cons]; exact (bind_pure _).symm
  | expr tag children, s => by
    rw [visit, exprs, List.foldlM_cons]
    exact congrArg _ (funext (visitAll_eq_foldlM pre children))
  | other tag children, s => by rw [visit, exprs, visitAll_eq_foldlM pre children s]

theorem visitAll_eq_foldlM (pre : SyntaxTree Tag V → σ → Except σ σ) :
    ∀ (ts : List (SyntaxTree Tag V)) (s : σ),
      visitAll pre ts s = (exprsAll ts).foldlM (fun s e => pre e s) s
  | [], s => rfl
  | t :: ts, s => by
    rw [visitAll, exprsAll, List.foldlM_append, visit_eq_foldlM pre t s]
    exact congrArg _ (funext (visitAll_eq_foldlM pre ts))

end

mutual

/-- The expressions of the result are those of the tree, with their values replaced. -/
theorem exprs_visitMut (replace : V → W) :
    ∀ t : SyntaxTree Tag V, (t.visitMut replace).exprs = t.exprs.map (visitMut replace)
  | value v => rfl
  | expr tag children => by
    rw [visitMut, exprs, exprs, exprsAll_visitMutAll replace children, List.map_cons, visitMut]
  | other tag children => by rw [visitMut, exprs, exprs, exprsAll_visitMutAll replace children]

theorem exprsAll_visitMutAll (replace : V → W) :
    ∀ ts : List (SyntaxTree Tag V),
      exprsAll (visitMutAll replace ts) = (exprsAll ts).map (visitMut replace)
  | [] => rfl
  | t :: ts => by
    rw [visitMutAll, exprsAll, exprsAll, exprs_visitMut replace t, exprsAll_visitMutAll replace ts,
      List.map_append]

end

theorem value?_visitMut (replace : V → W) (t : SyntaxTree Tag V) :
    (t.visitMut replace).value? = t.value?.map replace := by
  cases t <;> simp [visitMut, value?]

theorem values_visitMut (replace : V → W) (t : SyntaxTree Tag V) :
    (t.visitMut replace).values = t.values.map replace := by
  rw [values, values, exprs_visitMut, List.filterMap_map, List.map_filterMap]
  exact List.filterMap_congr fun e _ => value?_visitMut replace e

/-! ## Shape and values -/

/-- The tree without its values. -/
def shape (t : SyntaxTree Tag V) : SyntaxTree Tag Unit := t.visitMut fun _ => ()

mutual

/-- Puts values into a shape, from the front of a list; what is left of the list. -/
def refill (default : V) : SyntaxTree Tag Unit → List V → SyntaxTree Tag V × List V
  | value _, vs => (value (vs.headD default), vs.tail)
  | expr tag children, vs =>
    let (children, vs) := refillAll default children vs
    (expr tag children, vs)
  | other tag children, vs =>
    let (children, vs) := refillAll default children vs
    (other tag children, vs)

def refillAll (default : V) : List (SyntaxTree Tag Unit) → List V → List (SyntaxTree Tag V) × List V
  | [], vs => ([], vs)
  | t :: ts, vs =>
    let (t, vs) := t.refill default vs
    let (ts, vs) := refillAll default ts vs
    (t :: ts, vs)

end

mutual

theorem refill_append (default : V) :
    ∀ (t : SyntaxTree Tag V) (vs : List V), t.shape.refill default (t.values ++ vs) = (t, vs)
  | value v, vs => rfl
  | expr tag children, vs => by
    -- the node itself has no value
    have hvalues : (expr tag children).values = (exprsAll children).filterMap value? := by
      rw [values, exprs, List.filterMap_cons_none rfl]
    rw [hvalues, shape, visitMut, refill, refillAll_append default children vs]
  | other tag children, vs => by
    rw [values, exprs, shape, visitMut, refill, refillAll_append default children vs]

theorem refillAll_append (default : V) :
    ∀ (ts : List (SyntaxTree Tag V)) (vs : List V),
      refillAll default (visitMutAll (fun _ => ()) ts) ((exprsAll ts).filterMap value? ++ vs) = (ts, vs)
  | [], vs => rfl
  | t :: ts, vs => by
    have hfirst := refill_append default t ((exprsAll ts).filterMap value? ++ vs)
    rw [shape, values] at hfirst
    rw [exprsAll, List.filterMap_append, List.append_assoc, visitMutAll, refillAll, hfirst]
    simp only [refillAll_append default ts vs]

end

/-- A tree is what its shape and its values make. -/
theorem refill_shape (default : V) (t : SyntaxTree Tag V) :
    (t.shape.refill default t.values).1 = t := by
  have hfill := refill_append default t []
  rw [List.append_nil] at hfill
  rw [hfill]

mutual

theorem visitMut_visitMut {X : Type} (f : V → W) (g : W → X) :
    ∀ t : SyntaxTree Tag V, (t.visitMut f).visitMut g = t.visitMut (g ∘ f)
  | value v => rfl
  | expr tag children => by rw [visitMut, visitMut, visitMut, visitMutAll_visitMutAll f g children]
  | other tag children => by rw [visitMut, visitMut, visitMut, visitMutAll_visitMutAll f g children]

theorem visitMutAll_visitMutAll {X : Type} (f : V → W) (g : W → X) :
    ∀ ts : List (SyntaxTree Tag V), visitMutAll g (visitMutAll f ts) = visitMutAll (g ∘ f) ts
  | [] => rfl
  | t :: ts => by
    rw [visitMutAll, visitMutAll, visitMutAll, visitMut_visitMut f g t, visitMutAll_visitMutAll f g ts]

end

/-- Replacing values leaves the shape. -/
theorem shape_visitMut (replace : V → W) (t : SyntaxTree Tag V) :
    (t.visitMut replace).shape = t.shape :=
  visitMut_visitMut replace (fun _ => ()) t

end SyntaxTree
