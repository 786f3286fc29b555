import Mathlib.Logic.Function.Basic
import ScryProxy.Native.ParamRedaction

/-!
# What redacted parameters reveal

The shape of a parameter is its type, and the shapes of its parts.  Each shape has one
blank value, and `redact_param` replaces a value by the blank value of its shape: so it
reveals the shape, and nothing else.

## Key results

- `redactParam_eq_blank`: redaction goes through the shape
- `redactParam_eq_iff`: two values look the same after redaction exactly if they have one shape
- `redaction_reveals_shape`: the events of two executions with parameters of the same shapes
-/

namespace ScryProxy

/-! ## Shapes -/

/-- The types of values that have no parts. -/
inductive ScalarKind where
  | null
  | bool
  | int16
  | int32
  | int64
  | float32
  | float64
  | numeric
  | text
  | json
  | uuid
  | bytes
  | date
  | time
  | timestamp
  | timestampTz
  | interval
  deriving DecidableEq, Repr

inductive ParamShape where
  | scalar (kind : ScalarKind)
  | array (elements : List ParamShape) (dimensions : List Int)
  | range (lower upper : Option ParamShape) (lowerInc upperInc : Bool)
  | composite (fields : List ParamShape)
  | unknown (oid : Nat)
  deriving Repr

namespace ParamValue

mutual

def shape : ParamValue → ParamShape
  | .null => .scalar .null
  | .bool _ => .scalar .bool
  | .int16 _ => .scalar .int16
  | .int32 _ => .scalar .int32
  | .int64 _ => .scalar .int64
  | .float32 _ => .scalar .float32
  | .float64 _ => .scalar .float64
  | .numeric _ => .scalar .numeric
  | .text _ => .scalar .text
  | .json _ => .scalar .json
  | .uuid _ => .scalar .uuid
  | .bytes _ => .scalar .bytes
  | .date _ => .scalar .date
  | .time _ => .scalar .time
  | .timestamp _ => .scalar .timestamp
  | .timestampTz _ => .scalar .timestampTz
  | .interval _ _ _ => .scalar .interval
  | .array elements dimensions => .array (shapes elements) dimensions
  | .range lower upper lowerInc upperInc => .range (boundShape lower) (boundShape upper) lowerInc upperInc
  | .composite fields => .composite (shapes fields)
  | .unknown oid _ => .unknown oid

def shapes : List ParamValue → List ParamShape
  | [] => []
  | p :: ps => shape p :: shapes ps

def boundShape : Option ParamValue → Option ParamShape
  | none => none
  | some p => some (shape p)

end

/-- Same variants, nesting, element counts, dimensions, range flags and OIDs. -/
def SameShape (p q : ParamValue) : Prop := p.shape = q.shape

end ParamValue

/-! ## Blank values -/

namespace ParamShape

def blankScalar : ScalarKind → ParamValue
  | .null => .null
  | .bool => .bool false
  | .int16 => .int16 0
  | .int32 => .int32 0
  | .int64 => .int64 0
  | .float32 => .float32 0
  | .float64 => .float64 0
  | .numeric => .numeric []
  | .text => .text []
  | .json => .json []
  | .uuid => .uuid (List.replicate 16 0)
  | .bytes => .bytes []
  | .date => .date 0
  | .time => .time 0
  | .timestamp => .timestamp 0
  | .timestampTz => .timestampTz 0
  | .interval => .interval 0 0 0

mutual

/-- The value of a shape that says nothing else. -/
def blank : ParamShape → ParamValue
  | .scalar kind => blankScalar kind
  | .array elements dimensions => .array (blanks elements) dimensions
  | .range lower upper lowerInc upperInc => .range (blankBound lower) (blankBound upper) lowerInc upperInc
  | .composite fields => .composite (blanks fields)
  | .unknown oid => .unknown oid []

def blanks : List ParamShape → List ParamValue
  | [] => []
  | s :: ss => blank s :: blanks ss

def blankBound : Option ParamShape → Option ParamValue
  | none => none
  | some s => some (blank s)

end

open ParamValue (shape shapes boundShape)

mutual

/-- A blank value has the shape it is blank of. -/
theorem shape_blank : ∀ s : ParamShape, shape (blank s) = s
  | .scalar kind => by cases kind <;> rfl
  | .array elements dimensions => by rw [blank, shape, shapes_blanks elements]
  | .range lower upper lowerInc upperInc => by
    rw [blank, shape, boundShape_blankBound lower, boundShape_blankBound upper]
  | .composite fields => by rw [blank, shape, shapes_blanks fields]
  | .unknown oid => rfl

theorem shapes_blanks : ∀ ss : List ParamShape, shapes (blanks ss) = ss
  | [] => rfl
  | s :: ss => by rw [blanks, shapes, shape_blank s, shapes_blanks ss]

theorem boundShape_blankBound : ∀ bound : Option ParamShape, boundShape (blankBound bound) = bound
  | none => rfl
  | some s => by rw [blankBound, boundShape, shape_blank s]

end

theorem blank_injective : Function.Injective blank :=
  Function.LeftInverse.injective (g := shape) shape_blank

end ParamShape

/-! ## Redaction -/

open ParamValue ParamShape

mutual

/-- Redaction forgets everything but the shape. -/
theorem redactParam_eq_blank : ∀ p : ParamValue, redactParam p = blank (shape p)
  | .null | .bool _ | .int16 _ | .int32 _ | .int64 _ | .float32 _ | .float64 _ | .numeric _ | .text _
  | .json _ | .uuid _ | .bytes _ | .date _ | .time _ | .timestamp _ | .timestampTz _
  | .interval _ _ _ | .unknown _ _ => rfl
  | .array elements dimensions => by rw [redactParam, shape, blank, redactElements_eq_blanks elements]
  | .range lower upper lowerInc upperInc => by
    rw [redactParam, shape, blank, redactBound_eq_blankBound lower, redactBound_eq_blankBound upper]
  | .composite fields => by rw [redactParam, shape, blank, redactElements_eq_blanks fields]

theorem redactElements_eq_blanks : ∀ ps : List ParamValue, redactElements ps = blanks (shapes ps)
  | [] => rfl
  | p :: ps => by rw [redactElements, shapes, blanks, redactParam_eq_blank p, redactElements_eq_blanks ps]

theorem redactBound_eq_blankBound :
    ∀ bound : Option ParamValue, redactBound bound = blankBound (boundShape bound)
  | none => rfl
  | some p => by rw [redactBound, boundShape, blankBound, redactParam_eq_blank p]

end

theorem redactParam_eq_iff (p q : ParamValue) : redactParam p = redactParam q ↔ SameShape p q := by
  rw [redactParam_eq_blank, redactParam_eq_blank, blank_injective.eq_iff]
  rfl

theorem sameShape_redactParam (p : ParamValue) : SameShape (redactParam p) p := by
  rw [SameShape, redactParam_eq_blank, shape_blank]

theorem redactParam_redactParam (p : ParamValue) : redactParam (redactParam p) = redactParam p :=
  (redactParam_eq_iff _ _).2 (sameShape_redactParam p)

/-- Parameter lists are redacted element by element. -/
theorem map_redactParam_of_sameShape {ps qs : List ParamValue} (h : List.Forall₂ SameShape ps qs) :
    ps.map redactParam = qs.map redactParam := by
  induction h with
  | nil => rfl
  | cons hpq _ ih => rw [List.map_cons, List.map_cons, (redactParam_eq_iff _ _).2 hpq, ih]

/-! ## Events -/

/-- The execution that an effect of the relay settles. -/
def Effect.settled : Effect → Option PendingExecution
  | .queryFailed pending _ _ => some pending
  | .queryCompleted pending => some pending
  | _ => none

namespace AnonymizationSettings

variable {settings : AnonymizationSettings} {P : SqlParser}
  {parseF32 : Str → Option UInt32} {parseF64 : Str → Option UInt64}

theorem params_buildParamEvent {query : Str} {params : List ParamValue} {paramsIncomplete success : Bool}
    {error : Option Str} {e : ParamEvent}
    (h : settings.buildParamEvent P query params paramsIncomplete success error = some e) :
    e.params = settings.redactParams params := by
  obtain ⟨event, -, rfl⟩ := Option.map_eq_some_iff.1 h
  rfl

/-- Without the parameters, the events are those of `eventsOf`. -/
theorem event_paramEventsOf {effect : Effect}
    (hdecode : ∀ pending, effect.settled = some pending →
      ∃ params, pending.params.decode parseF32 parseF64 = .ok params) :
    (settings.paramEventsOf P parseF32 parseF64 effect).map (List.map ParamEvent.event) =
      settings.eventsOf P effect := by
  cases effect with
  | queryFailed pending data fullError =>
    obtain ⟨params, hparams⟩ := hdecode pending rfl
    simp only [paramEventsOf, eventsOf, hparams, Rust.ok_bind]
    cases settings.errorField data fullError with
    | error failure => rfl
    | ok error =>
      simp only [Rust.ok_bind, Rust.pure_eq_ok, Except.map, buildParamEvent]
      cases settings.buildEvent P pending.query pending.paramsIncomplete false error <;> rfl
  | queryCompleted pending =>
    obtain ⟨params, hparams⟩ := hdecode pending rfl
    simp only [paramEventsOf, eventsOf, successEvents, hparams, Rust.ok_bind, Rust.pure_eq_ok, Except.map,
      List.map_filterMap]
    congr 2
    funext statement
    simp [buildParamEvent, Option.map_map, Function.comp_def]
  | toClient _ | toBackend _ | applied _ | released _ | reacquired _ => rfl

/-- Every event of an effect carries the redacted parameters of the execution it settles. -/
theorem params_paramEventsOf {effect : Effect} {events : List ParamEvent}
    (h : settings.paramEventsOf P parseF32 parseF64 effect = .ok events) {e : ParamEvent}
    (he : e ∈ events) {pending : PendingExecution} (hsettled : effect.settled = some pending)
    {params : List ParamValue} (hparams : pending.params.decode parseF32 parseF64 = .ok params) :
    e.params = settings.redactParams params := by
  cases effect with
  | queryFailed pending' data fullError =>
    obtain rfl : pending' = pending := Option.some.inj hsettled
    simp only [paramEventsOf, hparams, Rust.ok_bind] at h
    obtain ⟨error, -, h⟩ := Rust.bind_returns.1 h
    obtain rfl := Except.ok.inj h
    exact params_buildParamEvent (Option.mem_toList.1 he)
  | queryCompleted pending' =>
    obtain rfl : pending' = pending := Option.some.inj hsettled
    simp only [paramEventsOf, hparams, Rust.ok_bind] at h
    obtain rfl := Except.ok.inj h
    obtain ⟨statement, -, hbuild⟩ := List.mem_filterMap.1 he
    exact params_buildParamEvent hbuild
  | toClient _ | toBackend _ | applied _ | released _ | reacquired _ => cases hsettled

theorem redactParams_eq_of_sameShape {settings₁ settings₂ : AnonymizationSettings}
    (h₁ : settings₁.enabled = true) (h₂ : settings₂.enabled = true) {ps qs : List ParamValue}
    (h : List.Forall₂ SameShape ps qs) : settings₁.redactParams ps = settings₂.redactParams qs := by
  simp only [redactParams, h₁, h₂, Bool.not_true, Bool.false_eq_true, if_false]
  exact map_redactParam_of_sameShape h

end AnonymizationSettings

/-- Redaction reveals the shape of a parameter and nothing else, and with anonymization on that is all
    that the events of an execution say about its parameters. -/
theorem redaction_reveals_shape :
    (∀ p q : ParamValue, SameShape p q → redactParam p = redactParam q) ∧
      (∀ p : ParamValue, SameShape (redactParam p) p) ∧
      (∀ p : ParamValue, redactParam (redactParam p) = redactParam p) ∧
      ∀ (settings₁ settings₂ : AnonymizationSettings) (P₁ P₂ : SqlParser)
        (parseF32 : Str → Option UInt32) (parseF64 : Str → Option UInt64)
        (effect₁ effect₂ : Effect) (pending₁ pending₂ : PendingExecution)
        (params₁ params₂ : List ParamValue) (events₁ events₂ : List ParamEvent),
        settings₁.enabled = true → settings₂.enabled = true →
        effect₁.settled = some pending₁ → effect₂.settled = some pending₂ →
        pending₁.params.decode parseF32 parseF64 = .ok params₁ →
        pending₂.params.decode parseF32 parseF64 = .ok params₂ →
        List.Forall₂ SameShape params₁ params₂ →
        settings₁.paramEventsOf P₁ parseF32 parseF64 effect₁ = .ok events₁ →
        settings₂.paramEventsOf P₂ parseF32 parseF64 effect₂ = .ok events₂ →
        ∀ e₁ ∈ events₁, ∀ e₂ ∈ events₂, e₁.params = e₂.params := by
  refine ⟨fun p q => (redactParam_eq_iff p q).2, sameShape_redactParam, redactParam_redactParam, ?_⟩
  intro settings₁ settings₂ P₁ P₂ parseF32 parseF64 effect₁ effect₂ pending₁ pending₂ params₁ params₂
    events₁ events₂ h₁ h₂ hsettled₁ hsettled₂ hparams₁ hparams₂ hshape hevents₁ hevents₂ e₁ he₁ e₂ he₂
  rw [AnonymizationSettings.params_paramEventsOf hevents₁ he₁ hsettled₁ hparams₁,
    AnonymizationSettings.params_paramEventsOf hevents₂ he₂ hsettled₂ hparams₂]
  exact AnonymizationSettings.redactParams_eq_of_sameShape h₁ h₂ hshape

/-- The execution of a lookup by name. -/
def lookupByName (name : Str) : PendingExecution :=
  ⟨"SELECT $1".toList, .typed [some (Utf8.encode name)] [] [Oid.text], false⟩

/-- Its events, with a parser that takes no text. -/
def lookupEvents (name : Str) : Rust (List ParamEvent) :=
  AnonymizationSettings.paramEventsOf ⟨true, id, .redact⟩ ⟨Unit, fun _ => none, fun _ => []⟩
    (fun _ => none) (fun _ => none) (.queryCompleted (lookupByName name))

/-- A lookup of `alice` and one of `bob`: their events have the same parameters. -/
theorem redaction_hides_names :
    redactParam (.array [.text "alice".toList, .null] [2]) =
        redactParam (.array [.text "bob".toList, .null] [2]) ∧
      ∃ e₁ e₂, lookupEvents "alice".toList = .ok [e₁] ∧ lookupEvents "bob".toList = .ok [e₂] ∧
        e₁.params = e₂.params := by
  have hevents : ∃ event, lookupEvents "alice".toList = .ok [event] ∧
      lookupEvents "bob".toList = .ok [event] :=
    ⟨⟨⟨redactedQuery, some redactedQuery, [], false, true, none⟩, [.text []]⟩, rfl, rfl⟩
  obtain ⟨event, halice, hbob⟩ := hevents
  refine ⟨redaction_reveals_shape.1 _ _ rfl, event, event, halice, hbob, ?_⟩
  exact redaction_reveals_shape.2.2.2 ⟨true, id, .redact⟩ ⟨true, id, .redact⟩ _ _ _ _ _ _
    (lookupByName "alice".toList) (lookupByName "bob".toList) [.text "alice".toList] [.text "bob".toList]
    _ _ rfl rfl rfl rfl rfl rfl (.cons rfl .nil) halice hbob
    event (List.mem_singleton_self _) event (List.mem_singleton_self _)

end ScryProxy
