import ScryProxy.Spec.BackendStream

/-!
# Which errors of a reply are found

A reply is a sequence of complete messages, some of them ErrorResponses with their fields.
`extract_error` skips a message by its length and stops at one that has no payload, such as
ParseComplete or BindComplete.  So it reports the first ErrorResponse of a reply exactly when
that has no text to report or no such message stands before it (`extractError_exact_iff`).
-/

namespace ScryProxy

open Frame (encodeAll)
open Rust (Overflow)

/-! ## Replies -/

/-- A field of an ErrorResponse: its type and its text. -/
structure ErrorField where
  fieldType : UInt8
  text : List UInt8
  type_ne : fieldType ≠ 0
  nul_not_mem : 0 ∉ text

def ErrorField.encode (field : ErrorField) : List UInt8 := field.fieldType :: field.text ++ [0]

/-- ErrorResponse: the fields and a NUL. -/
def errorFrame (fields : List ErrorField) : Frame :=
  ⟨msgErrorResponse, fields.flatMap ErrorField.encode ++ [0]⟩

/-- A complete message of the backend. -/
inductive BackendMessage where
  | error (fields : List ErrorField) (short : (errorFrame fields).len < 2 ^ 31)
  | other (frame : Frame) (tag_ne : frame.tag ≠ msgErrorResponse) (short : frame.len < 2 ^ 31)

namespace BackendMessage

def frame : BackendMessage → Frame
  | error fields _ => errorFrame fields
  | other frame _ _ => frame

theorem frame_short (m : BackendMessage) : m.frame.len < 2 ^ 31 := by
  cases m with
  | error fields short => exact short
  | other frame tag_ne short => exact short

end BackendMessage

/-! ## What should be reported -/

/-- The text of a field, if it has the given type and is UTF-8. -/
def ErrorField.textOf (field : ErrorField) (fieldType : UInt8) : Option Str :=
  if field.fieldType = fieldType then Utf8.decode field.text else none

/-- The text of the field of a type; of several, the last one. -/
def fieldText (fieldType : UInt8) : List ErrorField → Option Str
  | [] => none
  | field :: fields => (fieldText fieldType fields).or (field.textOf fieldType)

/-- Severity and message. -/
def errorText (fields : List ErrorField) : Option Str :=
  match fieldText 'S'.toUInt8 fields, fieldText 'M'.toUInt8 fields with
  | some severity, some message => some (severity ++ ": ".toList ++ message)
  | some text, none | none, some text => some text
  | none, none => none

/-- The text of the first ErrorResponse of a reply. -/
def firstError : List BackendMessage → Option Str
  | [] => none
  | .error fields _ :: _ => errorText fields
  | .other _ _ _ :: ms => firstError ms

/-! ## The fields of an ErrorResponse -/

/-- The loop takes the fields one by one and stops at the NUL behind them. -/
theorem parseErrorLoop_fields {fuel : Nat} {fields : List ErrorField} (hfuel : fields.length ≤ fuel)
    (found : ErrorFields) :
    parseErrorLoop fuel (fields.flatMap ErrorField.encode ++ [0]) found =
      fields.foldl (fun found field => found.set field.fieldType field.text) found := by
  induction fields generalizing fuel found with
  | nil => cases fuel <;> rfl
  | cons field fields ih =>
    obtain ⟨fuel, rfl⟩ := Nat.exists_eq_succ_of_ne_zero (Nat.ne_of_gt (Nat.zero_lt_of_lt hfuel))
    have hbytes : (field :: fields).flatMap ErrorField.encode ++ [0] =
        field.fieldType :: (field.text ++ 0 :: (fields.flatMap ErrorField.encode ++ [0])) := by
      simp [ErrorField.encode]
    -- the text ends at its NUL
    have htext : (field.text ++ 0 :: (fields.flatMap ErrorField.encode ++ [0])).takeWhile (· != 0) =
        field.text := Cstring.takeWhile_append field.nul_not_mem _
    rw [hbytes, parseErrorLoop, if_neg field.type_ne]
    simp only [htext, List.drop_left]
    exact ih (Nat.le_of_succ_le_succ hfuel) _

theorem ErrorFields.set_eq (found : ErrorFields) (field : ErrorField) :
    found.set field.fieldType field.text =
      ⟨(field.textOf 'S'.toUInt8).or found.severity, (field.textOf 'C'.toUInt8).or found.sqlstate,
        (field.textOf 'M'.toUInt8).or found.message⟩ := by
  unfold ErrorFields.set ErrorField.textOf
  cases Utf8.decode field.text with
  | none => simp
  | some value =>
    -- at most one of the three types matches
    by_cases hs : field.fieldType = 'S'.toUInt8
    · rw [hs]
      rfl
    · by_cases hc : field.fieldType = 'C'.toUInt8
      · rw [hc]
        rfl
      · by_cases hm : field.fieldType = 'M'.toUInt8
        · rw [hm]
          rfl
        · simp [hs, hc, hm]

/-- Each kind of text is the last one found. -/
theorem foldl_set_eq (fields : List ErrorField) (found : ErrorFields) :
    fields.foldl (fun found field => found.set field.fieldType field.text) found =
      ⟨(fieldText 'S'.toUInt8 fields).or found.severity,
        (fieldText 'C'.toUInt8 fields).or found.sqlstate,
        (fieldText 'M'.toUInt8 fields).or found.message⟩ := by
  induction fields generalizing found with
  | nil => rfl
  | cons field fields ih =>
    rw [List.foldl_cons, ih, ErrorFields.set_eq]
    simp only [fieldText, Option.or_assoc]

theorem parseErrorFields_errorFrame (fields : List ErrorField) :
    parseErrorFields (errorFrame fields).payload =
      ⟨fieldText 'S'.toUInt8 fields, fieldText 'C'.toUInt8 fields, fieldText 'M'.toUInt8 fields⟩ := by
  have hfuel : fields.length ≤ (fields.flatMap ErrorField.encode ++ [0]).length := by
    induction fields with
    | nil => exact Nat.zero_le _
    | cons field fields ih =>
      simp only [List.flatMap_cons, List.length_append, List.length_cons, ErrorField.encode] at ih ⊢
      omega
  have hloop := parseErrorLoop_fields hfuel {}
  rw [foldl_set_eq] at hloop
  simp only [Option.or_none] at hloop
  exact hloop

/-! ## The scan of a reply -/

/-- What `extract_error` makes of the fields it finds. -/
def ErrorFields.text (fields : ErrorFields) : Option Str :=
  match fields.severity, fields.message with
  | some sev, some msg => some (sev ++ ": ".toList ++ msg)
  | none, some msg => some msg
  | some sev, none => some sev
  | none, none => none

theorem extractError_eq (ov : Overflow) (data : List UInt8) :
    extractError ov data = (findErrorFields ov data).map (·.bind ErrorFields.text) := by
  unfold extractError
  cases findErrorFields ov data with
  | error e => rfl
  | ok found =>
    cases found with
    | none => rfl
    | some fields =>
      show (match fields.severity, fields.message with
        | some sev, some msg => pure (some (sev ++ ": ".toList ++ msg))
        | none, some msg => pure (some msg)
        | some sev, none => pure (some sev)
        | none, none => pure none : Rust (Option Str)) = .ok fields.text
      unfold ErrorFields.text
      cases fields.severity <;> cases fields.message <;> rfl

/-- The messages of a reply before its first ErrorResponse. -/
def beforeError (ms : List BackendMessage) : List BackendMessage :=
  ms.takeWhile fun m => m.frame.tag != msgErrorResponse

theorem text_errorFrame (fields : List ErrorField) :
    (parseErrorFields (errorFrame fields).payload).text = errorText fields := by
  rw [parseErrorFields_errorFrame]
  unfold ErrorFields.text errorText
  cases fieldText 'S'.toUInt8 fields <;> cases fieldText 'M'.toUInt8 fields <;> rfl

/-- The scan reports the first error of a reply, or ends at a message without a payload. -/
theorem scanErrors_exact_iff (ms : List BackendMessage) :
    (scanErrors (.ok none) (ms.map BackendMessage.frame)).map (·.bind ErrorFields.text) =
        .ok (firstError ms) ↔
      firstError ms = none ∨ ∀ m ∈ beforeError ms, m.frame.payload ≠ [] := by
  induction ms with
  | nil => exact iff_of_true rfl (.inl rfl)
  | cons m ms ih =>
    cases m with
    | error fields short =>
      have hscan : scanErrors (.ok none) ((BackendMessage.error fields short :: ms).map
          BackendMessage.frame) = .ok (some (parseErrorFields (errorFrame fields).payload)) := rfl
      have hfront : beforeError (.error fields short :: ms) = [] := rfl
      rw [hscan, hfront]
      refine iff_of_true ?_ (.inr nofun)
      exact congrArg Except.ok (text_errorFrame fields)
    | other f htag short =>
      have hfirst : firstError (.other f htag short :: ms) = firstError ms := rfl
      have hfront : beforeError (.other f htag short :: ms) =
          .other f htag short :: beforeError ms :=
        List.takeWhile_cons_of_pos (by simpa [BackendMessage.frame] using htag)
      have hscan : scanErrors (.ok none) ((BackendMessage.other f htag short :: ms).map
          BackendMessage.frame) = if f.payload = [] then .ok none
            else scanErrors (.ok none) (ms.map BackendMessage.frame) := by
        rw [List.map_cons, BackendMessage.frame, scanErrors, if_neg htag]
      rw [hscan, hfirst, hfront, List.forall_mem_cons]
      by_cases hempty : f.payload = []
      · -- the scan ends here, so there must be no error to report
        rw [if_pos hempty]
        constructor
        · intro hnone
          exact .inl (Except.ok.inj hnone).symm
        · rintro (hnone | ⟨hpayload, -⟩)
          · rw [hnone]
            rfl
          · exact absurd hempty hpayload
      · rw [if_neg hempty, ih]
        simp [BackendMessage.frame, hempty]

/-- `extract_error` reports the first ErrorResponse of a reply, and nothing if that has no text or
    there is none, exactly when it has none or each message before it has a payload. -/
theorem extractError_exact_iff (ov : Overflow) (ms : List BackendMessage) :
    extractError ov (encodeAll (ms.map BackendMessage.frame)) = .ok (firstError ms) ↔
      firstError ms = none ∨ ∀ m ∈ beforeError ms, m.frame.payload ≠ [] := by
  have hshort : ∀ f ∈ ms.map BackendMessage.frame, f.len < 2 ^ 31 := by
    intro f hf
    obtain ⟨m, -, rfl⟩ := List.mem_map.1 hf
    exact m.frame_short
  rw [extractError_eq, findErrorFields_whole ov hshort, scanErrors_exact_iff]

def parseComplete : BackendMessage := .other ⟨'1'.toUInt8, []⟩ (by decide) (by decide)

/-- The reply to a statement that is parsed and then fails to be bound. -/
def failedBind : List BackendMessage :=
  [parseComplete, .error [⟨'S'.toUInt8, asciiBytes "ERROR", by decide, by decide⟩,
    ⟨'C'.toUInt8, asciiBytes "22P02", by decide, by decide⟩,
    ⟨'M'.toUInt8, asciiBytes "invalid input", by decide, by decide⟩] (by decide),
    .other (readyFrame .idle) (by decide) (by decide)]

/-- The scan ends at ParseComplete, and the error behind it is not found. -/
theorem failedBind_unreported :
    firstError failedBind = some "ERROR: invalid input".toList ∧
      ∀ ov, extractError ov (encodeAll (failedBind.map BackendMessage.frame)) = .ok none := by
  refine ⟨by decide +kernel, fun ov => ?_⟩
  cases ov <;> decide +kernel

end ScryProxy
