import ScryProxy.Native.ClientAuth
import ScryProxy.Spec.ErrorsFound

/-!
# The proxy's own errors, read back

The proxy builds ErrorResponses of three fields.  `extract_error` reads one back as its
severity and message and `extract_error_scrubbed` as its severity and SQLSTATE, behind any
complete messages with payloads and before any bytes (`extractErrors_buildErrorResponse`).
-/

namespace ScryProxy

open AuthMessages (errorResponse)
open Frame (encodeAll)
open Rust (Overflow)
open Str (NulFree)

/-! ## The fields -/

/-- The field of a type with a text. -/
def errorField (fieldType : UInt8) (htype : fieldType ≠ 0) {text : Str} (htext : NulFree text) :
    ErrorField :=
  ⟨fieldType, Utf8.encode text, htype, Utf8.zero_notMem_encode htext⟩

theorem textOf_errorField {fieldType : UInt8} (htype : fieldType ≠ 0) {text : Str}
    (htext : NulFree text) (wanted : UInt8) :
    (errorField fieldType htype htext).textOf wanted = if fieldType = wanted then some text else none := by
  unfold ErrorField.textOf
  simp only [errorField, Utf8.decode_encode]

theorem severityType_ne_zero : 'S'.toUInt8 ≠ 0 := by decide

theorem codeType_ne_zero : 'C'.toUInt8 ≠ 0 := by decide

theorem messageType_ne_zero : 'M'.toUInt8 ≠ 0 := by decide

section

variable {severity code message : Str} (hseverity : NulFree severity) (hcode : NulFree code)
  (hmessage : NulFree message)

/-- The fields of an ErrorResponse that the proxy builds. -/
def builtFields : List ErrorField :=
  [errorField 'S'.toUInt8 severityType_ne_zero hseverity,
    errorField 'C'.toUInt8 codeType_ne_zero hcode,
    errorField 'M'.toUInt8 messageType_ne_zero hmessage]

theorem errorFrame_builtFields :
    errorFrame (builtFields hseverity hcode hmessage) = errorResponse severity code message := by
  simp [errorFrame, builtFields, errorField, ErrorField.encode, errorResponse, StartupMessage.cstring,
    msgErrorResponse]

include hseverity hcode hmessage in
theorem parseErrorFields_errorResponse :
    parseErrorFields (errorResponse severity code message).payload =
      ⟨some severity, some code, some message⟩ := by
  -- of each type there is one field, so the first of its type is the text given
  rw [← errorFrame_builtFields hseverity hcode hmessage, parseErrorFields_errorFrame]
  simp only [builtFields, fieldText, textOf_errorField]
  rfl

end

/-! ## The scan -/

/-- Messages with payloads that are not errors are skipped, up to the first error. -/
theorem scanErrors_append_error {before : List Frame}
    (hbefore : ∀ f ∈ before, f.tag ≠ msgErrorResponse ∧ f.payload ≠ []) {error : Frame}
    (herror : error.tag = msgErrorResponse) (tail : Rust (Option ErrorFields)) :
    scanErrors tail (before ++ [error]) = .ok (some (parseErrorFields error.payload)) := by
  induction before with
  | nil => rw [List.nil_append, scanErrors, if_pos herror]
  | cons f before ih =>
    obtain ⟨⟨htag, hpayload⟩, hrest⟩ := List.forall_mem_cons.1 hbefore
    rw [List.cons_append, scanErrors, if_neg htag, if_neg hpayload, ih hrest]

/-- The first error of a stream is found, whatever follows it. -/
theorem findErrorFields_append_error (ov : Overflow) {before : List Frame}
    (hbefore : ∀ f ∈ before, f.tag ≠ msgErrorResponse ∧ f.payload ≠ [] ∧ f.len < 2 ^ 31)
    {error : Frame} (herror : error.tag = msgErrorResponse) (hshort : error.len < 2 ^ 31)
    (after : List UInt8) :
    findErrorFields ov (encodeAll before ++ (error.encode ++ after)) =
      .ok (some (parseErrorFields error.payload)) := by
  have hbytes : encodeAll before ++ (error.encode ++ after) = encodeAll (before ++ [error]) ++ after := by
    simp
  have hlen : ∀ f ∈ before ++ [error], f.len < 2 ^ 31 := by
    intro f hf
    rcases List.mem_append.1 hf with hf | hf
    · exact (hbefore f hf).2.2
    · rw [List.mem_singleton.1 hf]
      exact hshort
  -- a round for each message, and the bytes are more than the messages
  have hfuel : ∃ fuel, (encodeAll (before ++ [error]) ++ after).length =
      (before ++ [error]).length + fuel := by
    apply Nat.exists_eq_add_of_le
    have hle := Frame.length_le_encodeAll (before ++ [error])
    have hlength : (encodeAll (before ++ [error]) ++ after).length =
        (encodeAll (before ++ [error])).length + after.length := List.length_append
    omega
  obtain ⟨fuel, hfuel⟩ := hfuel
  rw [hbytes, findErrorFields, hfuel, findErrorLoop_encodeAll ov hlen]
  exact scanErrors_append_error (fun f hf => ⟨(hbefore f hf).1, (hbefore f hf).2.1⟩) herror _

/-- An ErrorResponse that the proxy builds is found with its three texts. -/
theorem findErrorFields_errorResponse (ov : Overflow) {severity code message : Str}
    (hseverity : NulFree severity) (hcode : NulFree code) (hmessage : NulFree message)
    (hsize : (errorResponse severity code message).len < 2 ^ 31) {before : List Frame}
    (hbefore : ∀ f ∈ before, f.tag ≠ msgErrorResponse ∧ f.payload ≠ [] ∧ f.len < 2 ^ 31)
    (after : List UInt8) :
    findErrorFields ov
        (encodeAll before ++ (AuthMessages.buildErrorResponse severity code message ++ after)) =
      .ok (some ⟨some severity, some code, some message⟩) := by
  have htag : (errorResponse severity code message).tag = msgErrorResponse := rfl
  have hfound := findErrorFields_append_error ov hbefore htag hsize after
  rw [parseErrorFields_errorResponse hseverity hcode hmessage] at hfound
  exact hfound

/-- An ErrorResponse that the proxy builds is read back by its extractor, with and without the
    message. -/
theorem extractErrors_buildErrorResponse (ov : Overflow) {severity code message : Str}
    (hseverity : NulFree severity) (hcode : NulFree code) (hmessage : NulFree message)
    (hsize : (errorResponse severity code message).len < 2 ^ 31) {before : List Frame}
    (hbefore : ∀ f ∈ before, f.tag ≠ msgErrorResponse ∧ f.payload ≠ [] ∧ f.len < 2 ^ 31)
    (after : List UInt8) :
    extractError ov
        (encodeAll before ++ (AuthMessages.buildErrorResponse severity code message ++ after)) =
      .ok (some (severity ++ ": ".toList ++ message)) ∧
    extractErrorScrubbed ov
        (encodeAll before ++ (AuthMessages.buildErrorResponse severity code message ++ after)) =
      .ok (some (severity ++ ": ".toList ++ code)) := by
  have hfound := findErrorFields_errorResponse ov hseverity hcode hmessage hsize hbefore after
  constructor
  · rw [extractError, hfound]
    rfl
  · rw [extractErrorScrubbed, hfound]
    rfl

/-- An error for a login behind an authentication request, with the start of another message after
    it. -/
theorem extractErrors_login :
    extractError .wrapping (encodeAll [⟨msgAuthentication, [0, 0, 0, 3]⟩] ++
        (AuthMessages.buildErrorResponse "FATAL".toList "28P01".toList "no password".toList ++ [90])) =
      .ok (some ("FATAL".toList ++ ": ".toList ++ "no password".toList)) ∧
    extractErrorScrubbed .wrapping (encodeAll [⟨msgAuthentication, [0, 0, 0, 3]⟩] ++
        (AuthMessages.buildErrorResponse "FATAL".toList "28P01".toList "no password".toList ++ [90])) =
      .ok (some ("FATAL".toList ++ ": ".toList ++ "28P01".toList)) :=
  extractErrors_buildErrorResponse .wrapping (by decide) (by decide) (by decide) (by decide)
    (by intro f hf; rw [List.mem_singleton.1 hf]; exact ⟨by decide, by decide, by decide⟩) [90]

end ScryProxy
