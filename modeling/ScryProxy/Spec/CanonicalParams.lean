import ScryProxy.ForStd.Hex
import ScryProxy.Spec.ParamPanics

/-!
# Canonical texts of parameters

A driver that sends a parameter in text format writes its canonical text: the digits of an
integer, `\x` and the hex digits of a bytea, the hyphenated form of a UUID.  `decode_params`
reads each of them as the value it was written for, at any position and under every way to
give the format codes (`decodeParams_canonical`).
-/

namespace ScryProxy

open Str (byteLen)

/-! ## Canonical texts -/

/-- A value that is sent by its canonical text; hex digits are in lower or upper case. -/
inductive CanonicalParam where
  | int2 (n : Int16)
  | int4 (n : Int32)
  | int8 (n : Int64)
  | bytea (upper : Bool) (bytes : List UInt8)
  | uuid (upper : Bool) (bytes : Vector UInt8 16)
  deriving DecidableEq

namespace CanonicalParam

def oid : CanonicalParam → Nat
  | int2 _ => Oid.int2
  | int4 _ => Oid.int4
  | int8 _ => Oid.int8
  | bytea _ _ => Oid.bytea
  | uuid _ _ => Oid.uuid

def text : CanonicalParam → Str
  | int2 n => Str.ofInt n.toInt
  | int4 n => Str.ofInt n.toInt
  | int8 n => Str.ofInt n.toInt
  | bytea upper bytes => "\\x".toList ++ Hex.encode upper bytes
  | uuid upper bytes => Hex.hyphenated upper bytes.toList

def value : CanonicalParam → ParamValue
  | int2 n => .int16 n.toInt
  | int4 n => .int32 n.toInt
  | int8 n => .int64 n.toInt
  | bytea _ bytes => .bytes bytes
  | uuid _ bytes => .uuid bytes.toList

end CanonicalParam

/-! ## Hex digits -/

/-- The loop reads a byte from each pair of digits. -/
theorem decodeHexLoop_encode (upper : Bool) (front : Str) (bytes : List UInt8) :
    decodeHexLoop (front ++ Hex.encode upper bytes) bytes.length (byteLen front) = .ok (some bytes) := by
  -- the loop slices the whole text at an offset, so the digits already read stay in front
  induction bytes generalizing front with
  | nil => rfl
  | cons b bytes ih =>
    have hslice := Str.slice_append front (Hex.byte upper b) (Hex.encode upper bytes)
    have hrest := ih (front ++ Hex.byte upper b)
    rw [List.append_assoc, Str.byteLen_append, Hex.byteLen_byte] at hrest
    rw [Hex.byteLen_byte] at hslice
    simp only [Hex.encode_cons, List.length_cons, decodeHexLoop, hslice, Rust.ok_bind,
      Hex.parseU8Hex_byte, hrest]
    rfl

theorem decodeHex_encode (upper : Bool) (bytes : List UInt8) :
    decodeHex (Hex.encode upper bytes) = .ok (some bytes) := by
  have hsteps : (byteLen (Hex.encode upper bytes) + 1) / 2 = bytes.length := by
    rw [Hex.byteLen_encode]
    omega
  rw [decodeHex, hsteps]
  exact decodeHexLoop_encode upper [] bytes

theorem decodeByteaText_encode (upper : Bool) (bytes : List UInt8) :
    decodeByteaText ("\\x".toList ++ Hex.encode upper bytes) = .ok (.bytes bytes) := by
  rw [decodeByteaText, Str.stripPrefix_append]
  simp only [decodeHex_encode]
  rfl

/-- The pair of digits at an even offset is that of a byte. -/
theorem slice_encode (upper : Bool) {bytes : List UInt8} {i : Nat} (h : i < bytes.length) :
    Str.slice (Hex.encode upper bytes) (i * 2) (i * 2 + 2) = .ok (Hex.byte upper bytes[i]) := by
  have hsplit : Hex.encode upper bytes = Hex.encode upper (bytes.take i) ++
      (Hex.byte upper bytes[i] ++ Hex.encode upper (bytes.drop (i + 1))) := by
    rw [← Hex.encode_cons, ← Hex.encode_append, List.getElem_cons_drop, List.take_append_drop]
  have hfront : byteLen (Hex.encode upper (bytes.take i)) = i * 2 := by
    rw [Hex.byteLen_encode, List.length_take]
    omega
  have hslice := Str.slice_append (Hex.encode upper (bytes.take i)) (Hex.byte upper bytes[i])
    (Hex.encode upper (bytes.drop (i + 1)))
  rw [← hsplit, hfront, Hex.byteLen_byte] at hslice
  exact hslice

theorem decodeUuidText_hyphenated (upper : Bool) {bytes : List UInt8} (hlen : bytes.length = 16) :
    decodeUuidText (Hex.hyphenated upper bytes) = .ok (.uuid bytes) := by
  have hdigits : byteLen (Hex.encode upper bytes) = 32 := by rw [Hex.byteLen_encode, hlen]
  have hbytes : (List.range 16).mapM (fun i => do
      return (Str.parseU8Hex (← Str.slice (Hex.encode upper bytes) (i * 2) (i * 2 + 2))).getD 0) =
        (.ok ((List.range 16).map fun i => (bytes[i]?).getD 0) : Rust (List UInt8)) := by
    -- no pair of digits is refused, so the default of the source is never taken
    apply Rust.mapM_eq_ok
    intro i hi
    have hi : i < bytes.length := hlen ▸ List.mem_range.1 hi
    rw [slice_encode upper hi, Rust.ok_bind, Hex.parseU8Hex_byte, List.getElem?_eq_getElem hi]
    rfl
  have hall : (List.range 16).map (fun i => (bytes[i]?).getD 0) = bytes := by
    apply List.ext_getElem (by simp [hlen])
    intro i hi hi'
    simp [List.getElem?_eq_getElem hi']
  unfold decodeUuidText
  simp only [Hex.filter_hyphenated, hdigits, if_true, hbytes, hall]
  rfl

/-! ## Parameters -/

section

variable (parseF32 : Str → Option UInt32) (parseF64 : Str → Option UInt64)

/-- A canonical text is decoded as its value. -/
theorem decodeTextParam_canonical (c : CanonicalParam) :
    decodeTextParam parseF32 parseF64 (Utf8.encode c.text) c.oid = .ok c.value := by
  unfold decodeTextParam
  rw [Utf8.decode_encode]
  cases c with
  | int2 n =>
    have hread : Str.parseI16 (Str.ofInt n.toInt) = some n.toInt :=
      Str.parseSigned_ofInt n.le_toInt n.toInt_lt
    show (.ok (((Str.parseI16 (Str.ofInt n.toInt)).map .int16).getD (.text _)) : Rust ParamValue) = _
    rw [hread]
    rfl
  | int4 n =>
    have hread : Str.parseI32 (Str.ofInt n.toInt) = some n.toInt :=
      Str.parseSigned_ofInt n.le_toInt n.toInt_lt
    show (.ok (((Str.parseI32 (Str.ofInt n.toInt)).map .int32).getD (.text _)) : Rust ParamValue) = _
    rw [hread]
    rfl
  | int8 n =>
    have hread : Str.parseI64 (Str.ofInt n.toInt) = some n.toInt := by
      rw [Str.parseI64_eq_parseSigned]
      exact Str.parseSigned_ofInt n.le_toInt n.toInt_lt
    show (.ok (((Str.parseI64 (Str.ofInt n.toInt)).map .int64).getD (.text _)) : Rust ParamValue) = _
    rw [hread]
    rfl
  | bytea upper bytes => exact decodeByteaText_encode upper bytes
  | uuid upper bytes => exact decodeUuidText_hyphenated upper bytes.size_toArray

variable (paramsRaw : List (Option (List UInt8))) (formatCodes : List Int) (paramOids : List Nat)

/-- The format codes say that a parameter is sent as text: there are none, there is one for all
    parameters, or there is one for each. -/
def SentAsText (i : Nat) : Prop :=
  formatCodes = [] ∨ formatCodes = [0] ∨
    formatCodes.length = paramsRaw.length ∧ formatCodes[i]? = some 0

/-- A parameter is sent by its canonical text, and its type is known. -/
structure CanonicalAt (i : Nat) (c : CanonicalParam) : Prop where
  raw : paramsRaw[i]? = some (some (Utf8.encode c.text))
  oid : paramOids[i]? = some c.oid
  format : SentAsText paramsRaw formatCodes i

variable {paramsRaw formatCodes paramOids}

theorem SentAsText.getFormatCode_eq {i : Nat} (h : SentAsText paramsRaw formatCodes i) :
    getFormatCode formatCodes i = 0 := by
  rcases h with rfl | rfl | ⟨-, hcode⟩
  · rfl
  · rfl
  · -- one code is for all parameters, and it is the code of this one
    unfold getFormatCode
    split
    · rfl
    · cases i with
      | zero => exact Option.some.inj hcode
      | succ i => simp at hcode
    · rw [hcode]
      rfl

theorem CanonicalAt.decodeParam_eq {i : Nat} {c : CanonicalParam}
    (h : CanonicalAt paramsRaw formatCodes paramOids i c) :
    decodeParam parseF32 parseF64 (Utf8.encode c.text) ((paramOids[i]?).getD 0)
      (getFormatCode formatCodes i) = .ok c.value := by
  rw [decodeParam, h.format.getFormatCode_eq, if_pos rfl, h.oid]
  exact decodeTextParam_canonical parseF32 parseF64 c

variable (paramsRaw formatCodes paramOids)

/-- Canonical texts are no obstacle to decoding the parameters, and each is decoded as its value. -/
theorem decodeParams_canonical :
    ((∀ i data, paramsRaw[i]? = some (some data) →
        (∃ c, CanonicalAt paramsRaw formatCodes paramOids i c) ∨
          ¬ ParamSlips data ((paramOids[i]?).getD 0) (getFormatCode formatCodes i)) →
      ∃ values, decodeParams parseF32 parseF64 paramsRaw formatCodes paramOids = .ok values ∧
        values.length = paramsRaw.length) ∧
    ∀ values, decodeParams parseF32 parseF64 paramsRaw formatCodes paramOids = .ok values →
      ∀ i c, CanonicalAt paramsRaw formatCodes paramOids i c → values[i]? = some c.value := by
  constructor
  · intro hparams
    rw [decodeParams_returns_iff]
    intro i data hdata
    rcases hparams i data hdata with ⟨c, hc⟩ | hslips
    · have hraw := hc.raw
      rw [hdata] at hraw
      cases hraw
      exact (decodeParam_returns_iff parseF32 parseF64 _ _ _).1 ⟨_, hc.decodeParam_eq parseF32 parseF64⟩
    · exact hslips
  · intro values hvalues i c hc
    have hat : paramsRaw.zipIdx[i]? = some (some (Utf8.encode c.text), i) := by
      simp [List.getElem?_zipIdx, hc.raw]
    obtain ⟨value, hvalue, hdecoded⟩ := Rust.getElem?_mapM hvalues hat
    have heq : (.ok value : Rust ParamValue) = .ok c.value :=
      hdecoded.symm.trans (hc.decodeParam_eq parseF32 parseF64)
    rw [hvalue, Except.ok.inj heq]

end

/-- An integer and a bytea, with one format code for both. -/
theorem decodeParams_canonical_pair :
    ∃ values, decodeParams (fun _ => none) (fun _ => none)
        [some (Utf8.encode "-7".toList), some (Utf8.encode "\\xcafe".toList)] [0]
        [Oid.int4, Oid.bytea] = .ok values ∧
      values[0]? = some (.int32 (-7)) ∧ values[1]? = some (.bytes [0xca, 0xfe]) := by
  have hint : CanonicalAt [some (Utf8.encode "-7".toList), some (Utf8.encode "\\xcafe".toList)] [0]
      [Oid.int4, Oid.bytea] 0 (.int4 (-7)) := ⟨by decide +kernel, rfl, .inr (.inl rfl)⟩
  have hbytea : CanonicalAt [some (Utf8.encode "-7".toList), some (Utf8.encode "\\xcafe".toList)] [0]
      [Oid.int4, Oid.bytea] 1 (.bytea false [0xca, 0xfe]) := ⟨by decide +kernel, rfl, .inr (.inl rfl)⟩
  obtain ⟨hreturns, hvalues⟩ := decodeParams_canonical (fun _ => none) (fun _ => none)
    [some (Utf8.encode "-7".toList), some (Utf8.encode "\\xcafe".toList)] [0] [Oid.int4, Oid.bytea]
  obtain ⟨values, hok, -⟩ := hreturns fun i data hdata => .inl <|
    match i, hdata with
    | 0, _ => ⟨_, hint⟩
    | 1, _ => ⟨_, hbytea⟩
  exact ⟨values, hok, hvalues values hok 0 _ hint, hvalues values hok 1 _ hbytea⟩

end ScryProxy
