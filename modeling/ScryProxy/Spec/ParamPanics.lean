import ScryProxy.Native.BindParams

/-!
# When the decoding of parameters panics

A text-format bytea is sliced two bytes at a time.  The slice panics where the digits end
after an odd byte, or where its end lies inside a character.  Nothing else in
`decode_params` can panic, and a list that is decoded is as long as the parameters
(`decodeParams_returns_iff`).
-/

namespace ScryProxy

open Str (byteLen isCharBoundary)

/-- The digits start with pairs that are read as bytes, and what follows cannot be cut after two
    bytes: it is one ASCII character, or starts with one and a longer character, or with a character of
    three or four bytes. -/
def HexSlips (hex : Str) : Prop :=
  ∃ (pairs : List Str) (rest : Str), hex = pairs.flatten ++ rest ∧
    (∀ pair ∈ pairs, byteLen pair = 2 ∧ (Str.parseU8Hex pair).isSome) ∧ rest ≠ [] ∧
    isCharBoundary rest 2 = false

/-- A text-format bytea whose hex digits slip. -/
def ParamSlips (data : List UInt8) (oid : Nat) (format : Int) : Prop :=
  format = 0 ∧ oid = Oid.bytea ∧ ∃ hex, Utf8.decode data = some ("\\x".toList ++ hex) ∧ HexSlips hex

/-! ## Pairs of hex digits -/

theorem hexSlips_nil : ¬ HexSlips [] := by
  rintro ⟨pairs, rest, hhex, -, hne, -⟩
  exact hne (List.append_eq_nil_iff.1 hhex.symm).2

theorem hexSlips_of_not_boundary {hex : Str} (hne : hex ≠ []) (h : isCharBoundary hex 2 = false) :
    HexSlips hex :=
  ⟨[], hex, rfl, by simp, hne, h⟩

/-- A pair in front: the slip is behind it, unless the pair itself ends the loop. -/
theorem hexSlips_append {pair rest : Str} (hlen : byteLen pair = 2) :
    HexSlips (pair ++ rest) ↔ (Str.parseU8Hex pair).isSome ∧ HexSlips rest := by
  constructor
  · rintro ⟨pairs, tail, hhex, hpairs, hne, hslip⟩
    cases pairs with
    | nil =>
      have hboundary : isCharBoundary (pair ++ rest) 2 = true :=
        Str.isCharBoundary_iff.2 ⟨pair, rest, rfl, hlen⟩
      rw [hhex, List.flatten_nil, List.nil_append, hslip] at hboundary
      cases hboundary
    | cons p pairs =>
      rw [List.forall_mem_cons] at hpairs
      rw [List.flatten_cons, List.append_assoc] at hhex
      obtain ⟨rfl, rfl⟩ := Str.append_inj_of_byteLen hhex (hlen.trans hpairs.1.1.symm)
      exact ⟨hpairs.1.2, pairs, tail, rfl, hpairs.2, hne, hslip⟩
  · rintro ⟨hpair, pairs, tail, rfl, hpairs, hne, hslip⟩
    exact ⟨pair :: pairs, tail, by simp, by simp_all, hne, hslip⟩

/-- The loop at an offset looks only at what follows it. -/
theorem decodeHexLoop_returns_iff (front : Str) {hex : Str} {steps : Nat}
    (hsteps : steps = (byteLen hex + 1) / 2) :
    (∃ r, decodeHexLoop (front ++ hex) steps (byteLen front) = .ok r) ↔ ¬ HexSlips hex := by
  induction steps generalizing front hex with
  | zero =>
    obtain rfl : hex = [] := Str.byteLen_eq_zero (by omega)
    exact iff_of_true ⟨_, rfl⟩ hexSlips_nil
  | succ steps ih =>
    have hne : hex ≠ [] := by
      rintro rfl
      rw [Str.byteLen_nil] at hsteps
      omega
    simp only [decodeHexLoop, Rust.bind_returns_iff]
    cases hboundary : isCharBoundary hex 2 with
    | false =>
      -- the slice panics
      refine iff_of_false ?_ (not_not_intro (hexSlips_of_not_boundary hne hboundary))
      rintro ⟨pair, hpair, -⟩
      have hstop := (Str.slice_returns_iff.1 ⟨pair, hpair⟩).2.1
      rw [Str.isCharBoundary_append, hboundary] at hstop
      cases hstop
    | true =>
      obtain ⟨pair, rest, rfl, hlen⟩ := Str.isCharBoundary_iff.1 hboundary
      have hslice := Str.slice_append front pair rest
      rw [hlen] at hslice
      have hrest : steps = (byteLen rest + 1) / 2 := by
        rw [Str.byteLen_append, hlen] at hsteps
        omega
      have hloop := ih (front ++ pair) hrest
      rw [List.append_assoc, Str.byteLen_append, hlen] at hloop
      rw [hexSlips_append hlen]
      cases hbyte : Str.parseU8Hex pair with
      | none => simp [hslice, hbyte]
      | some byte => simp [hslice, hbyte, Rust.map_returns_iff, hloop]

theorem decodeHex_returns_iff (hex : Str) : (∃ r, decodeHex hex = .ok r) ↔ ¬ HexSlips hex :=
  decodeHexLoop_returns_iff [] rfl

/-! ## Single parameters -/

theorem decodeUuidText_returns (text : Str) : ∃ r, decodeUuidText text = .ok r := by
  unfold decodeUuidText
  dsimp only
  split
  · next hlen =>
    have hascii : ∀ c ∈ text.filter Str.isAsciiHexdigit, c.utf8Size = 1 := by
      intro c hc
      exact Str.utf8Size_of_isAsciiHexdigit (List.mem_filter.1 hc).2
    have hbytes : ∀ i ∈ List.range 16, ∃ r : UInt8, (do
        let pair ← Str.slice (text.filter Str.isAsciiHexdigit) (i * 2) (i * 2 + 2)
        return (Str.parseU8Hex pair).getD 0 : Rust UInt8) = .ok r := by
      intro i hi
      have hi := List.mem_range.1 hi
      obtain ⟨pair, hpair⟩ := Str.slice_returns_iff.2
        ⟨Str.isCharBoundary_of_ascii hascii (show i * 2 ≤ _ by omega),
          Str.isCharBoundary_of_ascii hascii (show i * 2 + 2 ≤ _ by omega), by omega⟩
      exact ⟨_, by rw [hpair]; rfl⟩
    obtain ⟨bytes, hbytes⟩ := Rust.mapM_returns hbytes
    exact ⟨.uuid bytes, by rw [hbytes]; rfl⟩
  · exact ⟨_, rfl⟩

theorem decodeByteaText_returns_iff (text : Str) :
    (∃ r, decodeByteaText text = .ok r) ↔ ¬ ∃ hex, text = "\\x".toList ++ hex ∧ HexSlips hex := by
  unfold decodeByteaText
  cases hstrip : text.stripPrefix "\\x".toList with
  | none =>
    refine iff_of_true ⟨_, rfl⟩ ?_
    rintro ⟨hex, rfl, -⟩
    rw [Str.stripPrefix_append] at hstrip
    cases hstrip
  | some hex =>
    rw [Rust.map_returns_iff, decodeHex_returns_iff, not_iff_not]
    constructor
    · intro hslips
      exact ⟨hex, Str.eq_append_of_stripPrefix hstrip, hslips⟩
    · rintro ⟨hex', rfl, hslips⟩
      rw [Str.stripPrefix_append] at hstrip
      cases hstrip
      exact hslips

section

variable (parseF32 : Str → Option UInt32) (parseF64 : Str → Option UInt64)

theorem decodeTextParam_returns_iff (data : List UInt8) (oid : Nat) :
    (∃ r, decodeTextParam parseF32 parseF64 data oid = .ok r) ↔
      ¬ (oid = Oid.bytea ∧ ∃ hex, Utf8.decode data = some ("\\x".toList ++ hex) ∧ HexSlips hex) := by
  unfold decodeTextParam
  cases Utf8.decode data with
  | none =>
    refine iff_of_true ⟨_, rfl⟩ ?_
    rintro ⟨-, hex, hnone, -⟩
    cases hnone
  | some text =>
    by_cases hbytea : oid = Oid.bytea
    · subst hbytea
      -- no other type has its number
      show (∃ r, decodeByteaText text = .ok r) ↔ _
      rw [decodeByteaText_returns_iff]
      simp only [true_and, Option.some.injEq]
    · simp only [hbytea, false_and, not_false_eq_true, iff_true, if_false]
      repeat' first | exact decodeUuidText_returns text | exact ⟨_, rfl⟩ | apply Rust.ite_returns

theorem decodeParam_returns_iff (data : List UInt8) (oid : Nat) (format : Int) :
    (∃ r, decodeParam parseF32 parseF64 data oid format = .ok r) ↔ ¬ ParamSlips data oid format := by
  unfold decodeParam ParamSlips
  by_cases hformat : format = 0
  · simp only [hformat, if_true, true_and]
    exact decodeTextParam_returns_iff parseF32 parseF64 data oid
  · simp [hformat]

theorem decodeParams_isOk_iff (paramsRaw : List (Option (List UInt8))) (formatCodes : List Int)
    (paramOids : List Nat) :
    (∃ values, decodeParams parseF32 parseF64 paramsRaw formatCodes paramOids = .ok values) ↔
      ∀ i data, paramsRaw[i]? = some (some data) →
        ¬ ParamSlips data ((paramOids[i]?).getD 0) (getFormatCode formatCodes i) := by
  constructor
  · rintro ⟨values, hvalues⟩ i data hdata
    obtain ⟨value, -, hvalue⟩ :=
      (Rust.mem_mapM hvalues).1 (some data, i) (List.mem_zipIdx_iff_getElem?.2 hdata)
    exact (decodeParam_returns_iff parseF32 parseF64 _ _ _).1 ⟨value, hvalue⟩
  · intro hslips
    refine Rust.mapM_returns ?_
    rintro ⟨raw, i⟩ hmem
    cases raw with
    | none => exact ⟨ParamValue.null, rfl⟩
    | some data =>
      have hdata := List.mem_zipIdx_iff_getElem?.1 hmem
      exact (decodeParam_returns_iff parseF32 parseF64 _ _ _).2 (hslips i data hdata)

/-- `decode_params` returns, with a value for each parameter, exactly when no parameter is a
    text-format bytea whose digits slip. -/
theorem decodeParams_returns_iff (paramsRaw : List (Option (List UInt8))) (formatCodes : List Int)
    (paramOids : List Nat) :
    (∃ values, decodeParams parseF32 parseF64 paramsRaw formatCodes paramOids = .ok values ∧
        values.length = paramsRaw.length) ↔
      ∀ i data, paramsRaw[i]? = some (some data) →
        ¬ ParamSlips data ((paramOids[i]?).getD 0) (getFormatCode formatCodes i) := by
  rw [← decodeParams_isOk_iff parseF32 parseF64]
  refine exists_congr fun values => and_iff_left_of_imp fun hvalues => ?_
  rw [Rust.length_mapM hvalues, List.length_zipIdx]

end

/-- `\xabc` has an odd number of digits, and `\xa` is followed by a character of two bytes. -/
theorem decodeParams_panics :
    decodeParams (fun _ => none) (fun _ => none) [some [92, 120, 97, 98, 99]] [] [17] = .error .panic ∧
      decodeParams (fun _ => none) (fun _ => none) [some [92, 120, 97, 0xC3, 0xA9]] [0] [17] =
        .error .panic := by
  constructor <;> rfl

end ScryProxy
