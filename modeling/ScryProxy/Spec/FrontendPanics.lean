import ScryProxy.Spec.Segmentation

/-!
# When the parsing of frontend messages panics

The counts inside Parse and Bind are read as signed numbers and cast to `usize`.  A negative
count asks for more capacity than there can be, and a negative parameter length other than
NULL's ends the slice before its start.  These are the only panics of the payload parsers
(`parsePayload_returns_iff`), so a sequence of reads is parsed to its end exactly when no
frame among them holds one (`extractAll_returns_iff`).
-/

namespace ScryProxy

/-! ## What the parsers panic on -/

/-- Text that `read_cstring` accepts in front of a NUL. -/
def IsCstring (text : List UInt8) : Prop := 0 ∉ text ∧ (Utf8.decode text).isSome

/-- Among the next `n` parameters of a Bind payload of `total` bytes, one has a length below -1 that
    leads from its offset back to an offset in the payload; those before it are complete. -/
inductive SlipsAtParam (total : Nat) : Nat → List UInt8 → Prop
  | here {n : Nat} {b₀ b₁ b₂ b₃ : UInt8} {rest : List UInt8} (hlen : BigEndian.i32 b₀ b₁ b₂ b₃ < -1)
      (hback : (rest.length : Int) ≤ total + BigEndian.i32 b₀ b₁ b₂ b₃) :
      SlipsAtParam total (n + 1) (b₀ :: b₁ :: b₂ :: b₃ :: rest)
  | null {n : Nat} {b₀ b₁ b₂ b₃ : UInt8} {rest : List UInt8} (hlen : BigEndian.i32 b₀ b₁ b₂ b₃ = -1)
      (hrest : SlipsAtParam total n rest) : SlipsAtParam total (n + 1) (b₀ :: b₁ :: b₂ :: b₃ :: rest)
  | value {n : Nat} {b₀ b₁ b₂ b₃ : UInt8} {param rest : List UInt8}
      (hlen : BigEndian.i32 b₀ b₁ b₂ b₃ = param.length) (hrest : SlipsAtParam total n rest) :
      SlipsAtParam total (n + 1) (b₀ :: b₁ :: b₂ :: b₃ :: (param ++ rest))

/-- The number of parameter types of a Parse payload is negative. -/
def ParseSlips (payload : List UInt8) : Prop :=
  ∃ name query b₀ b₁ rest, IsCstring name ∧ IsCstring query ∧
    payload = name ++ 0 :: (query ++ 0 :: b₀ :: b₁ :: rest) ∧ BigEndian.i16 b₀ b₁ < 0

/-- The number of format codes or the number of parameters of a Bind payload is negative, or the
    length of one of its parameters slips. -/
def BindSlips (payload : List UInt8) : Prop :=
  ∃ portal statement b₀ b₁ rest, IsCstring portal ∧ IsCstring statement ∧
    payload = portal ++ 0 :: (statement ++ 0 :: b₀ :: b₁ :: rest) ∧
    (BigEndian.i16 b₀ b₁ < 0 ∨
      ∃ codes c₀ c₁ params, codes.length = 2 * (BigEndian.i16 b₀ b₁).toNat ∧
        rest = codes ++ c₀ :: c₁ :: params ∧
        (BigEndian.i16 c₀ c₁ < 0 ∨
          SlipsAtParam payload.length (BigEndian.i16 c₀ c₁).toNat params))

/-- A frame whose payload makes its parser panic. -/
def Slips (f : Frame) : Prop :=
  (f.tag = msgParse ∧ ParseSlips f.payload) ∨ (f.tag = msgBind ∧ BindSlips f.payload)

/-! ## The parsers -/

theorem readCstring_append {text : List UInt8} (htext : 0 ∉ text) (rest : List UInt8) :
    readCstring (text ++ 0 :: rest) = (Utf8.decode text).map fun s => (s, rest) := by
  simp only [readCstring, Cstring.takeWhile_append htext, List.drop_left]

/-- The text up to the first NUL, which has to be there. -/
theorem exists_of_readCstring {data : List UInt8} {s : Str} {rest : List UInt8}
    (h : readCstring data = some (s, rest)) : ∃ text, IsCstring text ∧ data = text ++ 0 :: rest := by
  by_cases hnul : 0 ∈ data
  · obtain ⟨text, tail, rfl, htext⟩ := List.eq_append_cons_of_mem hnul
    rw [readCstring_append htext, Option.map_eq_some_iff] at h
    obtain ⟨s', hs', h⟩ := h
    cases h
    exact ⟨text, ⟨htext, by rw [hs', Option.isSome_some]⟩, rfl⟩
  · -- without a NUL the text is all there is
    simp only [readCstring, Cstring.takeWhile_eq_self hnul, List.drop_length] at h
    cases h

/-- The two names in front of a Parse or Bind payload. -/
theorem readCstrings_iff {payload rest : List UInt8} :
    (∃ s t mid, readCstring payload = some (s, mid) ∧ readCstring mid = some (t, rest)) ↔
      ∃ first second, IsCstring first ∧ IsCstring second ∧
        payload = first ++ 0 :: (second ++ 0 :: rest) := by
  constructor
  · rintro ⟨s, t, mid, hs, ht⟩
    obtain ⟨first, hfirst, rfl⟩ := exists_of_readCstring hs
    obtain ⟨second, hsecond, rfl⟩ := exists_of_readCstring ht
    exact ⟨first, second, hfirst, hsecond, rfl⟩
  · rintro ⟨first, second, hfirst, hsecond, rfl⟩
    obtain ⟨s, hs⟩ := Option.isSome_iff_exists.1 hfirst.2
    obtain ⟨t, ht⟩ := Option.isSome_iff_exists.1 hsecond.2
    refine ⟨s, t, second ++ 0 :: rest, ?_, ?_⟩
    · rw [readCstring_append hfirst.1, hs, Option.map_some]
    · rw [readCstring_append hsecond.1, ht, Option.map_some]

theorem parseParseMessage_returns_iff (payload : List UInt8) :
    (∃ r, parseParseMessage payload = .ok r) ↔ ¬ ParseSlips payload := by
  -- the slip in terms of the two reads
  have hslips : ParseSlips payload ↔ ∃ b₀ b₁ rest, (∃ s t mid, readCstring payload = some (s, mid) ∧
      readCstring mid = some (t, b₀ :: b₁ :: rest)) ∧ BigEndian.i16 b₀ b₁ < 0 := by
    simp only [readCstrings_iff]
    constructor
    · rintro ⟨name, query, b₀, b₁, rest, hname, hquery, hpayload, hneg⟩
      exact ⟨b₀, b₁, rest, ⟨name, query, hname, hquery, hpayload⟩, hneg⟩
    · rintro ⟨b₀, b₁, rest, ⟨name, query, hname, hquery, hpayload⟩, hneg⟩
      exact ⟨name, query, b₀, b₁, rest, hname, hquery, hpayload, hneg⟩
  rw [hslips]
  unfold parseParseMessage
  cases hs : readCstring payload with
  | none => simp
  | some first =>
    obtain ⟨s, mid⟩ := first
    cases ht : readCstring mid with
    | none => simp [ht]
    | some second =>
      obtain ⟨t, rest⟩ := second
      match rest with
      | [] | [_] => simp [ht]
      | b₀ :: b₁ :: rest =>
        by_cases hneg : BigEndian.i16 b₀ b₁ < 0
        · simp [ht, withCapacity, hneg]
        · simp [ht, withCapacity, hneg]

/-- The format codes are two bytes each. -/
theorem readFormatCodes_iff {n : Nat} {data tail : List UInt8} :
    (∃ codes, readFormatCodes n data = some (codes, tail)) ↔
      ∃ bytes, bytes.length = 2 * n ∧ data = bytes ++ tail := by
  induction n generalizing data with
  | zero => simp [readFormatCodes]
  | succ n ih =>
    match data with
    | [] | [_] =>
      simp only [readFormatCodes]
      constructor
      · rintro ⟨_, h⟩
        cases h
      · rintro ⟨bytes, hlen, hdata⟩
        have := congrArg List.length hdata
        simp at this
        omega
    | b₀ :: b₁ :: rest =>
      simp only [readFormatCodes, Option.map_eq_some_iff]
      constructor
      · rintro ⟨codes, ⟨codes', tail'⟩, hread, h⟩
        cases h
        obtain ⟨bytes, hlen, rfl⟩ := ih.1 ⟨codes', hread⟩
        refine ⟨b₀ :: b₁ :: bytes, ?_, rfl⟩
        simp only [List.length_cons, hlen]
        omega
      · rintro ⟨bytes, hlen, hdata⟩
        match bytes with
        | [] | [_] => simp only [List.length_cons, List.length_nil] at hlen; omega
        | c₀ :: c₁ :: bytes =>
          cases hdata
          obtain ⟨codes, hread⟩ := ih.2 ⟨bytes, by simp only [List.length_cons] at hlen; omega, rfl⟩
          exact ⟨_, (codes, tail), hread, rfl⟩

theorem slipsAtParam_header {total n : Nat} {b₀ b₁ b₂ b₃ : UInt8} {rest : List UInt8} :
    SlipsAtParam total (n + 1) (b₀ :: b₁ :: b₂ :: b₃ :: rest) ↔
      (BigEndian.i32 b₀ b₁ b₂ b₃ < -1 ∧ (rest.length : Int) ≤ total + BigEndian.i32 b₀ b₁ b₂ b₃) ∨
      (BigEndian.i32 b₀ b₁ b₂ b₃ = -1 ∧ SlipsAtParam total n rest) ∨
      (0 ≤ BigEndian.i32 b₀ b₁ b₂ b₃ ∧ (BigEndian.i32 b₀ b₁ b₂ b₃).toNat ≤ rest.length ∧
        SlipsAtParam total n (rest.drop (BigEndian.i32 b₀ b₁ b₂ b₃).toNat)) := by
  constructor
  · intro h
    cases h with
    | here hlen hback => exact .inl ⟨hlen, hback⟩
    | null hlen hrest => exact .inr (.inl ⟨hlen, hrest⟩)
    | value hlen hrest =>
      refine .inr (.inr ?_)
      rw [hlen, Int.toNat_natCast, List.drop_left, List.length_append]
      exact ⟨by omega, by omega, hrest⟩
  · rintro (⟨hlen, hback⟩ | ⟨hlen, hrest⟩ | ⟨hlen, hle, hrest⟩)
    · exact .here hlen hback
    · exact .null hlen hrest
    · rw [← List.take_append_drop (BigEndian.i32 b₀ b₁ b₂ b₃).toNat rest]
      refine .value ?_ hrest
      rw [List.length_take]
      omega

theorem readParams_returns_iff (total n : Nat) (params : List UInt8) :
    (∃ r, readParams total n params = .ok r) ↔ ¬ SlipsAtParam total n params := by
  induction n generalizing params with
  | zero =>
    refine iff_of_true ⟨_, rfl⟩ ?_
    intro h
    cases h
  | succ n ih =>
    match params with
    | [] | [_] | [_, _] | [_, _, _] =>
      refine iff_of_true ⟨_, rfl⟩ ?_
      intro h
      cases h
    | b₀ :: b₁ :: b₂ :: b₃ :: rest =>
      rw [slipsAtParam_header]
      simp only [readParams]
      -- NULL, a slip, a parameter that is not all there, a complete one
      split
      · next hnull =>
        rw [Rust.map_returns_iff, ih]
        simp [hnull]
      · next hnull =>
        split
        · next hneg =>
          split <;> simp <;> omega
        · next hneg =>
          split
          · simp; omega
          · next hle =>
            rw [Rust.map_returns_iff, ih]
            have := Nat.not_lt.1 hle
            grind

theorem parseBindMessage_returns_iff (payload : List UInt8) :
    (∃ r, parseBindMessage payload = .ok r) ↔ ¬ BindSlips payload := by
  -- the slip in terms of the reads
  have hslips : BindSlips payload ↔ ∃ b₀ b₁ rest, (∃ s t mid, readCstring payload = some (s, mid) ∧
      readCstring mid = some (t, b₀ :: b₁ :: rest)) ∧ (BigEndian.i16 b₀ b₁ < 0 ∨
        ∃ c₀ c₁ params, (∃ codes, readFormatCodes (BigEndian.i16 b₀ b₁).toNat rest =
            some (codes, c₀ :: c₁ :: params)) ∧
          (BigEndian.i16 c₀ c₁ < 0 ∨
            SlipsAtParam payload.length (BigEndian.i16 c₀ c₁).toNat params)) := by
    simp only [readCstrings_iff, readFormatCodes_iff]
    constructor
    · rintro ⟨portal, statement, b₀, b₁, rest, hportal, hstatement, hpayload, hcounts⟩
      refine ⟨b₀, b₁, rest, ⟨portal, statement, hportal, hstatement, hpayload⟩, ?_⟩
      refine hcounts.imp_right ?_
      rintro ⟨codes, c₀, c₁, params, hcodes, hrest, hparams⟩
      exact ⟨c₀, c₁, params, ⟨codes, hcodes, hrest⟩, hparams⟩
    · rintro ⟨b₀, b₁, rest, ⟨portal, statement, hportal, hstatement, hpayload⟩, hcounts⟩
      refine ⟨portal, statement, b₀, b₁, rest, hportal, hstatement, hpayload, ?_⟩
      refine hcounts.imp_right ?_
      rintro ⟨c₀, c₁, params, ⟨codes, hcodes, hrest⟩, hparams⟩
      exact ⟨codes, c₀, c₁, params, hcodes, hrest, hparams⟩
  rw [hslips]
  unfold parseBindMessage
  cases hs : readCstring payload with
  | none => simp
  | some first =>
    obtain ⟨s, mid⟩ := first
    cases ht : readCstring mid with
    | none => simp [ht]
    | some second =>
      obtain ⟨t, rest⟩ := second
      match rest with
      | [] | [_] => simp [ht]
      | b₀ :: b₁ :: rest =>
        by_cases hneg : BigEndian.i16 b₀ b₁ < 0
        · simp [ht, withCapacity, hneg]
        · cases hcodes : readFormatCodes (BigEndian.i16 b₀ b₁).toNat rest with
          | none => simp [ht, withCapacity, hneg, hcodes]
          | some read =>
            obtain ⟨codes, tail⟩ := read
            match tail with
            | [] | [_] => simp [ht, withCapacity, hneg, hcodes]
            | c₀ :: c₁ :: params =>
              by_cases hneg' : BigEndian.i16 c₀ c₁ < 0
              · simp [ht, withCapacity, hneg, hcodes, hneg']
              · have hparams := readParams_returns_iff payload.length (BigEndian.i16 c₀ c₁).toNat params
                simp [ht, withCapacity, hneg, hcodes, hneg', ← hparams, Rust.bind_returns_iff]

theorem parsePayload_returns_iff (f : Frame) :
    (∃ r, parsePayload f.tag f.payload = .ok r) ↔ ¬ Slips f := by
  unfold parsePayload Slips
  have hquery : msgParse ≠ msgQuery := by decide
  have hquery' : msgBind ≠ msgQuery := by decide
  have hkinds : msgParse ≠ msgBind := by decide
  by_cases hparse : f.tag = msgParse
  · simp [hparse, hquery, hkinds, parseParseMessage_returns_iff]
  · by_cases hbind : f.tag = msgBind
    · simp [hbind, hquery', hkinds.symm, parseBindMessage_returns_iff]
    · -- the other parsers read at most one name
      simp only [hparse, hbind, if_false, false_and, or_self, not_false_eq_true, iff_true]
      split_ifs <;> exact ⟨_, rfl⟩

/-! ## Sequences of reads -/

theorem messagesOf_returns_iff (frames : List Frame) :
    (∃ ms, messagesOf frames = .ok ms) ↔ ∀ f ∈ frames, ¬ Slips f := by
  simp only [messagesOf, Rust.map_returns_iff, ← parsePayload_returns_iff]
  constructor
  · rintro ⟨rs, hrs⟩ f hf
    obtain ⟨r, -, hr⟩ := (Rust.mem_mapM hrs).1 f hf
    exact ⟨r, hr⟩
  · exact Rust.mapM_returns

/-- `extract_messages` returns on every chunk of a sequence exactly when no complete frame that the
    calls meet has a negative count or a parameter length that slips. -/
theorem extractAll_returns_iff (chunks : List (List UInt8)) :
    (∃ r, extractAll [] chunks = .ok r) ↔ ∀ f ∈ (takeAll [] chunks).1, ¬ Slips f := by
  rw [extractAll_eq, Rust.map_returns_iff, messagesOf_returns_iff]

/-- A Parse for -1 parameter types, and a Bind whose only parameter has length -2. -/
theorem extractAll_panics :
    extractAll [] [[80, 0, 0, 0, 8, 0, 0, 255, 255]] = .error .panic ∧
      extractAll [] [[66, 0, 0, 0, 14, 0, 0], [0, 0, 0, 1, 255, 255, 255, 254]] = .error .panic := by
  decide

end ScryProxy
