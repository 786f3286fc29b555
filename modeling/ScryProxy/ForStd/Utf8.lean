import Mathlib.Data.List.Basic

/-!
# UTF-8

`String::from_utf8` and `str::from_utf8`: a byte sequence decodes only when it is
well-formed UTF-8, with no overlong forms, surrogates or values past U+10FFFF
(`decode`).  `String::from_utf8_lossy` replaces what does not decode
(`decodeLossy`).
-/

namespace Utf8

/-- A continuation byte in the given range of its leading byte. -/
def within (lo hi : Nat) (b : UInt8) : Bool := decide (lo ≤ b.toNat ∧ b.toNat ≤ hi)

/-- Payload bits of a continuation byte. -/
def tail (b : UInt8) : Nat := b.toNat - 0x80

/-- Allowed second byte of a three-byte form. -/
def second3 (a b : UInt8) : Bool :=
  if a = 0xE0 then within 0xA0 0xBF b
  else if a = 0xED then within 0x80 0x9F b
  else within 0x80 0xBF b

/-- Allowed second byte of a four-byte form. -/
def second4 (a b : UInt8) : Bool :=
  if a = 0xF0 then within 0x90 0xBF b
  else if a = 0xF4 then within 0x80 0x8F b
  else within 0x80 0xBF b

/-- Decodes a byte sequence, or `none` if it is not valid UTF-8. -/
def decode : List UInt8 → Option (List Char)
  | [] => some []
  | a :: r =>
    if a.toNat < 0x80 then (decode r).map (Char.ofNat a.toNat :: ·)
    else match r with
      | [] => none
      | b :: r₁ =>
        if within 0xC2 0xDF a then
          if within 0x80 0xBF b then
            (decode r₁).map (Char.ofNat ((a.toNat - 0xC0) * 64 + tail b) :: ·)
          else none
        else match r₁ with
          | [] => none
          | c :: r₂ =>
            if within 0xE0 0xEF a then
              if second3 a b && within 0x80 0xBF c then
                (decode r₂).map
                  (Char.ofNat (((a.toNat - 0xE0) * 64 + tail b) * 64 + tail c) :: ·)
              else none
            else match r₂ with
              | [] => none
              | d :: r₃ =>
                if within 0xF0 0xF4 a && second4 a b && within 0x80 0xBF c && within 0x80 0xBF d then
                  (decode r₃).map
                    (Char.ofNat ((((a.toNat - 0xF0) * 64 + tail b) * 64 + tail c) * 64 + tail d) :: ·)
                else none

/-- U+FFFD. -/
def replacement : Char := Char.ofNat 0xFFFD

/-- The first character of a byte sequence and the bytes after it.  The longest start of a character
    that is not completed gives one replacement character, and so does a byte that starts none. -/
def nextLossy (a : UInt8) (r : List UInt8) : Char × List UInt8 :=
  if a.toNat < 0x80 then (Char.ofNat a.toNat, r)
  else match r with
    | [] => (replacement, [])
    | b :: r₁ =>
      if within 0xC2 0xDF a && within 0x80 0xBF b then
        (Char.ofNat ((a.toNat - 0xC0) * 64 + tail b), r₁)
      else if within 0xE0 0xEF a && second3 a b then
        match r₁ with
        | [] => (replacement, [])
        | c :: r₂ =>
          if within 0x80 0xBF c then
            (Char.ofNat (((a.toNat - 0xE0) * 64 + tail b) * 64 + tail c), r₂)
          -- the first two bytes go together, the third one starts anew
          else (replacement, r₁)
      else if within 0xF0 0xF4 a && second4 a b then
        match r₁ with
        | [] => (replacement, [])
        | c :: r₂ =>
          if within 0x80 0xBF c then
            match r₂ with
            | [] => (replacement, [])
            | d :: r₃ =>
              if within 0x80 0xBF d then
                (Char.ofNat ((((a.toNat - 0xF0) * 64 + tail b) * 64 + tail c) * 64 + tail d), r₃)
              else (replacement, r₂)
          else (replacement, r₁)
      else (replacement, r)

/-- `decodeLossy` with a bound on the number of characters. -/
def decodeLossyLoop : Nat → List UInt8 → List Char
  | fuel + 1, a :: r => (nextLossy a r).1 :: decodeLossyLoop fuel (nextLossy a r).2
  | _, _ => []

/-- Decodes a byte sequence, replacing what is not valid UTF-8. -/
def decodeLossy (bytes : List UInt8) : List Char := decodeLossyLoop bytes.length bytes

/-- `str::as_bytes`. -/
def encode (s : List Char) : List UInt8 := s.flatMap String.utf8EncodeChar

example : decode [0x53, 0xC5, 0xBF] = some "Sſ".toList := by decide
example : decode [0x53, 0xFF] = none := by decide
example : decodeLossy [0x53, 0xE2, 0x82, 0x28, 0xFF] = ['S', replacement, '(', replacement] := by
  decide

/-! ## Round trip -/

theorem toNat_ofNat {n : Nat} (h : n < 256) : (UInt8.ofNat n).toNat = n := by
  rw [UInt8.toNat_ofNat']
  exact Nat.mod_eq_of_lt h

/-- The range of a character: no surrogate, at most U+10FFFF. -/
theorem char_range (c : Char) : c.toNat < 0xD800 ∨ 0xDFFF < c.toNat ∧ c.toNat < 0x110000 := c.valid

theorem within_iff {lo hi : Nat} {b : UInt8} :
    within lo hi b = true ↔ lo ≤ b.toNat ∧ b.toNat ≤ hi := decide_eq_true_iff

/-- A second byte whose range depends on two leading bytes: the first forbids overlong forms, the
    second one forbids values outside the range of characters. -/
theorem second_within {a b x y : UInt8} {lo hi : Nat} (hb : 0x80 ≤ b.toNat ∧ b.toNat ≤ 0xBF)
    (hlow : a.toNat = x.toNat → lo ≤ b.toNat) (hhigh : a.toNat = y.toNat → b.toNat ≤ hi) :
    (if a = x then within lo 0xBF b else if a = y then within 0x80 hi b else within 0x80 0xBF b) =
      true := by
  split
  · next h => exact within_iff.2 ⟨hlow (h ▸ rfl), hb.2⟩
  · split
    · next h => exact within_iff.2 ⟨hb.1, hhigh (h ▸ rfl)⟩
    · exact within_iff.2 hb

theorem decode_one {a : UInt8} (ha : a.toNat < 0x80) (rest : List UInt8) :
    decode (a :: rest) = (decode rest).map (Char.ofNat a.toNat :: ·) := by
  rw [decode.eq_def]
  simp [ha]

theorem decode_two {a b : UInt8} (ha : 0xC2 ≤ a.toNat ∧ a.toNat ≤ 0xDF)
    (hb : 0x80 ≤ b.toNat ∧ b.toNat ≤ 0xBF) (rest : List UInt8) :
    decode (a :: b :: rest) =
      (decode rest).map (Char.ofNat ((a.toNat - 0xC0) * 64 + tail b) :: ·) := by
  rw [decode.eq_def]
  dsimp only
  rw [if_neg (by omega), if_pos (within_iff.2 ha), if_pos (within_iff.2 hb)]

theorem decode_three {a b c : UInt8} (ha : 0xE0 ≤ a.toNat ∧ a.toNat ≤ 0xEF)
    (hb : second3 a b = true) (hc : 0x80 ≤ c.toNat ∧ c.toNat ≤ 0xBF) (rest : List UInt8) :
    decode (a :: b :: c :: rest) = (decode rest).map
      (Char.ofNat (((a.toNat - 0xE0) * 64 + tail b) * 64 + tail c) :: ·) := by
  have htwo : ¬ within 0xC2 0xDF a = true := fun h => by have := within_iff.1 h; omega
  rw [decode.eq_def]
  dsimp only
  rw [if_neg (by omega), if_neg htwo, if_pos (within_iff.2 ha), hb, within_iff.2 hc]
  rfl

theorem decode_four {a b c d : UInt8} (ha : 0xF0 ≤ a.toNat ∧ a.toNat ≤ 0xF4)
    (hb : second4 a b = true) (hc : 0x80 ≤ c.toNat ∧ c.toNat ≤ 0xBF)
    (hd : 0x80 ≤ d.toNat ∧ d.toNat ≤ 0xBF) (rest : List UInt8) :
    decode (a :: b :: c :: d :: rest) = (decode rest).map
      (Char.ofNat ((((a.toNat - 0xF0) * 64 + tail b) * 64 + tail c) * 64 + tail d) :: ·) := by
  have htwo : ¬ within 0xC2 0xDF a = true := fun h => by have := within_iff.1 h; omega
  have hthree : ¬ within 0xE0 0xEF a = true := fun h => by have := within_iff.1 h; omega
  rw [decode.eq_def]
  dsimp only
  rw [if_neg (by omega), if_neg htwo, if_neg hthree, within_iff.2 ha, hb, within_iff.2 hc,
    within_iff.2 hd]
  rfl

/-- The bytes of a character decode to it. -/
theorem decode_utf8EncodeChar (c : Char) (rest : List UInt8) :
    decode (String.utf8EncodeChar c ++ rest) = (decode rest).map (c :: ·) := by
  have hrange := char_range c
  obtain ⟨v, hv⟩ : ∃ v, c.toNat = v := ⟨_, rfl⟩
  have hc : Char.ofNat v = c := by rw [← hv, Char.ofNat_toNat]
  rw [hv] at hrange
  unfold String.utf8EncodeChar
  rw [show c.val.toNat = v from hv]
  -- by the length of the encoding
  by_cases h₁ : v ≤ 127
  · have ha : (UInt8.ofNat v).toNat = v := toNat_ofNat (by omega)
    rw [if_pos h₁, List.cons_append, List.nil_append]
    rw [decode_one (by omega), ha, hc]
  by_cases h₂ : v ≤ 2047
  · have ha : (UInt8.ofNat (v / 64 % 32 + 192)).toNat = v / 64 + 192 := by
      rw [toNat_ofNat (by omega)]; omega
    have hb : (UInt8.ofNat (v % 64 + 128)).toNat = v % 64 + 128 := toNat_ofNat (by omega)
    rw [if_neg h₁, if_pos h₂, List.cons_append, List.cons_append, List.nil_append]
    have hvalue : ((UInt8.ofNat (v / 64 % 32 + 192)).toNat - 0xC0) * 64 +
        tail (UInt8.ofNat (v % 64 + 128)) = v := by
      unfold tail
      omega
    rw [decode_two (by omega) (by omega), hvalue, hc]
  by_cases h₃ : v ≤ 65535
  · have ha : (UInt8.ofNat (v / 4096 % 16 + 224)).toNat = v / 4096 + 224 := by
      rw [toNat_ofNat (by omega)]; omega
    have hb : (UInt8.ofNat (v / 64 % 64 + 128)).toNat = v / 64 % 64 + 128 := toNat_ofNat (by omega)
    have hd : (UInt8.ofNat (v % 64 + 128)).toNat = v % 64 + 128 := toNat_ofNat (by omega)
    -- no overlong form and no surrogate
    have hsecond : second3 (UInt8.ofNat (v / 4096 % 16 + 224)) (UInt8.ofNat (v / 64 % 64 + 128)) =
        true := by
      refine second_within (by omega) (fun h => ?_) (fun h => ?_)
      · rw [ha, show (0xE0 : UInt8).toNat = 0xE0 from rfl] at h
        omega
      · rw [ha, show (0xED : UInt8).toNat = 0xED from rfl] at h
        omega
    rw [if_neg h₁, if_neg h₂, if_pos h₃, List.cons_append, List.cons_append, List.cons_append,
      List.nil_append]
    have hvalue : (((UInt8.ofNat (v / 4096 % 16 + 224)).toNat - 0xE0) * 64 +
        tail (UInt8.ofNat (v / 64 % 64 + 128))) * 64 + tail (UInt8.ofNat (v % 64 + 128)) = v := by
      unfold tail
      omega
    rw [decode_three (by omega) hsecond (by omega), hvalue, hc]
  · have ha : (UInt8.ofNat (v / 262144 % 8 + 240)).toNat = v / 262144 + 240 := by
      rw [toNat_ofNat (by omega)]; omega
    have hb : (UInt8.ofNat (v / 4096 % 64 + 128)).toNat = v / 4096 % 64 + 128 :=
      toNat_ofNat (by omega)
    have hd : (UInt8.ofNat (v / 64 % 64 + 128)).toNat = v / 64 % 64 + 128 := toNat_ofNat (by omega)
    have he : (UInt8.ofNat (v % 64 + 128)).toNat = v % 64 + 128 := toNat_ofNat (by omega)
    have hsecond : second4 (UInt8.ofNat (v / 262144 % 8 + 240)) (UInt8.ofNat (v / 4096 % 64 + 128)) =
        true := by
      refine second_within (by omega) (fun h => ?_) (fun h => ?_)
      · rw [ha, show (0xF0 : UInt8).toNat = 0xF0 from rfl] at h
        omega
      · rw [ha, show (0xF4 : UInt8).toNat = 0xF4 from rfl] at h
        omega
    rw [if_neg h₁, if_neg h₂, if_neg h₃, List.cons_append, List.cons_append, List.cons_append,
      List.cons_append, List.nil_append]
    have hvalue : ((((UInt8.ofNat (v / 262144 % 8 + 240)).toNat - 0xF0) * 64 +
        tail (UInt8.ofNat (v / 4096 % 64 + 128))) * 64 + tail (UInt8.ofNat (v / 64 % 64 + 128))) * 64 +
        tail (UInt8.ofNat (v % 64 + 128)) = v := by
      unfold tail
      omega
    rw [decode_four (by omega) hsecond (by omega) (by omega), hvalue, hc]

/-- `str::from_utf8` of the bytes of a string. -/
theorem decode_encode (s : List Char) : decode (encode s) = some s := by
  induction s with
  | nil => rfl
  | cons c s ih =>
    rw [encode, List.flatMap_cons, decode_utf8EncodeChar]
    rw [encode] at ih
    rw [ih]
    rfl

/-- A character has at most four bytes. -/
theorem length_le_of_decode {bytes : List UInt8} {s : List Char} (h : decode bytes = some s) :
    bytes.length ≤ 4 * s.length := by
  fun_induction decode bytes generalizing s
  case case1 => exact Nat.zero_le _
  -- the other cases are errors, or one to four bytes of a character and the rest
  all_goals first
    | cases h
    | next ih =>
      obtain ⟨t, ht, rfl⟩ := Option.map_eq_some_iff.1 h
      have hrest := ih ht
      simp only [List.length_cons]
      omega

/-! ## NULs -/

theorem ofNat_ne_zero {n : Nat} (hpos : 0 < n) (hlt : n < 256) : UInt8.ofNat n ≠ 0 := by
  intro h
  have hzero := congrArg UInt8.toNat h
  rw [toNat_ofNat hlt] at hzero
  exact absurd hzero (Nat.ne_of_gt hpos)

/-- Only the NUL has a zero byte. -/
theorem zero_notMem_utf8EncodeChar {c : Char} (h : c ≠ '\x00') : 0 ∉ String.utf8EncodeChar c := by
  have hpos : 0 < c.val.toNat := by
    refine Nat.pos_of_ne_zero fun hzero => h ?_
    have hchar := Char.ofNat_toNat c
    rw [show c.toNat = 0 from hzero] at hchar
    exact hchar.symm
  generalize hv : c.val.toNat = v at hpos
  unfold String.utf8EncodeChar
  rw [hv]
  intro hmem
  dsimp only at hmem
  -- by the length of the encoding; every byte of a longer character is at least 128
  split_ifs at hmem with h₁ h₂ h₃
  · rw [List.mem_singleton] at hmem
    exact ofNat_ne_zero hpos (by omega) hmem.symm
  all_goals
    simp only [List.mem_cons, List.not_mem_nil, or_false] at hmem
  · rcases hmem with hmem | hmem <;> exact ofNat_ne_zero (by omega) (by omega) hmem.symm
  · rcases hmem with hmem | hmem | hmem <;> exact ofNat_ne_zero (by omega) (by omega) hmem.symm
  · rcases hmem with hmem | hmem | hmem | hmem <;>
      exact ofNat_ne_zero (by omega) (by omega) hmem.symm

theorem zero_notMem_encode {s : List Char} (h : '\x00' ∉ s) : 0 ∉ encode s := by
  intro hmem
  obtain ⟨c, hc, hbyte⟩ := List.mem_flatMap.1 hmem
  exact zero_notMem_utf8EncodeChar (ne_of_mem_of_not_mem hc h) hbyte

/-! ## Lossy decoding of valid text -/

/-- Where there is a character, it is the next one of lossy decoding. -/
theorem decode_next {a : UInt8} {r : List UInt8} {s : List Char} (h : decode (a :: r) = some s) :
    ∃ t, decode (nextLossy a r).2 = some t ∧ s = (nextLossy a r).1 :: t := by
  rw [decode.eq_def] at h
  dsimp only at h
  unfold nextLossy
  by_cases hone : a.toNat < 0x80
  · rw [if_pos hone] at h ⊢
    obtain ⟨t, ht, rfl⟩ := Option.map_eq_some_iff.1 h
    exact ⟨t, ht, rfl⟩
  rw [if_neg hone] at h ⊢
  cases r with
  | nil => cases h
  | cons b r =>
    dsimp only at h ⊢
    by_cases htwo : within 0xC2 0xDF a = true
    · simp only [htwo, if_true, Bool.true_and] at h ⊢
      split at h
      · next hb =>
        simp only [hb, if_true]
        obtain ⟨t, ht, rfl⟩ := Option.map_eq_some_iff.1 h
        exact ⟨t, ht, rfl⟩
      · cases h
    simp only [htwo, if_false, Bool.false_and, Bool.false_eq_true] at h ⊢
    cases r with
    | nil => cases h
    | cons c r =>
      dsimp only at h ⊢
      by_cases hthree : within 0xE0 0xEF a = true
      · simp only [hthree, if_true, Bool.true_and] at h ⊢
        split at h
        · next hbc =>
          obtain ⟨hb, hc⟩ := Bool.and_eq_true_iff.1 hbc
          simp only [hb, hc, if_true]
          obtain ⟨t, ht, rfl⟩ := Option.map_eq_some_iff.1 h
          exact ⟨t, ht, rfl⟩
        · cases h
      simp only [hthree, if_false, Bool.false_and, Bool.false_eq_true] at h ⊢
      cases r with
      | nil => cases h
      | cons d r =>
        dsimp only at h ⊢
        split at h
        · next hall =>
          simp only [Bool.and_eq_true] at hall
          obtain ⟨⟨⟨ha, hb⟩, hc⟩, hd⟩ := hall
          simp only [ha, hb, hc, hd, Bool.and_self, if_true]
          obtain ⟨t, ht, rfl⟩ := Option.map_eq_some_iff.1 h
          exact ⟨t, ht, rfl⟩
        · cases h

theorem decodeLossyLoop_of_decode {bytes : List UInt8} {s : List Char} (h : decode bytes = some s)
    {fuel : Nat} (hfuel : s.length ≤ fuel) : decodeLossyLoop fuel bytes = s := by
  induction fuel generalizing bytes s with
  | zero =>
    rw [List.length_eq_zero_iff.1 (Nat.le_zero.1 hfuel)]
    rfl
  | succ fuel ih =>
    cases bytes with
    | nil =>
      cases h
      rfl
    | cons a r =>
      obtain ⟨t, ht, rfl⟩ := decode_next h
      rw [decodeLossyLoop, ih ht (Nat.le_of_succ_le_succ hfuel)]

theorem length_le_length_encode (s : List Char) : s.length ≤ (encode s).length := by
  induction s with
  | nil => exact Nat.zero_le _
  | cons c s ih =>
    have hpos := c.utf8Size_pos
    rw [encode, List.flatMap_cons, List.length_append, String.length_utf8EncodeChar, List.length_cons]
    rw [encode] at ih
    omega

theorem decodeLossy_encode (s : List Char) : decodeLossy (encode s) = s :=
  decodeLossyLoop_of_decode (decode_encode s) (length_le_length_encode s)

end Utf8
