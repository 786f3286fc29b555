import Mathlib.Data.List.Basic

/-!
# Base64

The standard alphabet with padding.  `encode` turns groups of three bytes into four
characters; `decode` accepts only what `encode` can produce: full groups, padding in the last
one, and no bits left over.
-/

/-- An encoding of bytes as text that can be undone and whose texts have no comma. -/
structure TextCodec where
  encode : List UInt8 → List Char
  decode : List Char → Option (List UInt8)
  decode_encode : ∀ bytes, decode (encode bytes) = some bytes
  comma_not_mem : ∀ bytes, ',' ∉ encode bytes

namespace Base64

/-- The character for six bits. -/
def sextet (n : Nat) : Char :=
  if n < 26 then Char.ofNat (n + 65)
  else if n < 52 then Char.ofNat (n + 71)
  else if n < 62 then Char.ofNat (n - 4)
  else if n = 62 then '+'
  else '/'

/-- The six bits of a character of the alphabet. -/
def value (c : Char) : Option Nat :=
  if 65 ≤ c.toNat ∧ c.toNat ≤ 90 then some (c.toNat - 65)
  else if 97 ≤ c.toNat ∧ c.toNat ≤ 122 then some (c.toNat - 71)
  else if 48 ≤ c.toNat ∧ c.toNat ≤ 57 then some (c.toNat + 4)
  else if c = '+' then some 62
  else if c = '/' then some 63
  else none

def encode : List UInt8 → List Char
  | [] => []
  | [a] => [sextet (a.toNat / 4), sextet (a.toNat % 4 * 16), '=', '=']
  | [a, b] =>
    [sextet (a.toNat / 4), sextet (a.toNat % 4 * 16 + b.toNat / 16), sextet (b.toNat % 16 * 4), '=']
  | a :: b :: c :: rest =>
    sextet (a.toNat / 4) :: sextet (a.toNat % 4 * 16 + b.toNat / 16) ::
      sextet (b.toNat % 16 * 4 + c.toNat / 64) :: sextet (c.toNat % 64) :: encode rest

/-- The last group, of one byte. -/
def decodeOne (x y : Char) : Option (List UInt8) := do
  let p ← value x
  let q ← value y
  if q % 16 = 0 then some [UInt8.ofNat (p * 4 + q / 16)] else none

/-- The last group, of two bytes. -/
def decodeTwo (x y z : Char) : Option (List UInt8) := do
  let p ← value x
  let q ← value y
  let r ← value z
  if r % 4 = 0 then some [UInt8.ofNat (p * 4 + q / 16), UInt8.ofNat (q % 16 * 16 + r / 4)] else none

/-- A full group. -/
def decodeThree (x y z w : Char) : Option (List UInt8) := do
  let p ← value x
  let q ← value y
  let r ← value z
  let s ← value w
  some [UInt8.ofNat (p * 4 + q / 16), UInt8.ofNat (q % 16 * 16 + r / 4), UInt8.ofNat (r % 4 * 64 + s)]

def decode : List Char → Option (List UInt8)
  | [] => some []
  | x :: y :: z :: w :: rest =>
    if w = '=' then
      if rest ≠ [] then none
      else if z = '=' then decodeOne x y
      else decodeTwo x y z
    else (decodeThree x y z w).bind fun bytes => (decode rest).map (bytes ++ ·)
  | _ => none

theorem value_sextet {n : Nat} (h : n < 64) : value (sextet n) = some n := by
  revert n
  decide

theorem sextet_ne {n : Nat} (h : n < 64) : sextet n ≠ '=' ∧ sextet n ≠ ',' := by
  revert n
  decide

/-- Bytes come back from the bits they were cut into. -/
theorem ofNat_eq {b : UInt8} {n : Nat} (h : n = b.toNat) : UInt8.ofNat n = b := by
  rw [h, UInt8.ofNat_toNat]

theorem decode_encode (bytes : List UInt8) : decode (encode bytes) = some bytes := by
  induction bytes using encode.induct with
  | case1 => rfl
  | case2 a =>
    have ha := a.toNat_lt
    rw [encode, decode, if_pos rfl, if_neg (by simp), if_pos rfl, decodeOne,
      value_sextet (by omega), value_sextet (by omega)]
    simp only [Option.bind_eq_bind, Option.bind_some]
    rw [if_pos (by omega), ofNat_eq (b := a) (by omega)]
  | case3 a b =>
    have ha := a.toNat_lt
    have hb := b.toNat_lt
    have hz := (sextet_ne (n := b.toNat % 16 * 4) (by omega)).1
    rw [encode, decode, if_pos rfl, if_neg (by simp), if_neg hz, decodeTwo,
      value_sextet (by omega), value_sextet (by omega), value_sextet (by omega)]
    simp only [Option.bind_eq_bind, Option.bind_some]
    rw [if_pos (by omega), ofNat_eq (b := a) (by omega), ofNat_eq (b := b) (by omega)]
  | case4 a b c rest ih =>
    have ha := a.toNat_lt
    have hb := b.toNat_lt
    have hc := c.toNat_lt
    have hw := (sextet_ne (n := c.toNat % 64) (by omega)).1
    rw [encode, decode, if_neg hw, decodeThree, value_sextet (by omega), value_sextet (by omega),
      value_sextet (by omega), value_sextet (by omega), ih]
    simp only [Option.bind_eq_bind, Option.bind_some]
    rw [ofNat_eq (b := a) (by omega), ofNat_eq (b := b) (by omega), ofNat_eq (b := c) (by omega)]
    rfl

/-- The characters of an encoding. -/
theorem mem_encode {bytes : List UInt8} {ch : Char} (h : ch ∈ encode bytes) :
    ch = '=' ∨ ∃ n < 64, ch = sextet n := by
  induction bytes using encode.induct with
  | case1 => cases h
  | case2 a =>
    have ha := a.toNat_lt
    simp only [encode, List.mem_cons, List.not_mem_nil, or_false] at h
    rcases h with rfl | rfl | rfl | rfl
    · exact .inr ⟨_, by omega, rfl⟩
    · exact .inr ⟨_, by omega, rfl⟩
    · exact .inl rfl
    · exact .inl rfl
  | case3 a b =>
    have ha := a.toNat_lt
    have hb := b.toNat_lt
    simp only [encode, List.mem_cons, List.not_mem_nil, or_false] at h
    rcases h with rfl | rfl | rfl | rfl
    · exact .inr ⟨_, by omega, rfl⟩
    · exact .inr ⟨_, by omega, rfl⟩
    · exact .inr ⟨_, by omega, rfl⟩
    · exact .inl rfl
  | case4 a b c rest ih =>
    have ha := a.toNat_lt
    have hb := b.toNat_lt
    have hc := c.toNat_lt
    simp only [encode, List.mem_cons] at h
    rcases h with rfl | rfl | rfl | rfl | h
    · exact .inr ⟨_, by omega, rfl⟩
    · exact .inr ⟨_, by omega, rfl⟩
    · exact .inr ⟨_, by omega, rfl⟩
    · exact .inr ⟨_, by omega, rfl⟩
    · exact ih h

theorem comma_not_mem (bytes : List UInt8) : ',' ∉ encode bytes := by
  intro h
  rcases mem_encode h with heq | ⟨n, hn, heq⟩
  · exact absurd heq (by decide)
  · exact (sextet_ne hn).2 heq.symm

/-- The standard engine as a codec. -/
def standard : TextCodec := ⟨encode, decode, decode_encode, comma_not_mem⟩

example : encode [110, 44, 44] = "biws".toList := by decide
example : decode "Zg=".toList = none := by decide

end Base64
