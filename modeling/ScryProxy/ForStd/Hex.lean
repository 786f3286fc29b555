import ScryProxy.ForStd.Str

/-!
# Hexadecimal texts

Bytes as pairs of hex digits, in lower or upper case, and as a hyphenated UUID.
-/

namespace Hex

/-- The digit of a value below 16. -/
def digit (upper : Bool) (n : Nat) : Char :=
  if upper then (Nat.digitChar n).toUpper else Nat.digitChar n

/-- The two digits of a byte. -/
def byte (upper : Bool) (b : UInt8) : Str := [digit upper (b.toNat / 16), digit upper (b.toNat % 16)]

/-- The digits of bytes. -/
def encode (upper : Bool) (bytes : List UInt8) : Str := bytes.flatMap (byte upper)

/-- The hyphenated form of a UUID: groups of 4, 2, 2, 2 and 6 bytes. -/
def hyphenated (upper : Bool) (bytes : List UInt8) : Str :=
  encode upper (bytes.take 4) ++ '-' :: (encode upper ((bytes.drop 4).take 2) ++
    '-' :: (encode upper ((bytes.drop 6).take 2) ++ '-' :: (encode upper ((bytes.drop 8).take 2) ++
      '-' :: encode upper (bytes.drop 10))))

@[simp] theorem encode_nil (upper : Bool) : encode upper [] = [] := rfl

@[simp] theorem encode_cons (upper : Bool) (b : UInt8) (bytes : List UInt8) :
    encode upper (b :: bytes) = byte upper b ++ encode upper bytes := List.flatMap_cons

theorem encode_append (upper : Bool) (bytes more : List UInt8) :
    encode upper (bytes ++ more) = encode upper bytes ++ encode upper more := List.flatMap_append

/-- Every digit is read as its value. -/
theorem hexDigit_digit (upper : Bool) {n : Nat} (h : n < 16) : Str.hexDigit (digit upper n) = some n := by
  have hall : ∀ upper : Bool, ∀ n : Fin 16, Str.hexDigit (digit upper n) = some n.val := by decide
  exact hall upper ⟨n, h⟩

theorem hexDigit_of_mem_encode {upper : Bool} {bytes : List UInt8} {c : Char}
    (hc : c ∈ encode upper bytes) : Str.isAsciiHexdigit c = true := by
  obtain ⟨b, -, hc⟩ := List.mem_flatMap.1 hc
  have hb := b.toNat_lt
  rw [Str.isAsciiHexdigit]
  rcases List.mem_cons.1 hc with rfl | hc
  · rw [hexDigit_digit upper (by omega)]
    rfl
  · rw [List.mem_singleton.1 hc, hexDigit_digit upper (by omega)]
    rfl

/-- The digits of a byte are read as the byte. -/
theorem parseU8Hex_byte (upper : Bool) (b : UInt8) : Str.parseU8Hex (byte upper b) = some b := by
  have hb := b.toNat_lt
  have hhigh := hexDigit_digit upper (show b.toNat / 16 < 16 by omega)
  have hlow := hexDigit_digit upper (show b.toNat % 16 < 16 by omega)
  have hvalue : (0 * 16 + b.toNat / 16) * 16 + b.toNat % 16 = b.toNat := by omega
  have hdigits : (byte upper b).mapM Str.hexDigit = some [b.toNat / 16, b.toNat % 16] := by
    simp [byte, hhigh, hlow]
  have hne : byte upper b ≠ [] := List.cons_ne_nil _ _
  have hread : Str.hexByte (byte upper b) = some b := by
    rw [Str.hexByte, if_neg hne, hdigits, Option.bind_some]
    simp only [List.foldl_cons, List.foldl_nil, hvalue, UInt8.ofNat_toNat]
    exact if_pos hb
  unfold Str.parseU8Hex
  split
  · next ds heq =>
    -- a sign is no digit
    have hplus : digit upper (b.toNat / 16) = '+' := (List.cons_eq_cons.1 heq).1
    rw [hplus] at hhigh
    cases hhigh
  · exact hread

theorem byteLen_encode (upper : Bool) (bytes : List UInt8) :
    Str.byteLen (encode upper bytes) = 2 * bytes.length := by
  rw [Str.byteLen_of_forall_utf8Size fun c hc =>
    Str.utf8Size_of_isAsciiHexdigit (hexDigit_of_mem_encode hc)]
  induction bytes with
  | nil => rfl
  | cons b bytes ih =>
    rw [encode_cons, List.length_append, ih, List.length_cons]
    simp only [byte, List.length_cons, List.length_nil]
    omega

theorem byteLen_byte (upper : Bool) (b : UInt8) : Str.byteLen (byte upper b) = 2 := by
  have hlen := byteLen_encode upper [b]
  rwa [encode_cons, encode_nil, List.append_nil] at hlen

/-- The digits of a hyphenated UUID are those of its bytes. -/
theorem filter_hyphenated (upper : Bool) (bytes : List UInt8) :
    (hyphenated upper bytes).filter Str.isAsciiHexdigit = encode upper bytes := by
  have hkeep : ∀ part, (encode upper part).filter Str.isAsciiHexdigit = encode upper part :=
    fun part => List.filter_eq_self.2 fun c hc => hexDigit_of_mem_encode hc
  have hhyphen : ∀ rest : Str, ('-' :: rest).filter Str.isAsciiHexdigit =
      rest.filter Str.isAsciiHexdigit := fun rest => List.filter_cons_of_neg (by decide)
  have hparts : bytes = bytes.take 4 ++ ((bytes.drop 4).take 2 ++ ((bytes.drop 6).take 2 ++
      ((bytes.drop 8).take 2 ++ bytes.drop 10))) := by
    have hdrop : ∀ n, bytes.drop (n + 2) = (bytes.drop n).drop 2 := fun n => by rw [List.drop_drop]
    rw [hdrop 8, List.take_append_drop, hdrop 6, List.take_append_drop, hdrop 4,
      List.take_append_drop, List.take_append_drop]
  simp only [hyphenated, List.filter_append, hhyphen, hkeep, ← encode_append, ← hparts]

end Hex
