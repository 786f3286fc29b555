import Mathlib.Data.List.DropRight
import ScryProxy.ForStd.Rust
import ScryProxy.ForStd.UnicodeCase

/-!
# Rust string slices

A `str` is modelled as the list of its characters.  Rust indexes a `str` by byte
offset and panics when an offset is not on a character boundary; `find`,
`sliceFrom` and `sliceTo` keep that, computing offsets from the UTF-8 width of
each character.
-/

/-- The characters of a Rust `str`. -/
abbrev Str := List Char

namespace Str

/-- `char::is_whitespace` (the `White_Space` property). -/
def isWhitespace (c : Char) : Bool :=
  decide (9 ≤ c.toNat ∧ c.toNat ≤ 13) || c.toNat == 0x20 || c.toNat == 0x85 || c.toNat == 0xA0 ||
  c.toNat == 0x1680 || decide (0x2000 ≤ c.toNat ∧ c.toNat ≤ 0x200A) || c.toNat == 0x2028 ||
  c.toNat == 0x2029 || c.toNat == 0x202F || c.toNat == 0x205F || c.toNat == 0x3000

/-- A text that can stand before a NUL. -/
abbrev NulFree (s : Str) : Prop := '\x00' ∉ s

/-- `str::trim_start`. -/
def trimStart (s : Str) : Str := s.dropWhile isWhitespace

/-- `str::trim`. -/
def trim (s : Str) : Str := (trimStart s).rdropWhile isWhitespace

/-- `str::trim_matches` with a character pattern. -/
def trimMatches (c : Char) (s : Str) : Str := (s.dropWhile (· == c)).rdropWhile (· == c)

/-- `str::starts_with`. -/
def startsWith (s pat : Str) : Bool := pat.isPrefixOf s

/-- `str::find`: byte offset of the first occurrence of `pat`. -/
def find (s pat : Str) : Option Nat :=
  match s with
  | [] => if pat.isEmpty then some 0 else none
  | c :: t => if pat.isPrefixOf (c :: t) then some 0 else (find t pat).map (· + c.utf8Size)

/-- `str::contains`. -/
def contains (s pat : Str) : Bool := (s.find pat).isSome

/-- `&s[n..]`: panics unless `n` is a character boundary. -/
def sliceFrom : Str → Nat → Rust Str
  | s, 0 => .ok s
  | [], _ + 1 => .error .panic
  | c :: t, n + 1 => if c.utf8Size ≤ n + 1 then sliceFrom t (n + 1 - c.utf8Size) else .error .panic

/-- `&s[..n]`: panics unless `n` is a character boundary. -/
def sliceTo : Str → Nat → Rust Str
  | _, 0 => .ok []
  | [], _ + 1 => .error .panic
  | c :: t, n + 1 =>
    if c.utf8Size ≤ n + 1 then (sliceTo t (n + 1 - c.utf8Size)).map (c :: ·) else .error .panic

/-- `&s[a..b]`: panics when `b < a` or an end is not a character boundary. -/
def slice (s : Str) (a b : Nat) : Rust Str := do
  let front ← sliceTo s b
  sliceFrom front a

/-- `s.get(n..)`: the slice, or `none` where indexing would panic. -/
def getFrom (s : Str) (n : Nat) : Option Str := (sliceFrom s n).toOption

/-- `s.split_whitespace().next()`. -/
def firstWord (s : Str) : Option Str :=
  match (trimStart s).takeWhile fun c => !isWhitespace c with
  | [] => none
  | w => some w

/-- A line without the carriage return at its end. -/
def dropCr (line : Str) : Str := if line.getLast? = some '\r' then line.dropLast else line

/-- `str::lines`, with the part of the current line that has been seen. -/
def linesFrom (current : Str) : Str → List Str
  | [] => if current = [] then [] else [current]
  | c :: s => if c = '\n' then dropCr current :: linesFrom [] s else linesFrom (current ++ [c]) s

/-- `str::lines`. -/
def lines (s : Str) : List Str := linesFrom [] s

/-- `str::to_uppercase`. -/
def toUppercase (s : Str) : Str := s.flatMap UnicodeCase.charToUppercase

/-- `str::to_lowercase`, after the characters `before` (nearest first).  A capital sigma that ends a
    word becomes a final sigma. -/
def toLowercaseAfter (before : Str) : Str → Str
  | [] => []
  | c :: rest =>
    let lower :=
      if c.toNat = 0x3A3 then
        if UnicodeCase.ignorableThenCased before && !UnicodeCase.ignorableThenCased rest then
          [Char.ofNat 0x3C2]
        else [Char.ofNat 0x3C3]
      else UnicodeCase.charToLowercase c
    lower ++ toLowercaseAfter (c :: before) rest

/-- `str::to_lowercase`. -/
def toLowercase (s : Str) : Str := toLowercaseAfter [] s

/-- `str::eq_ignore_ascii_case`. -/
def eqIgnoreAsciiCase (s t : Str) : Bool := s.map Char.toLower == t.map Char.toLower

/-- A non-empty run of ASCII digits, as a number. -/
def decimal (s : Str) : Option Nat :=
  if s ≠ [] ∧ s.all Char.isDigit then
    some (s.foldl (fun n c => n * 10 + (c.toNat - '0'.toNat)) 0)
  else none

/-- `str::parse::<i64>`: an optional sign, then digits, in range. -/
def parseI64 : Str → Option Int
  | '-' :: ds => (decimal ds).bind fun n => if n ≤ 2 ^ 63 then some (-(n : Int)) else none
  | '+' :: ds => (decimal ds).bind fun n => if n < 2 ^ 63 then some (n : Int) else none
  | ds => (decimal ds).bind fun n => if n < 2 ^ 63 then some (n : Int) else none

/-- `str::parse::<u32>`. -/
def parseU32 : Str → Option Nat
  | '+' :: ds => (decimal ds).bind fun n => if n < 2 ^ 32 then some n else none
  | ds => (decimal ds).bind fun n => if n < 2 ^ 32 then some n else none

/-- `str::parse` of a signed type of the given width. -/
def parseSigned (bits : Nat) : Str → Option Int
  | '-' :: ds => (decimal ds).bind fun n => if n ≤ 2 ^ (bits - 1) then some (-(n : Int)) else none
  | '+' :: ds => (decimal ds).bind fun n => if n < 2 ^ (bits - 1) then some (n : Int) else none
  | ds => (decimal ds).bind fun n => if n < 2 ^ (bits - 1) then some (n : Int) else none

/-- `str::parse::<i16>`. -/
def parseI16 : Str → Option Int := parseSigned 16

/-- `str::parse::<i32>`. -/
def parseI32 : Str → Option Int := parseSigned 32

/-- Value of a hex digit. -/
def hexDigit (c : Char) : Option Nat :=
  if '0' ≤ c ∧ c ≤ '9' then some (c.toNat - '0'.toNat)
  else if 'a' ≤ c ∧ c ≤ 'f' then some (c.toNat - 'a'.toNat + 10)
  else if 'A' ≤ c ∧ c ≤ 'F' then some (c.toNat - 'A'.toNat + 10)
  else none

/-- `char::is_ascii_hexdigit`. -/
def isAsciiHexdigit (c : Char) : Bool := (hexDigit c).isSome

/-- A non-empty run of hex digits, as a byte. -/
def hexByte (s : Str) : Option UInt8 :=
  if s = [] then none
  else (s.mapM hexDigit).bind fun ds =>
    let n := ds.foldl (fun n d => n * 16 + d) 0
    if n < 256 then some (UInt8.ofNat n) else none

/-- `u8::from_str_radix(s, 16)`: an unsigned type takes a leading `+` as well. -/
def parseU8Hex : Str → Option UInt8
  | '+' :: ds => hexByte ds
  | ds => hexByte ds

/-- `str::replace` of one character. -/
def replaceChar (s : Str) (c : Char) (new : Str) : Str :=
  s.flatMap fun d => if d = c then new else [d]

/-- `str::strip_prefix`. -/
def stripPrefix (s pat : Str) : Option Str :=
  if s.startsWith pat then some (s.drop pat.length) else none

example : toUppercase "begin ıſß".toList = "BEGIN ISSS".toList := by decide
example : toLowercase "ΑΣ ΣΑ".toList = "ας σα".toList := by decide +kernel

/-! ## Byte offsets -/

/-- `str::len`: the length in bytes. -/
def byteLen (s : Str) : Nat := (s.map Char.utf8Size).sum

/-- `str::is_char_boundary`. -/
def isCharBoundary : Str → Nat → Bool
  | _, 0 => true
  | [], _ + 1 => false
  | c :: t, n + 1 => decide (c.utf8Size ≤ n + 1) && isCharBoundary t (n + 1 - c.utf8Size)

@[simp] theorem byteLen_nil : byteLen [] = 0 := rfl

@[simp] theorem byteLen_cons (c : Char) (s : Str) : byteLen (c :: s) = c.utf8Size + byteLen s := by
  simp [byteLen]

@[simp] theorem byteLen_append (s t : Str) : byteLen (s ++ t) = byteLen s + byteLen t := by
  simp [byteLen]

variable {c : Char}

theorem utf8Size_of_ascii (h : c.toNat < 128) : c.utf8Size = 1 := by
  rw [Char.utf8Size_eq_one_iff, UInt32.le_iff_toNat_le]
  exact Nat.le_of_lt_succ h

variable {s : Str}

theorem byteLen_of_forall_utf8Size (h : ∀ c ∈ s, c.utf8Size = 1) : byteLen s = s.length := by
  induction s with
  | nil => rfl
  | cons c s ih =>
    obtain ⟨hc, hs⟩ := List.forall_mem_cons.1 h
    rw [byteLen_cons, hc, ih hs, List.length_cons, Nat.add_comm]

theorem byteLen_eq_zero (h : byteLen s = 0) : s = [] := by
  cases s with
  | nil => rfl
  | cons c s =>
    have := c.utf8Size_pos
    rw [byteLen_cons] at h
    omega

theorem utf8Size_of_isAsciiHexdigit (h : isAsciiHexdigit c = true) : c.utf8Size = 1 := by
  have hle : ∀ d : Char, d.toNat < 128 → c ≤ d → c.toNat < 128 :=
    fun d hd hcd => Nat.lt_of_le_of_lt (UInt32.le_iff_toNat_le.1 hcd) hd
  refine utf8Size_of_ascii ?_
  unfold isAsciiHexdigit hexDigit at h
  split_ifs at h with hdigit hlower hupper
  · exact hle '9' (by decide) hdigit.2
  · exact hle 'f' (by decide) hlower.2
  · exact hle 'F' (by decide) hupper.2
  · cases h

variable {n : Nat}

/-- Slicing works exactly at the character boundaries. -/
theorem sliceFrom_returns_iff : (∃ r, sliceFrom s n = .ok r) ↔ isCharBoundary s n = true := by
  induction s generalizing n with
  | nil => cases n <;> simp [sliceFrom, isCharBoundary]
  | cons c s ih =>
    cases n with
    | zero => simp [sliceFrom, isCharBoundary]
    | succ n =>
      simp only [sliceFrom, isCharBoundary, Bool.and_eq_true, decide_eq_true_eq]
      split
      · next h => simp only [ih, h, true_and]
      · next h => simp [h]

theorem sliceTo_returns_iff : (∃ r, sliceTo s n = .ok r) ↔ isCharBoundary s n = true := by
  induction s generalizing n with
  | nil => cases n <;> simp [sliceTo, isCharBoundary]
  | cons c s ih =>
    cases n with
    | zero => simp [sliceTo, isCharBoundary]
    | succ n =>
      simp only [sliceTo, isCharBoundary, Bool.and_eq_true, decide_eq_true_eq]
      split
      · next h => simp only [Rust.map_returns_iff, ih, h, true_and]
      · next h => simp [h]

theorem sliceTo_append (front back : Str) : sliceTo (front ++ back) (byteLen front) = .ok front := by
  induction front with
  | nil => cases back <;> rfl
  | cons c front ih =>
    obtain ⟨n, hn⟩ := Nat.exists_eq_succ_of_ne_zero (Nat.ne_of_gt c.utf8Size_pos)
    rw [byteLen_cons, hn, Nat.succ_add, List.cons_append, sliceTo, hn, if_pos (by omega),
      show n + byteLen front + 1 - n.succ = byteLen front by omega, ih]
    rfl

theorem sliceFrom_append (front back : Str) : sliceFrom (front ++ back) (byteLen front) = .ok back := by
  induction front with
  | nil => cases back <;> rfl
  | cons c front ih =>
    obtain ⟨n, hn⟩ := Nat.exists_eq_succ_of_ne_zero (Nat.ne_of_gt c.utf8Size_pos)
    rw [byteLen_cons, hn, Nat.succ_add, List.cons_append, sliceFrom, hn, if_pos (by omega),
      show n + byteLen front + 1 - n.succ = byteLen front by omega, ih]

/-- A part of a text is its slice. -/
theorem slice_append (front part back : Str) :
    slice (front ++ (part ++ back)) (byteLen front) (byteLen front + byteLen part) = .ok part := by
  rw [slice, ← byteLen_append, ← List.append_assoc, sliceTo_append, Rust.ok_bind, sliceFrom_append]

/-- A boundary is the length of a front part. -/
theorem isCharBoundary_iff :
    isCharBoundary s n = true ↔ ∃ front back, s = front ++ back ∧ byteLen front = n := by
  constructor
  · intro h
    induction s generalizing n with
    | nil =>
      cases n with
      | zero => exact ⟨[], [], rfl, rfl⟩
      | succ n => simp [isCharBoundary] at h
    | cons c s ih =>
      cases n with
      | zero => exact ⟨[], c :: s, rfl, rfl⟩
      | succ n =>
        simp only [isCharBoundary, Bool.and_eq_true, decide_eq_true_eq] at h
        obtain ⟨front, back, rfl, hlen⟩ := ih h.2
        exact ⟨c :: front, back, rfl, by rw [byteLen_cons]; omega⟩
  · rintro ⟨front, back, rfl, rfl⟩
    exact sliceTo_returns_iff.1 ⟨front, sliceTo_append front back⟩

variable {pat : Str}

/-- The text that is found stands at its offset. -/
theorem exists_of_find (h : find s pat = some n) :
    ∃ front back, s = front ++ (pat ++ back) ∧ byteLen front = n := by
  induction s generalizing n with
  | nil =>
    unfold find at h
    split at h
    · next hpat =>
      cases h
      exact ⟨[], [], by simp [List.isEmpty_iff.1 hpat], rfl⟩
    · cases h
  | cons c s ih =>
    unfold find at h
    split at h
    · next hpat =>
      cases h
      obtain ⟨back, hback⟩ := List.isPrefixOf_iff_prefix.1 hpat
      exact ⟨[], back, hback.symm, rfl⟩
    · obtain ⟨m, hm, rfl⟩ := Option.map_eq_some_iff.1 h
      obtain ⟨front, back, rfl, rfl⟩ := ih hm
      exact ⟨c :: front, back, rfl, by rw [byteLen_cons]; omega⟩

theorem isCharBoundary_of_find (h : find s pat = some n) :
    isCharBoundary s n = true ∧ isCharBoundary s (n + byteLen pat) = true := by
  obtain ⟨front, back, rfl, rfl⟩ := exists_of_find h
  constructor
  · exact isCharBoundary_iff.2 ⟨front, pat ++ back, rfl, rfl⟩
  · exact isCharBoundary_iff.2 ⟨front ++ pat, back, by simp, by simp⟩

/-- Of two front parts the one with fewer bytes is a front part of the other. -/
theorem prefix_of_byteLen_le {t u : Str} (hs : s <+: u) (ht : t <+: u) (h : byteLen s ≤ byteLen t) :
    s <+: t := by
  rcases List.prefix_or_prefix_of_prefix hs ht with hst | ⟨r, rfl⟩
  · exact hst
  · have hr : byteLen r = 0 := by
      rw [byteLen_append] at h
      omega
    obtain rfl := byteLen_eq_zero hr
    exact ⟨[], by simp⟩

theorem append_inj_of_byteLen {t s' t' : Str} (h : s ++ t = s' ++ t')
    (hlen : byteLen s = byteLen s') : s = s' ∧ t = t' := by
  have hs : s <+: s' := prefix_of_byteLen_le ⟨t, rfl⟩ ⟨t', h.symm⟩ hlen.le
  have hs' : s' <+: s := prefix_of_byteLen_le ⟨t', h.symm⟩ ⟨t, rfl⟩ hlen.ge
  obtain rfl := hs.eq_of_length_le hs'.length_le
  exact ⟨rfl, List.append_cancel_left h⟩

theorem isCharBoundary_append (front s : Str) (n : Nat) :
    isCharBoundary (front ++ s) (byteLen front + n) = isCharBoundary s n := by
  rw [Bool.eq_iff_iff, isCharBoundary_iff, isCharBoundary_iff]
  constructor
  · rintro ⟨f, back, hs, hlen⟩
    obtain ⟨f, rfl⟩ : front <+: f := prefix_of_byteLen_le ⟨s, rfl⟩ ⟨back, hs.symm⟩ (by omega)
    rw [List.append_assoc] at hs
    rw [byteLen_append] at hlen
    exact ⟨f, back, List.append_cancel_left hs, by omega⟩
  · rintro ⟨f, back, rfl, rfl⟩
    exact ⟨front ++ f, back, by simp, byteLen_append front f⟩

/-- A slice needs two boundaries in order. -/
theorem slice_returns_iff {start stop : Nat} :
    (∃ r, slice s start stop = .ok r) ↔
      isCharBoundary s start = true ∧ isCharBoundary s stop = true ∧ start ≤ stop := by
  constructor
  · rintro ⟨r, hr⟩
    obtain ⟨front, hfront, hback⟩ := Rust.bind_returns.1 hr
    have hstop := sliceTo_returns_iff.1 ⟨front, hfront⟩
    obtain ⟨f, back, rfl, rfl⟩ := isCharBoundary_iff.1 hstop
    rw [sliceTo_append] at hfront
    cases hfront
    obtain ⟨f', back', rfl, rfl⟩ := isCharBoundary_iff.1 (sliceFrom_returns_iff.1 ⟨r, hback⟩)
    refine ⟨isCharBoundary_iff.2 ⟨f', back' ++ back, by simp, rfl⟩, hstop, ?_⟩
    rw [byteLen_append]
    omega
  · rintro ⟨hstart, hstop, hle⟩
    obtain ⟨front, back, hs, rfl⟩ := isCharBoundary_iff.1 hstart
    obtain ⟨front', back', rfl, rfl⟩ := isCharBoundary_iff.1 hstop
    obtain ⟨between, rfl⟩ : front <+: front' :=
      prefix_of_byteLen_le ⟨back, hs.symm⟩ ⟨back', rfl⟩ hle
    rw [slice, sliceTo_append, Rust.ok_bind, sliceFrom_append]
    exact ⟨between, rfl⟩

/-- In ASCII text every offset is a boundary. -/
theorem isCharBoundary_of_ascii (hs : ∀ c ∈ s, c.utf8Size = 1) (hn : n ≤ byteLen s) :
    isCharBoundary s n = true := by
  induction s generalizing n with
  | nil =>
    obtain rfl : n = 0 := Nat.le_zero.1 hn
    rfl
  | cons c s ih =>
    cases n with
    | zero => rfl
    | succ n =>
      have hc := hs c List.mem_cons_self
      rw [byteLen_cons, hc] at hn
      have hrec := ih (fun d hd => hs d (List.mem_cons_of_mem c hd)) (show n ≤ byteLen s by omega)
      simp [isCharBoundary, hc, hrec]

/-! ## Texts found in uppercased text -/

/-- The uppercase `cs` of a character can stand at the front of `pat`, or `pat` inside it. -/
def meets (cs pat : Str) : Bool := cs.isPrefixOf pat || pat.isPrefixOf cs

/-- An ASCII text whose front no uppercase of a character above ASCII can be. -/
def plainFront (pat : Str) : Bool :=
  pat.head?.all (·.toNat < 128) && !meets ['I'] pat && !meets ['S'] pat &&
    (UnicodeCase.upperMulti.map Prod.snd).all fun cs => !meets (cs.map Char.ofNat) pat

theorem meets_of_prefix {cs t : Str} (h : pat <+: cs ++ t) : meets cs pat = true := by
  rw [meets, Bool.or_eq_true, List.isPrefixOf_iff_prefix, List.isPrefixOf_iff_prefix]
  exact List.prefix_or_prefix_of_prefix (List.prefix_append cs t) h

/-- The first character of a text that is uppercased to a front: it is ASCII and uppercased to the
    first character there, or it is above ASCII. -/
theorem toUppercase_front {p : Char} (h : p :: pat <+: toUppercase s) :
    ∃ c t, s = c :: t ∧ (c.utf8Size = 1 ∧ pat <+: toUppercase t ∨
      128 ≤ c.toNat ∧ p :: pat <+: UnicodeCase.charToUppercase c ++ toUppercase t) := by
  cases s with
  | nil => cases List.prefix_nil.1 h
  | cons c t =>
    have hcons : toUppercase (c :: t) = UnicodeCase.charToUppercase c ++ toUppercase t := rfl
    rw [hcons] at h
    refine ⟨c, t, rfl, ?_⟩
    by_cases hc : c.toNat < 128
    · obtain ⟨d, hd⟩ := UnicodeCase.charToUppercase_ascii hc
      rw [hd] at h
      exact .inl ⟨utf8Size_of_ascii hc, (List.cons_prefix_cons.1 h).2⟩
    · exact .inr ⟨Nat.not_lt.1 hc, h⟩

/-- The character that is uppercased to the front of such a text is ASCII. -/
theorem ascii_of_plainFront {p : Char} (hplain : plainFront (p :: pat) = true)
    (h : p :: pat <+: toUppercase s) :
    ∃ c t, s = c :: t ∧ c.utf8Size = 1 ∧ pat <+: toUppercase t := by
  obtain ⟨c, t, rfl, hascii | ⟨hc, h⟩⟩ := toUppercase_front h
  · exact ⟨c, t, rfl, hascii⟩
  · -- none of the uppercases above ASCII fits
    have hmeets := meets_of_prefix h
    simp only [plainFront, List.head?_cons, Option.all_some, Bool.and_eq_true, decide_eq_true_eq,
      Bool.not_eq_true', List.all_eq_true] at hplain
    rcases UnicodeCase.charToUppercase_cases hc with
      ⟨d, hd, hlarge⟩ | ⟨-, hI⟩ | ⟨-, hS⟩ | ⟨cs, hcs, hseq⟩
    · rw [hd] at h
      obtain ⟨rfl, -⟩ := List.cons_prefix_cons.1 h
      omega
    · rw [hI, hplain.1.1.2] at hmeets
      cases hmeets
    · rw [hS, hplain.1.2] at hmeets
      cases hmeets
    · rw [hseq, hplain.2 cs hcs] at hmeets
      cases hmeets

/-- As many ASCII characters as the text has. -/
theorem exists_of_plainFront (pat more : Str)
    (hplain : ∀ n < pat.length, plainFront ((pat ++ more).drop n) = true)
    (h : pat ++ more <+: toUppercase s) :
    ∃ front back, s = front ++ back ∧ byteLen front = pat.length ∧ more <+: toUppercase back := by
  induction pat generalizing s with
  | nil => exact ⟨[], s, rfl, rfl, h⟩
  | cons p pat ih =>
    obtain ⟨c, t, rfl, hsize, hrest⟩ := ascii_of_plainFront (hplain 0 (Nat.succ_pos _)) h
    have hplain' : ∀ n < pat.length, plainFront ((pat ++ more).drop n) = true :=
      fun n hn => hplain (n + 1) (Nat.succ_lt_succ hn)
    obtain ⟨front, back, rfl, hlen, hmore⟩ := ih hplain' hrest
    exact ⟨c :: front, back, rfl, by rw [byteLen_cons, hsize, hlen, List.length_cons]; omega, hmore⟩

theorem isCharBoundary_of_plain (hplain : ∀ n < pat.length, plainFront (pat.drop n) = true)
    (h : startsWith (toUppercase s) pat = true) : isCharBoundary s pat.length = true := by
  rw [startsWith, List.isPrefixOf_iff_prefix] at h
  obtain ⟨front, back, hs, hlen, -⟩ :=
    exists_of_plainFront pat [] (by simpa using hplain) (by simpa using h)
  exact isCharBoundary_iff.2 ⟨front, back, hs, hlen⟩

/-! ## Texts inside texts -/

theorem toUppercase_map_toLower (s : Str) : toUppercase (s.map Char.toLower) = toUppercase s := by
  rw [toUppercase, List.flatMap_map]
  simp only [UnicodeCase.charToUppercase_toLower]
  rfl

theorem contains_of_infix (h : pat <:+: s) : contains s pat = true := by
  unfold contains
  induction s with
  | nil =>
    rw [List.infix_nil.1 h]
    rfl
  | cons c s ih =>
    unfold find
    split
    · rfl
    · rename_i hpre
      rcases List.infix_cons_iff.1 h with h | h
      · exact absurd (List.isPrefixOf_iff_prefix.2 h) hpre
      · rw [Option.isSome_map]
        exact ih h

theorem contains_iff : contains s pat = true ↔ pat <:+: s := by
  refine ⟨fun h => ?_, contains_of_infix⟩
  obtain ⟨n, hn⟩ := Option.isSome_iff_exists.1 h
  obtain ⟨front, back, rfl, -⟩ := exists_of_find hn
  exact ⟨front, back, List.append_assoc _ _ _⟩

variable {p : Char → Bool}

/-- A text with nothing to drop stands in what is left after dropping at the front. -/
theorem infix_dropWhile {l : Str} (hne : l ≠ []) (hl : ∀ c ∈ l, p c = false) (h : l <:+: s) :
    l <:+: s.dropWhile p := by
  induction s with
  | nil => exact absurd (List.infix_nil.1 h) hne
  | cons c s ih =>
    cases hc : p c with
    | false => rwa [List.dropWhile_cons_of_neg (by simp [hc])]
    | true =>
      rw [List.dropWhile_cons_of_pos hc]
      rcases List.infix_cons_iff.1 h with hpre | hin
      · -- it would start with a dropped character
        obtain ⟨d, l, rfl⟩ := List.exists_cons_of_ne_nil hne
        obtain ⟨rfl, -⟩ := List.cons_prefix_cons.1 hpre
        have hd := hl d List.mem_cons_self
        rw [hc] at hd
        exact nomatch hd
      · exact ih hin

/-- A text without whitespace stands in the trimmed text as well. -/
theorem infix_trim {l : Str} (hne : l ≠ []) (hl : ∀ c ∈ l, isWhitespace c = false) (h : l <:+: s) :
    l <:+: trim s := by
  have hrev : l.reverse <:+: (trimStart s).reverse :=
    List.reverse_infix.2 (infix_dropWhile hne hl h)
  have hend := infix_dropWhile (by simpa using hne) (by simpa using hl) hrev
  simpa [trim, List.rdropWhile] using List.reverse_infix.2 hend

theorem isWhitespace_toLower (c : Char) : isWhitespace c.toLower = isWhitespace c :=
  UnicodeCase.apply_toLower (by decide) c

/-! ## Attributes and numbers -/

/-- A text starts with what it was put together from. -/
theorem linesFrom_append {line : Str} (h : '\n' ∉ line) (current s : Str) :
    linesFrom current (line ++ '\n' :: s) = dropCr (current ++ line) :: lines s := by
  induction line generalizing current with
  | nil => simp [linesFrom, lines]
  | cons c line ih =>
    obtain ⟨hc, hline⟩ := not_or.1 (mt List.mem_cons.2 h)
    rw [List.cons_append, linesFrom, if_neg (Ne.symm hc), ih hline]
    simp

/-- The first line of a text. -/
theorem lines_append {line : Str} (h : '\n' ∉ line) (s : Str) :
    lines (line ++ '\n' :: s) = dropCr line :: lines s := linesFrom_append h [] s

theorem dropCr_concat (hc : c ≠ '\r') (line : Str) : dropCr (line ++ [c]) = line ++ [c] := by
  rw [dropCr, List.getLast?_concat, if_neg (by simpa using hc)]

/-- Nothing is trimmed off a text that neither begins nor ends with whitespace. -/
theorem trim_cons_concat {d : Char} (hc : isWhitespace c = false) (hd : isWhitespace d = false)
    (s : Str) : trim (c :: (s ++ [d])) = c :: (s ++ [d]) := by
  rw [trim, trimStart, List.dropWhile_cons_of_neg (by simp [hc]), List.rdropWhile_eq_self_iff]
  intro hne
  simp [hd]

theorem startsWith_append (pat s : Str) : startsWith (pat ++ s) pat = true := by
  rw [startsWith, List.isPrefixOf_iff_prefix]
  exact List.prefix_append pat s

theorem stripPrefix_append (pat s : Str) : stripPrefix (pat ++ s) pat = some s := by
  rw [stripPrefix, if_pos (startsWith_append pat s), List.drop_left]

theorem eq_append_of_stripPrefix {r : Str} (h : stripPrefix s pat = some r) : s = pat ++ r := by
  unfold stripPrefix startsWith at h
  split at h
  · next hpre =>
    cases h
    obtain ⟨t, rfl⟩ := List.isPrefixOf_iff_prefix.1 hpre
    rw [List.drop_left]
  · cases h

/-- The decimal digits of a number are read as the number. -/
theorem decimal_toDigits (n : Nat) : decimal (Nat.toDigits 10 n) = some n := by
  have hdigits : (Nat.toDigits 10 n).all Char.isDigit = true :=
    List.all_eq_true.2 fun c hc => Nat.isDigit_of_mem_toDigits (by decide) (by decide) hc
  have hvalue : (Nat.toDigits 10 n).foldl (fun n c => n * 10 + (c.toNat - '0'.toNat)) 0 = n := by
    have hof : Nat.ofDigitChars 10 (Nat.toDigits 10 n) 0 = n :=
      Nat.ofDigitChars_toDigits (by decide) (by decide)
    simpa only [Nat.ofDigitChars, Nat.mul_comm] using hof
  rw [decimal, if_pos ⟨Nat.toDigits_ne_nil, hdigits⟩, hvalue]

/-- No digit is a sign. -/
theorem notMem_toDigits (hc : c.isDigit = false) (n : Nat) : c ∉ Nat.toDigits 10 n := by
  intro hmem
  rw [Nat.isDigit_of_mem_toDigits (by decide) (by decide) hmem] at hc
  cases hc

theorem parseU32_toDigits (h : n < 2 ^ 32) : parseU32 (Nat.toDigits 10 n) = some n := by
  have hdecimal := decimal_toDigits n
  have hplus : '+' ∉ Nat.toDigits 10 n := notMem_toDigits (by decide) n
  unfold parseU32
  split
  · next ds heq =>
    rw [heq] at hplus
    exact absurd List.mem_cons_self hplus
  · rw [hdecimal, Option.bind_some, if_pos h]

/-- The text of an integer: a sign if it is negative, and its digits. -/
def ofInt (n : Int) : Str :=
  if n < 0 then '-' :: Nat.toDigits 10 n.natAbs else Nat.toDigits 10 n.natAbs

/-- The text of an integer that is in range is read as the integer. -/
theorem parseSigned_ofInt {bits : Nat} {n : Int} (hlow : -(2 ^ (bits - 1) : Nat) ≤ n)
    (hhigh : n < (2 ^ (bits - 1) : Nat)) : parseSigned bits (ofInt n) = some n := by
  have hdecimal := decimal_toDigits n.natAbs
  have hplus : '+' ∉ Nat.toDigits 10 n.natAbs := notMem_toDigits (by decide) _
  have hminus : '-' ∉ Nat.toDigits 10 n.natAbs := notMem_toDigits (by decide) _
  unfold ofInt
  by_cases hneg : n < 0
  · rw [if_pos hneg, parseSigned, hdecimal, Option.bind_some, if_pos (by omega)]
    congr 1
    omega
  · rw [if_neg hneg]
    unfold parseSigned
    split
    · next ds heq =>
      rw [heq] at hminus
      exact absurd List.mem_cons_self hminus
    · next ds heq =>
      rw [heq] at hplus
      exact absurd List.mem_cons_self hplus
    · rw [hdecimal, Option.bind_some, if_pos (by omega)]
      congr 1
      omega

theorem parseI64_eq_parseSigned (s : Str) : parseI64 s = parseSigned 64 s := rfl

/-! ## Words -/

/-- The maximal runs of characters of a text that satisfy `p`. -/
def words (p : Char → Bool) (s : Str) : List Str :=
  (s.splitOnP fun c => !p c).filter fun w => !w.isEmpty

/-- `str::split_whitespace`. -/
def splitWhitespace (s : Str) : List Str := words (fun c => !isWhitespace c) s

theorem words_append_cons (hc : p c = false) (s t : Str) :
    words p (s ++ c :: t) = words p s ++ words p t := by
  rw [words, List.splitOnP_append_cons s t (by simp [hc]), List.filter_append]
  rfl

/-- A separator cuts words and has none of its own. -/
theorem words_append_append {sep : Str} (hne : sep ≠ []) (hsep : ∀ c ∈ sep, p c = false) (s t : Str) :
    words p (s ++ (sep ++ t)) = words p s ++ words p t := by
  induction sep generalizing s with
  | nil => exact absurd rfl hne
  | cons c sep ih =>
    have hc : p c = false := hsep c List.mem_cons_self
    rw [List.cons_append, words_append_cons hc]
    cases sep with
    | nil => rfl
    | cons d sep =>
      have hrest := ih (List.cons_ne_nil _ _) (fun c h => hsep c (List.mem_cons_of_mem _ h)) []
      rw [List.nil_append] at hrest
      rw [hrest]
      rfl

theorem words_intercalate {sep : Str} (hne : sep ≠ []) (hsep : ∀ c ∈ sep, p c = false)
    (ts : List Str) : words p (sep.intercalate ts) = ts.flatMap (words p) := by
  induction ts with
  | nil => rfl
  | cons t ts ih =>
    cases ts with
    | nil => simp
    | cons u ts =>
      rw [List.intercalate_cons_cons, List.append_assoc, words_append_append hne hsep, ih]
      rfl

/-- Characters that are no part of a word may stand around a text. -/
theorem words_append_of_none {sep : Str} (hsep : ∀ c ∈ sep, p c = false) (s : Str) :
    words p (sep ++ s) = words p s ∧ words p (s ++ sep) = words p s := by
  by_cases hne : sep = []
  · subst hne
    simp
  · have hfront := words_append_append hne hsep [] s
    have hback := words_append_append hne hsep s []
    rw [List.append_nil] at hback
    exact ⟨hfront, hback.trans (List.append_nil _)⟩

theorem words_of_forall (h : ∀ c ∈ s, p c = true) : words p s = if s = [] then [] else [s] := by
  rw [words, List.splitOnP_eq_singleton fun c hc => by simp [h c hc]]
  cases s <;> simp

/-- After a separator a new word starts. -/
theorem words_append_of_getLast {front : Str}
    (h : ∀ hne : front ≠ [], p (front.getLast hne) = false) (s : Str) :
    words p (front ++ s) = words p front ++ words p s := by
  by_cases hne : front = []
  · subst hne
    rfl
  · have hcut := words_append_cons (h hne) front.dropLast
    have hfront : words p front = words p front.dropLast := by
      have hend := hcut []
      rw [List.dropLast_append_getLast] at hend
      exact hend.trans (List.append_nil _)
    rw [hfront, ← hcut s, ← List.singleton_append, ← List.append_assoc, List.dropLast_append_getLast]

/-- A text that starts with a word: the word ends where `p` first fails. -/
theorem words_cons (hc : p c = true) (s : Str) :
    words p (c :: s) = (c :: s.takeWhile p) :: words p (s.dropWhile p) := by
  have hword : words p (c :: s.takeWhile p) = [c :: s.takeWhile p] := by
    rw [words_of_forall, if_neg (List.cons_ne_nil _ _)]
    intro d hd
    rcases List.mem_cons.1 hd with rfl | hd
    · exact hc
    · exact List.mem_takeWhile_imp hd
  have hsplit : c :: s = (c :: s.takeWhile p) ++ s.dropWhile p := by
    rw [List.cons_append, List.takeWhile_append_dropWhile]
  cases hrest : s.dropWhile p with
  | nil =>
    rw [hsplit, hrest, List.append_nil, hword]
    rfl
  | cons d rest =>
    have hd : p d = false := by
      have hhead := List.head_dropWhile_not p (l := s) (by simp [hrest])
      simpa [hrest] using hhead
    have htail : words p (d :: rest) = words p rest := words_append_cons hd [] rest
    rw [hsplit, hrest, words_append_cons hd, hword, htail]
    rfl

theorem toUppercase_append (s t : Str) : toUppercase (s ++ t) = toUppercase s ++ toUppercase t :=
  List.flatMap_append

/-- The code points of white space. -/
def spaces : List Nat :=
  List.range' 9 5 ++ [0x20, 0x85, 0xA0, 0x1680] ++ List.range' 0x2000 11 ++
    [0x2028, 0x2029, 0x202F, 0x205F, 0x3000]

theorem isWhitespace_iff : isWhitespace c = true ↔ c.toNat ∈ spaces := by
  simp only [isWhitespace, spaces, List.mem_append, List.mem_range'_1, List.mem_cons, List.not_mem_nil,
    or_false, Bool.or_eq_true, decide_eq_true_eq, beq_iff_eq]
  omega

/-- White space has no case. -/
theorem charToUppercase_of_isWhitespace (h : isWhitespace c = true) :
    UnicodeCase.charToUppercase c = [c] := by
  have hall : ∀ n ∈ spaces, UnicodeCase.charToUppercase (Char.ofNat n) = [Char.ofNat n] := by
    decide +kernel
  have hmem := hall c.toNat (isWhitespace_iff.1 h)
  rwa [Char.ofNat_toNat] at hmem

/-- No range of the table leads over white space. -/
theorem mapRange_upperRanges_notMem_spaces {m : Nat}
    (h : UnicodeCase.mapRange UnicodeCase.upperRanges n = some m) : m ∉ spaces := by
  have htable : ∀ r ∈ UnicodeCase.upperRanges, ∀ space ∈ spaces,
      space < r.2.2.2 ∨ r.2.2.2 + (r.2.1 - r.1) < space := by decide +kernel
  obtain ⟨r, hfind, rfl⟩ := Option.map_eq_some_iff.1 h
  have hin := List.find?_some hfind
  simp only [Bool.and_eq_true, decide_eq_true_eq] at hin
  intro hspace
  have hr := htable r (List.mem_of_find?_eq_some hfind) _ hspace
  omega

/-- Nothing else is converted to white space. -/
theorem isWhitespace_of_mem_charToUppercase {d : Char} (hd : d ∈ UnicodeCase.charToUppercase c)
    (h : isWhitespace d = true) : isWhitespace c = true := by
  have hspace := isWhitespace_iff.1 h
  by_cases hascii : c.toNat < 128
  · rw [UnicodeCase.charToUppercase, if_pos hascii] at hd
    have hd' := List.mem_singleton.1 hd
    split at hd'
    · -- the upper case of a letter is a letter
      next hletter =>
      have hlow : 97 ≤ c.toNat := hletter.1
      have hhigh : c.toNat ≤ 122 := hletter.2
      rw [hd', UnicodeCase.toNat_ofNat_of_lt (by omega)] at hspace
      simp only [spaces, List.mem_append, List.mem_range'_1, List.mem_cons, List.not_mem_nil, or_false]
        at hspace
      omega
    · rwa [← hd']
  · rw [UnicodeCase.charToUppercase, if_neg hascii] at hd
    cases hmulti : UnicodeCase.upperMulti.lookup c.toNat with
    | some cs =>
      -- the sequences have no white space
      have hall : ∀ p ∈ UnicodeCase.upperMulti, ∀ n ∈ p.2, isWhitespace (Char.ofNat n) = false := by
        decide +kernel
      obtain ⟨before, after, htable, -⟩ := List.lookup_eq_some_iff.1 hmulti
      rw [hmulti] at hd
      obtain ⟨n, hn, rfl⟩ := List.mem_map.1 hd
      rw [hall (c.toNat, cs) (by simp [htable]) n hn] at h
      cases h
    | none =>
      rw [hmulti] at hd
      cases hrange : UnicodeCase.mapRange UnicodeCase.upperRanges c.toNat with
      | none =>
        rw [hrange] at hd
        have hsame : d = c := List.mem_singleton.1 hd
        rwa [← hsame]
      | some m =>
        rw [hrange] at hd
        have hd' : d = Char.ofNat m := List.mem_singleton.1 hd
        rw [hd'] at hspace
        rcases UnicodeCase.mapRange_upperRanges hrange with ⟨-, hvalid⟩ | ⟨-, rfl⟩ | ⟨-, rfl⟩
        · rw [UnicodeCase.toNat_ofNat_of_lt hvalid] at hspace
          exact absurd hspace (mapRange_upperRanges_notMem_spaces hrange)
        all_goals exact absurd hspace (by decide)

theorem toUppercase_of_isWhitespace (h : ∀ c ∈ s, isWhitespace c = true) : toUppercase s = s := by
  induction s with
  | nil => rfl
  | cons c s ih =>
    rw [toUppercase, List.flatMap_cons, charToUppercase_of_isWhitespace (h c List.mem_cons_self)]
    exact congrArg (c :: ·) (ih fun d hd => h d (List.mem_cons_of_mem c hd))

theorem exists_trim (s : Str) : ∃ front back : Str, s = front ++ (trim s ++ back) ∧
    (∀ c ∈ front, isWhitespace c = true) ∧ ∀ c ∈ back, isWhitespace c = true := by
  refine ⟨s.takeWhile isWhitespace, (trimStart s).rtakeWhile isWhitespace, ?_,
    fun c hc => List.mem_takeWhile_imp hc, fun c hc => List.mem_rtakeWhile_imp hc⟩
  rw [trim, List.rdropWhile_append_rtakeWhile]
  exact List.takeWhile_append_dropWhile.symm

/-- White space around a text does not change its words. -/
theorem splitWhitespace_append {front back : Str} (hfront : ∀ c ∈ front, isWhitespace c = true)
    (hback : ∀ c ∈ back, isWhitespace c = true) (s : Str) :
    splitWhitespace (front ++ (s ++ back)) = splitWhitespace s := by
  have hnone : ∀ t : Str, (∀ c ∈ t, isWhitespace c = true) → ∀ c ∈ t, (!isWhitespace c) = false :=
    fun t ht c hc => by rw [ht c hc]; rfl
  simp only [splitWhitespace]
  rw [(words_append_of_none (hnone front hfront) _).1, (words_append_of_none (hnone back hback) _).2]

theorem splitWhitespace_trim (s : Str) : splitWhitespace (trim s) = splitWhitespace s := by
  obtain ⟨front, back, hs, hfront, hback⟩ := exists_trim s
  conv_rhs => rw [hs]
  exact (splitWhitespace_append hfront hback _).symm

/-- Trimming a text before it is converted to upper case does not change its words. -/
theorem splitWhitespace_toUppercase_trim (s : Str) :
    splitWhitespace (toUppercase (trim s)) = splitWhitespace (toUppercase s) := by
  obtain ⟨front, back, hs, hfront, hback⟩ := exists_trim s
  conv_rhs => rw [hs]
  rw [toUppercase_append, toUppercase_append, toUppercase_of_isWhitespace hfront,
    toUppercase_of_isWhitespace hback]
  exact (splitWhitespace_append hfront hback _).symm

theorem isWhitespace_head_trim {t : Str} (h : trim s = c :: t) : isWhitespace c = false := by
  obtain ⟨u, hu⟩ := List.rdropWhile_prefix isWhitespace (trimStart s)
  have hstart : s.dropWhile isWhitespace = c :: (t ++ u) := by
    rw [show (trimStart s).rdropWhile isWhitespace = c :: t from h, List.cons_append] at hu
    exact hu.symm
  have hhead := List.head_dropWhile_not isWhitespace (l := s) (by simp [hstart])
  simpa [hstart] using hhead

theorem trim_trim (s : Str) : trim (trim s) = trim s := by
  have hstart : trimStart (trim s) = trim s := by
    cases htrim : trim s with
    | nil => rfl
    | cons c t => exact List.dropWhile_cons_of_neg (by simp [isWhitespace_head_trim htrim])
  rw [trim, hstart, trim, List.rdropWhile_idempotent]

/-- A text starts with no white space once it is trimmed, and converting it to upper case brings
    none there. -/
theorem toUppercase_trim_cases (s : Str) :
    toUppercase (trim s) = [] ∨
      ∃ c t, toUppercase (trim s) = c :: t ∧ isWhitespace c = false := by
  cases htrim : trim s with
  | nil => exact .inl rfl
  | cons c t =>
    cases hupper : toUppercase (c :: t) with
    | nil => exact .inl rfl
    | cons d u =>
      -- the first character of the upper case comes from the first one of the text
      have hne : UnicodeCase.charToUppercase c ≠ [] := UnicodeCase.charToUppercase_ne_nil c
      have hd : d ∈ UnicodeCase.charToUppercase c := by
        obtain ⟨e, cs, hcs⟩ := List.exists_cons_of_ne_nil hne
        rw [toUppercase, List.flatMap_cons, hcs, List.cons_append] at hupper
        rw [hcs, ← (List.cons.inj hupper).1]
        exact List.mem_cons_self
      refine .inr ⟨d, u, rfl, ?_⟩
      by_contra hspace
      have hc := isWhitespace_of_mem_charToUppercase hd (by simpa using hspace)
      rw [isWhitespace_head_trim htrim] at hc
      cases hc

/-- Each character has its own part of the result; only what it is depends on the others. -/
theorem length_toLowercaseAfter_concat (before before' s : Str) (c : Char)
    (hc : c.toNat ≠ 0x3A3) :
    (toLowercaseAfter before (s ++ [c])).length =
      (toLowercaseAfter before' s).length + (UnicodeCase.charToLowercase c).length := by
  induction s generalizing before before' with
  | nil => simp [toLowercaseAfter, hc]
  | cons d s ih =>
    simp only [List.cons_append, toLowercaseAfter, List.length_append, ih (d :: before) (d :: before')]
    split
    · split <;> split <;> simp <;> omega
    · omega

end Str
