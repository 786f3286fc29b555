import Mathlib.Data.List.Basic
import Mathlib.Tactic.Ring

/-!
# Outcomes and machine integers of Rust programs

A Rust function that is modelled here either returns a value, panics, or runs
forever; `Rust α` records which.  Machine integers are natural numbers or
integers, and the operations that can leave their range (`usizeAdd`, `asUsize`)
say what happens then, for both overflow settings of the compiler.
-/

/-- The two ways a modelled computation can fail to return. -/
inductive Failure where
  | panic
  | diverge
  deriving DecidableEq, Repr

/-- Result of a Rust computation: a value, a panic, or no result at all. -/
abbrev Rust (α : Type) := Except Failure α

namespace Rust

variable {next : α → Rust β}

/-- A sequence of two computations returns exactly when both of them do. -/
theorem bind_returns {first : Rust α} {r : β} :
    (first >>= next) = .ok r ↔ ∃ v, first = .ok v ∧ next v = .ok r := by
  cases hf : first with
  | error e => exact ⟨nofun, fun ⟨_, h, _⟩ => nomatch h⟩
  | ok v => exact ⟨fun h => ⟨v, rfl, h⟩, fun ⟨_, hv, h⟩ => Except.ok.inj hv ▸ h⟩

variable {run : Rust α}

theorem map_returns {f : α → β} {r : β} : run.map f = .ok r ↔ ∃ v, run = .ok v ∧ f v = r := by
  cases run with
  | error e => exact ⟨nofun, fun ⟨_, h, _⟩ => nomatch h⟩
  | ok v => exact ⟨fun h => ⟨v, rfl, Except.ok.inj h⟩, fun ⟨_, hv, h⟩ => by cases hv; exact congrArg _ h⟩

theorem bind_returns_iff {first : Rust α} :
    (∃ r, (first >>= next) = .ok r) ↔ ∃ v, first = .ok v ∧ ∃ r, next v = .ok r := by
  simp only [bind_returns]
  exact ⟨fun ⟨r, v, hv, hr⟩ => ⟨v, hv, r, hr⟩, fun ⟨v, hv, r, hr⟩ => ⟨r, v, hv, hr⟩⟩

theorem map_returns_iff {f : α → β} : (∃ r, run.map f = .ok r) ↔ ∃ v, run = .ok v := by
  simp [map_returns]

theorem bind_fails {first : Rust α} {e : Failure} :
    (first >>= next) = .error e ↔
      first = .error e ∨ ∃ v, first = .ok v ∧ next v = .error e := by
  cases first with
  | error e' => exact ⟨fun h => .inl (congrArg _ (Except.error.inj h)), fun h => by
      rcases h with h | ⟨_, h, -⟩
      · exact congrArg _ (Except.error.inj h)
      · cases h⟩
  | ok v => exact ⟨fun h => .inr ⟨v, rfl, h⟩, fun h => by
      rcases h with h | ⟨_, hv, h⟩
      · cases h
      · exact Except.ok.inj hv ▸ h⟩

theorem map_fails {f : α → β} {e : Failure} : run.map f = .error e ↔ run = .error e := by
  cases run with
  | error e' => simp [Except.map]
  | ok v => simp [Except.map]

theorem ite_returns {c : Prop} [Decidable c] {run' : Rust α} (h : ∃ r, run = .ok r)
    (h' : ∃ r, run' = .ok r) : ∃ r, (if c then run else run') = .ok r := by
  split
  · exact h
  · exact h'

/-- Two computations with equal images fail alike or return values with equal images. -/
theorem map_eq_map {f : α → γ} {g : β → γ} {run' : Rust β} (h : run.map f = run'.map g) :
    (∃ e, run = .error e ∧ run' = .error e) ∨
      ∃ a b, run = .ok a ∧ run' = .ok b ∧ f a = g b := by
  cases run with
  | error e =>
    cases run' with
    | error e' => exact .inl ⟨e, rfl, congrArg _ (Except.error.inj h).symm⟩
    | ok b => exact nomatch h
  | ok a =>
    cases run' with
    | error e' => exact nomatch h
    | ok b => exact .inr ⟨a, b, rfl, rfl, Except.ok.inj h⟩

variable {f : α → Rust β} {l : List α}

/-- A computation over a list returns if it does on every element. -/
theorem mapM_returns (h : ∀ a ∈ l, ∃ r, f a = .ok r) : ∃ rs, l.mapM f = .ok rs := by
  induction l with
  | nil => exact ⟨[], rfl⟩
  | cons a l ih =>
    obtain ⟨r, hr⟩ := h a List.mem_cons_self
    obtain ⟨rs, hrs⟩ := ih fun b hb => h b (List.mem_cons_of_mem a hb)
    rw [List.mapM_cons]
    exact ⟨_, bind_returns.2 ⟨r, hr, bind_returns.2 ⟨rs, hrs, rfl⟩⟩⟩

/-- The results are those of the elements. -/
theorem mem_mapM {rs : List β} (h : l.mapM f = .ok rs) :
    (∀ a ∈ l, ∃ r ∈ rs, f a = .ok r) ∧ ∀ r ∈ rs, ∃ a ∈ l, f a = .ok r := by
  induction l generalizing rs with
  | nil => cases h; exact ⟨nofun, nofun⟩
  | cons a l ih =>
    rw [List.mapM_cons] at h
    obtain ⟨r, hr, h⟩ := bind_returns.1 h
    obtain ⟨rs, hrs, h⟩ := bind_returns.1 h
    cases h
    obtain ⟨hl, hrs⟩ := ih hrs
    simp only [List.forall_mem_cons, List.exists_mem_cons_iff]
    exact ⟨⟨.inl hr, fun b hb => .inr (hl b hb)⟩, .inl hr, fun r' hr' => .inr (hrs r' hr')⟩

theorem length_mapM {rs : List β} (h : l.mapM f = .ok rs) : rs.length = l.length := by
  induction l generalizing rs with
  | nil => cases h; rfl
  | cons a l ih =>
    rw [List.mapM_cons] at h
    obtain ⟨r, -, h⟩ := bind_returns.1 h
    obtain ⟨rs, hrs, h⟩ := bind_returns.1 h
    cases h
    rw [List.length_cons, List.length_cons, ih hrs]

theorem mapM_eq_ok {g : α → β} (h : ∀ a ∈ l, f a = .ok (g a)) : l.mapM f = .ok (l.map g) := by
  induction l with
  | nil => rfl
  | cons a l ih =>
    obtain ⟨ha, hl⟩ := List.forall_mem_cons.1 h
    rw [List.mapM_cons, ha, ih hl]
    rfl

/-- The results stand where their elements do. -/
theorem getElem?_mapM {rs : List β} (h : l.mapM f = .ok rs) {i : Nat} {a : α} (ha : l[i]? = some a) :
    ∃ r, rs[i]? = some r ∧ f a = .ok r := by
  induction l generalizing rs i with
  | nil => simp at ha
  | cons b l ih =>
    rw [List.mapM_cons] at h
    obtain ⟨r, hr, h⟩ := bind_returns.1 h
    obtain ⟨rs, hrs, h⟩ := bind_returns.1 h
    cases h
    cases i with
    | zero =>
      cases ha
      exact ⟨r, rfl, hr⟩
    | succ i => exact ih hrs ha

@[simp] theorem ok_bind (a : α) (f : α → Rust β) : ((.ok a : Rust α) >>= f) = f a := rfl

@[simp] theorem error_bind (e : Failure) (f : α → Rust β) : ((.error e : Rust α) >>= f) = .error e := rfl

@[simp] theorem pure_eq_ok (a : α) : (pure a : Rust α) = .ok a := rfl

/-- A loop with one more step. -/
theorem foldlM_concat {f : β → α → Rust β} {b b' : β} (h : l.foldlM f b = .ok b') (a : α) :
    (l ++ [a]).foldlM f b = f b' a := by
  rw [List.foldlM_append, h, ok_bind, List.foldlM_cons]
  exact bind_pure _

/-- Integer overflow either wraps (release builds) or panics (debug builds). -/
inductive Overflow where
  | wrapping
  | checked
  deriving DecidableEq, Repr

/-- `i32 as usize` and `i16 as usize` on a 64-bit target: sign extension. -/
def asUsize (i : Int) : Nat := if 0 ≤ i then i.toNat else (i + 2 ^ 64).toNat

/-- `a + (i as usize)` for an offset `a` into a buffer (so `a < 2 ^ 63`) and an `i32` value `i`.
    A negative `i` is huge as a `usize`, and the sum leaves the 64-bit range exactly when
    `a + i` is non-negative. -/
def offsetAdd (ov : Overflow) (a : Nat) (i : Int) : Rust Nat :=
  if 0 ≤ i ∨ (a : Int) + i < 0 then .ok (a + asUsize i)
  else match ov with
    | .wrapping => .ok ((a : Int) + i).toNat
    | .checked => .error .panic

theorem offsetAdd_ofNat (ov : Overflow) (a n : Nat) : offsetAdd ov a (n : Int) = .ok (a + n) := by
  simp [offsetAdd, asUsize]

theorem offsetAdd_of_nonneg (ov : Overflow) (a : Nat) {i : Int} (h : 0 ≤ i) :
    offsetAdd ov a i = .ok (a + i.toNat) := by
  obtain ⟨n, rfl⟩ := Int.eq_ofNat_of_zero_le h
  exact offsetAdd_ofNat ov a n

variable {a : Nat}

/-- A sum that does not wrap is behind every buffer. -/
theorem offsetAdd_of_lt (ov : Overflow) {i : Int} (h : (a : Int) + i < 0) :
    offsetAdd ov a i = .ok (a + asUsize i) := by
  simp [offsetAdd, h]

theorem offsetAdd_checked {i : Int} (hneg : i < 0) (hback : 0 ≤ (a : Int) + i) :
    offsetAdd .checked a i = .error .panic := by
  have h : ¬ (0 ≤ i ∨ (a : Int) + i < 0) := by omega
  simp only [offsetAdd, h, if_false]

/-- What the sum can be. -/
theorem offsetAdd_returns {ov : Overflow} {n : Nat} {i : Int} (h : offsetAdd ov a i = .ok n) :
    (0 ≤ i ∧ n = a + i.toNat) ∨ ((a : Int) + i < 0 ∧ n = a + (i + 2 ^ 64).toNat) ∨
      (i < 0 ∧ (n : Int) = a + i) := by
  by_cases hpos : 0 ≤ i
  · rw [offsetAdd_of_nonneg ov a hpos] at h
    exact .inl ⟨hpos, (Except.ok.inj h).symm⟩
  · by_cases hback : (a : Int) + i < 0
    · rw [offsetAdd_of_lt ov hback, asUsize, if_neg hpos] at h
      exact .inr (.inl ⟨hback, (Except.ok.inj h).symm⟩)
    · cases ov with
      | checked =>
        rw [offsetAdd_checked (by omega) (by omega)] at h
        cases h
      | wrapping =>
        simp only [offsetAdd, hpos, hback, or_self, if_false, Except.ok.injEq] at h
        exact .inr (.inr ⟨by omega, by omega⟩)

/-- `a - b` on `usize`. -/
def usizeSub (ov : Overflow) (a b : Nat) : Rust Nat :=
  if b ≤ a then .ok (a - b)
  else match ov with
    | .wrapping => .ok (a + 2 ^ 64 - b)
    | .checked => .error .panic

theorem usizeSub_of_le (ov : Overflow) {b : Nat} (h : b ≤ a) : usizeSub ov a b = .ok (a - b) :=
  if_pos h

theorem usizeSub_returns {ov : Overflow} {b n : Nat} (h : usizeSub ov a b = .ok n) :
    (b ≤ a ∧ n = a - b) ∨ (a < b ∧ n = a + 2 ^ 64 - b) := by
  by_cases hle : b ≤ a
  · rw [usizeSub_of_le ov hle] at h
    exact .inl ⟨hle, (Except.ok.inj h).symm⟩
  · simp only [usizeSub, hle, if_false] at h
    cases ov with
    | checked => cases h
    | wrapping => exact .inr ⟨Nat.lt_of_not_le hle, (Except.ok.inj h).symm⟩

/-- `a + b` on `u64`, as numbers. -/
def u64Add (ov : Overflow) (a b : Nat) : Rust Nat :=
  if a + b < 2 ^ 64 then .ok (a + b)
  else match ov with
    | .wrapping => .ok (a + b - 2 ^ 64)
    | .checked => .error .panic

theorem u64Add_of_lt (ov : Overflow) {b : Nat} (h : a + b < 2 ^ 64) : u64Add ov a b = .ok (a + b) :=
  if_pos h

/-- `a - b` on `u64`. -/
def u64Sub (ov : Overflow) (a b : UInt64) : Rust UInt64 :=
  if ov = .checked ∧ a < b then .error .panic else .ok (a - b)

@[simp] theorem u64Sub_wrapping (a b : UInt64) : u64Sub .wrapping a b = .ok (a - b) := by
  simp [u64Sub]

/-- Between times in order the subtraction returns, with either overflow setting. -/
theorem u64Sub_of_le (ov : Overflow) {a b : UInt64} (h : b ≤ a) : u64Sub ov a b = .ok (a - b) := by
  simp [u64Sub, UInt64.not_lt.2 h]

/-- `a + 1` on `u32`. -/
def u32Succ (ov : Overflow) (a : UInt32) : Rust UInt32 :=
  if ov = .checked ∧ a = 0xFFFFFFFF then .error .panic else .ok (a + 1)

@[simp] theorem u32Succ_wrapping (a : UInt32) : u32Succ .wrapping a = .ok (a + 1) := by
  simp [u32Succ]

/-- A counter below some bound can be counted up. -/
theorem u32Succ_of_lt (ov : Overflow) {a b : UInt32} (h : a < b) : u32Succ ov a = .ok (a + 1) := by
  have hmax : a ≠ 0xFFFFFFFF := by
    rintro rfl
    have := UInt32.lt_iff_toNat_lt.1 h
    have := b.toNat_lt
    simp at *
    omega
  simp [u32Succ, hmax]

theorem toNat_succ_of_lt {a b : UInt32} (h : a < b) : (a + 1).toNat = a.toNat + 1 := by
  have := UInt32.lt_iff_toNat_lt.1 h
  have := b.toNat_lt
  rw [UInt32.toNat_add, UInt32.toNat_one]
  omega

theorem eq_succ_of_u32Succ {ov : Overflow} {a b : UInt32} (h : u32Succ ov a = .ok b) : b = a + 1 := by
  rw [u32Succ] at h
  split at h
  · cases h
  · cases h; rfl

end Rust

/-! ## Big-endian integers -/

namespace BigEndian

/-- Value of four big-endian bytes, unsigned. -/
def u32 (b₀ b₁ b₂ b₃ : UInt8) : Nat :=
  ((b₀.toNat * 256 + b₁.toNat) * 256 + b₂.toNat) * 256 + b₃.toNat

theorem u32_lt (b₀ b₁ b₂ b₃ : UInt8) : u32 b₀ b₁ b₂ b₃ < 2 ^ 32 := by
  have h₀ := b₀.toNat_lt
  have h₁ := b₁.toNat_lt
  have h₂ := b₂.toNat_lt
  have h₃ := b₃.toNat_lt
  simp only [u32]
  omega

/-- `i32::from_be_bytes`. -/
def i32 (b₀ b₁ b₂ b₃ : UInt8) : Int :=
  if u32 b₀ b₁ b₂ b₃ < 2 ^ 31 then u32 b₀ b₁ b₂ b₃ else (u32 b₀ b₁ b₂ b₃ : Int) - 2 ^ 32

/-- `i16::from_be_bytes`. -/
def i16 (b₀ b₁ : UInt8) : Int :=
  if b₀.toNat * 256 + b₁.toNat < 2 ^ 15 then b₀.toNat * 256 + b₁.toNat
  else ((b₀.toNat * 256 + b₁.toNat : Nat) : Int) - 2 ^ 16

/-- Value of big-endian bytes, unsigned. -/
def unsigned (bytes : List UInt8) : Nat := bytes.foldl (fun n b => n * 256 + b.toNat) 0

/-- `from_be_bytes` of a signed type as wide as the bytes. -/
def signed (bytes : List UInt8) : Int :=
  if 2 * unsigned bytes < 256 ^ bytes.length then unsigned bytes
  else (unsigned bytes : Int) - 256 ^ bytes.length

/-- `i32::to_be_bytes` of a non-negative value. -/
def bytes32 (n : Nat) : List UInt8 :=
  [UInt8.ofNat (n / 2 ^ 24), UInt8.ofNat (n / 2 ^ 16), UInt8.ofNat (n / 2 ^ 8), UInt8.ofNat n]

/-- `i16::to_be_bytes`. -/
def bytes16 (i : Int) : List UInt8 :=
  [UInt8.ofNat ((i % 2 ^ 16).toNat / 2 ^ 8), UInt8.ofNat (i % 2 ^ 16).toNat]

/-- Reading back the two bytes of a 16-bit value recovers it. -/
theorem i16_bytes16 {i : Int} (hlow : -2 ^ 15 ≤ i) (hhigh : i < 2 ^ 15) :
    i16 (UInt8.ofNat ((i % 2 ^ 16).toNat / 2 ^ 8)) (UInt8.ofNat (i % 2 ^ 16).toNat) = i := by
  simp only [i16, UInt8.toNat_ofNat']
  split <;> omega

/-- Reading back the four bytes of a 32-bit value recovers it. -/
theorem u32_bytes32 {n : Nat} (h : n < 2 ^ 32) :
    u32 (UInt8.ofNat (n / 2 ^ 24)) (UInt8.ofNat (n / 2 ^ 16)) (UInt8.ofNat (n / 2 ^ 8))
      (UInt8.ofNat n) = n := by
  simp only [u32, UInt8.toNat_ofNat']
  omega

/-- The same for the signed reading of a value below `2 ^ 31`. -/
theorem i32_bytes32 {n : Nat} (h : n < 2 ^ 31) :
    i32 (UInt8.ofNat (n / 2 ^ 24)) (UInt8.ofNat (n / 2 ^ 16)) (UInt8.ofNat (n / 2 ^ 8))
      (UInt8.ofNat n) = n := by
  have hu := u32_bytes32 (n := n) (by omega)
  rw [i32, hu, if_pos h]

theorem neg_le_i32 (b₀ b₁ b₂ b₃ : UInt8) : -2 ^ 31 ≤ i32 b₀ b₁ b₂ b₃ := by
  unfold i32
  split <;> omega

/-- Writing back the value of four bytes recovers them. -/
theorem bytes32_u32 (b₀ b₁ b₂ b₃ : UInt8) : bytes32 (u32 b₀ b₁ b₂ b₃) = [b₀, b₁, b₂, b₃] := by
  have h₀ := b₀.toNat_lt
  have h₁ := b₁.toNat_lt
  have h₂ := b₂.toNat_lt
  have h₃ := b₃.toNat_lt
  simp only [bytes32, u32, List.cons.injEq, ← UInt8.toNat_inj, UInt8.toNat_ofNat', and_true]
  omega

/-- The same for a signed value that is not negative. -/
theorem bytes32_i32 {b₀ b₁ b₂ b₃ : UInt8} (h : 0 ≤ i32 b₀ b₁ b₂ b₃) :
    bytes32 (i32 b₀ b₁ b₂ b₃).toNat = [b₀, b₁, b₂, b₃] := by
  have hu := u32_lt b₀ b₁ b₂ b₃
  have hval : (i32 b₀ b₁ b₂ b₃).toNat = u32 b₀ b₁ b₂ b₃ := by
    unfold i32 at h ⊢
    split at h <;> omega
  rw [hval, bytes32_u32]

end BigEndian
