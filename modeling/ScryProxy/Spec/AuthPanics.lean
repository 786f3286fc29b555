import ScryProxy.Native.BackendAuth
import ScryProxy.Spec.ScanPanics

/-!
# When the authentication parsers return

Both parsers compare the slice with the end of the message, and then cut out of it from a
fixed offset on.  A length too small for what is cut out ends the slice before its start, and
a length of -1 makes the end of the message overflow.  Nothing else panics
(`authParsers_return_iff`).
-/

namespace ScryProxy

open Rust (Overflow)

/-- A PasswordMessage with a length that leaves no room for a password and its NUL: from -1 to 4. -/
def ShortPassword (data : List UInt8) : Prop :=
  ∃ length, headerAt data 0 = some (msgPassword, length) ∧ -1 ≤ length ∧ length ≤ 4

/-- The authentication code, behind a whole header. -/
def authCode : List UInt8 → Option Int
  | _ :: _ :: _ :: _ :: _ :: c₀ :: c₁ :: c₂ :: c₃ :: _ => some (BigEndian.i32 c₀ c₁ c₂ c₃)
  | _ => none

/-- An authentication request with the length -1, or a SASLContinue or SASLFinal that ends before
    its data starts. -/
def ShortAuth (data : List UInt8) : Prop :=
  ∃ length code, headerAt data 0 = some (msgAuthentication, length) ∧ authCode data = some code ∧
    (length = -1 ∨ (code = 11 ∨ code = 12) ∧ 0 ≤ length ∧ length < 8)

/-- Where a message of the given length ends, counted from its type byte: behind every slice, at its
    own start, or after as many bytes as the length says. -/
theorem messageEnd_cases (ov : Overflow) {size : Nat} {length : Int} (hslice : size < 2 ^ 63)
    (hlow : -2 ^ 31 ≤ length) :
    (length < -1 ∧ ∃ total, Rust.offsetAdd ov 1 length = .ok total ∧ size < total) ∨
    (length = -1 ∧ ov = .checked ∧ Rust.offsetAdd ov 1 length = .error .panic) ∨
    (length = -1 ∧ ov = .wrapping ∧ Rust.offsetAdd ov 1 length = .ok 0) ∨
    (0 ≤ length ∧ Rust.offsetAdd ov 1 length = .ok (1 + length.toNat)) := by
  by_cases hneg : length < -1
  · -- as a `usize` the length is larger than any slice
    have hout : ((1 : Nat) : Int) + length < 0 := by omega
    have hfar : size < 1 + Rust.asUsize length := by
      rw [Rust.asUsize, if_neg (by omega)]
      omega
    exact .inl ⟨hneg, _, Rust.offsetAdd_of_lt ov hout, hfar⟩
  · by_cases hone : length = -1
    · subst hone
      cases ov with
      | checked => exact .inr (.inl ⟨rfl, rfl, rfl⟩)
      | wrapping => exact .inr (.inr (.inl ⟨rfl, rfl, rfl⟩))
    · have hpos : 0 ≤ length := by omega
      exact .inr (.inr (.inr ⟨hpos, Rust.offsetAdd_of_nonneg ov 1 hpos⟩))

/-! ## `parse_password_message` -/

theorem parsePasswordMessage_returns_iff (ov : Overflow) (data : ByteSlice) :
    (∃ r, parsePasswordMessage ov data = .ok r) ↔ ¬ ShortPassword data := by
  obtain ⟨data, hslice⟩ := data
  match data with
  | [] | [_] | [_, _] | [_, _, _] | [_, _, _, _] =>
    refine iff_of_true ⟨none, rfl⟩ ?_
    rintro ⟨length, hheader, -⟩
    cases hheader
  | t :: b₀ :: b₁ :: b₂ :: b₃ :: rest =>
    have hlow := BigEndian.neg_le_i32 b₀ b₁ b₂ b₃
    have hiff : ShortPassword (t :: b₀ :: b₁ :: b₂ :: b₃ :: rest) ↔ t = msgPassword ∧
        -1 ≤ BigEndian.i32 b₀ b₁ b₂ b₃ ∧ BigEndian.i32 b₀ b₁ b₂ b₃ ≤ 4 := by
      simp [ShortPassword, headerAt]
    simp only [hiff, parsePasswordMessage]
    by_cases htag : t = msgPassword
    · rw [if_neg (not_not.2 htag)]
      rcases messageEnd_cases ov hslice hlow with
        ⟨hneg, total, htotal, hfar⟩ | ⟨hone, -, htotal⟩ | ⟨hone, hov, htotal⟩ | ⟨hpos, htotal⟩
      · rw [htotal, Rust.ok_bind, if_pos hfar]
        exact iff_of_true ⟨_, rfl⟩ (by omega)
      · rw [htotal]
        exact iff_of_false (by simp) (by simp [htag, hone])
      · -- `0 - 1` wraps to an end behind every slice
        subst hov
        have hwrap : Rust.usizeSub .wrapping 0 1 = .ok (2 ^ 64 - 1) := rfl
        rw [htotal, Rust.ok_bind, if_neg (Nat.not_lt_zero _), hwrap, Rust.ok_bind,
          if_pos (.inr (by omega))]
        exact iff_of_false (by simp) (by simp [htag, hone])
      · -- the end without the NUL is at `length`
        have hsub : Rust.usizeSub ov (1 + (BigEndian.i32 b₀ b₁ b₂ b₃).toNat) 1 =
            .ok (BigEndian.i32 b₀ b₁ b₂ b₃).toNat := by
          rw [Rust.usizeSub_of_le ov (Nat.le_add_right 1 _), Nat.add_sub_cancel_left]
        simp only [htotal, Rust.ok_bind, hsub]
        by_cases hcut : (t :: b₀ :: b₁ :: b₂ :: b₃ :: rest).length <
            1 + (BigEndian.i32 b₀ b₁ b₂ b₃).toNat
        · rw [if_pos hcut]
          simp only [List.length_cons] at hcut
          exact iff_of_true ⟨_, rfl⟩ (by omega)
        · rw [if_neg hcut]
          by_cases hshort : (BigEndian.i32 b₀ b₁ b₂ b₃).toNat < 5
          · rw [if_pos (.inl hshort)]
            exact iff_of_false (by simp) (not_not.2 ⟨htag, by omega, by omega⟩)
          · rw [if_neg (by omega)]
            exact iff_of_true ⟨_, rfl⟩ (by omega)
    · rw [if_pos htag]
      exact iff_of_true ⟨_, rfl⟩ fun h => htag h.1

/-! ## `AuthRequest::parse` -/

/-- The data of a SASL step is cut out from offset 9 on; every other request can be read. -/
theorem AuthRequest.ofCode_returns_iff (code : Int) (data : List UInt8) (total : Nat) :
    (∃ r, AuthRequest.ofCode code data total = .ok r) ↔ ¬ ((code = 11 ∨ code = 12) ∧ total < 9) := by
  unfold AuthRequest.ofCode
  by_cases hsasl : code = 11 ∨ code = 12
  · have hother : code ≠ 0 ∧ code ≠ 3 ∧ code ≠ 5 ∧ code ≠ 10 := by omega
    rw [if_neg hother.1, if_neg hother.2.1, if_neg hother.2.2.1, if_neg hother.2.2.2, if_pos hsasl]
    by_cases hshort : total < 9
    · rw [if_pos hshort]
      exact iff_of_false (by simp) (not_not.2 ⟨hsasl, hshort⟩)
    · rw [if_neg hshort]
      exact iff_of_true ⟨_, rfl⟩ fun h => hshort h.2
  · rw [if_neg hsasl]
    refine iff_of_true ?_ fun h => hsasl h.1
    exact Rust.ite_returns ⟨_, rfl⟩ (Rust.ite_returns ⟨_, rfl⟩ (Rust.ite_returns ⟨_, rfl⟩
      (Rust.ite_returns ⟨_, rfl⟩ ⟨_, rfl⟩)))

/-- Behind a whole code, a length other than -1 does the same with either overflow setting. -/
theorem AuthRequest.ofCode_cut_returns_iff (ov : Overflow) {data : List UInt8} {length : Int}
    (code : Int) (hslice : data.length < 2 ^ 63) (hlong : 9 ≤ data.length)
    (hlow : -2 ^ 31 ≤ length) (hone : length ≠ -1) :
    (∃ r, (Rust.offsetAdd ov 1 length >>= fun total =>
        if data.length < total then pure none else AuthRequest.ofCode code data total) = .ok r) ↔
      ¬ ((code = 11 ∨ code = 12) ∧ 0 ≤ length ∧ length < 8) := by
  rcases messageEnd_cases ov hslice hlow with
    ⟨hneg, total, htotal, hfar⟩ | ⟨hone', -⟩ | ⟨hone', -⟩ | ⟨hpos, htotal⟩
  · rw [htotal, Rust.ok_bind, if_pos hfar]
    exact iff_of_true ⟨_, rfl⟩ (by omega)
  · exact absurd hone' hone
  · exact absurd hone' hone
  · rw [htotal, Rust.ok_bind]
    by_cases hcut : data.length < 1 + length.toNat
    · -- a message that reaches behind the slice is longer than its code
      rw [if_pos hcut]
      exact iff_of_true ⟨_, rfl⟩ (by omega)
    · rw [if_neg hcut, AuthRequest.ofCode_returns_iff]
      apply not_congr
      apply and_congr_right
      intro _
      omega

/-- With checked arithmetic a length of -1 panics whatever the request is; with wrapping arithmetic
    only a SASL step does. -/
theorem AuthRequest.parse_returns_iff (data : ByteSlice) :
    (∀ ov, ∃ r, AuthRequest.parse ov data = .ok r) ↔ ¬ ShortAuth data := by
  obtain ⟨data, hslice⟩ := data
  match data with
  | [] | [_] | [_, _] | [_, _, _] | [_, _, _, _] | [_, _, _, _, _] | [_, _, _, _, _, _]
  | [_, _, _, _, _, _, _] | [_, _, _, _, _, _, _, _] =>
    refine iff_of_true (fun _ => ⟨none, rfl⟩) ?_
    rintro ⟨length, code, -, hcode, -⟩
    cases hcode
  | t :: b₀ :: b₁ :: b₂ :: b₃ :: c₀ :: c₁ :: c₂ :: c₃ :: rest =>
    have hlow := BigEndian.neg_le_i32 b₀ b₁ b₂ b₃
    have hlong : 9 ≤ (t :: b₀ :: b₁ :: b₂ :: b₃ :: c₀ :: c₁ :: c₂ :: c₃ :: rest).length := by
      simp only [List.length_cons]
      omega
    have hiff : ShortAuth (t :: b₀ :: b₁ :: b₂ :: b₃ :: c₀ :: c₁ :: c₂ :: c₃ :: rest) ↔
        t = msgAuthentication ∧ (BigEndian.i32 b₀ b₁ b₂ b₃ = -1 ∨
          (BigEndian.i32 c₀ c₁ c₂ c₃ = 11 ∨ BigEndian.i32 c₀ c₁ c₂ c₃ = 12) ∧
            0 ≤ BigEndian.i32 b₀ b₁ b₂ b₃ ∧ BigEndian.i32 b₀ b₁ b₂ b₃ < 8) := by
      simp [ShortAuth, headerAt, authCode]
    simp only [hiff, AuthRequest.parse]
    by_cases htag : t = msgAuthentication
    · simp only [if_neg (not_not.2 htag)]
      by_cases hone : BigEndian.i32 b₀ b₁ b₂ b₃ = -1
      · refine iff_of_false (fun h => ?_) (not_not.2 ⟨htag, .inl hone⟩)
        obtain ⟨r, hr⟩ := h .checked
        rw [hone] at hr
        cases hr
      · -- the other lengths do the same with either overflow setting
        have hsame := fun ov =>
          AuthRequest.ofCode_cut_returns_iff ov (BigEndian.i32 c₀ c₁ c₂ c₃) hslice hlong hlow hone
        constructor
        · rintro h ⟨-, hshort⟩
          exact (hsame .checked).1 (h .checked) (hshort.resolve_left hone)
        · intro h ov
          exact (hsame ov).2 fun hshort => h ⟨htag, .inr hshort⟩
    · simp only [if_pos htag]
      exact iff_of_true (fun _ => ⟨_, rfl⟩) fun h => htag h.1

/-- Both parsers return with either overflow setting exactly when a PasswordMessage has room for the
    NUL of its password, and an authentication request has a length other than -1 and, if it is a
    SASL step, one that covers the code. -/
theorem authParsers_return_iff (data : ByteSlice) :
    (∀ ov, (∃ r, parsePasswordMessage ov data = .ok r) ∧ ∃ r, AuthRequest.parse ov data = .ok r) ↔
      ¬ ShortPassword data ∧ ¬ ShortAuth data := by
  rw [forall_and, AuthRequest.parse_returns_iff]
  refine and_congr_left fun _ => ?_
  constructor
  · intro h
    exact (parsePasswordMessage_returns_iff .checked data).1 (h .checked)
  · intro h ov
    exact (parsePasswordMessage_returns_iff ov data).2 h

/-- A password of length 4 has no room for its NUL, and neither has a SASLContinue of length 7 for
    all of its code; a length of -1 overflows. -/
theorem authParsers_panic :
    (∀ ov, parsePasswordMessage ov [112, 0, 0, 0, 4] = .error .panic) ∧
      (∀ ov, AuthRequest.parse ov [82, 0, 0, 0, 7, 0, 0, 0, 11] = .error .panic) ∧
      AuthRequest.parse .checked [82, 255, 255, 255, 255, 0, 0, 0, 0] = .error .panic := by
  refine ⟨fun ov => ?_, fun ov => ?_, by decide⟩
  · cases ov <;> decide
  · cases ov <;> decide

end ScryProxy
