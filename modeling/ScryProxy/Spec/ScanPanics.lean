import ScryProxy.Native.Extractor
import Mathlib.Logic.Relation

/-!
# When the scans of backend reads return

The three scans cast the signed length of a header to `usize` and add it to an offset, or
subtract from it, before they compare it with the slice.  A negative length that leads back
into the slice wraps around (and the walk goes on behind itself) or panics, and an
ErrorResponse length below 4 underflows.  A slice on which the walks meet neither is scanned
to its end, and only such a slice is (`scans_return_iff`).
-/

namespace ScryProxy

open Relation (ReflTransGen)
open Rust (Overflow)

/-- A byte slice: Rust has none longer than `isize::MAX`. -/
abbrev ByteSlice := { data : List UInt8 // data.length < 2 ^ 63 }

/-- Type byte and length of the header at an offset, if all of it is there. -/
def headerAt (data : List UInt8) (offset : Nat) : Option (UInt8 × Int) :=
  match data.drop offset with
  | t :: b₀ :: b₁ :: b₂ :: b₃ :: _ => some (t, BigEndian.i32 b₀ b₁ b₂ b₃)
  | _ => none

variable {data : List UInt8} {offset : Nat}

theorem exists_of_headerAt {t : UInt8} {length : Int} (h : headerAt data offset = some (t, length)) :
    ∃ b₀ b₁ b₂ b₃, data.drop offset = t :: b₀ :: b₁ :: b₂ :: b₃ :: data.drop (offset + 5) ∧
      BigEndian.i32 b₀ b₁ b₂ b₃ = length := by
  unfold headerAt at h
  split at h
  · next t' b₀ b₁ b₂ b₃ rest hdrop =>
    cases h
    refine ⟨b₀, b₁, b₂, b₃, ?_, rfl⟩
    rw [← List.drop_drop, hdrop]
    rfl
  · cases h

theorem not_header_of_headerAt (h : headerAt data offset = none) (t b₀ b₁ b₂ b₃ : UInt8)
    (rest : List UInt8) : data.drop offset ≠ t :: b₀ :: b₁ :: b₂ :: b₃ :: rest := by
  intro hdrop
  simp [headerAt, hdrop] at h

theorem lt_of_headerAt {t : UInt8} {length : Int} (h : headerAt data offset = some (t, length)) :
    offset + 5 ≤ data.length := by
  obtain ⟨b₀, b₁, b₂, b₃, hdrop, -⟩ := exists_of_headerAt h
  have hlen := congrArg List.length hdrop
  simp only [List.length_drop, List.length_cons] at hlen
  omega

theorem neg_le_headerAt {t : UInt8} {length : Int} (h : headerAt data offset = some (t, length)) :
    -2 ^ 31 ≤ length := by
  obtain ⟨b₀, b₁, b₂, b₃, -, rfl⟩ := exists_of_headerAt h
  exact BigEndian.neg_le_i32 b₀ b₁ b₂ b₃

/-! ## The walk over messages -/

/-- A complete message lies between the two offsets. -/
def NextAt (data : List UInt8) (offset next : Nat) : Prop :=
  ∃ t length, headerAt data offset = some (t, length) ∧ 4 ≤ length ∧
    next = offset + 1 + length.toNat ∧ next ≤ data.length

/-- The length at the offset is negative and leads back into the slice. -/
def JumpsBack (data : List UInt8) (offset : Nat) : Prop :=
  ∃ t length, headerAt data offset = some (t, length) ∧ length < 0 ∧ 0 ≤ (offset + 1 : Nat) + length

section Walk

variable {data : List UInt8} {offset : Nat} {t : UInt8} {length : Int}

/-- Without a jump back the sum is an offset behind the slice, or the next message's. -/
theorem offsetAdd_of_not_jumpsBack (ov : Overflow) (hslice : data.length < 2 ^ 63)
    (hheader : headerAt data offset = some (t, length)) (hjump : ¬ JumpsBack data offset)
    (hlength : ¬ (0 ≤ length ∧ length < 4)) :
    ∃ next, Rust.offsetAdd ov (offset + 1) length = .ok next ∧
      (data.length < next ∨ NextAt data offset next) := by
  by_cases hneg : length < 0
  · have hlow := neg_le_headerAt hheader
    have hout : (offset + 1 : Nat) + length < 0 := by
      by_contra hback
      exact hjump ⟨t, length, hheader, hneg, by omega⟩
    refine ⟨offset + 1 + Rust.asUsize length, ?_, .inl ?_⟩
    · exact Rust.offsetAdd_of_lt ov hout
    · -- as a `usize` the length is larger than any slice
      rw [Rust.asUsize, if_neg (by omega)]
      omega
  · refine ⟨offset + 1 + length.toNat, ?_, ?_⟩
    · exact Rust.offsetAdd_of_nonneg ov _ (by omega)
    · by_cases hin : offset + 1 + length.toNat ≤ data.length
      · exact .inr ⟨t, length, hheader, by omega, rfl, hin⟩
      · exact .inl (by omega)

theorem lt_of_nextAt {next : Nat} (h : NextAt data offset next) : offset < next ∧ next ≤ data.length := by
  obtain ⟨-, length, -, -, rfl, hle⟩ := h
  omega

/-! ### `extract_ready_for_query` -/

theorem readyLoop_header (ov : Overflow) (hheader : headerAt data offset = some (t, length))
    (fuel : Nat) (lastStatus : Option UInt8) :
    ∃ status, readyLoop ov data (fuel + 1) offset lastStatus =
      if 0 ≤ length ∧ length < 4 then .ok status
      else Rust.offsetAdd ov (offset + 1) length >>= fun next =>
        if data.length < next then .ok status else readyLoop ov data fuel next status := by
  obtain ⟨b₀, b₁, b₂, b₃, hdrop, rfl⟩ := exists_of_headerAt hheader
  simp only [readyLoop, hdrop]
  exact ⟨_, rfl⟩

theorem readyLoop_end (ov : Overflow) (hheader : headerAt data offset = none) (fuel : Nat)
    (lastStatus : Option UInt8) : readyLoop ov data (fuel + 1) offset lastStatus = .ok lastStatus := by
  have hshort := not_header_of_headerAt hheader
  simp only [readyLoop]

theorem readyLoop_returns (ov : Overflow) (hslice : data.length < 2 ^ 63) {fuel : Nat}
    {lastStatus : Option UInt8} (hfuel : data.length < offset + fuel) (hoffset : offset ≤ data.length)
    (hwalk : ∀ o, ReflTransGen (NextAt data) offset o → ¬ JumpsBack data o) :
    ∃ status, readyLoop ov data fuel offset lastStatus = .ok status := by
  -- the offset grows with every round, and the rounds left reach the end of the slice
  induction fuel generalizing offset lastStatus with
  | zero => omega
  | succ fuel ih =>
    cases hheader : headerAt data offset with
    | none => exact ⟨_, readyLoop_end ov hheader fuel lastStatus⟩
    | some header =>
      obtain ⟨t, length⟩ := header
      obtain ⟨status, hround⟩ := readyLoop_header ov hheader fuel lastStatus
      rw [hround]
      by_cases hlength : 0 ≤ length ∧ length < 4
      · exact ⟨status, if_pos hlength⟩
      · obtain ⟨next, hnext, hcases⟩ :=
          offsetAdd_of_not_jumpsBack ov hslice hheader (hwalk offset .refl) hlength
        rw [if_neg hlength, hnext, Rust.ok_bind]
        by_cases hend : data.length < next
        · exact ⟨status, if_pos hend⟩
        · have hstep := hcases.resolve_left hend
          have hgrows := lt_of_nextAt hstep
          rw [if_neg hend]
          exact ih (by omega) (by omega) fun o ho => hwalk o (.head hstep ho)

/-- With checked arithmetic the scan does not get past a jump back. -/
theorem not_jumpsBack_of_readyLoop {fuel : Nat} {lastStatus status : Option UInt8}
    (h : readyLoop .checked data fuel offset lastStatus = .ok status) {o : Nat}
    (ho : ReflTransGen (NextAt data) offset o) : ¬ JumpsBack data o := by
  induction fuel generalizing offset lastStatus with
  | zero => cases h
  | succ fuel ih =>
    rcases ho.cases_head with rfl | ⟨next, hstep, ho⟩
    · rintro ⟨t, length, hheader, hneg, hback⟩
      obtain ⟨status', hround⟩ := readyLoop_header .checked hheader fuel lastStatus
      rw [hround, if_neg (by omega), Rust.offsetAdd_checked hneg hback] at h
      cases h
    · obtain ⟨t, length, hheader, hlen, rfl, hle⟩ := hstep
      obtain ⟨status', hround⟩ := readyLoop_header .checked hheader fuel lastStatus
      rw [hround, if_neg (by omega), Rust.offsetAdd_of_nonneg .checked _ (by omega), Rust.ok_bind,
        if_neg (by omega)] at h
      exact ih h ho

/-! ### `is_query_complete` -/

theorem completeLoop_returns (ov : Overflow) (hslice : data.length < 2 ^ 63) {fuel : Nat}
    (hfuel : data.length < offset + fuel) (hoffset : offset ≤ data.length)
    (hwalk : ∀ o, ReflTransGen (NextAt data) offset o → ¬ JumpsBack data o) :
    ∃ complete, completeLoop ov data fuel offset = .ok complete := by
  induction fuel generalizing offset with
  | zero => omega
  | succ fuel ih =>
    cases hheader : headerAt data offset with
    | none =>
      have hshort := not_header_of_headerAt hheader
      exact ⟨false, by simp only [completeLoop]⟩
    | some header =>
      obtain ⟨t, length⟩ := header
      obtain ⟨b₀, b₁, b₂, b₃, hdrop, rfl⟩ := exists_of_headerAt hheader
      simp only [completeLoop, hdrop]
      split
      · exact ⟨true, rfl⟩
      · split
        · exact ⟨false, rfl⟩
        · next hlength =>
          obtain ⟨next, hnext, hcases⟩ :=
            offsetAdd_of_not_jumpsBack ov hslice hheader (hwalk offset .refl) hlength
          rw [hnext, Rust.ok_bind]
          by_cases hend : data.length < next
          · exact ⟨false, if_pos hend⟩
          · have hstep := hcases.resolve_left hend
            have hgrows := lt_of_nextAt hstep
            rw [if_neg hend]
            exact ih (by omega) (by omega) fun o ho => hwalk o (.head hstep ho)

end Walk

/-! ## The walk of the error scan -/

/-- Where the search for an ErrorResponse goes on: inside one that is not all there, and behind any
    other complete message with a payload. -/
def ErrorNextAt (data : List UInt8) (offset next : Nat) : Prop :=
  ∃ t length, headerAt data offset = some (t, length) ∧
    ((t = msgErrorResponse ∧ ¬ (4 ≤ length ∧ offset + 1 + length.toNat ≤ data.length) ∧
        next = offset + 5) ∨
      (t ≠ msgErrorResponse ∧ 4 < length ∧ next = offset + 1 + length.toNat ∧ next ≤ data.length))

/-- An ErrorResponse with a length between 0 and 3. -/
def ShortErrorAt (data : List UInt8) (offset : Nat) : Prop :=
  ∃ length, headerAt data offset = some (msgErrorResponse, length) ∧ 0 ≤ length ∧ length < 4

section ErrorWalk

variable {data : List UInt8} {offset : Nat}

/-- One round of the search, at an offset of the slice. -/
theorem findErrorLoop_header (ov : Overflow) {t : UInt8} {length : Int}
    (hheader : headerAt data offset = some (t, length)) (fuel : Nat) :
    findErrorLoop ov (fuel + 1) (data.drop offset) =
      if t = msgErrorResponse then
        if 4 ≤ length ∧ offset + 1 + length.toNat ≤ data.length then
          .ok (some (parseErrorFields ((data.drop (offset + 5)).take (length.toNat - 4))))
        else if 0 ≤ length ∧ length < 4 ∧ ov = .checked then .error .panic
        else findErrorLoop ov fuel (data.drop (offset + 5))
      else if 4 < length ∧ offset + 1 + length.toNat ≤ data.length then
        findErrorLoop ov fuel (data.drop (offset + 1 + length.toNat))
      else .ok none := by
  have hsize := lt_of_headerAt hheader
  obtain ⟨b₀, b₁, b₂, b₃, hdrop, rfl⟩ := exists_of_headerAt hheader
  -- the guards compare with the bytes behind the header
  have hguard : ∀ n : Nat, 4 ≤ n → (n - 4 ≤ (data.drop (offset + 5)).length ↔
      offset + 1 + n ≤ data.length) := by
    intro n hn
    rw [List.length_drop]
    omega
  simp only [findErrorLoop, hdrop]
  by_cases hlen : 4 ≤ BigEndian.i32 b₀ b₁ b₂ b₃
  · have hskip : offset + 5 + ((BigEndian.i32 b₀ b₁ b₂ b₃).toNat - 4) =
        offset + 1 + (BigEndian.i32 b₀ b₁ b₂ b₃).toNat := by omega
    simp only [hguard _ (show 4 ≤ (BigEndian.i32 b₀ b₁ b₂ b₃).toNat by omega), List.drop_drop, hskip]
  · have hlen' : ¬ 4 < BigEndian.i32 b₀ b₁ b₂ b₃ := by omega
    simp only [hlen, hlen', false_and, if_false]

theorem findErrorLoop_end (ov : Overflow) (hheader : headerAt data offset = none) (fuel : Nat) :
    findErrorLoop ov fuel (data.drop offset) = .ok none := by
  have hshort := not_header_of_headerAt hheader
  cases fuel with
  | zero => rfl
  | succ fuel =>
    generalize data.drop offset = bytes at hshort
    match bytes with
    | [] | [_] | [_, _] | [_, _, _] | [_, _, _, _] => rfl
    | t :: b₀ :: b₁ :: b₂ :: b₃ :: rest => exact absurd rfl (hshort t b₀ b₁ b₂ b₃ rest)

theorem findErrorLoop_returns_of_walk (ov : Overflow) (fuel : Nat)
    (hwalk : ∀ o, ReflTransGen (ErrorNextAt data) offset o → ¬ ShortErrorAt data o) :
    ∃ fields, findErrorLoop ov fuel (data.drop offset) = .ok fields := by
  induction fuel generalizing offset with
  | zero => exact ⟨none, rfl⟩
  | succ fuel ih =>
    cases hheader : headerAt data offset with
    | none => exact ⟨none, findErrorLoop_end ov hheader _⟩
    | some header =>
      obtain ⟨t, length⟩ := header
      rw [findErrorLoop_header ov hheader]
      split
      · next htag =>
        split
        · exact ⟨_, rfl⟩
        · next hcut =>
          split
          · next hshort =>
            exact absurd ⟨length, htag ▸ hheader, hshort.1, hshort.2.1⟩ (hwalk offset .refl)
          · have hstep : ErrorNextAt data offset (offset + 5) :=
              ⟨t, length, hheader, .inl ⟨htag, hcut, rfl⟩⟩
            exact ih fun o ho => hwalk o (.head hstep ho)
      · next htag =>
        split
        · next hskip =>
          have hstep : ErrorNextAt data offset (offset + 1 + length.toNat) :=
            ⟨t, length, hheader, .inr ⟨htag, hskip.1, rfl, hskip.2⟩⟩
          exact ih fun o ho => hwalk o (.head hstep ho)
        · exact ⟨none, rfl⟩

theorem not_shortErrorAt_of_findErrorLoop {fuel : Nat} {fields : Option ErrorFields}
    (hfuel : data.length ≤ offset + fuel)
    (h : findErrorLoop .checked fuel (data.drop offset) = .ok fields) {o : Nat}
    (ho : ReflTransGen (ErrorNextAt data) offset o) : ¬ ShortErrorAt data o := by
  induction fuel generalizing offset with
  | zero =>
    -- no header is left
    rcases ho.cases_head with rfl | ⟨next, ⟨t, length, hheader, -⟩, -⟩
    · rintro ⟨length, hheader, -, -⟩
      have := lt_of_headerAt hheader
      omega
    · have := lt_of_headerAt hheader
      omega
  | succ fuel ih =>
    rcases ho.cases_head with rfl | ⟨next, ⟨t, length, hheader, hstep⟩, ho⟩
    · rintro ⟨length, hheader, hlo, hhi⟩
      rw [findErrorLoop_header .checked hheader, if_pos rfl, if_neg (by omega),
        if_pos ⟨hlo, hhi, rfl⟩] at h
      cases h
    · rw [findErrorLoop_header .checked hheader] at h
      rcases hstep with ⟨htag, hcut, rfl⟩ | ⟨htag, hlen, rfl, hle⟩
      · rw [if_pos htag, if_neg hcut] at h
        split at h
        · cases h
        · exact ih (by omega) h ho
      · rw [if_neg htag, if_pos ⟨hlen, hle⟩] at h
        exact ih (by omega) h ho

end ErrorWalk

/-- The bound on the rounds is never what ends the search. -/
theorem findErrorLoop_fuel (ov : Overflow) {fuel : Nat} {bytes : List UInt8}
    (hfuel : bytes.length ≤ fuel) : findErrorLoop ov fuel bytes = findErrorFields ov bytes := by
  unfold findErrorFields
  generalize hn : bytes.length = n at hfuel
  replace hn : bytes.length ≤ n := hn.le
  induction n generalizing fuel bytes with
  | zero =>
    rw [List.length_eq_zero_iff.1 (Nat.le_zero.1 hn)]
    cases fuel <;> rfl
  | succ n ih =>
    obtain ⟨fuel, rfl⟩ := Nat.exists_eq_succ_of_ne_zero (Nat.ne_of_gt (Nat.zero_lt_of_lt hfuel))
    match bytes with
    | [] | [_] | [_, _] | [_, _, _] | [_, _, _, _] => rfl
    | t :: b₀ :: b₁ :: b₂ :: b₃ :: rest =>
      have hrest : rest.length ≤ n := by
        simp only [List.length_cons] at hn
        omega
      have hskip : (rest.drop ((BigEndian.i32 b₀ b₁ b₂ b₃).toNat - 4)).length ≤ n := by
        rw [List.length_drop]
        omega
      simp only [findErrorLoop, ih (Nat.le_of_succ_le_succ hfuel) hrest,
        ih (Nat.le_of_succ_le_succ hfuel) hskip]

theorem extractError_returns_iff (ov : Overflow) (data : List UInt8) :
    (∃ text, extractError ov data = .ok text) ↔ ∃ fields, findErrorFields ov data = .ok fields := by
  rw [extractError, Rust.bind_returns_iff]
  constructor
  · rintro ⟨fields, hfields, -⟩
    exact ⟨fields, hfields⟩
  · rintro ⟨fields, hfields⟩
    refine ⟨fields, hfields, ?_⟩
    split
    · exact ⟨_, rfl⟩
    · split <;> exact ⟨_, rfl⟩

/-- The three scans return with either overflow setting exactly when the walk over the messages meets
    no length that jumps back, and the search for an ErrorResponse meets none with a length below 4. -/
theorem scans_return_iff (data : ByteSlice) :
    (∀ ov, (∃ text, extractError ov data = .ok text) ∧
        (∃ complete, isQueryComplete ov data = .ok complete) ∧
        ∃ status, extractReadyForQuery ov data = .ok status) ↔
      (∀ offset, ReflTransGen (NextAt data) 0 offset → ¬ JumpsBack data offset) ∧
        ∀ offset, ReflTransGen (ErrorNextAt data) 0 offset → ¬ ShortErrorAt data offset := by
  obtain ⟨data, hslice⟩ := data
  constructor
  · intro h
    obtain ⟨herror, -, status, hready⟩ := h .checked
    obtain ⟨fields, herror⟩ := (extractError_returns_iff .checked data).1 herror
    have hsearch : findErrorLoop .checked data.length (data.drop 0) = .ok fields := herror
    refine ⟨fun offset => not_jumpsBack_of_readyLoop hready, fun offset => ?_⟩
    exact not_shortErrorAt_of_findErrorLoop (Nat.le_add_left _ _) hsearch
  · rintro ⟨hjump, hshort⟩ ov
    have hfuel : data.length < 0 + (data.length + 1) := by omega
    refine ⟨?_, ?_, ?_⟩
    · exact (extractError_returns_iff ov data).2 (findErrorLoop_returns_of_walk ov data.length hshort)
    · exact completeLoop_returns ov hslice hfuel (Nat.zero_le _) hjump
    · exact readyLoop_returns ov hslice hfuel (Nat.zero_le _) hjump

/-- A length of -1 keeps the walk where it is, and a length of 3 underflows. -/
theorem scans_fail :
    isQueryComplete .wrapping [68, 255, 255, 255, 255] = .error .diverge ∧
      extractReadyForQuery .wrapping [68, 255, 255, 255, 255] = .error .diverge ∧
      isQueryComplete .checked [68, 255, 255, 255, 255] = .error .panic ∧
      extractError .checked [69, 0, 0, 0, 3] = .error .panic := by
  decide

end ScryProxy
