import ScryProxy.Spec.ServerProof

/-!
# Messages that authentication cannot use

`try_parse_auth` returns `None` for a message that is not all there and for one that it does
not understand, and `authenticate` reads again in both cases.  So a complete message that is
no supported request stays at the front of the buffer, whatever comes behind it
(`authenticate_waits`): an ErrorResponse, a notice or a request for another kind of
authentication leaves the loop waiting until the backend closes the connection.
-/

namespace ScryProxy

open Rust (Overflow)

/-- The authentication codes that `AuthRequest::parse` knows. -/
def supportedCodes : List Int := [0, 3, 5, 10, 11, 12]

/-- A message that is no authentication request, or one with another code. -/
structure Unusable (f : Frame) : Prop where
  short : f.len < 2 ^ 31
  other : f.tag = msgAuthentication → ∃ c₀ c₁ c₂ c₃ data, f.payload = c₀ :: c₁ :: c₂ :: c₃ :: data ∧
    BigEndian.i32 c₀ c₁ c₂ c₃ ∉ supportedCodes

theorem AuthRequest.ofCode_unsupported {code : Int} (h : code ∉ supportedCodes) (data : List UInt8)
    (total : Nat) : AuthRequest.ofCode code data total = .ok none := by
  simp only [supportedCodes, List.mem_cons, List.not_mem_nil, or_false, not_or] at h
  obtain ⟨h₀, h₃, h₅, h₁₀, h₁₁, h₁₂⟩ := h
  unfold AuthRequest.ofCode
  rw [if_neg h₀, if_neg h₃, if_neg h₅, if_neg h₁₀, if_neg (not_or.2 ⟨h₁₁, h₁₂⟩)]

/-- Nothing is taken off a buffer that begins with such a message. -/
theorem Unusable.tryParseAuth_eq {f : Frame} (hf : Unusable f) (ov : Overflow) (rest : List UInt8) :
    tryParseAuth ov (f.encode ++ rest) = .ok none := by
  by_cases htag : f.tag = msgAuthentication
  · obtain ⟨c₀, c₁, c₂, c₃, data, hpayload, hcode⟩ := hf.other htag
    have hlen : f.encode.length = 1 + f.len := by
      rw [Frame.length_encode, Frame.len]
      omega
    have hbytes : ∀ more, f.encode ++ more = msgAuthentication :: UInt8.ofNat (f.len / 2 ^ 24) ::
        UInt8.ofNat (f.len / 2 ^ 16) :: UInt8.ofNat (f.len / 2 ^ 8) :: UInt8.ofNat f.len ::
        c₀ :: c₁ :: c₂ :: c₃ :: (data ++ more) := by
      intro more
      rw [Frame.encode_append, htag, hpayload]
      rfl
    -- the message is cut out whole, and its code is not known
    have hparse : AuthRequest.parse ov f.encode = .ok none := by
      have hframe := hbytes []
      rw [List.append_nil] at hframe
      rw [AuthRequest.parse_header ov hframe (BigEndian.i32_bytes32 hf.short),
        AuthRequest.ofCode_unsupported hcode, ite_self]
    rw [tryParseAuth_header ov (hbytes rest) (BigEndian.i32_bytes32 hf.short), ← hlen,
      List.take_left, hparse]
    exact ite_self _
  · rw [Frame.encode_append]
    exact tryParseAuth_other ov htag _

namespace BackendAuthenticator

variable {ov : Overflow} {auth : BackendAuthenticator} {writeOk : Bool} {f : Frame}
  {more rest : List UInt8} {s' : AuthState}

/-- The rounds over a part of a stream that comes to such a message end with a read, before the
    message or at it. -/
theorem handleRequests_unusable (hf : Unusable f) (fuel : Nat) {pending : List UInt8}
    {reqs : List AuthRequest} {s : AuthState}
    (htaken : Taken ov (pending ++ more) reqs (f.encode ++ rest))
    (hreplies : auth.replies writeOk s reqs = .ok s') :
    ∃ left reqs' s₁, handleRequests ov auth writeOk fuel pending s = .ok (.more left s₁) ∧
      Taken ov (left ++ more) reqs' (f.encode ++ rest) ∧
      auth.replies writeOk s₁ reqs' = .ok s' := by
  induction fuel generalizing pending reqs s with
  | zero => exact ⟨pending, reqs, s, rfl, htaken, hreplies⟩
  | succ fuel ih =>
    rw [handleRequests]
    by_cases hnone : tryParseAuth ov pending = .ok none
    · rw [hnone]
      exact ⟨pending, reqs, s, rfl, htaken, hreplies⟩
    · have hsame := tryParseAuth_append_eq hnone more
      have hstuck := hf.tryParseAuth_eq ov rest
      generalize hbytes : pending ++ more = bytes at htaken hsame
      generalize f.encode ++ rest = final at htaken hstuck ih
      cases htaken with
      | nil =>
        -- the message is at the front, and something was found before it was all there
        exact absurd (hsame.symm.trans hstuck) hnone
      | cons hparse hreq htaken =>
        obtain ⟨s₁, hrespond, hreplies⟩ := replies_cons.1 hreplies
        rw [hparse] at hsame
        rw [← hbytes, List.drop_append_of_le_length (tryParseAuth_le_length hsame.symm)] at htaken
        simp only [← hsame, Rust.ok_bind, if_neg hreq, hrespond]
        exact ih htaken hreplies

/-- The loop over the rest of a stream that comes to such a message. -/
theorem authenticate_unusable (hf : Unusable f) {reads : List (List UInt8)} {pending : List UInt8}
    {reqs : List AuthRequest} {s : AuthState}
    (htaken : Taken ov (pending ++ reads.flatten) reqs (f.encode ++ rest))
    (hreplies : auth.replies writeOk s reqs = .ok s') :
    authenticate ov auth writeOk (reads.map .data) pending s = .ok .waiting := by
  induction reads generalizing pending reqs s with
  | nil =>
    obtain ⟨left, reqs', s₁, hround, -, -⟩ :=
      handleRequests_unusable hf pending.length htaken hreplies
    rw [List.map_nil, authenticate, hround]
    rfl
  | cons read reads ih =>
    obtain ⟨left, reqs', s₁, hround, htaken', hreplies'⟩ :=
      handleRequests_unusable hf pending.length htaken hreplies
    rw [List.map_cons, authenticate, hround]
    rw [List.flatten_cons, ← List.append_assoc] at htaken'
    exact ih htaken' hreplies'

/-- A complete message that is no supported request is neither consumed nor refused: the next step is
    a read, and so is every step after it.  It does not matter how the stream that leads to the
    message is cut into reads. -/
theorem authenticate_waits (ov : Overflow) (auth : BackendAuthenticator) (writeOk : Bool) {f : Frame}
    (hf : Unusable f) (rest : List UInt8) :
    (∀ s, handleRequests ov auth writeOk (f.encode ++ rest).length (f.encode ++ rest) s =
      .ok (.more (f.encode ++ rest) s)) ∧
    ∀ (reads : List (List UInt8)) (reqs : List AuthRequest) (s s' : AuthState),
      Taken ov reads.flatten reqs (f.encode ++ rest) → auth.replies writeOk s reqs = .ok s' →
      authenticate ov auth writeOk (reads.map .data) [] s = .ok .waiting := by
  constructor
  · intro s
    rw [Frame.encode_append, List.length_cons, handleRequests, ← Frame.encode_append,
      hf.tryParseAuth_eq ov rest]
    rfl
  · intro reads reqs s s' htaken hreplies
    exact authenticate_unusable hf htaken hreplies

end BackendAuthenticator

/-- `NoticeResponse` with a severity and a message. -/
def noticeFrame : Frame := ⟨78, [83, 87, 0, 77, 104, 105, 0, 0]⟩

theorem noticeFrame_unusable : Unusable noticeFrame where
  short := by decide
  other := fun htag => absurd htag (by decide)

/-- A request for the password and a notice, cut in the middle of both: the password is sent, and then
    the loop waits. -/
theorem authenticate_waits_at_notice :
    (authenticatorWith fun _ _ => true).authenticate .checked true
      [.data [82, 0, 0], .data ([0, 8, 0, 0, 0, 3] ++ [78, 0]),
        .data ([0, 0, 12, 83, 87, 0, 77, 104, 105, 0, 0] ++ buildAuthOk)] [] ⟨none, []⟩ =
      .ok .waiting := by
  refine (BackendAuthenticator.authenticate_waits .checked (authenticatorWith fun _ _ => true) true
    noticeFrame_unusable buildAuthOk).2
    [[82, 0, 0], [0, 8, 0, 0, 0, 3] ++ [78, 0],
      [0, 0, 12, 83, 87, 0, 77, 104, 105, 0, 0] ++ buildAuthOk]
    [.cleartextPassword] ⟨none, []⟩ _ ?_ rfl
  exact .cons (n := 9) (by decide +kernel) (by decide) (.nil _)

/-- A notice before AuthenticationOk, all in one read: authentication waits with the answer in its
    buffer.  Without the notice it is done. -/
theorem notice_blocks_authentication :
    (authenticatorWith fun _ _ => true).authenticate .wrapping true
        [.data (noticeFrame.encode ++ buildAuthOk)] [] ⟨none, []⟩ = .ok .waiting ∧
      (authenticatorWith fun _ _ => true).authenticate .wrapping true
        [.data buildAuthOk] [] ⟨none, []⟩ = .ok (.returned [] []) := by
  decide +kernel

end ScryProxy
