import ScryProxy.Spec.ServerProof

/-!
# The bytes of backend authentication

A backend sends requests, AuthenticationOk and then whatever else it has to say.  However the
stream is cut into reads, `authenticate` takes just the requests off it: what it returns and
what is still unread are the bytes after AuthenticationOk, and the answers are those to the
requests one after the other (`authentication_loses_nothing`).

The invariant of the loop: the buffer and the bytes to come hold the requests that are still
to be answered (`Sends`), and the answers to come do not depend on where the buffer ends
(`conclude`).
-/

namespace ScryProxy

open Frame (encodeAll)
open Rust (Overflow)

/-! ## Requests on the wire -/

namespace AuthRequest

/-- The authentication code. -/
def code : AuthRequest → UInt8
  | .ok => 0
  | .cleartextPassword => 3
  | .md5 _ => 5
  | .sasl _ => 10
  | .saslContinue _ => 11
  | .saslFinal _ => 12

/-- What follows the code. -/
def body : AuthRequest → List UInt8
  | .ok | .cleartextPassword => []
  | .md5 salt => salt
  | .sasl mechanisms => mechanisms.flatMap (· ++ [0]) ++ [0]
  | .saslContinue data | .saslFinal data => data

def frame (req : AuthRequest) : Frame := ⟨msgAuthentication, [0, 0, 0, req.code] ++ req.body⟩

/-- A salt has four bytes, mechanism names are neither empty nor cut by a NUL, and the length can be
    written. -/
structure WellFormed (req : AuthRequest) : Prop where
  short : req.frame.len < 2 ^ 31
  salt : ∀ salt, req = .md5 salt → salt.length = 4
  names : ∀ mechanisms, req = .sasl mechanisms → ∀ name ∈ mechanisms, name ≠ [] ∧ 0 ∉ name

/-- The loop takes the names up to the NUL behind the last one. -/
theorem parseMechanisms_names {mechanisms : List (List UInt8)}
    (hnames : ∀ name ∈ mechanisms, name ≠ [] ∧ 0 ∉ name) {fuel : Nat}
    (hfuel : mechanisms.length < fuel) :
    parseMechanisms fuel (mechanisms.flatMap (· ++ [0]) ++ [0]) = mechanisms := by
  induction mechanisms generalizing fuel with
  | nil =>
    obtain ⟨fuel, rfl⟩ := Nat.exists_eq_succ_of_ne_zero (Nat.ne_of_gt hfuel)
    cases fuel <;> rfl
  | cons name mechanisms ih =>
    obtain ⟨fuel, rfl⟩ := Nat.exists_eq_succ_of_ne_zero (Nat.ne_of_gt (Nat.zero_lt_of_lt hfuel))
    obtain ⟨⟨hne, hnul⟩, hrest⟩ := List.forall_mem_cons.1 hnames
    have hbody : (name :: mechanisms).flatMap (· ++ [0]) ++ [0] =
        name ++ 0 :: (mechanisms.flatMap (· ++ [0]) ++ [0]) := by simp
    rw [hbody, parseMechanisms, if_neg (by simp)]
    simp only [Cstring.takeWhile_append hnul, Cstring.drop_append, if_neg hne, List.singleton_append,
      List.cons.injEq, true_and]
    cases mechanisms with
    | nil => rfl
    | cons next mechanisms =>
      -- the next name does not start with a NUL
      obtain ⟨⟨hne', hnul'⟩, -⟩ := List.forall_mem_cons.1 hrest
      obtain ⟨b, next, rfl⟩ := List.exists_cons_of_ne_nil hne'
      have hhead : b ≠ 0 := fun hb => hnul' (hb ▸ List.mem_cons_self)
      rw [if_neg (by simpa using hhead)]
      exact ih hrest (Nat.lt_of_succ_lt_succ hfuel)

theorem length_lt_body {mechanisms : List (List UInt8)} :
    mechanisms.length < (mechanisms.flatMap (· ++ [0]) ++ [0]).length := by
  induction mechanisms with
  | nil => exact Nat.zero_lt_one
  | cons name mechanisms ih =>
    simp only [List.flatMap_cons, List.length_append, List.length_cons, List.length_nil] at ih ⊢
    omega

/-- A well-formed request is read as itself. -/
theorem ofCode_frame {req : AuthRequest} (h : req.WellFormed) :
    ofCode (BigEndian.i32 0 0 0 req.code) req.frame.encode req.frame.encode.length =
      .ok (some req) := by
  have hdrop : req.frame.encode.drop 9 = req.body := by
    rw [← List.append_nil req.frame.encode, Frame.encode_append]
    exact List.append_nil _
  have hlen : req.frame.encode.length = req.body.length + 9 := by simp [frame]
  unfold ofCode
  rw [List.take_length, hdrop, hlen]
  cases req with
  | ok =>
    have hcode : BigEndian.i32 0 0 0 (code .ok) = 0 := by decide
    rw [hcode, if_pos rfl]
  | cleartextPassword =>
    have hcode : BigEndian.i32 0 0 0 (code .cleartextPassword) = 3 := by decide
    rw [hcode, if_neg (by decide), if_pos rfl]
  | md5 salt =>
    have hcode : BigEndian.i32 0 0 0 (code (.md5 salt)) = 5 := by
      show BigEndian.i32 0 0 0 5 = 5
      decide
    have hsalt : salt.length = 4 := h.salt salt rfl
    rw [hcode, if_neg (by decide), if_neg (by decide), if_pos rfl, body, hsalt, if_neg (by decide),
      List.take_of_length_le hsalt.le]
  | sasl mechanisms =>
    have hcode : BigEndian.i32 0 0 0 (code (.sasl mechanisms)) = 10 := by
      show BigEndian.i32 0 0 0 10 = 10
      decide
    have hnames := parseMechanisms_names (h.names mechanisms rfl) length_lt_body
    rw [hcode, if_neg (by decide), if_neg (by decide), if_neg (by decide), if_pos rfl, body]
    dsimp only
    rw [hnames]
  | saslContinue data =>
    have hcode : BigEndian.i32 0 0 0 (code (.saslContinue data)) = 11 := by
      show BigEndian.i32 0 0 0 11 = 11
      decide
    rw [hcode, if_neg (by decide), if_neg (by decide), if_neg (by decide), if_neg (by decide),
      if_pos (.inl rfl), if_neg (by omega)]
    rfl
  | saslFinal data =>
    have hcode : BigEndian.i32 0 0 0 (code (.saslFinal data)) = 12 := by
      show BigEndian.i32 0 0 0 12 = 12
      decide
    rw [hcode, if_neg (by decide), if_neg (by decide), if_neg (by decide), if_neg (by decide),
      if_pos (.inr rfl), if_neg (by omega)]
    rfl

/-- The frame of a request, byte by byte up to the code. -/
theorem frame_append (req : AuthRequest) (more : List UInt8) :
    req.frame.encode ++ more = msgAuthentication :: UInt8.ofNat (req.frame.len / 2 ^ 24) ::
      UInt8.ofNat (req.frame.len / 2 ^ 16) :: UInt8.ofNat (req.frame.len / 2 ^ 8) ::
        UInt8.ofNat req.frame.len :: 0 :: 0 :: 0 :: req.code :: (req.body ++ more) :=
  Frame.encode_append req.frame more

/-- The frame of a well-formed request holds that request, whatever follows it. -/
theorem tryParseAuth_frame (ov : Overflow) {req : AuthRequest} (h : req.WellFormed)
    (more : List UInt8) :
    tryParseAuth ov (req.frame.encode ++ more) = .ok (some (req, req.frame.encode.length)) := by
  have hlen : 1 + req.frame.len = req.frame.encode.length := by
    rw [Frame.length_encode, Frame.len]
    omega
  have hself : AuthRequest.parse ov req.frame.encode = .ok (some req) := by
    have hbytes := req.frame_append []
    rw [List.append_nil] at hbytes
    rw [AuthRequest.parse_header ov hbytes (BigEndian.i32_bytes32 h.short), hlen,
      if_neg (Nat.lt_irrefl _), ofCode_frame h]
  rw [tryParseAuth_header ov (req.frame_append more) (BigEndian.i32_bytes32 h.short), hlen,
    if_neg (by rw [List.length_append]; omega), List.take_left, hself]
  rfl

end AuthRequest

variable {reqs : List AuthRequest}

/-- A stream of well-formed requests up to AuthenticationOk, read as such. -/
theorem sends_frames (ov : Overflow) (hreqs : ∀ req ∈ reqs, req ≠ .ok ∧ req.WellFormed)
    (after : List UInt8) :
    Sends ov (encodeAll (reqs.map AuthRequest.frame) ++ (buildAuthOk ++ after)) reqs after := by
  induction reqs with
  | nil =>
    have hok : AuthRequest.WellFormed .ok := ⟨by decide, nofun, nofun⟩
    refine ⟨_, _, .nil _, AuthRequest.tryParseAuth_frame ov hok after, ?_⟩
    exact List.drop_left.symm
  | cons req reqs ih =>
    obtain ⟨⟨hne, hwf⟩, hrest⟩ := List.forall_mem_cons.1 hreqs
    obtain ⟨rest, n, htaken, hok, hafter⟩ := ih hrest
    refine ⟨rest, n, ?_, hok, hafter⟩
    rw [List.map_cons, Frame.encodeAll_cons, List.append_assoc]
    refine .cons (AuthRequest.tryParseAuth_frame ov hwf _) hne ?_
    rwa [List.drop_left]

/-! ## The rounds of the loop -/

variable {ov : Overflow} {bytes : List UInt8}

/-- A request takes at least one byte. -/
theorem tryParseAuth_pos {req : AuthRequest} {n : Nat}
    (h : tryParseAuth ov bytes = .ok (some (req, n))) : 0 < n := by
  unfold tryParseAuth at h
  split at h
  · split at h
    · cases h
    · obtain ⟨total, -, h⟩ := Rust.bind_returns.1 h
      split at h
      · cases h
      · obtain ⟨parsed, hparse, h⟩ := Rust.bind_returns.1 h
        cases parsed with
        | none => cases h
        | some req' =>
          cases h
          -- of no bytes there is no request
          refine Nat.pos_of_ne_zero fun hzero => ?_
          rw [hzero] at hparse
          cases hparse
  · cases h

variable {after : List UInt8}

/-- The first thing in such a stream is a request. -/
theorem Sends.found (h : Sends ov bytes reqs after) :
    ∃ req n, tryParseAuth ov bytes = .ok (some (req, n)) := by
  obtain ⟨rest, n, htaken, hok, -⟩ := h
  cases htaken with
  | nil => exact ⟨_, _, hok⟩
  | cons hparse _ _ => exact ⟨_, _, hparse⟩

theorem Sends.of_ok {n : Nat} (h : Sends ov bytes reqs after)
    (hparse : tryParseAuth ov bytes = .ok (some (.ok, n))) : reqs = [] ∧ after = bytes.drop n :=
  h.determined ⟨bytes, n, .nil _, hparse, rfl⟩

theorem Sends.of_request {req : AuthRequest} {n : Nat} (h : Sends ov bytes reqs after)
    (hparse : tryParseAuth ov bytes = .ok (some (req, n))) (hreq : req ≠ .ok) :
    ∃ reqs', reqs = req :: reqs' ∧ Sends ov (bytes.drop n) reqs' after := by
  obtain ⟨rest, m, htaken, hok, hafter⟩ := h
  cases htaken with
  | nil =>
    rw [hparse] at hok
    cases hok
    exact absurd rfl hreq
  | cons hparse' _ htail =>
    rw [hparse] at hparse'
    cases hparse'
    exact ⟨_, rfl, rest, m, htail, hok, hafter⟩

namespace BackendAuthenticator

variable {ov : Overflow} {auth : BackendAuthenticator} {writeOk : Bool} {s : AuthState}
  {pending after : List UInt8} {reqs : List AuthRequest}

/-- What has been written once the requests are answered, or once one of them cannot be. -/
def written (auth : BackendAuthenticator) (writeOk : Bool) :
    AuthState → List AuthRequest → List (List UInt8)
  | s, [] => s.sent
  | s, req :: reqs =>
    match auth.respond writeOk s req with
    | .ok s => written auth writeOk s reqs
    | .error _ => s.sent

/-- How the rounds without a read can end if the stream holds the requests `reqs` and then `after`,
    of which `unread` has not been read. -/
inductive RoundEnds (ov : Overflow) (auth : BackendAuthenticator) (writeOk : Bool) (s : AuthState)
    (reqs : List AuthRequest) (unread after : List UInt8) : Progress × List (List UInt8) → Prop where
  | done {rest : List UInt8} {s' : AuthState} (hreplies : auth.replies writeOk s reqs = .ok s')
      (hrest : rest ++ unread = after) :
      RoundEnds ov auth writeOk s reqs unread after (.done rest, auth.written writeOk s reqs)
  | failed {e : StartupError} (hreplies : auth.replies writeOk s reqs = .error e) :
      RoundEnds ov auth writeOk s reqs unread after (.failed e, auth.written writeOk s reqs)
  | more {left : List UInt8} {s₁ : AuthState} {reqs₁ : List AuthRequest} {sent : List (List UInt8)}
      (hnone : tryParseAuth ov left = .ok none) (hsends : Sends ov (left ++ unread) reqs₁ after)
      (hreplies : auth.replies writeOk s₁ reqs₁ = auth.replies writeOk s reqs)
      (hwritten : auth.written writeOk s₁ reqs₁ = auth.written writeOk s reqs) :
      RoundEnds ov auth writeOk s reqs unread after (.more left s₁, sent)

/-- An answered request changes neither what is to come nor where it ends. -/
theorem RoundEnds.cons {req : AuthRequest} {s₁ : AuthState} {unread : List UInt8}
    {out : Progress × List (List UInt8)} (hrespond : auth.respond writeOk s req = .ok s₁)
    (h : RoundEnds ov auth writeOk s₁ reqs unread after out) :
    RoundEnds ov auth writeOk s (req :: reqs) unread after out := by
  have hreplies : auth.replies writeOk s (req :: reqs) = auth.replies writeOk s₁ reqs := by
    rw [replies, hrespond]
  have hwritten : auth.written writeOk s (req :: reqs) = auth.written writeOk s₁ reqs := by
    rw [written, hrespond]
  cases h with
  | done h hrest =>
    rw [← hwritten]
    exact .done (hreplies.trans h) hrest
  | failed h =>
    rw [← hwritten]
    exact .failed (hreplies.trans h)
  | more hnone hsends h hw =>
    exact .more hnone hsends (h.trans hreplies.symm) (hw.trans hwritten.symm)

theorem handleRequestsSent_ends (auth : BackendAuthenticator) (writeOk : Bool) (s : AuthState)
    {unread : List UInt8} {fuel : Nat} (hfuel : pending.length ≤ fuel)
    (h : Sends ov (pending ++ unread) reqs after) :
    ∃ out, handleRequestsSent ov auth writeOk fuel pending s = .ok out ∧
      RoundEnds ov auth writeOk s reqs unread after out := by
  induction fuel generalizing pending s reqs with
  | zero =>
    rw [List.length_eq_zero_iff.1 (Nat.le_zero.1 hfuel)] at h ⊢
    exact ⟨_, rfl, .more rfl h rfl rfl⟩
  | succ fuel ih =>
    by_cases hnone : tryParseAuth ov pending = .ok none
    · exact ⟨_, by rw [handleRequestsSent, hnone]; rfl, .more hnone h rfl rfl⟩
    · -- what is found in the buffer is what the stream starts with
      obtain ⟨req, n, hstream⟩ := h.found
      have hparse : tryParseAuth ov pending = .ok (some (req, n)) := by
        rw [← tryParseAuth_append_eq hnone unread, hstream]
      have hle := tryParseAuth_le_length hparse
      have hpos := tryParseAuth_pos hparse
      have hdrop : (pending ++ unread).drop n = pending.drop n ++ unread :=
        List.drop_append_of_le_length hle
      rw [handleRequestsSent, hparse, Rust.ok_bind]
      dsimp only
      by_cases hreq : req = .ok
      · subst hreq
        obtain ⟨rfl, rfl⟩ := h.of_ok hstream
        rw [if_pos rfl]
        exact ⟨_, rfl, .done rfl hdrop.symm⟩
      · rw [if_neg hreq]
        obtain ⟨reqs, rfl, htail⟩ := h.of_request hstream hreq
        rw [hdrop] at htail
        cases hrespond : auth.respond writeOk s req with
        | error e =>
          have hreplies : auth.replies writeOk s (req :: reqs) = .error e := by
            rw [replies, hrespond]
          have hwritten : auth.written writeOk s (req :: reqs) = s.sent := by
            rw [written, hrespond]
          exact ⟨_, rfl, hwritten ▸ .failed hreplies⟩
        | ok s₁ =>
          obtain ⟨out, hout, hends⟩ := ih s₁ (by rw [List.length_drop]; omega) htail
          exact ⟨out, hout, hends.cons hrespond⟩

/-! ## All reads -/

/-- How `authenticate` ends on such a stream. -/
inductive AuthenticateEnds (auth : BackendAuthenticator) (writeOk : Bool) (s : AuthState)
    (reqs : List AuthRequest) (after : List UInt8) : Awaited (List UInt8) → Prop where
  | returned {rest : List UInt8} {later : List ReadEvent} {s' : AuthState}
      (hreplies : auth.replies writeOk s reqs = .ok s') (hrest : rest ++ dataOf later = after) :
      AuthenticateEnds auth writeOk s reqs after (.returned rest later)
  | failed {e : StartupError} (hreplies : auth.replies writeOk s reqs = .error e) :
      AuthenticateEnds auth writeOk s reqs after (.failed e)

theorem dataOf_map_data (chunks : List (List UInt8)) :
    dataOf (chunks.map .data) = chunks.flatten := by
  induction chunks with
  | nil => rfl
  | cons chunk chunks ih => rw [List.map_cons, dataOf, ih, List.flatten_cons]

theorem authenticateSent_ends (auth : BackendAuthenticator) (writeOk : Bool) (s : AuthState)
    {chunks : List (List UInt8)}
    (h : Sends ov (pending ++ chunks.flatten) reqs after) :
    ∃ result, auth.authenticateSent ov writeOk (chunks.map .data) pending s =
        .ok (result, auth.written writeOk s reqs) ∧
      AuthenticateEnds auth writeOk s reqs after result := by
  induction chunks generalizing pending s reqs with
  | nil =>
    obtain ⟨out, hout, hends⟩ := handleRequestsSent_ends auth writeOk s le_rfl h
    rw [List.map_nil, authenticateSent, hout, Rust.ok_bind]
    cases hends with
    | done hreplies hrest => exact ⟨_, rfl, .returned hreplies hrest⟩
    | failed hreplies => exact ⟨_, rfl, .failed hreplies⟩
    | more hnone hsends _ _ =>
      -- everything has been read, so a request would have been found
      obtain ⟨req, n, hfound⟩ := hsends.found
      rw [List.flatten_nil, List.append_nil, hnone] at hfound
      cases hfound
  | cons chunk chunks ih =>
    obtain ⟨out, hout, hends⟩ := handleRequestsSent_ends auth writeOk s le_rfl h
    rw [List.map_cons, authenticateSent, hout, Rust.ok_bind]
    cases hends with
    | done hreplies hrest =>
      refine ⟨_, rfl, .returned hreplies ?_⟩
      rw [← List.map_cons, dataOf_map_data]
      exact hrest
    | failed hreplies => exact ⟨_, rfl, .failed hreplies⟩
    | more hnone hsends hreplies hwritten =>
      -- the read goes behind what is left of the buffer
      rw [List.flatten_cons, ← List.append_assoc] at hsends
      obtain ⟨result, hresult, hrest⟩ := ih _ hsends
      rw [hwritten] at hresult
      refine ⟨result, hresult, ?_⟩
      cases hrest with
      | returned h hrest => exact .returned (hreplies.symm.trans h) hrest
      | failed h => exact .failed (hreplies.symm.trans h)

/-- However a stream of well-formed requests, AuthenticationOk and further bytes is cut into what
    was read before and the reads to come, the same answers are written; `authenticate` returns
    if and only if all requests can be answered, and then what it returns and what it has not read
    are the further bytes. -/
theorem authentication_loses_nothing (ov : Overflow) (auth : BackendAuthenticator) (writeOk : Bool)
    (s : AuthState) (reqs : List AuthRequest) (hreqs : ∀ req ∈ reqs, req ≠ .ok ∧ req.WellFormed)
    (after : List UInt8) :
    ∃ sent, ∀ (initial : List UInt8) (chunks : List (List UInt8)),
      initial ++ chunks.flatten = encodeAll (reqs.map AuthRequest.frame) ++ (buildAuthOk ++ after) →
        ∃ result, auth.authenticateSent ov writeOk (chunks.map .data) initial s = .ok (result, sent) ∧
          (∀ rest later, result = .returned rest later → rest ++ dataOf later = after) ∧
          ((∃ rest later, result = .returned rest later) ↔
            ∃ s', auth.replies writeOk s reqs = .ok s') := by
  refine ⟨auth.written writeOk s reqs, fun initial chunks hstream => ?_⟩
  have hsends := sends_frames ov hreqs after
  rw [← hstream] at hsends
  obtain ⟨result, hresult, hends⟩ := authenticateSent_ends auth writeOk s hsends
  refine ⟨result, hresult, ?_⟩
  cases hends with
  | returned hreplies hrest =>
    refine ⟨fun rest later h => ?_, fun _ => ⟨_, hreplies⟩, fun _ => ⟨_, _, rfl⟩⟩
    cases h
    exact hrest
  | failed hreplies =>
    refine ⟨nofun, nofun, ?_⟩
    rintro ⟨s', h⟩
    rw [hreplies] at h
    cases h

/-- Requests of a SCRAM exchange. -/
def scramExchange : List AuthRequest :=
  [.sasl [scramSha256], .saslContinue [1], .saslFinal [2]]

theorem scramExchange_wellFormed : ∀ req ∈ scramExchange, req ≠ .ok ∧ req.WellFormed := by
  have hsasl : AuthRequest.WellFormed (.sasl [scramSha256]) := by
    refine ⟨by decide, nofun, ?_⟩
    intro mechanisms h
    cases h
    decide
  have hcontinue : AuthRequest.WellFormed (.saslContinue [1]) := ⟨by decide, nofun, nofun⟩
  have hfinal : AuthRequest.WellFormed (.saslFinal [2]) := ⟨by decide, nofun, nofun⟩
  simp [scramExchange, hsasl, hcontinue, hfinal]

/-- A client that takes every server for the right one. -/
def trustingAuth : BackendAuthenticator := ⟨[], id, ⟨[], fun _ data => some data, fun _ _ => true⟩⟩

theorem scram_exchange_loses_nothing :
    ∃ sent, ∀ (initial : List UInt8) (chunks : List (List UInt8)),
      initial ++ chunks.flatten =
          encodeAll (scramExchange.map AuthRequest.frame) ++ (buildAuthOk ++ [90]) →
        ∃ rest later, trustingAuth.authenticateSent .checked true (chunks.map .data) initial
            ⟨none, []⟩ = .ok (.returned rest later, sent) ∧ rest ++ dataOf later = [90] := by
  obtain ⟨sent, h⟩ := authentication_loses_nothing .checked trustingAuth true ⟨none, []⟩
    scramExchange scramExchange_wellFormed [90]
  refine ⟨sent, fun initial chunks hstream => ?_⟩
  obtain ⟨result, hresult, hrest, hreturns⟩ := h initial chunks hstream
  obtain ⟨rest, later, rfl⟩ := hreturns.2 ⟨_, rfl⟩
  exact ⟨rest, later, hresult, hrest rest later rfl⟩

end BackendAuthenticator

end ScryProxy
